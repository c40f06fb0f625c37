import Mathlib.Data.List.Basic

/-!
# One-way pipelines

A pipeline takes items in at one end and delivers them at the other, in order. `sent` is
what was put in, `delivered` what came out and `transit` what is on its way, the next item
to be delivered first. As long as the pipeline is intact nothing that was sent is missing;
it stops being intact when its tail is dropped at the sending end, and nothing is sent from
then on. Once the receiving end has stopped nothing more is delivered, and what is still on
its way does not matter.

Whatever the two ends do, in any order, what is delivered is a prefix of what was sent.
-/

namespace Rog.Lib

variable {α : Type*}

structure Pipeline (sent delivered transit : List α) (intact receiving : Prop) : Prop where
  delivered_prefix : delivered <+: sent
  transit_prefix : receiving → delivered ++ transit <+: sent
  lossless : intact → receiving → delivered ++ transit = sent

namespace Pipeline

variable {sent delivered transit : List α} {intact receiving : Prop}

theorem start (xs : List α) (intact receiving : Prop) :
    Pipeline xs xs [] intact receiving := by
  refine ⟨List.prefix_refl xs, ?_, ?_⟩ <;> simp

theorem send (h : Pipeline sent delivered transit intact receiving) (hi : intact)
    (xs : List α) : Pipeline (sent ++ xs) delivered (transit ++ xs) intact receiving := by
  have hall : receiving → delivered ++ (transit ++ xs) = sent ++ xs := by
    intro hr
    rw [← List.append_assoc, h.lossless hi hr]
  refine ⟨h.delivered_prefix.trans (List.prefix_append sent xs), ?_, fun _ ↦ hall⟩
  intro hr
  exact ⟨[], by rw [List.append_nil, hall hr]⟩

theorem deliver {xs : List α} (h : Pipeline sent delivered (xs ++ transit) intact receiving)
    (hr : receiving) : Pipeline sent (delivered ++ xs) transit intact receiving := by
  have hfront := h.transit_prefix hr
  rw [← List.append_assoc] at hfront
  refine ⟨(List.prefix_append _ transit).trans hfront, fun _ ↦ hfront, ?_⟩
  intro hi _
  rw [List.append_assoc]
  exact h.lossless hi hr

theorem dropTail {xs : List α} (h : Pipeline sent delivered (transit ++ xs) intact receiving)
    {intact' : Prop} (hi : ¬ intact') : Pipeline sent delivered transit intact' receiving := by
  refine ⟨h.delivered_prefix, ?_, fun hi' ↦ absurd hi' hi⟩
  intro hr
  have hfront := h.transit_prefix hr
  rw [← List.append_assoc] at hfront
  exact (List.prefix_append _ xs).trans hfront

theorem stop (h : Pipeline sent delivered transit intact receiving) (transit' : List α)
    {intact' receiving' : Prop} (hr : ¬ receiving') :
    Pipeline sent delivered transit' intact' receiving' :=
  ⟨h.delivered_prefix, fun hr' ↦ absurd hr' hr, fun _ hr' ↦ absurd hr' hr⟩

theorem mono (h : Pipeline sent delivered transit intact receiving) {transit' : List α}
    {intact' receiving' : Prop} (ht : transit' = transit) (hi : intact' → intact)
    (hr : receiving' → receiving) : Pipeline sent delivered transit' intact' receiving' := by
  subst ht
  exact ⟨h.delivered_prefix, fun hr' ↦ h.transit_prefix (hr hr'),
    fun hi' hr' ↦ h.lossless (hi hi') (hr hr')⟩

end Pipeline

end Rog.Lib
