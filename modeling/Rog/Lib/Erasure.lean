import Rog.Lib.Machine

/-!
# Silent labels

Some labels of a machine may be left out of a run without a difference to what is observed of the
others. The two runs are kept in a relation that may look at the labels still to come, since what
a silent label takes away may be something that only an earlier label would have needed.
-/

namespace Rog.Lib

variable {σ α β : Type*}

/-- The second list is the first without some of its silent labels. -/
inductive Erases (silent : α → Prop) : List α → List α → Prop where
  | nil : Erases silent [] []
  | keep (a : α) {as bs : List α} (h : Erases silent as bs) : Erases silent (a :: as) (a :: bs)
  | drop {a : α} {as bs : List α} (ha : silent a) (h : Erases silent as bs) :
      Erases silent (a :: as) bs

namespace Machine

variable {M : Machine σ α}

variable (M) in
/-- What is observed of the labels of a run, as far as they are enabled. -/
def trace (observe : σ → α → Option β) (s : σ) : List α → List β
  | [] => []
  | a :: as =>
      match M.step s a with
      | none => []
      | some t => (observe s a).toList ++ trace observe t as

theorem trace_cons {observe : σ → α → Option β} {s t : σ} {a : α} (h : M.step s a = some t)
    (as : List α) : M.trace observe s (a :: as) =
      (observe s a).toList ++ M.trace observe t as := by
  rw [trace, h]

/-- The simulation rule for runs without their silent labels. -/
theorem run_erases {silent : α → Prop} {observe : σ → α → Option β}
    {R : List α → σ → σ → Prop}
    (hkeep : ∀ a as s s' t, R (a :: as) s s' → M.step s a = some t →
      ∃ t', M.step s' a = some t' ∧ observe s' a = observe s a ∧ R as t t')
    (hdrop : ∀ a as s s' t, silent a → R (a :: as) s s' → M.step s a = some t →
      observe s a = none ∧ R as t s')
    {as bs : List α} (h : Erases silent as bs) {s s' t : σ} (hs : R as s s')
    (hrun : M.run s as = some t) :
    ∃ t', M.run s' bs = some t' ∧ M.trace observe s' bs = M.trace observe s as ∧ R [] t t' := by
  induction h generalizing s s' with
  | nil =>
      obtain rfl : s = t := by simpa using hrun
      exact ⟨s', rfl, rfl, hs⟩
  | keep a _ ih =>
      obtain ⟨u, hu, hrest⟩ := M.run_cons_some hrun
      obtain ⟨u', hu', hobserve, hR⟩ := hkeep _ _ _ _ _ hs hu
      obtain ⟨t', hrun', htrace, ht'⟩ := ih hR hrest
      refine ⟨t', ?_, ?_, ht'⟩
      · rw [run_cons, hu']
        exact hrun'
      · rw [trace_cons hu, trace_cons hu', hobserve, htrace]
  | drop ha _ ih =>
      obtain ⟨u, hu, hrest⟩ := M.run_cons_some hrun
      obtain ⟨hobserve, hR⟩ := hdrop _ _ _ _ _ ha hs hu
      obtain ⟨t', hrun', htrace, ht'⟩ := ih hR hrest
      refine ⟨t', hrun', ?_, ht'⟩
      rw [trace_cons hu, hobserve, htrace]
      rfl

end Machine

end Rog.Lib
