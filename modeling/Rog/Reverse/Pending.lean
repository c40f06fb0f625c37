import Rog.Reverse.System

/-!
# The pending tables

The sending end of a one-shot channel is never copied: it lies in one entry of a table, or is
held by the one incoming call that has claimed the entry. From this it follows that an entry
belongs to a call that has not returned, whatever the other calls do.
-/

namespace Rog

open Lib

namespace CallPc

variable {ν μ : Type}

/-- The call has not inserted its entry yet. -/
def Early : CallPc ν μ → Prop
  | .idle | .lookup _ | .insert _ _ => True
  | _ => False

/-- The call has inserted its entry, and comes to remove it unless it is delivered to. -/
def Waits : CallPc ν μ → Prop
  | .send _ _ | .wait | .elapsed | .remove _ => True
  | _ => False

def InProgress : CallPc ν μ → Prop
  | .idle | .returned _ => False
  | _ => True

theorem Waits.inProgress {pc : CallPc ν μ} (h : pc.Waits) : pc.InProgress := by
  cases pc <;> trivial

end CallPc

/-- The incoming call holds the entry that it has claimed. -/
def IncomingPc.Holds : IncomingPc → Prop
  | .check | .deliver => True
  | _ => False

/-- What the local variables of an incoming call are at each point. -/
structure Incoming.Wf {κ : Type} (x : Incoming κ) : Prop where
  unclaimed : x.pc = .idle ∨ x.pc = .first ∨ x.pc = .claim → x.pending = none
  message : x.pc = .claim ∨ x.pending.isSome →
    ∃ msg id, x.firstMsg = some msg ∧ msg.connId = some id ∧ id ≠ ""

section Moves

variable {κ ν μ : Type} [DecidableEq κ]

theorem IncomingMove.wf {v : IncomingKind κ ν} {i : ν} {s s' : RevGrpcState κ ν μ}
    {x x' : Incoming κ} {e : IncomingEvent} (h : IncomingMove v i s x e s' x') (hx : x.Wf) :
    x'.Wf := by
  cases h with
  | accept hpc => exact ⟨fun _ ↦ hx.unclaimed (by simp [hpc]), by simp [hx.unclaimed, hpc]⟩
  | message msg id hpc hid hne =>
      exact ⟨fun _ ↦ hx.unclaimed (by simp [hpc]), fun _ ↦ ⟨msg, id, rfl, hid, hne⟩⟩
  | missingConnId msg e hpc => exact ⟨by simp, by simp [hx.unclaimed, hpc]⟩
  | noMessage received e hpc => exact ⟨by simp, by simp [hx.unclaimed, hpc]⟩
  | claimed msg p hpc hmsg => exact ⟨by simp, fun _ ↦ hx.message (.inl hpc)⟩
  | notFound msg hpc hmsg => exact ⟨by simp, fun _ ↦ hx.message (.inl hpc)⟩
  | refused msg p pw hpc hmsg hpending =>
      exact ⟨by simp, fun _ ↦ hx.message (.inr (by simp [hpending]))⟩
  | passed msg p hpc hmsg hpending =>
      exact ⟨by simp, fun _ ↦ hx.message (.inr (by simp [hpending]))⟩
  | delivered msg p hpc hmsg hpending =>
      exact ⟨by simp, fun _ ↦ hx.message (.inr (by simp [hpending]))⟩
  | undelivered msg p hpc hmsg hpending =>
      exact ⟨by simp, fun _ ↦ hx.message (.inr (by simp [hpending]))⟩

/-- What a move of an incoming call does, unless it claims an entry. -/
structure IncomingKept (k : Kind) (s s' : RevGrpcState κ ν μ) (x x' : Incoming κ) : Prop where
  table : s'.pending = s.pending
  oneshot : ∀ y, s'.oneshot y = s.oneshot y ∨
    ∃ p, x.pending = some p ∧ x.pc.Holds ∧ y = (k, p.tx) ∧ ¬x'.pc.Holds
  pending : x'.pending = x.pending
  firstMsg : x.pending.isSome → x'.firstMsg = x.firstMsg
  holds : x'.pc.Holds → x.pc.Holds

theorem IncomingMove.kept_or_claimed {v : IncomingKind κ ν} {i : ν} {s s' : RevGrpcState κ ν μ}
    {x x' : Incoming κ} {e : IncomingEvent} (h : IncomingMove v i s x e s' x') (hx : x.Wf) :
    IncomingKept v.kind s s' x x' ∨ ∃ msg p, x.pc = .claim ∧ x.firstMsg = some msg ∧
      s.pending (v.kind, msg.connId.getD "") = some p ∧
      s' = s.take v.kind (msg.connId.getD "") ∧ x' = { x with pending := some p, pc := .check } := by
  have hrelease {p : PendingConn κ} (o : Oneshot (Delivered ν)) (y : Kind × κ)
      (hpending : x.pending = some p) (hholds : x.pc.Holds) {pc : IncomingPc} (hpc : ¬pc.Holds) :
      (s.setOneshot v.kind p.tx o).oneshot y = s.oneshot y ∨
        ∃ p, x.pending = some p ∧ x.pc.Holds ∧ y = (v.kind, p.tx) ∧ ¬pc.Holds := by
    by_cases hy : y = (v.kind, p.tx)
    · exact .inr ⟨p, hpending, hholds, hy, hpc⟩
    · exact .inl (Function.update_of_ne hy _ _)
  cases h with
  | claimed msg p hpc hmsg hentry => exact .inr ⟨msg, p, hpc, hmsg, hentry, rfl, rfl⟩
  | message msg id hpc hid =>
      have hnone := hx.unclaimed (by simp [hpc])
      exact .inl ⟨rfl, fun _ ↦ .inl rfl, rfl, by simp [hnone], by simp [IncomingPc.Holds]⟩
  | missingConnId msg e hpc =>
      have hnone := hx.unclaimed (by simp [hpc])
      exact .inl ⟨rfl, fun _ ↦ .inl rfl, rfl, by simp [hnone], by simp [IncomingPc.Holds]⟩
  | refused msg p pw hpc hmsg hpending =>
      have hholds : x.pc.Holds := by simp [hpc, IncomingPc.Holds]
      refine .inl ⟨rfl, fun y ↦ ?_, rfl, fun _ ↦ rfl, by simp [IncomingPc.Holds]⟩
      exact hrelease _ y hpending hholds (by simp [IncomingPc.Holds])
  | delivered msg p hpc hmsg hpending =>
      have hholds : x.pc.Holds := by simp [hpc, IncomingPc.Holds]
      refine .inl ⟨rfl, fun y ↦ ?_, rfl, fun _ ↦ rfl, by simp [IncomingPc.Holds]⟩
      exact hrelease _ y hpending hholds (by simp [IncomingPc.Holds])
  | passed msg p hpc =>
      exact .inl ⟨rfl, fun _ ↦ .inl rfl, rfl, fun _ ↦ rfl, by simp [hpc, IncomingPc.Holds]⟩
  | _ => exact .inl ⟨rfl, fun _ ↦ .inl rfl, rfl, fun _ ↦ rfl, by simp [IncomingPc.Holds]⟩

/-- What a move of a call does, unless it inserts or removes its entry. -/
structure CallKept (k : Kind) (c : κ) (s s' : RevGrpcState κ ν μ) (x x' : Call ν μ) : Prop where
  table : s'.pending = s.pending
  oneshot : ∀ y, s'.oneshot y = s.oneshot y ∨ s'.oneshot y = .gone
  connId : x'.connId = x.connId
  pw : ¬x.pc.Early → x'.cfg.pw = x.cfg.pw
  early : x'.pc.Early → x.pc.Early
  waits : x.pc.Waits → (s.oneshot (k, c)).Unsent → x'.pc.Waits
  received : ∀ d, x'.pc = .returned (.ok d) → s.oneshot (k, c) = .sent d

theorem CallMove.kept [DecidableEq μ] {k : Kind} {c : κ} {s s' : RevGrpcState κ ν μ}
    {x x' : Call ν μ} {e : CallEvent} (h : CallMove k c s x e s' x')
    (hinsert : ∀ id, e ≠ .insert id) (hremove : e ≠ .remove) : CallKept k c s s' x x' := by
  have hgone (y : Kind × κ) : (s.setOneshot k c .gone).oneshot y = s.oneshot y ∨
      (s.setOneshot k c .gone).oneshot y = .gone := by
    by_cases hy : y = (k, c)
    · exact .inr (by simp [RevGrpcState.setOneshot, hy])
    · exact .inl (Function.update_of_ne hy _ _)
  cases h with
  | insert id => exact absurd rfl (hinsert id)
  | remove => exact absurd rfl hremove
  | received d hpc hsent =>
      exact ⟨rfl, hgone, rfl, fun _ ↦ rfl, by simp [CallPc.Early],
        fun _ hunsent ↦ absurd hsent (hunsent.ne_sent d), by simpa using hsent⟩
  | channelClosed e hpc hclosed =>
      exact ⟨rfl, hgone, rfl, fun _ ↦ rfl, by simp [CallPc.Early], by simp [CallPc.Waits], by simp⟩
  | dropRx e hpc =>
      exact ⟨rfl, hgone, rfl, fun _ ↦ rfl, by simp [CallPc.Early], by simp [CallPc.Waits], by simp⟩
  | leave e hpc =>
      exact ⟨rfl, hgone, rfl, fun _ ↦ rfl, by simp [CallPc.Early], by simp [hpc, CallPc.Waits],
        by simp⟩
  | _ =>
      refine ⟨rfl, fun _ ↦ .inl rfl, rfl, ?_, ?_, ?_, ?_⟩ <;>
        simp_all [CallPc.Early, CallPc.Waits]

end Moves

/-! ## Where the sending ends are -/

namespace RevSystem

variable {κ ν μ : Type}

/-- The sending end of each channel is in one place. -/
structure Linear (s : RevSystem κ ν μ) : Prop where
  wf : ∀ y, (s.incoming y).Wf
  early : ∀ y, (s.call y).pc.Early → (s.call y).connId = none
  entry : ∀ k id p, s.state.pending (k, id) = some p →
    (s.call (k, p.tx)).connId = some id ∧ (s.call (k, p.tx)).pc.Waits ∧
      p.pw = (s.call (k, p.tx)).cfg.pw ∧ (s.state.oneshot (k, p.tx)).Unsent
  claimed : ∀ k i p, (s.incoming (k, i)).pending = some p →
    ∃ msg id, (s.incoming (k, i)).firstMsg = some msg ∧ msg.connId = some id ∧
      (s.call (k, p.tx)).connId = some id ∧ p.pw = (s.call (k, p.tx)).cfg.pw
  claimed_entry : ∀ k i p id q, (s.incoming (k, i)).pending = some p →
    s.state.pending (k, id) = some q → q.tx ≠ p.tx
  claimed_once : ∀ k i j p q, (s.incoming (k, i)).pending = some p →
    (s.incoming (k, j)).pending = some q → p.tx = q.tx → i = j
  holds : ∀ k i p, (s.incoming (k, i)).pc.Holds → (s.incoming (k, i)).pending = some p →
    (s.state.oneshot (k, p.tx)).Unsent

namespace Linear

theorem of_new : Linear (new : RevSystem κ ν μ) where
  wf _ := ⟨fun _ ↦ rfl, by simp [new, Incoming.new]⟩
  early _ _ := rfl
  entry _ _ _ h := by simp [new, RevGrpcState.new] at h
  claimed _ _ _ h := by simp [new, Incoming.new] at h
  claimed_entry _ _ _ _ _ h := by simp [new, Incoming.new] at h
  claimed_once _ _ _ _ _ h := by simp [new, Incoming.new] at h
  holds _ _ _ h := by simp [new, Incoming.new, IncomingPc.Holds] at h

variable {s : RevSystem κ ν μ}

/-- The owner of an entry has a `conn_id`, hence is past its insertion. -/
theorem not_early_of_entry (hs : s.Linear) {k : Kind} {id : String} {p : PendingConn κ}
    (h : s.state.pending (k, id) = some p) : ¬(s.call (k, p.tx)).pc.Early := by
  intro hearly
  simpa [hs.early _ hearly] using (hs.entry k id p h).1

theorem not_early_of_claimed (hs : s.Linear) {k : Kind} {i : ν} {p : PendingConn κ}
    (h : (s.incoming (k, i)).pending = some p) : ¬(s.call (k, p.tx)).pc.Early := by
  intro hearly
  obtain ⟨msg, id, -, -, hid, -⟩ := hs.claimed k i p h
  simp [hs.early _ hearly] at hid

theorem entry_unique (hs : s.Linear) {k : Kind} {id id' : String} {p q : PendingConn κ}
    (hp : s.state.pending (k, id) = some p) (hq : s.state.pending (k, id') = some q)
    (htx : p.tx = q.tx) : id = id' := by
  have hid := (hs.entry k id p hp).1
  have hid' := (hs.entry k id' q hq).1
  rw [htx, hid'] at hid
  exact (Option.some.inj hid).symm

section Incoming

variable [DecidableEq ν]

theorem incoming_kept {k : Kind} {i : ν} {state : RevGrpcState κ ν μ} {x : Incoming κ}
    (hs : s.Linear) (hx : x.Wf)
    (h : IncomingKept k s.state state (s.incoming (k, i)) x) :
    Linear ⟨state, s.call, Function.update s.incoming (k, i) x, s.session⟩ := by
  have hpending (y : Kind × ν) :
      (Function.update s.incoming (k, i) x y).pending = (s.incoming y).pending := by
    by_cases hy : y = (k, i)
    · subst hy
      simpa using h.pending
    · simp [hy]
  refine ⟨?_, hs.early, ?_, ?_, ?_, ?_, ?_⟩
  · intro y
    by_cases hy : y = (k, i)
    · subst hy
      simpa using hx
    · simpa [hy] using hs.wf y
  · intro k' id p hp
    rw [h.table] at hp
    obtain ⟨hid, hwaits, hpw, hopen⟩ := hs.entry k' id p hp
    refine ⟨hid, hwaits, hpw, ?_⟩
    obtain hsame | ⟨q, hq, -, hy, -⟩ := h.oneshot (k', p.tx)
    · rwa [hsame]
    · obtain ⟨rfl, htx⟩ := Prod.mk.inj hy
      exact absurd htx (hs.claimed_entry k' i q id p hq hp)
  · intro k' j p hp
    rw [hpending] at hp
    obtain ⟨msg, id, hmsg, hrest⟩ := hs.claimed k' j p hp
    refine ⟨msg, id, ?_, hrest⟩
    by_cases hy : (k', j) = (k, i)
    · obtain ⟨rfl, rfl⟩ := Prod.mk.inj hy
      simpa [h.firstMsg (by simp [hp])] using hmsg
    · simpa [hy] using hmsg
  · intro k' j p id q hp hq
    rw [hpending] at hp
    rw [h.table] at hq
    exact hs.claimed_entry k' j p id q hp hq
  · intro k' j j' p q hp hq
    rw [hpending] at hp hq
    exact hs.claimed_once k' j j' p q hp hq
  · intro k' j p hholds hp
    rw [hpending] at hp
    have hheld : (s.incoming (k', j)).pc.Holds := by
      by_cases hy : (k', j) = (k, i)
      · rw [hy] at hholds ⊢
        exact h.holds (by simpa using hholds)
      · simpa [hy] using hholds
    obtain hsame | ⟨q, hq, -, hy, hreleased⟩ := h.oneshot (k', p.tx)
    · rw [hsame]
      exact hs.holds k' j p hheld hp
    · obtain ⟨rfl, htx⟩ := Prod.mk.inj hy
      obtain rfl := hs.claimed_once k' j i p q hp hq htx
      exact absurd (by simpa using hholds) hreleased

theorem incoming_claimed {k : Kind} {i : ν} {msg : FirstMsg} {p : PendingConn κ} (hs : s.Linear)
    (hpc : (s.incoming (k, i)).pc = .claim) (hmsg : (s.incoming (k, i)).firstMsg = some msg)
    (hentry : s.state.pending (k, msg.connId.getD "") = some p) :
    Linear ⟨s.state.take k (msg.connId.getD ""), s.call,
      Function.update s.incoming (k, i)
        { s.incoming (k, i) with pending := some p, pc := .check },
      s.session⟩ := by
  obtain ⟨msg', id, hmsg', hid, hne⟩ := (hs.wf (k, i)).message (.inl hpc)
  obtain rfl : msg = msg' := Option.some.inj (hmsg.symm.trans hmsg')
  rw [hid, Option.getD_some] at hentry ⊢
  obtain ⟨hcall, hwaits, hpw, hopen⟩ := hs.entry k id p hentry
  have htable {k' : Kind} {id' : String} {q : PendingConn κ}
      (hq : (s.state.take k id).pending (k', id') = some q) :
      (k', id') ≠ (k, id) ∧ s.state.pending (k', id') = some q := by
    by_cases hkey : (k', id') = (k, id)
    · simp [RevGrpcState.take, hkey] at hq
    · exact ⟨hkey, by simpa [RevGrpcState.take, hkey] using hq⟩
  refine ⟨?_, hs.early, ?_, ?_, ?_, ?_, ?_⟩
  · intro y
    by_cases hy : y = (k, i)
    · subst hy
      simp only [Function.update_self]
      exact ⟨by simp, fun _ ↦ ⟨msg, id, hmsg, hid, hne⟩⟩
    · simpa [hy] using hs.wf y
  · intro k' id' q hq
    exact hs.entry k' id' q (htable hq).2
  · intro k' j q hq
    by_cases hy : (k', j) = (k, i)
    · obtain ⟨rfl, rfl⟩ := Prod.mk.inj hy
      obtain rfl : p = q := by simpa using hq
      exact ⟨msg, id, by simpa using hmsg, hid, hcall, hpw⟩
    · simp only [Function.update_of_ne hy] at hq ⊢
      exact hs.claimed k' j q hq
  · intro k' j q id' r hq hr
    obtain ⟨hkey, hold⟩ := htable hr
    by_cases hy : (k', j) = (k, i)
    · obtain ⟨rfl, rfl⟩ := Prod.mk.inj hy
      obtain rfl : p = q := by simpa using hq
      exact fun htx ↦ hkey (by rw [hs.entry_unique hold hentry htx])
    · simp only [Function.update_of_ne hy] at hq
      exact hs.claimed_entry k' j q id' r hq hold
  · intro k' j j' q r hq hr htx
    by_cases hy : (k', j) = (k, i) <;> by_cases hy' : (k', j') = (k, i)
    · exact (Prod.mk.inj (hy.trans hy'.symm)).2
    · simp only [hy, Function.update_self, Option.some.injEq] at hq
      simp only [Function.update_of_ne hy'] at hr
      subst hq
      obtain rfl := (Prod.mk.inj hy).1
      exact absurd htx (hs.claimed_entry k' j' r id p hr hentry)
    · simp only [hy', Function.update_self, Option.some.injEq] at hr
      simp only [Function.update_of_ne hy] at hq
      subst hr
      obtain rfl := (Prod.mk.inj hy').1
      exact absurd htx.symm (hs.claimed_entry k' j q id p hq hentry)
    · simp only [Function.update_of_ne hy] at hq
      simp only [Function.update_of_ne hy'] at hr
      exact hs.claimed_once k' j j' q r hq hr htx
  · intro k' j q hholds hq
    by_cases hy : (k', j) = (k, i)
    · obtain ⟨rfl, rfl⟩ := Prod.mk.inj hy
      obtain rfl : p = q := by simpa using hq
      exact hopen
    · simp only [Function.update_of_ne hy] at hholds hq
      exact hs.holds k' j q hholds hq

end Incoming

variable [DecidableEq κ]

theorem call_kept {k : Kind} {c : κ} {state : RevGrpcState κ ν μ} {x : Call ν μ}
    (hs : s.Linear) (h : CallKept k c s.state state (s.call (k, c)) x) :
    Linear ⟨state, Function.update s.call (k, c) x, s.incoming, s.session⟩ := by
  have hunsent (y : Kind × κ) (hy : (s.state.oneshot y).Unsent) : (state.oneshot y).Unsent := by
    obtain hsame | hgone := h.oneshot y
    · rwa [hsame]
    · simp [hgone, Oneshot.Unsent]
  have hconnId (y : Kind × κ) :
      (Function.update s.call (k, c) x y).connId = (s.call y).connId := by
    by_cases hy : y = (k, c)
    · subst hy
      simpa using h.connId
    · simp [hy]
  have hpw (y : Kind × κ) (hearly : ¬(s.call y).pc.Early) :
      (Function.update s.call (k, c) x y).cfg.pw = (s.call y).cfg.pw := by
    by_cases hy : y = (k, c)
    · subst hy
      simpa using h.pw hearly
    · simp [hy]
  refine ⟨hs.wf, ?_, ?_, ?_, ?_, hs.claimed_once, ?_⟩
  · intro y hearly
    rw [hconnId]
    by_cases hy : y = (k, c)
    · subst hy
      exact hs.early _ (h.early (by simpa using hearly))
    · exact hs.early y (by simpa [hy] using hearly)
  · intro k' id p hp
    rw [h.table] at hp
    obtain ⟨hid, hwaits, hpws, hopen⟩ := hs.entry k' id p hp
    refine ⟨by rw [hconnId, hid], ?_, by rw [hpw _ (hs.not_early_of_entry hp), hpws],
      hunsent _ hopen⟩
    by_cases hy : (k', p.tx) = (k, c)
    · rw [hy] at hwaits hopen ⊢
      simpa using h.waits hwaits hopen
    · simpa [hy] using hwaits
  · intro k' i p hp
    obtain ⟨msg, id, hmsg, hid, hcall, hpws⟩ := hs.claimed k' i p hp
    exact ⟨msg, id, hmsg, hid, by rw [hconnId, hcall],
      by rw [hpw _ (hs.not_early_of_claimed hp), hpws]⟩
  · intro k' i p id q hp hq
    rw [h.table] at hq
    exact hs.claimed_entry k' i p id q hp hq
  · intro k' i p hholds hp
    exact hunsent _ (hs.holds k' i p hholds hp)

theorem call_insert {k : Kind} {c : κ} {id : String} {addr : Option (String × UInt16)} {m : μ}
    (req : ManagerRes) (hs : s.Linear) (hpc : (s.call (k, c)).pc = .insert addr m) :
    Linear ⟨(s.state.setOneshot k c .empty).insert k id ⟨c, addr, (s.call (k, c)).cfg.pw⟩,
      Function.update s.call (k, c)
        { s.call (k, c) with connId := some id, pc := .send m req },
      s.incoming, s.session⟩ := by
  have hearly : (s.call (k, c)).pc.Early := by simp [hpc, CallPc.Early]
  have hentry {k' : Kind} {id' : String} {p : PendingConn κ}
      (hp : s.state.pending (k', id') = some p) : (k', p.tx) ≠ (k, c) := by
    intro hy
    exact hs.not_early_of_entry hp (by rwa [hy])
  have hclaimed {k' : Kind} {i : ν} {p : PendingConn κ}
      (hp : (s.incoming (k', i)).pending = some p) : (k', p.tx) ≠ (k, c) := by
    intro hy
    exact hs.not_early_of_claimed hp (by rwa [hy])
  -- the entry that is overwritten, if any, is seen by its own call only
  have honeshot {y : Kind × κ} (hy : y ≠ (k, c))
      (hold : ∀ p, s.state.pending (k, id) = some p → y ≠ (k, p.tx)) :
      (((s.state.setOneshot k c .empty).insert k id
        ⟨c, addr, (s.call (k, c)).cfg.pw⟩).oneshot y) = s.state.oneshot y := by
    calc ((s.state.setOneshot k c .empty).remove k id).oneshot y
        = (s.state.setOneshot k c .empty).oneshot y := RevGrpcState.oneshot_remove_of_ne hold
      _ = s.state.oneshot y := Function.update_of_ne hy _ _
  have hopen : (((s.state.setOneshot k c .empty).insert k id
      ⟨c, addr, (s.call (k, c)).cfg.pw⟩).oneshot (k, c)) = .empty := by
    calc ((s.state.setOneshot k c .empty).remove k id).oneshot (k, c)
        = (s.state.setOneshot k c .empty).oneshot (k, c) :=
          RevGrpcState.oneshot_remove_of_ne fun _ hp ↦ (hentry hp).symm
      _ = .empty := Function.update_self _ _ _
  refine ⟨hs.wf, ?_, ?_, ?_, ?_, hs.claimed_once, ?_⟩
  · intro y hy
    by_cases hyc : y = (k, c)
    · subst hyc
      simp [CallPc.Early] at hy
    · dsimp only at hy ⊢
      rw [Function.update_of_ne hyc] at hy ⊢
      exact hs.early y hy
  · intro k' id' p hp
    by_cases hkey : (k', id') = (k, id)
    · obtain ⟨rfl, rfl⟩ := Prod.mk.inj hkey
      obtain rfl : ⟨c, addr, (s.call (k', c)).cfg.pw⟩ = p := by
        simpa [RevGrpcState.insert] using hp
      dsimp only
      rw [Function.update_self, hopen]
      exact ⟨rfl, trivial, rfl, trivial⟩
    · have hp' : s.state.pending (k', id') = some p := by
        simpa [RevGrpcState.insert, RevGrpcState.setOneshot, hkey] using hp
      dsimp only
      rw [Function.update_of_ne (hentry hp'), honeshot (hentry hp')]
      · exact hs.entry k' id' p hp'
      · intro q hq hy
        obtain ⟨rfl, htx⟩ := Prod.mk.inj hy
        exact hkey (by rw [hs.entry_unique hp' hq htx])
  · intro k' i p hp
    dsimp only
    rw [Function.update_of_ne (hclaimed hp)]
    exact hs.claimed k' i p hp
  · intro k' i p id' q hp hq
    by_cases hkey : (k', id') = (k, id)
    · obtain ⟨rfl, rfl⟩ := Prod.mk.inj hkey
      obtain rfl : ⟨c, addr, (s.call (k', c)).cfg.pw⟩ = q := by
        simpa [RevGrpcState.insert] using hq
      exact fun htx ↦ hclaimed hp (by rw [← htx])
    · have hq' : s.state.pending (k', id') = some q := by
        simpa [RevGrpcState.insert, RevGrpcState.setOneshot, hkey] using hq
      exact hs.claimed_entry k' i p id' q hp hq'
  · intro k' i p hholds hp
    rw [honeshot (hclaimed hp)]
    · exact hs.holds k' i p hholds hp
    · intro q hq hy
      obtain ⟨rfl, htx⟩ := Prod.mk.inj hy
      exact hs.claimed_entry k' i p id q hp hq htx.symm

theorem call_remove {k : Kind} {c : κ} {id : String} {e : IoError} (hs : s.Linear)
    (hconnId : (s.call (k, c)).connId = some id) :
    Linear ⟨s.state.remove k id,
      Function.update s.call (k, c) { s.call (k, c) with pc := .leave e },
      s.incoming, s.session⟩ := by
  have hconnIds (y : Kind × κ) :
      (Function.update s.call (k, c) { s.call (k, c) with pc := .leave e } y).connId =
        (s.call y).connId := by
    by_cases hy : y = (k, c) <;> simp [hy]
  have hcfgs (y : Kind × κ) :
      (Function.update s.call (k, c) { s.call (k, c) with pc := .leave e } y).cfg =
        (s.call y).cfg := by
    by_cases hy : y = (k, c) <;> simp [hy]
  have hpending {k' : Kind} {id' : String} {p : PendingConn κ}
      (hp : (s.state.remove k id).pending (k', id') = some p) :
      (k', id') ≠ (k, id) ∧ s.state.pending (k', id') = some p := by
    rw [RevGrpcState.pending_remove] at hp
    by_cases hkey : (k', id') = (k, id)
    · simp [hkey] at hp
    · exact ⟨hkey, by simpa [hkey] using hp⟩
  refine ⟨hs.wf, ?_, ?_, ?_, ?_, hs.claimed_once, ?_⟩
  · intro y hy
    rw [hconnIds]
    by_cases hyc : y = (k, c)
    · subst hyc
      simp [CallPc.Early] at hy
    · exact hs.early y (by simpa [hyc] using hy)
  · intro k' id' p hp
    obtain ⟨hkey, hold⟩ := hpending hp
    obtain ⟨hid, hwaits, hpw, hopen⟩ := hs.entry k' id' p hold
    -- the entry of this very call is the one that is removed
    have hother : (k', p.tx) ≠ (k, c) := by
      intro hy
      rw [hy, hconnId] at hid
      exact hkey (by rw [(Prod.mk.inj hy).1, Option.some.inj hid])
    dsimp only
    rw [Function.update_of_ne hother, RevGrpcState.oneshot_remove_of_ne]
    · exact ⟨hid, hwaits, hpw, hopen⟩
    · intro q hq hy
      obtain ⟨rfl, htx⟩ := Prod.mk.inj hy
      exact hkey (by rw [hs.entry_unique hold hq htx])
  · intro k' i p hp
    rw [hconnIds, hcfgs]
    exact hs.claimed k' i p hp
  · intro k' i p id' q hp hq
    exact hs.claimed_entry k' i p id' q hp (hpending hq).2
  · intro k' i p hholds hp
    rw [RevGrpcState.oneshot_remove_of_ne]
    · exact hs.holds k' i p hholds hp
    · intro q hq hy
      obtain ⟨rfl, htx⟩ := Prod.mk.inj hy
      exact hs.claimed_entry k' i p id q hp hq htx.symm

variable [DecidableEq ν] [DecidableEq μ] {pwMap : String → Option (Option String)} {t : RevSystem κ ν μ}
  {e : RevEvent κ ν μ}

theorem step (hs : s.Linear) (h : (machine pwMap).step s e = some t) : t.Linear := by
  cases step_move h with
  | call k c e state x hmove =>
      cases e with
      | insert id =>
          cases hmove with
          | insert id addr m req hpc => exact hs.call_insert req hpc
      | remove =>
          cases hmove with
          | remove id e hpc hid => exact hs.call_remove hid
      | _ => exact hs.call_kept (hmove.kept (by simp) (by simp))
  | incoming k i e state x hmove =>
      have hwf := hmove.wf (hs.wf (k, i))
      obtain hkept | ⟨msg, p, hpc, hmsg, hentry, rfl, rfl⟩ := hmove.kept_or_claimed (hs.wf (k, i))
      · rw [IncomingKind.kind_of] at hkept
        exact hs.incoming_kept hwf hkept
      · rw [IncomingKind.kind_of] at hentry ⊢
        exact hs.incoming_claimed hpc hmsg hentry
  | manager m e state x hmove =>
      obtain ⟨hpending, honeshot⟩ := hmove.frame
      refine ⟨hs.wf, hs.early, ?_, hs.claimed, ?_, hs.claimed_once, ?_⟩
      · simpa only [hpending, honeshot] using hs.entry
      · simpa only [hpending] using hs.claimed_entry
      · simpa only [honeshot] using hs.holds

theorem of_reachable (h : (machine pwMap).Reachable s) : s.Linear :=
  h.invariant (fun _ hnew ↦ hnew ▸ of_new) fun _ _ _ hs hstep ↦ hs.step hstep

end Linear

variable [DecidableEq κ] [DecidableEq ν] [DecidableEq μ] {pwMap : String → Option (Option String)}

/-- The pending tables never leak: each key belongs to a call that is in progress. -/
theorem pending_of_reachable {s : RevSystem κ ν μ} (h : (machine pwMap).Reachable s) (k : Kind) :
    (∀ id p, s.state.pending (k, id) = some p →
      (s.call (k, p.tx)).connId = some id ∧ (s.call (k, p.tx)).pc.InProgress) ∧
    ((∀ c, ¬(s.call (k, c)).pc.InProgress) → ∀ id, s.state.pending (k, id) = none) := by
  have hs := Linear.of_reachable h
  have howner (id : String) (p : PendingConn κ) (hp : s.state.pending (k, id) = some p) :
      (s.call (k, p.tx)).connId = some id ∧ (s.call (k, p.tx)).pc.InProgress := by
    obtain ⟨hid, hwaits, -⟩ := hs.entry k id p hp
    exact ⟨hid, hwaits.inProgress⟩
  refine ⟨howner, fun hidle id ↦ ?_⟩
  cases hp : s.state.pending (k, id) with
  | none => rfl
  | some p => exact absurd (howner id p hp).2 (hidle p.tx)

/-- A manager connects under the tag of the connector `cfg`. -/
def managerConnects : List (RevEvent Bool Bool Unit) :=
  [.manager () .accept, .manager () (.message (.ok (some ⟨"", "tag"⟩))), .manager () .register]

/-- A call is made, with `id` as its `conn_id`, and waits to be delivered to. -/
def callWaits (k : Kind) (c : Bool) (pw : Option String) (id : String) :
    List (RevEvent Bool Bool Unit) :=
  [.call k c (.call ⟨none, "tag", pw, "rev_grpc", none⟩ "host:80"), .call k c .lookup,
    .call k c (.insert id), .call k c .sent]

/-- An incoming call is made, and gets as far as its `first_msg`. -/
def incomingClaims (k : Kind) (i : Bool) (auth id : String) : List (RevEvent Bool Bool Unit) :=
  [.incoming k i .accept, .incoming k i (.message (.ok (some ⟨auth, some id⟩)))]

/-- The time of a call runs out while an incoming call has claimed its entry, and another call
is still waiting. -/
def timeoutRun : List (RevEvent Bool Bool Unit) :=
  managerConnects ++ callWaits .stream false none "a" ++ callWaits .stream true none "b" ++
    incomingClaims .stream false "" "a" ++
    [.call .stream false .elapse, .incoming .stream false .claim, .incoming .stream false .check,
      .call .stream false .dropRx, .incoming .stream false .deliver, .call .stream false .remove,
      .call .stream false .leave]

theorem pending_of_reachable_timeoutRun :
    ∃ s, (machine fun _ ↦ none).run (new : RevSystem Bool Bool Unit) timeoutRun = some s ∧
      (∀ id p, s.state.pending (.stream, id) = some p →
        (s.call (.stream, p.tx)).connId = some id ∧ (s.call (.stream, p.tx)).pc.InProgress) ∧
      ((∀ c, ¬(s.call (.stream, c)).pc.InProgress) →
        ∀ id, s.state.pending (.stream, id) = none) := by
  have hsome :
      ((machine fun _ ↦ none).run (new : RevSystem Bool Bool Unit) timeoutRun).isSome = true := by
    decide
  obtain ⟨s, hs⟩ := Option.isSome_iff_exists.mp hsome
  exact ⟨s, hs, pending_of_reachable ⟨new, timeoutRun, rfl, hs⟩ .stream⟩

end RevSystem

end Rog
