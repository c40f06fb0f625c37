import Rog.Reverse.Pending

/-!
# The pairing of calls with incoming calls

What a call returns has come through its channel from the incoming call that claimed its
entry, and an incoming call claims one entry at most.
-/

namespace Rog

open Lib

/-- How far an incoming call has got with its checks, at each point. -/
structure Incoming.Checked {κ ν : Type} (v : IncomingKind κ ν) (x : Incoming κ) : Prop where
  unread : x.pc = .idle ∨ x.pc = .first → x.firstMsg = none
  held : x.pc.Holds → x.pending.isSome
  passed : x.pc = .deliver ∨ x.pc = .answered (.ok ()) →
    ∃ msg p, x.firstMsg = some msg ∧ x.pending = some p ∧ ∀ pw, p.pw = some pw → msg.auth = pw
  notFound : ∀ msg id r, x.pc = .answered r → x.pending = none → x.firstMsg = some msg →
    msg.connId = some id → id ≠ "" → r = .error ⟨.notFound, v.notFound⟩

section Moves

variable {κ ν μ : Type}

theorem Incoming.checked_new (v : IncomingKind κ ν) : (new : Incoming κ).Checked v :=
  ⟨fun _ ↦ rfl, by simp [new, IncomingPc.Holds], by simp [new], by simp [new]⟩

variable [DecidableEq κ]

theorem IncomingMove.checked {v : IncomingKind κ ν} {i : ν} {s s' : RevGrpcState κ ν μ}
    {x x' : Incoming κ} {e : IncomingEvent} (h : IncomingMove v i s x e s' x')
    (hx : x.Checked v) : x'.Checked v := by
  cases h with
  | accept hpc => exact ⟨fun _ ↦ hx.unread (.inl hpc), by simp [IncomingPc.Holds], by simp, by simp⟩
  | message msg id hpc hid hne => exact ⟨by simp, by simp [IncomingPc.Holds], by simp, by simp⟩
  | missingConnId msg e hpc hid =>
      refine ⟨by simp, by simp [IncomingPc.Holds], by simp, ?_⟩
      intro msg' id r _ _ hmsg hid' hne
      obtain rfl : msg = msg' := by simpa using hmsg
      exact absurd (hid id hid') hne
  | noMessage received e hpc =>
      refine ⟨by simp, by simp [IncomingPc.Holds], by simp, ?_⟩
      intro msg id r _ _ hmsg
      simp [hx.unread (.inr hpc)] at hmsg
  | claimed msg p hpc hmsg hentry => exact ⟨by simp, by simp, by simp, by simp⟩
  | notFound msg hpc hmsg hentry =>
      refine ⟨by simp, by simp [IncomingPc.Holds], by simp, ?_⟩
      intro msg' id r hr _ _ _ _
      simpa using hr.symm
  | refused msg p pw hpc hmsg hpending =>
      exact ⟨by simp, by simp [IncomingPc.Holds], by simp, by simp [hpending]⟩
  | passed msg p hpc hmsg hpending hauth =>
      exact ⟨by simp, by simp [hpending], fun _ ↦ ⟨msg, p, hmsg, hpending, hauth⟩, by simp⟩
  | delivered msg p hpc hmsg hpending =>
      exact ⟨by simp, by simp [IncomingPc.Holds], fun _ ↦ hx.passed (.inl hpc), by simp [hpending]⟩
  | undelivered msg p hpc hmsg hpending =>
      exact ⟨by simp, by simp [IncomingPc.Holds], fun _ ↦ hx.passed (.inl hpc), by simp [hpending]⟩

theorem IncomingMove.not_answered {v : IncomingKind κ ν} {i : ν} {s s' : RevGrpcState κ ν μ}
    {x x' : Incoming κ} {e : IncomingEvent} (h : IncomingMove v i s x e s' x')
    (r : Except Status Unit) : x.pc ≠ .answered r := by
  cases h <;> simp [*]

/-- What is in a channel after a move of an incoming call was there before, or is what the call
delivers. -/
theorem IncomingMove.oneshot_sent {v : IncomingKind κ ν} {i : ν} {s s' : RevGrpcState κ ν μ}
    {x x' : Incoming κ} {e : IncomingEvent} (h : IncomingMove v i s x e s' x') {y : Kind × κ}
    {d : Delivered ν} (hd : s'.oneshot y = .sent d) :
    s.oneshot y = .sent d ∨ ∃ msg p, x'.pending = some p ∧ x'.pc = .answered (.ok ()) ∧
      y = (v.kind, p.tx) ∧ d = v.delivered i msg p := by
  cases h with
  | refused => exact .inl (RevGrpcState.oneshot_dropEntry_eq_sent.mp hd)
  | delivered msg p hpc hmsg hpending =>
      by_cases hy : y = (v.kind, p.tx)
      · have hsent : Oneshot.sent (v.delivered i msg p) = .sent d := by
          simpa [RevGrpcState.setOneshot, hy] using hd
        exact .inr ⟨msg, p, hpending, rfl, hy, (Oneshot.sent.inj hsent).symm⟩
      · exact .inl (by simpa [RevGrpcState.setOneshot, hy] using hd)
  | _ => exact .inl hd

theorem CallMove.oneshot_sent [DecidableEq μ] {k : Kind} {c : κ} {s s' : RevGrpcState κ ν μ}
    {x x' : Call ν μ} {e : CallEvent} (h : CallMove k c s x e s' x') {y : Kind × κ}
    {d : Delivered ν} (hd : s'.oneshot y = .sent d) : s.oneshot y = .sent d := by
  cases e with
  | insert id =>
      cases h with
      | insert id addr m req hpc =>
          have hbefore : (s.setOneshot k c .empty).oneshot y = .sent d :=
            RevGrpcState.oneshot_remove_eq_sent.mp hd
          by_cases hy : y = (k, c)
          · simp [RevGrpcState.setOneshot, hy] at hbefore
          · simpa [RevGrpcState.setOneshot, hy] using hbefore
  | remove =>
      cases h with
      | remove id e hpc hid => exact RevGrpcState.oneshot_remove_eq_sent.mp hd
  | _ =>
      obtain hsame | hgone := (h.kept (by simp) (by simp)).oneshot y
      · rwa [← hsame]
      · simp [hgone] at hd

theorem CallMove.returned_ok [DecidableEq μ] {k : Kind} {c : κ} {s s' : RevGrpcState κ ν μ}
    {x x' : Call ν μ} {e : CallEvent} (h : CallMove k c s x e s' x') {d : Delivered ν}
    (hd : x'.pc = .returned (.ok d)) : s.oneshot (k, c) = .sent d := by
  cases h with
  | received d' hpc hsent =>
      obtain rfl : d' = d := by simpa using hd
      exact hsent
  | _ => simp at hd

theorem CallMove.connId [DecidableEq μ] {k : Kind} {c : κ} {s s' : RevGrpcState κ ν μ}
    {x x' : Call ν μ} {e : CallEvent} (h : CallMove k c s x e s' x') :
    x'.connId = x.connId ∨ ∃ id, e = .insert id ∧ x'.connId = some id := by
  cases h with
  | insert id => exact .inr ⟨id, rfl, rfl⟩
  | _ => exact .inl rfl

end Moves

namespace RevSystem

variable {κ ν μ : Type}

/-- `d` is in the channel of the call, or has been returned by it. -/
def Handed (s : RevSystem κ ν μ) (y : Kind × κ) (d : Delivered ν) : Prop :=
  s.state.oneshot y = .sent d ∨ (s.call y).pc = .returned (.ok d)

/-- What has been handed to a call has come from the incoming call that claimed its entry. -/
structure Matched (s : RevSystem κ ν μ) : Prop where
  checked : ∀ k i, (s.incoming (k, i)).Checked (.of k : IncomingKind κ ν)
  handed : ∀ k c d, s.Handed (k, c) d → ∃ i p, d.inStream = (k, i) ∧
    (s.incoming (k, i)).pc = .answered (.ok ()) ∧ (s.incoming (k, i)).pending = some p ∧ p.tx = c

theorem Matched.of_new : Matched (new : RevSystem κ ν μ) where
  checked _ _ := Incoming.checked_new _
  handed _ _ _ h := by simp [Handed, new, RevGrpcState.new, Call.new] at h

variable [DecidableEq κ] [DecidableEq ν] [DecidableEq μ] {pwMap : String → Option (Option String)}
  {s t : RevSystem κ ν μ} {e : RevEvent κ ν μ}

theorem Matched.step (hs : s.Matched) (h : (machine pwMap).step s e = some t) : t.Matched := by
  cases step_move h with
  | call k c e state x hmove =>
      refine ⟨hs.checked, fun k' c' d hd ↦ hs.handed k' c' d ?_⟩
      obtain hsent | hreturned := hd
      · exact .inl (hmove.oneshot_sent hsent)
      · by_cases hy : (k', c') = (k, c)
        · rw [hy] at hreturned ⊢
          exact .inl (hmove.returned_ok (by simpa using hreturned))
        · exact .inr (by simpa [hy] using hreturned)
  | incoming k i e state x hmove =>
      refine ⟨fun k' j ↦ ?_, fun k' c d hd ↦ ?_⟩
      · by_cases hy : (k', j) = (k, i)
        · obtain ⟨rfl, rfl⟩ := Prod.mk.inj hy
          simpa using hmove.checked (hs.checked k' j)
        · simpa [hy] using hs.checked k' j
      · have hcases : s.Handed (k', c) d ∨ ∃ msg p, x.pending = some p ∧
            x.pc = .answered (.ok ()) ∧ (k', c) = (k, p.tx) ∧
              d = (IncomingKind.of k).delivered i msg p := by
          obtain hsent | hreturned := hd
          · obtain hbefore | hnew := hmove.oneshot_sent hsent
            · exact .inl (.inl hbefore)
            · exact .inr (by simpa using hnew)
          · exact .inl (.inr hreturned)
        obtain hbefore | ⟨msg, p, hpending, hpc, hy, rfl⟩ := hcases
        · obtain ⟨j, p, hj, hpc, hpending, htx⟩ := hs.handed k' c d hbefore
          have hother : (k', j) ≠ (k, i) := fun hy ↦ hmove.not_answered _ (hy ▸ hpc)
          exact ⟨j, p, hj, by simpa [hother] using hpc, by simpa [hother] using hpending, htx⟩
        · obtain ⟨rfl, rfl⟩ := Prod.mk.inj hy
          exact ⟨i, p, by simp, by simpa using hpc, by simpa using hpending, rfl⟩
  | manager m e state x hmove =>
      refine ⟨hs.checked, fun k c d hd ↦ hs.handed k c d ?_⟩
      simpa [Handed, hmove.frame.2] using hd

theorem Matched.of_reachable (h : (machine pwMap).Reachable s) : s.Matched :=
  h.invariant (fun _ hnew ↦ hnew ▸ of_new) fun _ _ _ hs hstep ↦ hs.step hstep

/-! ## Distinct ids -/

def DistinctIds (s : RevSystem κ ν μ) : Prop :=
  ∀ x y id, (s.call x).connId = some id → (s.call y).connId = some id → x = y

theorem DistinctIds.step (hs : s.DistinctIds) (hfresh : s.Fresh e)
    (h : (machine pwMap).step s e = some t) : t.DistinctIds := by
  cases step_move h with
  | call k c e state x hmove =>
      obtain hsame | ⟨id, rfl, hid⟩ := hmove.connId
      · have hconnId (y : Kind × κ) :
            (Function.update s.call (k, c) x y).connId = (s.call y).connId := by
          by_cases hy : y = (k, c)
          · subst hy
            simpa using hsame
          · simp [hy]
        intro y z id hy hz
        exact hs y z id ((hconnId y).symm.trans hy) ((hconnId z).symm.trans hz)
      · have hnew {y : Kind × κ} (hy : (Function.update s.call (k, c) x y).connId = some id) :
            y = (k, c) := by
          by_contra hne
          exact hfresh y (by simpa [hne] using hy)
        intro y z id' hy hz
        by_cases hyc : y = (k, c)
        · obtain rfl : id = id' := by simpa [hyc, hid] using hy
          rw [hyc, hnew hz]
        · by_cases hzc : z = (k, c)
          · obtain rfl : id = id' := by simpa [hzc, hid] using hz
            exact absurd (hnew hy) hyc
          · exact hs y z id' (by simpa [hyc] using hy) (by simpa [hzc] using hz)
  | incoming k i e state x hmove => exact hs
  | manager m e state x hmove => exact hs

theorem distinctIds_of_run {es : List (RevEvent κ ν μ)}
    (hfresh : (machine pwMap).Along Fresh new es) (h : (machine pwMap).run new es = some s) :
    s.DistinctIds := by
  refine Machine.run_preserves (fun s e t he hs hstep ↦ hs.step he hstep) hfresh ?_ h
  intro x y id hx
  simp [new, Call.new] at hx

/-! ## Pairing -/

/-- Calls are paired with incoming calls as they should be. -/
structure Paired (s : RevSystem κ ν μ) : Prop where
  returned : ∀ k c d, (s.call (k, c)).pc = .returned (.ok d) → ∃ i msg id,
    d.inStream = (k, i) ∧ (s.incoming (k, i)).pc = .answered (.ok ()) ∧
      (s.incoming (k, i)).firstMsg = some msg ∧ msg.connId = some id ∧
      (s.call (k, c)).connId = some id ∧ ∀ pw, (s.call (k, c)).cfg.pw = some pw → msg.auth = pw
  once : ∀ x y d d', (s.call x).pc = .returned (.ok d) → (s.call y).pc = .returned (.ok d') →
    d.inStream = d'.inStream → x = y
  /-- Any call with the `conn_id` of one that has been answered with `Ok` is answered
  `not_found`, and it is so when it comes to claim an entry. -/
  delivered : ∀ y msg id, (s.incoming y).pc = .answered (.ok ()) →
    (s.incoming y).firstMsg = some msg → msg.connId = some id →
      (∀ k, s.state.pending (k, id) = none) ∧
      ∀ k i msg', (k, i) ≠ y → (s.incoming (k, i)).firstMsg = some msg' → msg'.connId = some id →
        (s.incoming (k, i)).pc = .claim ∨ (s.incoming (k, i)).pc =
          .answered (.error ⟨.notFound, (IncomingKind.of k : IncomingKind κ ν).notFound⟩)

omit [DecidableEq κ] [DecidableEq ν] [DecidableEq μ] in
/-- A `conn_id` that has been claimed is in no table, and no other call has claimed it. -/
theorem claimed_unique (hs : s.Linear) (hids : s.DistinctIds) {k : Kind} {i : ν}
    {msg : FirstMsg} {p : PendingConn κ} {id : String}
    (hmsg : (s.incoming (k, i)).firstMsg = some msg)
    (hpending : (s.incoming (k, i)).pending = some p) (hid : msg.connId = some id) :
    (∀ k', s.state.pending (k', id) = none) ∧
      ∀ k' j msg', (k', j) ≠ (k, i) → (s.incoming (k', j)).firstMsg = some msg' →
        msg'.connId = some id → (s.incoming (k', j)).pending = none := by
  have hcall {k : Kind} {i : ν} {msg : FirstMsg} {p : PendingConn κ}
      (hmsg : (s.incoming (k, i)).firstMsg = some msg)
      (hpending : (s.incoming (k, i)).pending = some p) (hid : msg.connId = some id) :
      (s.call (k, p.tx)).connId = some id := by
    obtain ⟨msg', id', hmsg', hid', hcall, -⟩ := hs.claimed k i p hpending
    obtain rfl : msg = msg' := Option.some.inj (hmsg.symm.trans hmsg')
    rw [hcall, ← hid', hid]
  refine ⟨fun k' ↦ ?_, fun k' j msg' hne hmsg' hid' ↦ ?_⟩
  · cases hq : s.state.pending (k', id) with
    | none => rfl
    | some q =>
        obtain ⟨rfl, htx⟩ := Prod.mk.inj
          (hids _ _ id (hs.entry k' id q hq).1 (hcall hmsg hpending hid))
        exact absurd htx (hs.claimed_entry k' i p id q hpending hq)
  · cases hq : (s.incoming (k', j)).pending with
    | none => rfl
    | some q =>
        obtain ⟨rfl, htx⟩ := Prod.mk.inj
          (hids _ _ id (hcall hmsg' hq hid') (hcall hmsg hpending hid))
        exact absurd (by rw [hs.claimed_once k' j i q p hq hpending htx]) hne

/-- Reverse pairing is correct, in every run in which the generated ids are distinct. -/
theorem paired_of_run {es : List (RevEvent κ ν μ)}
    (hfresh : (machine pwMap).Along Fresh new es) (h : (machine pwMap).run new es = some s) :
    s.Paired := by
  have hreachable : (machine pwMap).Reachable s := ⟨new, es, rfl, h⟩
  have hs := Linear.of_reachable hreachable
  have hmatched := Matched.of_reachable hreachable
  refine ⟨?_, ?_, ?_⟩
  · intro k c d hd
    obtain ⟨i, p, hi, hpc, hpending, rfl⟩ := hmatched.handed k c d (.inr hd)
    obtain ⟨msg, p', hmsg, hpending', hauth⟩ := (hmatched.checked k i).passed (.inr hpc)
    obtain rfl : p = p' := Option.some.inj (hpending.symm.trans hpending')
    obtain ⟨msg', id, hmsg', hid, hcall, hpw⟩ := hs.claimed k i p hpending
    obtain rfl : msg = msg' := Option.some.inj (hmsg.symm.trans hmsg')
    exact ⟨i, msg, id, hi, hpc, hmsg, hid, hcall, fun pw h ↦ hauth pw (hpw.trans h)⟩
  · rintro ⟨k, c⟩ ⟨k', c'⟩ d d' hd hd' hsame
    obtain ⟨i, p, hi, -, hpending, rfl⟩ := hmatched.handed k c d (.inr hd)
    obtain ⟨j, q, hj, -, hpending', rfl⟩ := hmatched.handed k' c' d' (.inr hd')
    obtain ⟨rfl, rfl⟩ : k = k' ∧ i = j := Prod.mk.inj (hi.symm.trans (hsame.trans hj))
    rw [Option.some.inj (hpending.symm.trans hpending')]
  · rintro ⟨k, i⟩ msg id hpc hmsg hid
    obtain ⟨msg', p, hmsg', hpending, -⟩ := (hmatched.checked k i).passed (.inr hpc)
    have hunique := claimed_unique hs (distinctIds_of_run hfresh h) hmsg hpending hid
    refine ⟨hunique.1, fun k' j msg' hne hmsg' hid' ↦ ?_⟩
    have hnone := hunique.2 k' j msg' hne hmsg' hid'
    have hne_id : id ≠ "" := by
      obtain ⟨msg'', id', hmsg'', hid'', hne⟩ := (hs.wf (k, i)).message (.inr (by simp [hpending]))
      obtain rfl : msg = msg'' := Option.some.inj (hmsg.symm.trans hmsg'')
      rwa [Option.some.inj (hid.symm.trans hid'')]
    have hchecked := hmatched.checked k' j
    cases hpc' : (s.incoming (k', j)).pc with
    | idle => simp [hchecked.unread (.inl hpc')] at hmsg'
    | first => simp [hchecked.unread (.inr hpc')] at hmsg'
    | claim => exact .inl rfl
    | check => simpa [hnone] using hchecked.held (by simp [hpc', IncomingPc.Holds])
    | deliver => simpa [hnone] using hchecked.held (by simp [hpc', IncomingPc.Holds])
    | answered r => exact .inr (by rw [hchecked.notFound msg' id r hpc' hnone hmsg' hid' hne_id])

/-- A `connect` and a `udp_tunnel` are delivered to, and a second incoming call comes with the
`conn_id` of the first. -/
def deliveredRun : List (RevEvent Bool Bool Unit) :=
  managerConnects ++ callWaits .stream false (some "pw") "a" ++ callWaits .udp false none "b" ++
    incomingClaims .stream false "pw" "a" ++ incomingClaims .udp false "" "b" ++
    incomingClaims .stream true "pw" "a" ++
    [.incoming .stream false .claim, .incoming .udp false .claim, .incoming .stream true .claim,
      .incoming .udp false .check, .incoming .stream false .check, .incoming .stream false .deliver,
      .incoming .udp false .deliver, .call .udp false .receive, .call .stream false .receive]

theorem paired_of_run_deliveredRun :
    ∃ s, (machine fun _ ↦ none).run (new : RevSystem Bool Bool Unit) deliveredRun = some s ∧
      s.Paired := by
  have hsome : ((machine fun _ ↦ none).run (new : RevSystem Bool Bool Unit)
      deliveredRun).isSome = true := by
    decide
  have hfresh : (machine fun _ ↦ none).Along Fresh (new : RevSystem Bool Bool Unit)
      deliveredRun := by
    decide
  obtain ⟨s, hs⟩ := Option.isSome_iff_exists.mp hsome
  exact ⟨s, hs, paired_of_run hfresh hs⟩

end RevSystem

end Rog
