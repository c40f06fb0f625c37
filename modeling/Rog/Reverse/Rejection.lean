import Rog.Reverse.Pairing

/-!
# Incoming calls with a wrong password

The entry is taken out of the table before the password is checked, and it is dropped when the
check fails: one incoming call with a wrong password ends the waiting call.
-/

namespace Rog

open Lib

namespace RevSystem

variable {κ ν μ : Type}

/-- The incoming call has claimed `p` with the message `msg` and does not pass the check. -/
structure Failing (k : Kind) (i : ν) (msg : FirstMsg) (p : PendingConn κ) (s : RevSystem κ ν μ) :
    Prop where
  firstMsg : (s.incoming (k, i)).firstMsg = some msg
  pending : (s.incoming (k, i)).pending = some p
  pc : (s.incoming (k, i)).pc = .check ∨ (s.incoming (k, i)).pc =
    .answered (.error ⟨.unauthenticated, (IncomingKind.of k : IncomingKind κ ν).invalidAuth⟩)

variable [DecidableEq κ] [DecidableEq ν] [DecidableEq μ] {pwMap : String → Option (Option String)}
  {s s₁ t : RevSystem κ ν μ} {e : RevEvent κ ν μ} {k : Kind} {i : ν} {msg : FirstMsg}
  {p : PendingConn κ}

theorem Failing.of_claim {id : String} (hmsg : (s.incoming (k, i)).firstMsg = some msg)
    (hid : msg.connId = some id) (hentry : s.state.pending (k, id) = some p)
    (h : (machine pwMap).step s (.incoming k i .claim) = some t) : t.Failing k i msg p := by
  cases step_move h with
  | incoming k i e state x hmove =>
      cases hmove with
      | claimed msg' p' hpc hmsg' hentry' =>
          obtain rfl : msg = msg' := Option.some.inj (hmsg.symm.trans hmsg')
          rw [IncomingKind.kind_of, hid, Option.getD_some, hentry] at hentry'
          obtain rfl : p = p' := Option.some.inj hentry'
          exact ⟨by simpa using hmsg, by simp, .inl (by simp)⟩
      | notFound msg' hpc hmsg' hnone =>
          obtain rfl : msg = msg' := Option.some.inj (hmsg.symm.trans hmsg')
          simp [hid, hentry] at hnone

theorem Failing.step {pw : String} (hpw : p.pw = some pw) (hauth : msg.auth ≠ pw)
    (hs : s.Failing k i msg p) (h : (machine pwMap).step s e = some t) :
    t.Failing k i msg p := by
  cases step_move h with
  | call k' c e state x hmove => exact ⟨hs.firstMsg, hs.pending, hs.pc⟩
  | manager m e state x hmove => exact ⟨hs.firstMsg, hs.pending, hs.pc⟩
  | incoming k' j e state x hmove =>
      by_cases hy : (k, i) = (k', j)
      · obtain ⟨rfl, rfl⟩ := Prod.mk.inj hy
        obtain hcheck | hanswered := hs.pc
        · cases hmove with
          | refused msg' p' pw' hpc hmsg hpending =>
              exact ⟨by simpa using hs.firstMsg, by simpa using hs.pending, .inr (by simp)⟩
          | passed msg' p' hpc hmsg hpending hpassed =>
              obtain rfl : msg = msg' := Option.some.inj (hs.firstMsg.symm.trans hmsg)
              obtain rfl : p = p' := Option.some.inj (hs.pending.symm.trans hpending)
              exact absurd (hpassed pw hpw) hauth
          | _ => simp_all
        · exact absurd hanswered (hmove.not_answered _)
      · refine ⟨?_, ?_, ?_⟩
        · simpa [hy] using hs.firstMsg
        · simpa [hy] using hs.pending
        · simpa [hy] using hs.pc

/-- A call with a wrong password takes the entry away: whatever the other calls do, once it has
been answered the tables are not as before, and the waiting call is never delivered to. -/
theorem rejection_loses_entry {id pw : String} {es : List (RevEvent κ ν μ)}
    {r : Except Status Unit} (hs : (machine pwMap).Reachable s)
    (hmsg : (s.incoming (k, i)).firstMsg = some msg) (hid : msg.connId = some id)
    (hentry : s.state.pending (k, id) = some p) (hpw : p.pw = some pw) (hauth : msg.auth ≠ pw)
    (hclaim : (machine pwMap).step s (.incoming k i .claim) = some s₁)
    (hrun : (machine pwMap).run s₁ es = some t) (hpc : (t.incoming (k, i)).pc = .answered r) :
    r = .error ⟨.unauthenticated, (IncomingKind.of k : IncomingKind κ ν).invalidAuth⟩ ∧
      t.state.pending ≠ s.state.pending ∧ ∀ d, ¬t.Handed (k, p.tx) d := by
  have ht : (machine pwMap).Reachable t := (hs.step hclaim).of_run hrun
  have hfailing : t.Failing k i msg p := by
    have hany : (machine pwMap).Along (fun _ _ ↦ True) s₁ es := .of_forall (fun _ _ _ ↦ trivial) s₁
    exact Machine.run_preserves (fun s e t _ ↦ Failing.step hpw hauth) hany
      (.of_claim hmsg hid hentry hclaim) hrun
  have hr : r = .error ⟨.unauthenticated, (IncomingKind.of k : IncomingKind κ ν).invalidAuth⟩ := by
    simpa [hpc] using hfailing.pc
  refine ⟨hr, ?_, ?_⟩
  · intro hsame
    rw [← hsame] at hentry
    exact (Linear.of_reachable ht).claimed_entry k i p id p hfailing.pending hentry rfl
  · intro d hd
    -- only the call that has claimed the entry could have delivered
    obtain ⟨j, q, -, hok, hpending, htx⟩ := (Matched.of_reachable ht).handed k p.tx d hd
    obtain rfl := (Linear.of_reachable ht).claimed_once k j i q p hpending hfailing.pending htx
    simp [hpc, hr] at hok

/-- A `connect` with a password waits, an incoming call with a wrong one is about to claim its
entry, and the right peer comes after it. -/
def beforeRejection : List (RevEvent Bool Bool Unit) :=
  managerConnects ++ callWaits .stream false (some "pw") "a" ++ incomingClaims .stream false "no" "a" ++
    incomingClaims .stream true "pw" "a"

/-- The right peer is not found, and the `connect` fails. -/
def afterRejection : List (RevEvent Bool Bool Unit) :=
  [.incoming .stream true .claim, .call .stream false .receive, .call .stream false .remove,
    .call .stream false .leave]

theorem rejection_loses_entry_wrongPassword :
    ∃ s t : RevSystem Bool Bool Unit,
      (machine fun _ ↦ none).run new beforeRejection = some s ∧
        (machine fun _ ↦ none).run s
          [.incoming .stream false .claim, .incoming .stream false .check] = some t ∧
        t.state.pending ≠ s.state.pending ∧ ∀ d, ¬t.Handed (.stream, false) d := by
  have hbefore : ((machine fun _ ↦ none).run (new : RevSystem Bool Bool Unit)
      beforeRejection).map
        (fun s ↦ ((s.incoming (.stream, false)).firstMsg, s.state.pending (.stream, "a"))) =
      some (some ⟨"no", some "a"⟩, some ⟨false, some ("host", 80), some "pw"⟩) := by
    decide
  have hafter : ((machine fun _ ↦ none).run (new : RevSystem Bool Bool Unit)
      (beforeRejection ++ [.incoming .stream false .claim, .incoming .stream false .check])).map
        (fun t ↦ (t.incoming (.stream, false)).pc) =
      some (.answered (.error ⟨.unauthenticated, "invalid auth"⟩)) := by
    decide
  obtain ⟨t, ht, hpc⟩ := Option.map_eq_some_iff.mp hafter
  obtain ⟨s, hs, hst⟩ := (machine _).run_append_eq_some.mp ht
  obtain ⟨s₁, hclaim, hrest⟩ := (machine _).run_cons_some hst
  obtain ⟨hmsg, hentry⟩ : (s.incoming (.stream, false)).firstMsg = some ⟨"no", some "a"⟩ ∧
      s.state.pending (.stream, "a") = some ⟨false, some ("host", 80), some "pw"⟩ := by
    simpa [hs] using hbefore
  have hlost := rejection_loses_entry ⟨new, beforeRejection, rfl, hs⟩ hmsg rfl hentry rfl
    (by decide) hclaim hrest hpc
  exact ⟨s, t, hs, hst, hlost.2⟩

/-- The call with the wrong password is answered with an error and changes the table; the right
peer is then not found, and the `connect` that waits for it fails. -/
theorem rejection_strands_connect :
    ∃ s t u : RevSystem Bool Bool Unit,
      (machine fun _ ↦ none).run new beforeRejection = some s ∧
        (machine fun _ ↦ none).run s
          [.incoming .stream false .claim, .incoming .stream false .check] = some t ∧
        (t.incoming (.stream, false)).pc = .answered (.error ⟨.unauthenticated, "invalid auth"⟩) ∧
        t.state.pending ≠ s.state.pending ∧
        (machine fun _ ↦ none).run t afterRejection = some u ∧
        (u.incoming (.stream, true)).firstMsg = some ⟨"pw", some "a"⟩ ∧
        (u.incoming (.stream, true)).pc =
          .answered (.error ⟨.notFound, "conn_id not found or expired"⟩) ∧
        (u.call (.stream, false)).pc =
          .returned (.error (.err ⟨.connectionAborted, "stream channel closed"⟩)) := by
  have hbefore : ((machine fun _ ↦ none).run (new : RevSystem Bool Bool Unit)
      beforeRejection).map (fun s ↦ s.state.pending (.stream, "a")) =
      some (some ⟨false, some ("host", 80), some "pw"⟩) := by
    decide
  have hrejected : ((machine fun _ ↦ none).run (new : RevSystem Bool Bool Unit)
      (beforeRejection ++ [.incoming .stream false .claim, .incoming .stream false .check])).map
        (fun t ↦ (t.state.pending (.stream, "a"), (t.incoming (.stream, false)).pc)) =
      some (none, .answered (.error ⟨.unauthenticated, "invalid auth"⟩)) := by
    decide
  have hafter : ((machine fun _ ↦ none).run (new : RevSystem Bool Bool Unit)
      ((beforeRejection ++ [.incoming .stream false .claim, .incoming .stream false .check]) ++
        afterRejection)).map
        (fun u ↦ (u.incoming (.stream, true), (u.call (.stream, false)).pc)) =
      some (⟨some ⟨"pw", some "a"⟩, none,
          .answered (.error ⟨.notFound, "conn_id not found or expired"⟩)⟩,
        .returned (.error (.err ⟨.connectionAborted, "stream channel closed"⟩))) := by
    decide
  obtain ⟨u, hu, hend⟩ := Option.map_eq_some_iff.mp hafter
  obtain ⟨t, ht, htu⟩ := (machine _).run_append_eq_some.mp hu
  obtain ⟨s, hs, hst⟩ := (machine _).run_append_eq_some.mp ht
  obtain ⟨hnone, hpc⟩ : t.state.pending (.stream, "a") = none ∧ (t.incoming (.stream, false)).pc =
      .answered (.error ⟨.unauthenticated, "invalid auth"⟩) := by
    simpa [ht] using hrejected
  have hentry : s.state.pending (.stream, "a") = some ⟨false, some ("host", 80), some "pw"⟩ := by
    simpa [hs] using hbefore
  obtain ⟨hright, hcall⟩ := Prod.mk.inj hend
  refine ⟨s, t, u, hs, hst, hpc, ?_, htu, by simp [hright], by simp [hright], hcall⟩
  intro hsame
  rw [hsame, hentry] at hnone
  cases hnone

end RevSystem

end Rog
