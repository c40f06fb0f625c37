import Rog.Reverse.System
import Rog.Lib.Inverse

/-!
# The registry of managers

Registration and removal happen in different tasks, and an entry is removed by its tag. The
entries and the sessions that hold them are inverse to each other in every reachable state, so
that a cleanup always finds its own entry.
-/

namespace Rog

open Lib

/-- The tag of a session that was accepted and has not run its cleanup. -/
def Session.holds (x : Session) : Option String :=
  match x.pc with
  | .serving | .cleanup => x.firstMsg.map (·.tag)
  | .idle | .first | .register | .ended | .rejected _ => none

/-- The session has registered itself at some point. -/
def SessionPc.Joined : SessionPc → Prop
  | .serving | .cleanup | .ended => True
  | .idle | .first | .register | .rejected _ => False

theorem SessionPc.Joined.ne_rejected {pc : SessionPc} (h : pc.Joined) (e : Status) :
    pc ≠ .rejected e := by
  rintro rfl
  exact h

/-- A message that is kept past the check passed it. -/
def Session.Checked (pwMap : String → Option (Option String)) (x : Session) : Prop :=
  ∀ msg, x.firstMsg = some msg → (∀ e, x.pc ≠ .rejected e) → ¬wrongPassword pwMap msg

section Session

variable {κ ν μ : Type} [DecidableEq μ] {pwMap : String → Option (Option String)} {m : μ}
  {s s' : RevGrpcState κ ν μ} {x x' : Session} {e : SessionEvent}

theorem Session.firstMsg_of_holds {tag : String} (h : x.holds = some tag) :
    ∃ msg, x.firstMsg = some msg ∧ msg.tag = tag ∧ (x.pc = .serving ∨ x.pc = .cleanup) := by
  unfold Session.holds at h
  split at h
  case h_1 hpc | h_2 hpc =>
    obtain ⟨msg, hmsg, htag⟩ := Option.map_eq_some_iff.mp h
    exact ⟨msg, hmsg, htag, by simp [hpc]⟩
  all_goals cases h

theorem SessionMove.joined (h : SessionMove pwMap m s x e s' x') (hx : x.pc.Joined) :
    x'.pc.Joined := by
  cases h with
  | closeOut hopen => exact hx
  | received msg hpc => exact hx
  | endOfStream received hpc => trivial
  | cleanup msg hpc hmsg => trivial
  | _ => simp_all [SessionPc.Joined]

theorem SessionMove.checked (h : SessionMove pwMap m s x e s' x') (hx : x.Checked pwMap) :
    x'.Checked pwMap := by
  cases h with
  | refused msg e hpc hauth => exact fun _ _ hne ↦ absurd rfl (hne e)
  | noMessage received e hpc => exact fun _ _ hne ↦ absurd rfl (hne e)
  | occupied msg other e hpc hmsg htag => exact fun _ _ hne ↦ absurd rfl (hne e)
  | passed msg hpc hauth =>
      intro msg' hmsg' _
      obtain rfl : msg = msg' := Option.some.inj hmsg'
      exact hauth
  | received msg hpc => exact hx
  | closeOut hopen => exact hx
  | accept hpc => exact fun msg hmsg _ ↦ hx msg hmsg (by simp [hpc])
  | endOfStream received hpc => exact fun msg hmsg _ ↦ hx msg hmsg (by simp [hpc])
  | register msg hpc hmsg htag => exact fun msg hmsg _ ↦ hx msg hmsg (by simp [hpc])
  | cleanup msg hpc hmsg => exact fun msg hmsg _ ↦ hx msg hmsg (by simp [hpc])

/-- What a step of a session does to the table: it enters itself where no entry was, removes
the entry of the tag it holds, or leaves the table alone. -/
theorem SessionMove.managers (h : SessionMove pwMap m s x e s' x') :
    (s'.managers = s.managers ∧ x'.holds = x.holds) ∨
      (e = .register ∧ ∃ tag, s.managers tag = none ∧ x.holds = none ∧ x'.holds = some tag ∧
        s'.managers = Function.update s.managers tag (some m)) ∨
      (e = .cleanup ∧ ∃ tag, x.holds = some tag ∧ x'.holds = none ∧
        s'.managers = Function.update s.managers tag none) := by
  cases h with
  | register msg hpc hmsg htag =>
      refine .inr (.inl ⟨rfl, msg.tag, htag, ?_, ?_, rfl⟩)
      · simp [Session.holds, hpc]
      · simp [Session.holds, hmsg]
  | cleanup msg hpc hmsg =>
      refine .inr (.inr ⟨rfl, msg.tag, ?_, ?_, rfl⟩)
      · simp [Session.holds, hpc, hmsg]
      · simp [Session.holds]
  | received msg hpc => exact .inl ⟨rfl, rfl⟩
  | closeOut hopen => exact .inl ⟨rfl, rfl⟩
  | accept hpc => exact .inl ⟨rfl, by simp [Session.holds, hpc]⟩
  | refused msg e hpc hauth => exact .inl ⟨rfl, by simp [Session.holds, hpc]⟩
  | passed msg hpc hauth => exact .inl ⟨rfl, by simp [Session.holds, hpc]⟩
  | noMessage received e hpc => exact .inl ⟨rfl, by simp [Session.holds, hpc]⟩
  | endOfStream received hpc => exact .inl ⟨rfl, by simp [Session.holds, hpc]⟩
  | occupied msg other e hpc hmsg htag => exact .inl ⟨rfl, by simp [Session.holds, hpc]⟩

theorem SessionMove.control (h : SessionMove pwMap m s x e s' x') {m' : μ}
    (hopen : (s'.control m').isOpen) : (s.control m').isOpen ∨ m' = m ∧ x'.pc.Joined := by
  cases h with
  | register msg hpc hmsg htag =>
      by_cases hm : m' = m
      · exact .inr ⟨hm, trivial⟩
      · exact .inl (by simpa [RevGrpcState.register, hm] using hopen)
  | cleanup msg hpc hmsg => exact .inl hopen
  | closeOut hopen' =>
      by_cases hm : m' = m
      · subst hm
        simp [RevGrpcState.closeControl] at hopen
      · exact .inl (by simpa [RevGrpcState.closeControl, hm] using hopen)
  | _ => exact .inl hopen

theorem SessionMove.unjoined (h : SessionMove pwMap m s x e s' x') (hx' : ¬x'.pc.Joined)
    (hcontrol : (s.control m).isOpen → x.pc.Joined) : s' = s := by
  cases h with
  | register msg hpc hmsg htag => exact absurd trivial hx'
  | cleanup msg hpc hmsg => exact absurd trivial hx'
  | closeOut hopen => exact absurd (hcontrol hopen) hx'
  | _ => rfl

end Session

section Frame

variable {κ ν μ : Type} [DecidableEq κ]

theorem RevGrpcState.managers_remove (s : RevGrpcState κ ν μ) (k : Kind) (id : String) :
    (s.remove k id).managers = s.managers ∧ (s.remove k id).control = s.control := by
  unfold remove
  cases s.pending (k, id) with
  | some p => exact ⟨rfl, rfl⟩
  | none => exact ⟨rfl, rfl⟩

theorem CallMove.managers [DecidableEq μ] {k : Kind} {c : κ} {s s' : RevGrpcState κ ν μ}
    {x x' : Call ν μ} {e : CallEvent} (h : CallMove k c s x e s' x') :
    s'.managers = s.managers ∧ ∀ m, (s'.control m).isOpen = (s.control m).isOpen := by
  cases h with
  | insert connId addr m req hpc =>
      have hremove := (s.setOneshot k c .empty).managers_remove k connId
      exact ⟨hremove.1, fun m' ↦ congrArg (fun control ↦ (control m').isOpen) hremove.2⟩
  | remove connId e hpc hconnId =>
      have hremove := s.managers_remove k connId
      exact ⟨hremove.1, fun m ↦ congrArg (fun control ↦ (control m).isOpen) hremove.2⟩
  | sent m req hpc hopen =>
      refine ⟨rfl, fun m' ↦ ?_⟩
      by_cases hm : m' = m
      · subst hm
        simp [RevGrpcState.tell]
      · simp [RevGrpcState.tell, hm]
  | _ => exact ⟨rfl, fun _ ↦ rfl⟩

theorem IncomingMove.managers {v : IncomingKind κ ν} {i : ν} {s s' : RevGrpcState κ ν μ}
    {x x' : Incoming κ} {e : IncomingEvent} (h : IncomingMove v i s x e s' x') :
    s'.managers = s.managers ∧ s'.control = s.control := by
  cases h <;> exact ⟨rfl, rfl⟩

end Frame

namespace RevSystem

variable {κ ν μ : Type}

/-- The table of managers and the sessions are inverse to each other, sessions are there with a
password that was checked, and only they have an open channel. -/
structure Registry (pwMap : String → Option (Option String)) (s : RevSystem κ ν μ) : Prop where
  managers : Inverse s.state.managers (Session.holds ∘ s.session)
  checked (m : μ) : (s.session m).Checked pwMap
  control (m : μ) : (s.state.control m).isOpen → (s.session m).pc.Joined

namespace Registry

variable {pwMap : String → Option (Option String)} {s : RevSystem κ ν μ}

theorem of_new : (new : RevSystem κ ν μ).Registry pwMap where
  managers := Inverse.empty
  checked m msg hmsg := by simp [new, Session.new] at hmsg
  control m hopen := by simp [new, RevGrpcState.new] at hopen

/-- The registered session presented the password that is set for its tag. -/
theorem password {m : μ} {tag pw : String} (hs : s.Registry pwMap)
    (hm : s.state.managers tag = some m) (hpw : (pwMap tag).join = some pw) :
    ∃ msg, (s.session m).firstMsg = some msg ∧ msg.tag = tag ∧ msg.auth = pw := by
  obtain ⟨msg, hmsg, rfl, hpc⟩ := Session.firstMsg_of_holds ((hs.managers tag m).mp hm)
  have hpassed := hs.checked m msg hmsg (by rcases hpc with hpc | hpc <;> simp [hpc])
  exact ⟨msg, hmsg, rfl, by simpa [wrongPassword, hpw] using hpassed⟩

variable [DecidableEq μ]

theorem session_managers {m : μ} {e : SessionEvent} {state : RevGrpcState κ ν μ} {x : Session}
    (hs : s.Registry pwMap) (h : SessionMove pwMap m s.state (s.session m) e state x) :
    Inverse state.managers (Session.holds ∘ Function.update s.session m x) := by
  rw [Function.comp_update]
  obtain ⟨htable, hholds⟩ | ⟨-, tag, hnone, hbefore, hafter, htable⟩ |
    ⟨-, tag, hbefore, hafter, htable⟩ := h.managers
  · have hsame : Function.update (Session.holds ∘ s.session) m x.holds = Session.holds ∘ s.session :=
      Function.update_eq_self_iff.mpr hholds
    rw [htable, hsame]
    exact hs.managers
  · rw [htable, hafter]
    exact hs.managers.link hnone hbefore
  · rw [htable, hafter]
    exact hs.managers.unlink hbefore

variable [DecidableEq κ] [DecidableEq ν] {t : RevSystem κ ν μ} {e : RevEvent κ ν μ}

theorem step (hs : s.Registry pwMap) (h : (machine pwMap).step s e = some t) :
    t.Registry pwMap := by
  cases step_move h with
  | call k c e state x hmove =>
      obtain ⟨hmanagers, hcontrol⟩ := hmove.managers
      refine ⟨fun tag m ↦ ?_, hs.checked, fun m hopen ↦ ?_⟩
      · exact hmanagers ▸ hs.managers tag m
      · exact hs.control m (hcontrol m ▸ hopen)
  | incoming k i e state x hmove =>
      obtain ⟨hmanagers, hcontrol⟩ := hmove.managers
      refine ⟨fun tag m ↦ ?_, hs.checked, fun m hopen ↦ ?_⟩
      · exact hmanagers ▸ hs.managers tag m
      · exact hs.control m (hcontrol ▸ hopen)
  | manager m e state x hmove =>
      refine ⟨hs.session_managers hmove, fun m' ↦ ?_, fun m' hopen ↦ ?_⟩
      · by_cases hm : m' = m
        · subst hm
          simpa using hmove.checked (hs.checked m')
        · simpa [hm] using hs.checked m'
      · obtain hbefore | ⟨rfl, hjoined⟩ := hmove.control hopen
        · by_cases hm : m' = m
          · subst hm
            simpa using hmove.joined (hs.control m' hbefore)
          · simpa [hm] using hs.control m' hbefore
        · simpa using hjoined

theorem of_reachable (h : (machine pwMap).Reachable s) : s.Registry pwMap :=
  h.invariant (fun _ hs ↦ hs ▸ of_new) (fun _ _ _ ↦ step)

theorem cleanup {m : μ} (hs : s.Registry pwMap)
    (h : (machine pwMap).step s (.manager m .cleanup) = some t) :
    ∃ tag, s.state.managers tag = some m ∧
      t.state.managers = Function.update s.state.managers tag none := by
  cases step_move h with
  | manager m e state x hmove =>
      cases hmove with
      | cleanup msg hpc hmsg =>
          refine ⟨msg.tag, ?_, rfl⟩
          rw [hs.managers]
          simp [Session.holds, hpc, hmsg]

end Registry

variable [DecidableEq κ] [DecidableEq ν] [DecidableEq μ] {pwMap : String → Option (Option String)}
  {s t : RevSystem κ ν μ} {e : RevEvent κ ν μ} {es : List (RevEvent κ ν μ)}

/-- The entry of `tag` was inserted by session `m` where no entry was, and `m` has not run its
cleanup since. -/
def InsertedBy (pwMap : String → Option (Option String)) (tag : String) (m : μ)
    (es : List (RevEvent κ ν μ)) : Prop :=
  ∃ as bs u v, es = as ++ .manager m .register :: bs ∧ (machine pwMap).run new as = some u ∧
    (machine pwMap).step u (.manager m .register) = some v ∧
    u.state.managers tag = none ∧ v.state.managers = Function.update u.state.managers tag (some m) ∧
    .manager m .cleanup ∉ bs

theorem InsertedBy.snoc {tag : String} {m : μ} (h : InsertedBy pwMap tag m es)
    (he : e ≠ .manager m .cleanup) : InsertedBy pwMap tag m (es ++ [e]) := by
  obtain ⟨as, bs, u, v, rfl, hu, hv, hnone, hsome, hbs⟩ := h
  refine ⟨as, bs ++ [e], u, v, by simp, hu, hv, hnone, hsome, ?_⟩
  simp [hbs, he.symm]

theorem insertedBy_of_run {tag : String} {m : μ} (h : (machine pwMap).run new es = some s)
    (hm : s.state.managers tag = some m) : InsertedBy pwMap tag m es := by
  induction es using List.reverseRecOn generalizing s with
  | nil =>
      obtain rfl : new = s := by simpa using h
      simp [new, RevGrpcState.new] at hm
  | append_singleton es e ih =>
      obtain ⟨u, hu, hlast⟩ := (machine pwMap).run_append_eq_some.mp h
      obtain ⟨t, hstep, hrest⟩ := (machine pwMap).run_cons_some hlast
      obtain rfl : t = s := by simpa using hrest
      cases step_move hstep with
      | call k c e state x hmove =>
          exact (ih hu (hmove.managers.1 ▸ hm)).snoc (by simp)
      | incoming k i e state x hmove =>
          exact (ih hu (hmove.managers.1 ▸ hm)).snoc (by simp)
      | manager m' e state x hmove =>
          obtain ⟨htable, -⟩ | ⟨rfl, tag', hnone, -, -, htable⟩ | ⟨rfl, tag', hheld, -, htable⟩ :=
            hmove.managers
          · refine (ih hu (htable ▸ hm)).snoc fun heq ↦ ?_
            -- a cleanup changes the table, so that the last step was none
            obtain ⟨rfl, rfl⟩ : m' = m ∧ e = .cleanup := by simpa using heq
            have hs := Registry.of_reachable ⟨new, es, rfl, hu⟩
            obtain ⟨tag', hentry, hremoved⟩ := hs.cleanup hstep
            have hsame := congrFun (htable.symm.trans hremoved) tag'
            simp [hentry] at hsame
          · dsimp only at hm htable
            rw [htable] at hm
            by_cases htag : tag = tag'
            · subst htag
              obtain rfl : m' = m := by simpa using hm
              exact ⟨es, [], u, _, rfl, hu, hstep, hnone, htable, by simp⟩
            · exact (ih hu (by simpa [htag] using hm)).snoc (by simp)
          · have hs := Registry.of_reachable ⟨new, es, rfl, hu⟩
            dsimp only at hm htable
            rw [htable] at hm
            have htag : tag ≠ tag' := by
              rintro rfl
              simp at hm
            have hm : u.state.managers tag = some m := by simpa [htag] using hm
            refine (ih hu hm).snoc fun heq ↦ htag ?_
            obtain rfl : m' = m := by simpa using heq
            exact Option.some.inj (((hs.managers tag m').mp hm).symm.trans hheld)

/-- A session that is not rejected now was never rejected. -/
theorem joined_of_run {m : μ} (hs : (s.session m).pc.Joined)
    (h : (machine pwMap).run s es = some t) : (t.session m).pc.Joined := by
  refine Machine.run_preserves (I := fun s ↦ (s.session m).pc.Joined) (P := fun _ _ ↦ True)
    (fun s e t _ hs h ↦ ?_) (.of_forall (fun _ _ _ ↦ trivial) s) hs h
  cases step_move h with
  | call k c e state x hmove => exact hs
  | incoming k i e state x hmove => exact hs
  | manager m' e state x hmove =>
      by_cases hm : m = m'
      · subst hm
        simpa using hmove.joined hs
      · simpa [hm] using hs

/-- No step of a call that ends rejected changes anything but the call itself. -/
theorem rejected_changes_nothing {m : μ} {se : SessionEvent} {u v : RevSystem κ ν μ}
    {as bs : List (RevEvent κ ν μ)} {r : Status} (hu : (machine pwMap).run new as = some u)
    (hv : (machine pwMap).step u (.manager m se) = some v)
    (hs : (machine pwMap).run v bs = some s) (hr : (s.session m).pc = .rejected r) :
    ∃ x, v = { u with session := Function.update u.session m x } := by
  have hunjoined : ¬(v.session m).pc.Joined := fun hjoined ↦
    (joined_of_run hjoined hs).ne_rejected r hr
  cases step_move hv with
  | manager m e state x hmove =>
      obtain rfl := hmove.unjoined (by simpa using hunjoined)
        ((Registry.of_reachable ⟨new, as, rfl, hu⟩).control m)
      exact ⟨x, rfl⟩

/-- The registry of managers is right at the end of every run. -/
theorem registry_of_run (h : (machine pwMap).run new es = some s) :
    (∀ tag m, s.state.managers tag = some m →
      InsertedBy pwMap tag m es ∧ (s.session m).holds = some tag ∧
        ∀ pw, (pwMap tag).join = some pw →
          ∃ msg, (s.session m).firstMsg = some msg ∧ msg.tag = tag ∧ msg.auth = pw) ∧
    (∀ m m' tag, (s.session m).holds = some tag → (s.session m').holds = some tag → m = m') ∧
    (∀ m t, (machine pwMap).step s (.manager m .cleanup) = some t →
      ∃ tag, s.state.managers tag = some m ∧
        t.state.managers = Function.update s.state.managers tag none) ∧
    ∀ m r, (s.session m).pc = .rejected r → ∀ as se bs u v, es = as ++ .manager m se :: bs →
      (machine pwMap).run new as = some u → (machine pwMap).step u (.manager m se) = some v →
        ∃ x, v = { u with session := Function.update u.session m x } := by
  have hs := Registry.of_reachable ⟨new, es, rfl, h⟩
  refine ⟨fun tag m hm ↦ ?_, fun m m' tag ↦ hs.managers.injective, fun m t ↦ hs.cleanup, ?_⟩
  · exact ⟨insertedBy_of_run h hm, (hs.managers tag m).mp hm, fun pw ↦ hs.password hm⟩
  · rintro m r hr as se bs u v rfl hu hv
    obtain ⟨u', hu', hrest⟩ := (machine pwMap).run_append_eq_some.mp h
    obtain rfl : u = u' := Option.some.inj (hu.symm.trans hu')
    obtain ⟨v', hv', hbs⟩ := (machine pwMap).run_cons_some hrest
    obtain rfl : v = v' := Option.some.inj (hv.symm.trans hv')
    exact rejected_changes_nothing hu hv hbs hr

/-- A second session with the tag is turned away, and a third one comes while the first has
ended and not yet run its cleanup. -/
def reconnectRun : List (RevEvent Unit Unit (Option Bool)) :=
  let connects (m : Option Bool) (auth : String) : List (RevEvent Unit Unit (Option Bool)) :=
    [.manager m .accept, .manager m (.message (.ok (some ⟨auth, "tag"⟩)))]
  connects none "pw" ++ connects (some false) "no" ++ connects (some true) "pw" ++
    [.manager none .register, .manager none (.message (.ok none)), .manager none .cleanup,
      .manager (some true) .register]

theorem registry_of_run_reconnectRun :
    ∃ s, (machine fun _ ↦ some (some "pw")).run (new : RevSystem Unit Unit (Option Bool))
        reconnectRun = some s ∧
      s.state.managers "tag" = some (some true) ∧
      InsertedBy (fun _ ↦ some (some "pw")) "tag" (some true) reconnectRun ∧
      ∃ msg, (s.session (some true)).firstMsg = some msg ∧ msg.tag = "tag" ∧ msg.auth = "pw" := by
  have hrun : ((machine fun _ ↦ some (some "pw")).run (new : RevSystem Unit Unit (Option Bool))
      reconnectRun).map (fun s ↦ s.state.managers "tag") = some (some (some true)) := by
    decide
  obtain ⟨s, hs, hentry⟩ := Option.map_eq_some_iff.mp hrun
  obtain ⟨hinserted, -, hpw⟩ := (registry_of_run hs).1 "tag" (some true) hentry
  exact ⟨s, hs, hentry, hinserted, hpw "pw" rfl⟩

end RevSystem

end Rog
