import Rog.Listener.RevGrpc

/-!
# Survival of the reverse listener

The task dies of a control message in two places, and its senders with it. What happens then is
followed to the end of `main`.
-/

namespace Rog

open Lib

/-- The event is the return of the call that is pending there. -/
def ListenPc.Answered : ListenPc → ListenEvent → Prop
  | .connecting, .connected _ | .sleeping, .elapsed | .sendAuth _, .authSent _
  | .openManager, .managerOpened _ | .reading, .next _ | .streamHello _ _, .helloSent _
  | .udpHello _, .helloSent _ | .openStream _, .streamOpened _ | .openUdp, .udpOpened _
  | .sendStream _, .sent | .sendUdp _, .sent => True
  | _, _ => False

/-- The calls from there back to the reading of the manager stream or to connecting, at most. -/
def ListenPc.depth : ListenPc → ℕ
  | .connecting | .reading | .panicked => 0
  | .sleeping | .sendStream _ | .sendUdp _ => 1
  | .openManager | .openStream _ | .openUdp => 2
  | .sendAuth _ | .streamHello _ _ | .udpHello _ => 3

theorem ListenPc.depth_le (pc : ListenPc) : pc.depth ≤ 3 := by
  cases pc <;> simp [depth]

namespace RevListener

variable {auth tag : String} {s t : RevListener} {e : ListenEvent} {es : List ListenEvent}

/-- What a control message has to carry where it is used: `udp` when it comes in, and for a
stream that the server has opened `addr_info`. -/
def Handled (s : RevListener) : ListenEvent → Prop
  | .next (some (.ok req)) => req.udp.isSome
  | .streamOpened (.ok _) => match s.pc with
      | .openStream req => req.addrInfo.isSome
      | _ => True
  | _ => True

/-- Whatever the calls of the task return, it reads the manager stream or connects again after so
many of them at most. Before each of them the object may have to take a value out of a channel. -/
def Returns (auth tag : String) : ℕ → RevListener → Prop
  | 0, s => s.pc = .reading ∨ s.pc = .connecting
  | n + 1, s => (s.pc = .reading ∨ s.pc = .connecting) ∨ s.pc ≠ .panicked ∧
      ∃ t, (t = s ∨ s.step auth tag .acceptStream = some t ∨ s.step auth tag .acceptUdp = some t) ∧
        t.pc = s.pc ∧ ∀ e, t.pc.Answered e → t.Handled e →
          ∃ u, t.step auth tag e = some u ∧ Returns auth tag n u

/-- The task is there, its senders are open, no `accept` has failed, and `main` goes on. Where the
task is back it takes what its call returns next. -/
structure Survives (auth tag : String) (s : RevListener) : Prop where
  pc : s.pc ≠ .panicked
  senders : s.streams.txOpen ∧ s.udps.txOpen
  object : s.object = .accepting
  main : s.mainRunning
  returns : s.Returns auth tag 3
  takes : s.pc = .reading ∨ s.pc = .connecting → ∀ e, s.pc.Answered e → (s.step auth tag e).isSome

/-- What is kept as long as the messages are handled. -/
structure Running (s : RevListener) : Prop where
  pc : s.pc ≠ .panicked
  streams : s.streams.txOpen
  udps : s.udps.txOpen
  object : s.object = .accepting
  main : s.mainRunning

theorem running_new : new.Running := by
  constructor <;> simp [new, Mpsc.new]

theorem Running.setPc {pc : ListenPc} (hs : s.Running) (h : pc ≠ .panicked) :
    { s with pc := pc }.Running :=
  ⟨h, hs.streams, hs.udps, hs.object, hs.main⟩

theorem Running.step (hs : s.Running) (hhandled : s.Handled e)
    (h : (machine auth tag).step s e = some t) : t.Running := by
  change s.step auth tag e = some t at h
  cases e with
  | connected ok =>
      simp only [RevListener.step] at h
      split at h <;> cases h
      exact hs.setPc (by cases ok <;> simp)
  | elapsed =>
      simp only [RevListener.step] at h
      split at h <;> cases h
      exact hs.setPc (by simp)
  | authSent ok =>
      simp only [RevListener.step] at h
      split at h <;> cases h
      exact hs.setPc (by cases ok <;> simp)
  | managerOpened ok =>
      simp only [RevListener.step] at h
      split at h <;> cases h
      exact hs.setPc (by cases ok <;> simp)
  | next item =>
      simp only [RevListener.step] at h
      split at h <;> cases h
      case h_1 req hpc =>
        obtain ⟨udp, hudp⟩ := Option.isSome_iff_exists.mp hhandled
        simp only [handleManageReq, hudp]
        split
        · exact hs.setPc (by simp)
        · exact hs.setPc (by simp)
      · exact hs.setPc (by simp)
  | helloSent ok =>
      simp only [RevListener.step] at h
      split at h <;> cases h
      · exact hs.setPc (by cases ok <;> simp)
      · exact hs.setPc (by cases ok <;> simp)
  | streamOpened res =>
      simp only [RevListener.step] at h
      split at h
      case h_1 req stream hpc =>
        have hinfo : req.addrInfo.isSome := by simpa [Handled, hpc] using hhandled
        obtain ⟨addrInfo, hinfo⟩ := Option.isSome_iff_exists.mp hinfo
        simp only [hinfo] at h
        cases h
        exact ⟨by simp, hs.streams, hs.udps, hs.object, hs.main⟩
      · cases h
        exact hs.setPc (by simp)
      · cases h
  | udpOpened res =>
      simp only [RevListener.step] at h
      split at h <;> cases h
      · exact ⟨by simp, hs.streams, hs.udps, hs.object, hs.main⟩
      · exact hs.setPc (by simp)
  | sent =>
      simp only [RevListener.step] at h
      split at h
      · obtain ⟨⟨streams, ok⟩, hsend, rfl⟩ := Option.map_eq_some_iff.mp h
        have hopen := (Mpsc.send_spec hsend).2.trans hs.streams
        exact ⟨by cases ok <;> simp, hopen, hs.udps, hs.object, hs.main⟩
      · obtain ⟨⟨udps, ok⟩, hsend, rfl⟩ := Option.map_eq_some_iff.mp h
        have hopen := (Mpsc.send_spec hsend).2.trans hs.udps
        exact ⟨by cases ok <;> simp, hs.streams, hopen, hs.object, hs.main⟩
      · cases h
  | acceptStream =>
      simp only [RevListener.step, hs.object] at h
      obtain ⟨⟨streams, item⟩, hrecv, rfl⟩ := Option.map_eq_some_iff.mp h
      obtain ⟨hitem, hopen, -⟩ := Mpsc.recv_spec hrecv hs.streams
      obtain ⟨stream, rfl⟩ := Option.isSome_iff_exists.mp hitem
      exact ⟨hs.pc, hopen, hs.udps, rfl, hs.main⟩
  | acceptUdp =>
      simp only [RevListener.step, hs.object] at h
      obtain ⟨⟨udps, item⟩, hrecv, rfl⟩ := Option.map_eq_some_iff.mp h
      obtain ⟨hitem, hopen, -⟩ := Mpsc.recv_spec hrecv hs.udps
      obtain ⟨pair, rfl⟩ := Option.isSome_iff_exists.mp hitem
      exact ⟨hs.pc, hs.streams, hopen, rfl, hs.main⟩
  | dropAcceptor => simp [RevListener.step, hs.object] at h
  | selectAll => simp [RevListener.step, hs.object] at h

theorem panicked_step (hs : s.pc = .panicked) (h : (machine auth tag).step s e = some t) :
    t.pc = .panicked := by
  change s.step auth tag e = some t at h
  cases e <;> simp only [RevListener.step, hs] at h
  case acceptStream =>
    split at h
    · obtain ⟨⟨streams, item⟩, -, rfl⟩ := Option.map_eq_some_iff.mp h
      cases item <;> rfl
    · cases h
  case acceptUdp =>
    split at h
    · obtain ⟨⟨udps, item⟩, -, rfl⟩ := Option.map_eq_some_iff.mp h
      cases item <;> rfl
    · cases h
  case dropAcceptor =>
    split at h <;> cases h
    rfl
  case selectAll =>
    split at h <;> cases h
    rfl
  all_goals cases h

theorem panicked_of_not_handled (hhandled : ¬s.Handled e)
    (h : (machine auth tag).step s e = some t) : t.pc = .panicked := by
  change s.step auth tag e = some t at h
  match e with
  | .next (some (.ok req)) =>
      have hudp : req.udp = none := by simpa [Handled] using hhandled
      simp only [RevListener.step] at h
      split at h <;> cases h
      · simp_all [handleManageReq, panic]
      · simp_all
  | .streamOpened (.ok stream) =>
      simp only [RevListener.step] at h
      split at h
      case h_1 req stream' hpc hres =>
        have hinfo : req.addrInfo = none := by simpa [Handled, hpc] using hhandled
        simp only [hinfo] at h
        cases h
        rfl
      · simp_all
      · cases h
  | .next (some (.error _)) | .next none | .streamOpened (.error _) => exact absurd trivial hhandled
  | .connected _ | .elapsed | .authSent _ | .managerOpened _ | .helloSent _ | .udpOpened _ | .sent
  | .acceptStream | .acceptUdp | .dropAcceptor | .selectAll => exact absurd trivial hhandled

/-! ## The way back -/

/-- What the task sends next has a place in its channel. -/
structure Roomy (s : RevListener) : Prop where
  streams : ∀ stream, s.pc = .sendStream stream → s.streams.queue.length < 8
  udps : ∀ pair, s.pc = .sendUdp pair → s.udps.queue.length < 8

/-- A send to a channel waits for room, which the next `accept` makes. -/
theorem Running.exists_roomy (hs : s.Running) : ∃ t, (t = s ∨
    s.step auth tag .acceptStream = some t ∨ s.step auth tag .acceptUdp = some t) ∧
      t.pc = s.pc ∧ t.Running ∧ t.Roomy := by
  by_cases hroomy : s.Roomy
  · exact ⟨s, .inl rfl, rfl, hs, hroomy⟩
  · cases hpc : s.pc with
    | sendStream stream =>
        have hne : s.streams.queue ≠ [] := by
          intro hnil
          exact hroomy ⟨fun _ _ ↦ by simp [hnil], fun _ h ↦ nomatch hpc.symm.trans h⟩
        obtain ⟨next, rest, hqueue⟩ := List.exists_cons_of_ne_nil hne
        obtain ⟨streams, hrecv, hrest, -⟩ := Mpsc.recv_of_cons hqueue
        have hstep : (machine auth tag).step s .acceptStream =
            some { s with streams := streams } := by
          simp [machine, RevListener.step, hs.object, hrecv, accepted]
        have hlength := s.streams.length_le
        rw [hqueue, List.length_cons] at hlength
        have hrunning := hs.step (e := .acceptStream) trivial hstep
        refine ⟨_, .inr (.inl hstep), hpc, hrunning,
          ⟨fun _ _ ↦ ?_, fun _ h ↦ nomatch hpc.symm.trans h⟩⟩
        rw [hrest]
        omega
    | sendUdp pair =>
        have hne : s.udps.queue ≠ [] := by
          intro hnil
          exact hroomy ⟨fun _ h ↦ (nomatch hpc.symm.trans h), fun _ _ ↦ by simp [hnil]⟩
        obtain ⟨next, rest, hqueue⟩ := List.exists_cons_of_ne_nil hne
        obtain ⟨udps, hrecv, hrest, -⟩ := Mpsc.recv_of_cons hqueue
        have hstep : (machine auth tag).step s .acceptUdp = some { s with udps := udps } := by
          simp [machine, RevListener.step, hs.object, hrecv, accepted]
        have hlength := s.udps.length_le
        rw [hqueue, List.length_cons] at hlength
        have hrunning := hs.step (e := .acceptUdp) trivial hstep
        refine ⟨_, .inr (.inr hstep), hpc, hrunning,
          ⟨fun _ h ↦ (nomatch hpc.symm.trans h), fun _ _ ↦ ?_⟩⟩
        rw [hrest]
        omega
    | _ =>
        exact absurd ⟨fun _ h ↦ (nomatch hpc.symm.trans h), fun _ h ↦ nomatch hpc.symm.trans h⟩
          hroomy

/-- Each return of a call takes the task on. -/
theorem Roomy.exists_step (hs : s.Roomy) (hdepth : s.pc.depth ≠ 0) (he : s.pc.Answered e)
    (hhandled : s.Handled e) : ∃ t, s.step auth tag e = some t ∧ t.pc.depth < s.pc.depth := by
  cases hpc : s.pc with
  | connecting | reading | panicked => exact absurd (by rw [hpc]; rfl) hdepth
  | sleeping =>
      rw [hpc] at he
      cases e with
      | elapsed =>
          exact ⟨{ s with pc := .connecting }, by simp [RevListener.step, hpc], Nat.one_pos⟩
      | _ => exact he.elim
  | sendAuth msg =>
      rw [hpc] at he
      cases e with
      | authSent ok =>
          refine ⟨{ s with pc := if ok then .openManager else .sleeping },
            by simp [RevListener.step, hpc], ?_⟩
          cases ok <;> simp [ListenPc.depth]
      | _ => exact he.elim
  | openManager =>
      rw [hpc] at he
      cases e with
      | managerOpened ok =>
          refine ⟨{ s with pc := if ok then .reading else .sleeping },
            by simp [RevListener.step, hpc], ?_⟩
          cases ok <;> simp [ListenPc.depth]
      | _ => exact he.elim
  | streamHello req msg =>
      rw [hpc] at he
      cases e with
      | helloSent ok =>
          refine ⟨{ s with pc := if ok then .openStream req else .reading },
            by simp [RevListener.step, hpc], ?_⟩
          cases ok <;> simp [ListenPc.depth]
      | _ => exact he.elim
  | udpHello msg =>
      rw [hpc] at he
      cases e with
      | helloSent ok =>
          refine ⟨{ s with pc := if ok then .openUdp else .reading },
            by simp [RevListener.step, hpc], ?_⟩
          cases ok <;> simp [ListenPc.depth]
      | _ => exact he.elim
  | openStream req =>
      rw [hpc] at he
      cases e with
      | streamOpened res =>
          cases res with
          | error err =>
              exact ⟨{ s with pc := .reading }, by simp [RevListener.step, hpc], Nat.two_pos⟩
          | ok stream =>
              have hinfo : req.addrInfo.isSome := by simpa [Handled, hpc] using hhandled
              obtain ⟨addrInfo, hinfo⟩ := Option.isSome_iff_exists.mp hinfo
              exact ⟨{ s with
                pc := .sendStream (managedStream addrInfo stream)
                streams := s.streams.request () }, by simp [RevListener.step, hpc, hinfo],
                Nat.one_lt_two⟩
      | _ => exact he.elim
  | openUdp =>
      rw [hpc] at he
      cases e with
      | udpOpened res =>
          cases res with
          | error err =>
              exact ⟨{ s with pc := .reading }, by simp [RevListener.step, hpc], Nat.two_pos⟩
          | ok stream =>
              exact ⟨{ s with
                pc := .sendUdp (revUdpPair auth stream)
                udps := s.udps.request () }, by simp [RevListener.step, hpc], Nat.one_lt_two⟩
      | _ => exact he.elim
  | sendStream stream =>
      rw [hpc] at he
      cases e with
      | sent =>
          have hplaced : s.streams.Placed () :=
            Mpsc.placed_of_subsingleton.mpr (hs.streams stream hpc)
          obtain ⟨⟨streams, ok⟩, hsend⟩ :=
            Option.isSome_iff_exists.mp (Mpsc.send_of_placed hplaced stream)
          refine ⟨{ s with streams := streams, pc := if ok then .reading else .connecting },
            by simp [RevListener.step, hpc, hsend], ?_⟩
          cases ok <;> exact Nat.one_pos
      | _ => exact he.elim
  | sendUdp pair =>
      rw [hpc] at he
      cases e with
      | sent =>
          have hplaced : s.udps.Placed () := Mpsc.placed_of_subsingleton.mpr (hs.udps pair hpc)
          obtain ⟨⟨udps, ok⟩, hsend⟩ :=
            Option.isSome_iff_exists.mp (Mpsc.send_of_placed hplaced pair)
          refine ⟨{ s with udps := udps, pc := if ok then .reading else .connecting },
            by simp [RevListener.step, hpc, hsend], ?_⟩
          cases ok <;> exact Nat.one_pos
      | _ => exact he.elim

theorem Running.back_of_depth (hs : s.Running) (hdepth : s.pc.depth = 0) :
    s.pc = .reading ∨ s.pc = .connecting := by
  cases hpc : s.pc with
  | connecting => exact .inr rfl
  | reading => exact .inl rfl
  | panicked => exact absurd hpc hs.pc
  | _ => simp [hpc, ListenPc.depth] at hdepth

theorem Running.returns {n : ℕ} (hs : s.Running) (hdepth : s.pc.depth ≤ n) :
    s.Returns auth tag n := by
  induction n generalizing s with
  | zero => exact hs.back_of_depth (Nat.le_zero.mp hdepth)
  | succ n ih =>
      by_cases hzero : s.pc.depth = 0
      · exact .inl (hs.back_of_depth hzero)
      · obtain ⟨t, ht, hpc, hrunning, hroomy⟩ := @exists_roomy auth tag s hs
        refine .inr ⟨hs.pc, t, ht, hpc, fun e he hhandled ↦ ?_⟩
        obtain ⟨u, hu, hlt⟩ := hroomy.exists_step (hpc ▸ hzero) he hhandled
        refine ⟨u, hu, ih (hrunning.step hhandled hu) ?_⟩
        rw [hpc] at hlt
        omega

theorem takes_of_back (hs : s.pc = .reading ∨ s.pc = .connecting) (he : s.pc.Answered e) :
    (s.step auth tag e).isSome := by
  rcases hs with hpc | hpc
  · rw [hpc] at he
    cases e with
    | next item => rcases item with _ | (err | req) <;> simp [RevListener.step, hpc]
    | _ => exact he.elim
  · rw [hpc] at he
    cases e with
    | connected ok => simp [RevListener.step, hpc]
    | _ => exact he.elim

/-! ## Whole runs -/

theorem handled_of_run (h : (machine auth tag).run s es = some t) (ht : t.pc ≠ .panicked) :
    (machine auth tag).Along Handled s es := by
  induction es generalizing s with
  | nil => trivial
  | cons e es ih =>
      obtain ⟨u, hu, hrest⟩ := (machine auth tag).run_cons_some h
      refine (Machine.along_cons_iff hu).mpr ⟨?_, ih hrest⟩
      by_contra hhandled
      have hdead : u.pc = .panicked := panicked_of_not_handled hhandled hu
      have hstays := Machine.run_preserves (I := fun s ↦ s.pc = .panicked) (P := fun _ _ ↦ True)
        (fun _ _ _ _ ↦ panicked_step) (.of_forall (fun _ _ _ ↦ trivial) u) hdead hrest
      exact ht hstays

/-- The listener survives exactly the runs in which all control messages carry what is used of
them. -/
theorem survives_iff_handled (h : (machine auth tag).run new es = some s) :
    s.Survives auth tag ↔ (machine auth tag).Along Handled new es := by
  constructor
  · intro hs
    exact handled_of_run h hs.pc
  · intro hhandled
    have hs : s.Running :=
      Machine.run_preserves (fun _ _ _ hP hI ↦ Running.step hI hP) hhandled running_new h
    exact ⟨hs.pc, ⟨hs.streams, hs.udps⟩, hs.object, hs.main, hs.returns s.pc.depth_le,
      fun hback e he ↦ takes_of_back hback he⟩

def connects : List ListenEvent := [.connected true, .authSent true, .managerOpened true]

/-- A stream and a tunnel are opened, the manager stream fails, and the task connects again. -/
def reconnectRun : List ListenEvent :=
  connects ++
    [.next (some (.ok ⟨some ⟨"h", 80, "", 0⟩, some 0, some "a"⟩)), .helloSent true,
      .streamOpened (.ok []), .sent, .acceptStream, .next (some (.ok ⟨none, some 1, none⟩)),
      .helloSent true, .udpOpened (.ok []), .sent, .next (some (.error "reset")), .connected false,
      .elapsed]

theorem survives_iff_handled_reconnectRun :
    ∃ s, (machine "pw" "tag").run new reconnectRun = some s ∧ s.Survives "pw" "tag" := by
  have hsome : ((machine "pw" "tag").run new reconnectRun).isSome = true := rfl
  obtain ⟨s, hs⟩ := Option.isSome_iff_exists.mp hsome
  have hhandled : (machine "pw" "tag").Along Handled new reconnectRun := by
    simp [reconnectRun, connects, Machine.Along, machine, RevListener.step, new, Handled,
      handleManageReq]
  exact ⟨s, hs, (survives_iff_handled hs).mpr hhandled⟩

/-- A message without `udp`: the task panics, `accept` fails, and `main` ends. -/
theorem message_without_udp_ends_main :
    ∃ s, (machine "pw" "tag").run new
        (connects ++ [.next (some (.ok ⟨some ⟨"h", 80, "", 0⟩, none, some "a"⟩)), .acceptStream,
          .selectAll]) = some s ∧
      s.pc = .panicked ∧ s.object = .returned ⟨.other, "receiver closed"⟩ ∧ ¬s.mainRunning :=
  ⟨_, rfl, rfl, rfl, by simp⟩

end RevListener

end Rog
