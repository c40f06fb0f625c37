import Rog.Object.Udp

/-!
# Associations that end as a whole

The function and the task that reads the control stream are to end together. Where the function
leaves by `?` or a panic nothing cancels the token, and it waits for its first datagram without
looking at the token.
-/

namespace Rog

open Lib

namespace UdpConnection

variable {connector : String → Bool} {s t : UdpConnection} {e : UdpEvent}

def Left (s : UdpConnection) : Prop := ∃ result, s.main = .left result

theorem not_left_of_ne {s : UdpConnection} (h : ∀ result, s.main ≠ .left result) : ¬s.Left := by
  rintro ⟨result, hresult⟩
  exact h result hresult

/-- After `post_handshake` the function does not leave without cancelling the token, by which the
task of the control stream ends, and does not wait for a datagram after this task has ended. -/
structure EndsTogether (connector : String → Bool) (s : UdpConnection) : Prop where
  token : s.a ≠ .unspawned → s.Left → s.token
  control : s.a ≠ .unspawned → s.Left →
    s.a = .ended ∨ ∃ t, s.step connector (.cancelled .a) = some t ∧ t.a = .ended
  waiting : ¬(s.a = .ended ∧ s.main = .firstRecv)

/-- The calls that the function leaves by succeed, unless the token is cancelled, and the control
stream does not end before the first datagram. -/
def Handled (connector : String → Bool) (s : UdpConnection) : UdpEvent → Prop
  | .firstRecv (.ok d) => s.token ∨ ∃ packet, UDPPacket.parse d.1 d.2 = .ok packet
  | .routed clientName => s.token ∨ connector clientName
  | .created r => s.token ∨ r = .ok ()
  | .tunnelOpened r => s.token ∨ r = .ok true
  | .controlRead r => (∃ n, r = .ok (n + 1)) ∨ s.main ≠ .firstRecv
  | _ => True

/-- The tasks that have been spawned where the function is, and what is known of the token. -/
def Phase (s : UdpConnection) : Prop :=
  match s.main with
  | .bind | .refuse _ | .localAddr | .confirm _ =>
      s.a = .unspawned ∧ s.b = .unspawned ∧ s.c = .unspawned ∧ s.token = false
  | .firstRecv | .route _ | .create _ | .udpTunnel _ | .firstWrite _ =>
      (s.a = .selecting ∧ s.token = false ∨ s.a = .ended ∧ s.token) ∧
        s.b = .unspawned ∧ s.c = .unspawned
  | .joinA => s.a = .selecting ∨ s.a = .ended ∧ s.token
  | .joinB | .joinC => s.a = .ended ∧ s.token
  | .left _ => (s.a = .unspawned ∧ s.b = .unspawned ∧ s.c = .unspawned) ∨
      s.a = .selecting ∨ s.a = .ended ∧ s.token

theorem phase_new : new.Phase := ⟨rfl, rfl, rfl, rfl⟩

/-- The tasks `b` and `c` leave the function and the control stream alone. -/
theorem relay_frame (he : e.OfRelay) (h : s.step connector e = some t) :
    t.main = s.main ∧ t.a = s.a ∧ (s.token → t.token) := by
  cases e with
  | cancelled task =>
      simp only [UdpConnection.step, stepMain, stepTask, Option.none_or] at h
      split at h
      · cases task with
        | a => exact he.elim
        | b =>
            dsimp only at h
            split at h
            · obtain rfl := Option.some.inj h
              exact ⟨rfl, rfl, fun _ ↦ rfl⟩
            · cases h
        | c =>
            dsimp only at h
            split at h
            · obtain rfl := Option.some.inj h
              exact ⟨rfl, rfl, fun _ ↦ rfl⟩
            · cases h
      · cases h
  | recv r =>
      simp only [UdpConnection.step, stepMain, stepTask, Option.none_or] at h
      split at h
      · obtain rfl := Option.some.inj h
        cases r with
        | error e => exact ⟨rfl, rfl, fun _ ↦ rfl⟩
        | ok d =>
            dsimp only [next]
            split
            · exact ⟨rfl, rfl, fun _ ↦ rfl⟩
            · exact ⟨rfl, rfl, id⟩
            · split <;> exact ⟨rfl, rfl, id⟩
      · cases h
  | tunnelRead r =>
      simp only [UdpConnection.step, stepMain, stepTask, Option.none_or] at h
      split at h
      · obtain rfl := Option.some.inj h
        rcases r with (e | _) | packet
        · exact ⟨rfl, rfl, fun _ ↦ rfl⟩
        · exact ⟨rfl, rfl, id⟩
        · exact ⟨rfl, rfl, id⟩
      · cases h
  | written r | sent r =>
      simp only [UdpConnection.step, stepMain, stepTask, Option.none_or] at h
      split at h
      · obtain rfl := Option.some.inj h
        cases r with
        | error e => exact ⟨rfl, rfl, fun _ ↦ rfl⟩
        | ok u => exact ⟨rfl, rfl, id⟩
      · cases h
  | _ => exact he.elim

/-- They have been spawned before they do anything. -/
theorem relay_spawned (he : e.OfRelay) (h : s.step connector e = some t) :
    ¬(s.b = .unspawned ∧ s.c = .unspawned) := by
  rintro ⟨hb, hc⟩
  cases e with
  | cancelled task =>
      cases task <;> simp [UdpConnection.step, stepMain, stepTask, hb, hc, UdpEvent.OfRelay] at h he
  | recv r | written r | tunnelRead r | sent r =>
      simp [UdpConnection.step, stepMain, stepTask, hb, hc] at h
  | _ => exact he.elim

theorem Phase.relay (hs : s.Phase) (he : e.OfRelay) (h : s.step connector e = some t) :
    t.Phase := by
  obtain ⟨hmain, ha, htoken⟩ := relay_frame he h
  have hspawned := relay_spawned he h
  have hcontrol (h : s.a = .selecting ∨ s.a = .ended ∧ s.token) :
      t.a = .selecting ∨ t.a = .ended ∧ t.token := by
    rw [ha]
    exact h.imp_right (And.imp_right htoken)
  unfold Phase at hs ⊢
  rw [hmain]
  cases hpc : s.main with
  | bind | refuse _ | localAddr | confirm _ =>
      rw [hpc] at hs
      exact absurd ⟨hs.2.1, hs.2.2.1⟩ hspawned
  | firstRecv | route _ | create _ | udpTunnel _ | firstWrite _ =>
      rw [hpc] at hs
      exact absurd hs.2 hspawned
  | joinA =>
      rw [hpc] at hs
      exact hcontrol hs
  | joinB | joinC =>
      rw [hpc] at hs
      exact ⟨ha.trans hs.1, htoken hs.2⟩
  | left result =>
      rw [hpc] at hs
      exact hs.elim (fun hs ↦ absurd hs.2 hspawned) (fun hs ↦ .inr (hcontrol hs))

theorem Phase.leave (hs : s.Phase) (result : Io Unit) : (s.leave result).Phase := by
  obtain ⟨main, a, b, c, token, arrived, tunnelled⟩ := s
  cases main with
  | bind | refuse _ | localAddr | confirm _ => exact .inl ⟨hs.1, hs.2.1, hs.2.2.1⟩
  | firstRecv | route _ | create _ | udpTunnel _ | firstWrite _ =>
      exact .inr (hs.1.imp_left And.left)
  | joinA => exact .inr hs
  | joinB | joinC => exact .inr (.inr hs)
  | left result => exact hs

/-- It can cancel the token then: the task of the control stream still ends by it. -/
theorem Phase.cancel (hs : s.Phase) (result : Io Unit) :
    { s.leave result with token := true }.Phase :=
  Or.imp_right (Or.imp_right (And.imp_right fun _ ↦ rfl)) (hs.leave result)

theorem Phase.endA (hs : s.Phase) (ha : s.a = .selecting) : s.endA.Phase := by
  obtain ⟨main, a, b, c, token, arrived, tunnelled⟩ := s
  dsimp only at ha
  obtain rfl := ha
  cases main with
  | bind | refuse _ | localAddr | confirm _ => exact nomatch hs.1
  | firstRecv | route _ | create _ | udpTunnel _ | firstWrite _ =>
      exact ⟨.inr ⟨rfl, rfl⟩, hs.2⟩
  | joinA => exact .inr ⟨rfl, rfl⟩
  | joinB | joinC => exact ⟨rfl, rfl⟩
  | left result => exact .inr (.inr ⟨rfl, rfl⟩)

theorem Phase.step (hs : s.Phase) (h : s.step connector e = some t) : t.Phase := by
  by_cases he : e.OfRelay
  · exact hs.relay he h
  obtain ⟨main, a, b, c, token, arrived, tunnelled⟩ := s
  cases e with
  | bound r =>
      cases main <;> cases h
      cases r <;> exact hs
  | refused r =>
      cases main <;> cases h
      cases r <;> exact hs.leave _
  | localAddr r | created r =>
      cases main <;> cases h
      cases r with
      | ok v => exact hs
      | error e => exact hs.leave _
  | confirmed r =>
      cases main <;> cases h
      cases r with
      | ok v => exact ⟨.inl ⟨rfl, hs.2.2.2⟩, hs.2.1, hs.2.2.1⟩
      | error e => exact hs.leave _
  | firstRecv r =>
      cases main <;> cases h
      cases r with
      | error e => exact hs.cancel _
      | ok d =>
          dsimp only [first]
          split
          · rename_i e _
            exact Phase.leave hs (.error e)
          · split
            · exact Phase.cancel hs (.ok ())
            · exact hs
  | routed clientName =>
      cases main <;> cases h
      split
      · exact hs
      · exact hs.leave _
  | tunnelOpened r =>
      cases main <;> cases h
      cases r with
      | ok opened =>
          cases opened with
          | true => exact hs
          | false => exact hs.leave _
      | error e => exact hs.leave _
  | firstWritten r =>
      cases main <;> cases h
      cases r with
      | ok v => exact hs.1.imp_left And.left
      | error e => exact hs.cancel _
  | joined =>
      cases main with
      | joinA =>
          cases a <;> cases h
          exact hs.resolve_left nofun
      | joinB =>
          cases b <;> cases h
          exact hs
      | joinC =>
          cases c <;> cases h
          exact .inr (.inr hs)
      | _ => cases h
  | cancelled task =>
      cases task with
      | a =>
          cases token <;> cases a <;> cases h
          exact hs.endA rfl
      | b | c => exact absurd trivial he
  | controlRead r =>
      cases a <;> cases h
      split
      · exact hs
      · exact hs.endA rfl
  | _ => exact absurd trivial he

theorem endsTogether_iff (hs : s.Phase) : s.EndsTogether connector ↔
    (s.a ≠ .unspawned → s.Left → s.token) ∧ ¬(s.a = .ended ∧ s.main = .firstRecv) := by
  refine ⟨fun h ↦ ⟨h.token, h.waiting⟩,
    fun ⟨htoken, hwaiting⟩ ↦ ⟨htoken, fun ha hleft ↦ ?_, hwaiting⟩⟩
  have hcancelled := htoken ha hleft
  obtain ⟨result, hmain⟩ := hleft
  unfold Phase at hs
  rw [hmain] at hs
  rcases hs with ⟨hun, -⟩ | hselecting | ⟨hended, -⟩
  · exact absurd hun ha
  · refine .inr ⟨s.endA, ?_, rfl⟩
    simp [UdpConnection.step, stepMain, stepTask, hcancelled, hselecting]
  · exact .inl hended

theorem EndsTogether.step_iff (hs : s.Phase) (hends : s.EndsTogether connector)
    (h : s.step connector e = some t) : t.EndsTogether connector ↔ s.Handled connector e := by
  rw [endsTogether_iff (hs.step h)]
  rw [endsTogether_iff hs] at hends
  obtain ⟨htoken, hfirst⟩ := hends
  by_cases he : e.OfRelay
  · obtain ⟨hmain, ha, hkeeps⟩ := relay_frame he h
    have hhandled : s.Handled connector e := by
      cases e <;> trivial
    rw [hmain, ha, Left, hmain]
    exact iff_of_true ⟨fun h hleft ↦ hkeeps (htoken h hleft), hfirst⟩ hhandled
  obtain ⟨main, a, b, c, token, arrived, tunnelled⟩ := s
  cases e with
  | bound r | refused r | localAddr r =>
      cases main <;> cases h
      obtain ⟨rfl, -⟩ := hs
      cases r <;> simp [Left, question, leave, Handled]
  | confirmed r =>
      cases main <;> cases h
      obtain ⟨rfl, -⟩ := hs
      cases r <;> simp [Left, question, leave, Handled]
  | firstRecv r =>
      cases main <;> cases h
      rcases hs.1 with ⟨rfl, rfl⟩ | ⟨rfl, -⟩
      · cases r with
        | error e => simp [Left, leave, Handled]
        | ok d =>
            dsimp only [first]
            split
            · rename_i e hparse
              simp [Left, leave, Handled, hparse]
            · rename_i packet hparse
              split <;> simp [Left, leave, Handled, hparse]
      · exact absurd ⟨rfl, rfl⟩ hfirst
  | routed clientName =>
      cases main <;> cases h
      rcases hs.1 with ⟨rfl, rfl⟩ | ⟨rfl, rfl⟩ <;> split <;> simp_all [Left, leave, Handled]
  | created r =>
      cases main <;> cases h
      rcases hs.1 with ⟨rfl, rfl⟩ | ⟨rfl, rfl⟩ <;>
        cases r <;> simp [Left, question, leave, Handled]
  | tunnelOpened r =>
      cases main <;> cases h
      rcases hs.1 with ⟨rfl, rfl⟩ | ⟨rfl, rfl⟩
      · cases r with
        | error e => simp [Left, leave, Handled]
        | ok opened => cases opened <;> simp [Left, leave, Handled]
      · cases r with
        | error e => simp [Left, leave, Handled]
        | ok opened => cases opened <;> simp [Left, leave, Handled]
  | firstWritten r =>
      cases main <;> cases h
      cases r <;> simp [Left, leave, Handled]
  | joined =>
      cases main with
      | joinA =>
          cases a <;> cases h
          simp [Left, Handled]
      | joinB =>
          cases b <;> cases h
          simp [Left, Handled]
      | joinC =>
          cases c <;> cases h
          simp [Left, leave, Handled, hs.2]
      | _ => cases h
  | cancelled task =>
      cases task with
      | a =>
          cases token <;> cases a <;> cases h
          refine iff_of_true ⟨fun _ _ ↦ rfl, fun ⟨_, hmain⟩ ↦ ?_⟩ trivial
          obtain rfl : main = .firstRecv := hmain
          rcases hs.1 with ⟨-, h⟩ | ⟨h, -⟩ <;> cases h
      | b | c => exact absurd trivial he
  | controlRead r =>
      cases a <;> cases h
      split
      · exact iff_of_true ⟨htoken, hfirst⟩ (.inl ⟨_, rfl⟩)
      · rename_i hr
        have hstops : ¬∃ n, r = .ok (n + 1) := fun ⟨n, h⟩ ↦ hr n h
        simp [endA, Handled, hstops]
  | _ => exact absurd trivial he

/-- Function and control stream end together exactly in the runs in which every step is handled. -/
theorem ends_together_iff {es : List UdpEvent} (h : (machine connector).run new es = some t) :
    (∀ es' u, es' <+: es → (machine connector).run new es' = some u → u.EndsTogether connector) ↔
      (machine connector).Along (Handled connector) new es := by
  have hany : (machine connector).Along (fun _ _ ↦ True) new es :=
    .of_forall (fun _ _ _ ↦ trivial) new
  refine Machine.along_iff_forall_isPrefix (fun s e u _ hs hends hstep ↦ ?_) hany phase_new ?_ h
  · exact ⟨Phase.step hs hstep, EndsTogether.step_iff hs hends hstep⟩
  · exact (endsTogether_iff phase_new).mpr ⟨fun ha ↦ absurd rfl ha, fun h ↦ nomatch h.1⟩

/-- The function up to its first datagram. -/
def starts : List UdpEvent := [.bound (.ok ()), .localAddr (.ok 4000), .confirmed (.ok ())]

theorem ends_together_recvFails :
    ((machine fun _ ↦ true).run new (starts ++ [.firstRecv (.error ⟨.other, ""⟩)])).isSome ∧
      ∀ es' u, es' <+: starts ++ [.firstRecv (.error ⟨.other, ""⟩)] →
        (machine fun _ ↦ true).run new es' = some u → u.EndsTogether fun _ ↦ true := by
  have hrun : (machine fun _ ↦ true).run new (starts ++ [.firstRecv (.error ⟨.other, ""⟩)]) = some
    ⟨.left (.error (.err ⟨.other, ""⟩)), .selecting, .unspawned, .unspawned, true, [], []⟩ := rfl
  refine ⟨Option.isSome_iff_exists.mpr ⟨_, hrun⟩,
    (ends_together_iff hrun).mpr (.of_forall (fun e he s ↦ ?_) new)⟩
  simp only [starts, List.cons_append, List.nil_append, List.mem_cons, List.not_mem_nil,
    or_false] at he
  rcases he with rfl | rfl | rfl | rfl <;> trivial

/-- An empty datagram comes first. -/
theorem first_datagram_leaves : ¬∀ connector es t, (machine connector).run new es = some t →
    t.EndsTogether connector := by
  intro h
  let d : RecvFrom := ([], ⟨.v4 ⟨127, 0, 0, 1⟩, 5000⟩)
  have hrun : (machine fun _ ↦ true).run new (starts ++ [.firstRecv (.ok d)]) =
    some ⟨.left (Io.raise .invalidData "udp parse packet too short"), .selecting, .unspawned,
      .unspawned, false, [d], []⟩ := rfl
  have htoken := (h _ _ _ hrun).token (fun ha ↦ nomatch ha) ⟨_, rfl⟩
  cases htoken

end UdpConnection

end Rog
