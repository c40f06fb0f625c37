import Rog.Object.UdpCancel

/-!
# What an association forwards

While all goes well around it, an association is to forward each datagram that has data and to
skip the others. Both the function and the task `b` have their own way of meeting a datagram that
is not well formed.
-/

namespace Rog

open Lib

/-- The packet of a datagram that is to be forwarded. -/
def forwarded (d : RecvFrom) : Option UDPPacket :=
  match UDPPacket.parse d.1 d.2 with
  | .ok packet => if packet.data = [] then none else some packet
  | .error _ => none

/-- The first datagram is one to forward, no later one is malformed, and neither the socket nor the
reading of the tunnel fails. -/
def UdpEvent.WellFormed : UdpEvent → Prop
  | .firstRecv (.ok d) => (forwarded d).isSome
  | .recv (.ok d) => ∃ packet, UDPPacket.parse d.1 d.2 = .ok packet
  | .firstRecv (.error _) | .recv (.error _) | .tunnelRead (.error (.err _)) | .sent (.error _) =>
      False
  | _ => True

/-- The control stream stays open, and routing, the opening of the tunnel and the writes to it
succeed. -/
def UdpEvent.Friendly (connector : String → Bool) : UdpEvent → Prop
  | .routed clientName => connector clientName
  | .created r | .firstWritten r | .written r => r = .ok ()
  | .tunnelOpened r => r = .ok true
  | .controlRead r => ∃ n, r = .ok (n + 1)
  | _ => True

def UdpPc.packet : UdpPc → List UDPPacket
  | .route packet | .create packet | .udpTunnel packet | .firstWrite packet => [packet]
  | _ => []

def UdpTaskPc.packet : UdpTaskPc → List UDPPacket
  | .writing packet => [packet]
  | _ => []

namespace UdpConnection

variable {connector : String → Bool} {s t : UdpConnection} {e : UdpEvent}

/-- The packets that were written, and the one that is being written, are those of the datagrams,
and the association goes on. -/
structure Forwards (s : UdpConnection) : Prop where
  packets : s.tunnelled ++ (s.main.packet ++ s.b.packet) = s.arrived.filterMap forwarded
  alive : s.a ≠ .unspawned → ¬s.Left ∧ s.token = false

theorem forwards_new : new.Forwards :=
  ⟨rfl, fun h ↦ absurd rfl h⟩

theorem Phase.of_spawned (hs : s.Phase) (hb : s.b ≠ .unspawned) :
    s.a ≠ .unspawned ∧ s.main.packet = [] := by
  obtain ⟨main, a, b, c, token, arrived, tunnelled⟩ := s
  have hspawned (h : a = .selecting ∨ a = .ended ∧ token) : a ≠ .unspawned := by
    rintro rfl
    rcases h with h | ⟨h, -⟩ <;> cases h
  cases main with
  | bind | refuse _ | localAddr | confirm _ => exact absurd hs.2.1 hb
  | firstRecv | route _ | create _ | udpTunnel _ | firstWrite _ => exact absurd hs.2.1 hb
  | joinA => exact ⟨hspawned hs, rfl⟩
  | joinB | joinC => exact ⟨hspawned (.inr hs), rfl⟩
  | left result => exact hs.elim (fun h ↦ absurd h.2.1 hb) (fun h ↦ ⟨hspawned h, rfl⟩)

theorem Phase.of_reading (hs : s.Phase) (hc : s.c ≠ .unspawned) : s.a ≠ .unspawned := by
  obtain ⟨main, a, b, c, token, arrived, tunnelled⟩ := s
  rintro rfl
  cases main with
  | bind | refuse _ | localAddr | confirm _ => exact hc hs.2.2.1
  | firstRecv | route _ | create _ | udpTunnel _ | firstWrite _ => exact hc hs.2.2
  | joinA => rcases hs with h | ⟨h, -⟩ <;> cases h
  | joinB | joinC => cases hs.1
  | left result => rcases hs with ⟨-, -, h⟩ | h | ⟨h, -⟩ <;> first | exact hc h | cases h

theorem filterMap_arrived {ds : List RecvFrom} {d : RecvFrom} :
    (ds ++ [d]).filterMap forwarded = ds.filterMap forwarded ++ (forwarded d).toList := by
  rw [List.filterMap_append]
  cases hd : forwarded d <;> simp [hd]

theorem Forwards.first_iff (hphase : s.Phase) (hs : s.Forwards) (hmain : s.main = .firstRecv)
    (d : RecvFrom) : ({ s with arrived := s.arrived ++ [d] }.first d).Forwards ↔
      (forwarded d).isSome := by
  obtain ⟨main, a, b, c, token, arrived, tunnelled⟩ := s
  dsimp only at hmain
  obtain rfl := hmain
  obtain ⟨hcontrol, hb, hc⟩ := hphase
  dsimp only at hcontrol hb hc
  obtain rfl := hb
  obtain rfl := hc
  have ha : a ≠ .unspawned := by
    rintro rfl
    rcases hcontrol with ⟨h, -⟩ | ⟨h, -⟩ <;> cases h
  have hpackets : tunnelled = arrived.filterMap forwarded := by
    simpa [UdpPc.packet, UdpTaskPc.packet] using hs.packets
  dsimp only [first]
  split
  · rename_i e hparse
    have hnone : forwarded d = none := by rw [forwarded, hparse]
    rw [hnone]
    exact iff_of_false (fun h ↦ (h.alive ha).1 ⟨_, rfl⟩) nofun
  · rename_i packet hparse
    by_cases hdata : packet.data = []
    · have hnone : forwarded d = none := by simp [forwarded, hparse, hdata]
      rw [if_pos hdata, hnone]
      exact iff_of_false (fun h ↦ (h.alive ha).1 ⟨_, rfl⟩) nofun
    · have hsome : forwarded d = some packet := by simp [forwarded, hparse, hdata]
      rw [if_neg hdata, hsome]
      refine iff_of_true ⟨?_, fun _ ↦ ⟨nofun, (hs.alive ha).2⟩⟩ rfl
      rw [filterMap_arrived, hsome, ← hpackets]
      rfl

theorem Forwards.next_iff (hphase : s.Phase) (hs : s.Forwards) (hb : s.b = .selecting)
    (d : RecvFrom) : ({ s with arrived := s.arrived ++ [d] }.next d).Forwards ↔
      ∃ packet, UDPPacket.parse d.1 d.2 = .ok packet := by
  obtain ⟨ha, hmain⟩ := hphase.of_spawned (by rw [hb]; rintro ⟨⟩)
  have hpackets : s.tunnelled = s.arrived.filterMap forwarded := by
    simpa [hmain, hb, UdpTaskPc.packet] using hs.packets
  dsimp only [next]
  split
  · rename_i e hparse
    rw [hparse]
    exact iff_of_false (fun h ↦ nomatch (h.alive ha).2) nofun
  · rename_i hparse
    exact absurd hparse (UDPPacket.parse_ne_panic _ _)
  · rename_i packet hparse
    rw [hparse]
    refine iff_of_true ?_ ⟨packet, rfl⟩
    by_cases hdata : packet.data = []
    · have hnone : forwarded d = none := by simp [forwarded, hparse, hdata]
      rw [if_pos hdata]
      refine ⟨?_, hs.alive⟩
      rw [filterMap_arrived, hnone, ← hpackets]
      simp [hmain, hb, UdpTaskPc.packet]
    · have hsome : forwarded d = some packet := by simp [forwarded, hparse, hdata]
      rw [if_neg hdata]
      refine ⟨?_, hs.alive⟩
      rw [filterMap_arrived, hsome, ← hpackets]
      simp [hmain, UdpTaskPc.packet]

theorem Forwards.step_iff (hphase : s.Phase) (hs : s.Forwards)
    (hfriendly : e.Friendly connector) (h : s.step connector e = some t) :
    t.Forwards ↔ e.WellFormed := by
  cases e with
  | firstRecv r =>
      have hmain : s.main = .firstRecv := by
        obtain ⟨main, a, b, c, token, arrived, tunnelled⟩ := s
        cases main <;> cases h
        rfl
      cases r with
      | ok d =>
          obtain rfl : { s with arrived := s.arrived ++ [d] }.first d = t := by
            simpa [UdpConnection.step, stepMain, stepTask, hmain] using h
          exact Forwards.first_iff hphase hs hmain d
      | error e =>
          obtain ⟨main, a, b, c, token, arrived, tunnelled⟩ := s
          dsimp only at hmain
          obtain rfl := hmain
          cases h
          refine iff_of_false (fun h ↦ (h.alive ?_).1 ⟨_, rfl⟩) id
          rcases hphase.1 with ⟨rfl, -⟩ | ⟨rfl, -⟩ <;> rintro ⟨⟩
  | recv r =>
      have hb : s.b = .selecting := by
        obtain ⟨main, a, b, c, token, arrived, tunnelled⟩ := s
        cases b <;> cases h
        rfl
      cases r with
      | ok d =>
          obtain rfl : { s with arrived := s.arrived ++ [d] }.next d = t := by
            simpa [UdpConnection.step, stepMain, stepTask, hb] using h
          exact Forwards.next_iff hphase hs hb d
      | error e =>
          obtain ⟨ha, -⟩ := hphase.of_spawned (by rw [hb]; rintro ⟨⟩)
          obtain rfl : s.endB = t := by
            simpa [UdpConnection.step, stepMain, stepTask, hb] using h
          exact iff_of_false (fun h ↦ by cases (h.alive ha).2) id
  | bound r | refused r | localAddr r =>
      refine iff_of_true ?_ trivial
      obtain ⟨main, a, b, c, token, arrived, tunnelled⟩ := s
      cases main <;> cases h
      obtain ⟨rfl, -⟩ := hphase
      cases r <;> exact ⟨hs.packets, fun ha ↦ absurd rfl ha⟩
  | confirmed r =>
      refine iff_of_true ?_ trivial
      obtain ⟨main, a, b, c, token, arrived, tunnelled⟩ := s
      cases main <;> cases h
      obtain ⟨rfl, -, -, rfl⟩ := hphase
      cases r with
      | ok v => exact ⟨hs.packets, fun _ ↦ ⟨not_left_of_ne (by rintro r ⟨⟩), rfl⟩⟩
      | error e => exact ⟨hs.packets, fun ha ↦ absurd rfl ha⟩
  | routed clientName =>
      refine iff_of_true ?_ trivial
      obtain ⟨main, a, b, c, token, arrived, tunnelled⟩ := s
      cases main <;> cases h
      have hroutes : connector clientName = true := hfriendly
      rw [if_pos hroutes]
      exact ⟨hs.packets, fun ha ↦ ⟨not_left_of_ne (by rintro r ⟨⟩), (hs.alive ha).2⟩⟩
  | created r | tunnelOpened r =>
      refine iff_of_true ?_ trivial
      obtain rfl := hfriendly
      obtain ⟨main, a, b, c, token, arrived, tunnelled⟩ := s
      cases main <;> cases h
      exact ⟨hs.packets, fun ha ↦ ⟨not_left_of_ne (by rintro r ⟨⟩), (hs.alive ha).2⟩⟩
  | firstWritten r =>
      refine iff_of_true ?_ trivial
      obtain rfl := hfriendly
      obtain ⟨main, a, b, c, token, arrived, tunnelled⟩ := s
      cases main <;> cases h
      obtain ⟨-, hb, -⟩ := hphase
      dsimp only at hb
      obtain rfl := hb
      refine ⟨?_, fun ha ↦ ⟨not_left_of_ne (by rintro r ⟨⟩), (hs.alive ha).2⟩⟩
      simpa [UdpPc.packet, UdpTaskPc.packet] using hs.packets
  | joined =>
      -- Only with the control stream closed is there anything to join.
      exfalso
      have hclosed : s.a = .ended ∧ s.token := by
        obtain ⟨main, a, b, c, token, arrived, tunnelled⟩ := s
        cases main with
        | joinA => cases a <;> cases h; exact ⟨rfl, (hphase.resolve_left (by rintro ⟨⟩)).2⟩
        | joinB => cases b <;> cases h; exact hphase
        | joinC => cases c <;> cases h; exact hphase
        | _ => cases h
      have hopen := (hs.alive (by rw [hclosed.1]; rintro ⟨⟩)).2
      cases hopen.symm.trans hclosed.2
  | cancelled task =>
      -- Nothing has cancelled the token.
      exfalso
      obtain ⟨main, a, b, c, token, arrived, tunnelled⟩ := s
      cases token with
      | false => cases task <;> cases h
      | true =>
          have ha : a = .unspawned := of_not_not fun ha ↦ by cases (hs.alive ha).2
          obtain rfl := ha
          cases task with
          | a => cases h
          | b => cases b <;> cases h; exact (hphase.of_spawned (by rintro ⟨⟩)).1 rfl
          | c => cases c <;> cases h; exact (hphase.of_reading (by rintro ⟨⟩)) rfl
  | controlRead r =>
      refine iff_of_true ?_ trivial
      obtain ⟨n, rfl⟩ := hfriendly
      obtain ⟨main, a, b, c, token, arrived, tunnelled⟩ := s
      cases a <;> cases h
      exact hs
  | written r =>
      refine iff_of_true ?_ trivial
      obtain rfl := hfriendly
      obtain ⟨main, a, b, c, token, arrived, tunnelled⟩ := s
      cases b <;> cases h
      obtain ⟨-, hpacket⟩ := hphase.of_spawned (by rintro ⟨⟩)
      refine ⟨?_, hs.alive⟩
      have hpackets := hs.packets
      rw [hpacket] at hpackets ⊢
      simpa [UdpTaskPc.packet] using hpackets
  | tunnelRead r =>
      obtain ⟨main, a, b, c, token, arrived, tunnelled⟩ := s
      cases c <;> cases h
      have ha := hphase.of_reading (by rintro ⟨⟩)
      rcases r with (e | _) | packet
      · exact iff_of_false (fun h ↦ by cases (h.alive ha).2) id
      · exact iff_of_true ⟨hs.packets, hs.alive⟩ trivial
      · exact iff_of_true ⟨hs.packets, hs.alive⟩ trivial
  | sent r =>
      obtain ⟨main, a, b, c, token, arrived, tunnelled⟩ := s
      cases c <;> cases h
      have ha := hphase.of_reading (by rintro ⟨⟩)
      cases r with
      | error e => exact iff_of_false (fun h ↦ by cases (h.alive ha).2) id
      | ok v => exact iff_of_true ⟨hs.packets, hs.alive⟩ trivial

/-- An association forwards what it should, and goes on, in exactly the runs in which no datagram is
malformed, nor the first one a fragment, and the socket and the tunnel can be read and replies be
sent. -/
theorem forwards_iff {es : List UdpEvent} (hfriendly : ∀ e ∈ es, e.Friendly connector)
    (h : (machine connector).run new es = some t) :
    (∀ es' u, es' <+: es → (machine connector).run new es' = some u → u.Forwards) ↔
      ∀ e ∈ es, e.WellFormed := by
  have hall : (machine connector).Along (fun _ e ↦ e.Friendly connector) new es :=
    .of_forall (fun e he _ ↦ hfriendly e he) new
  rw [← Machine.along_iff_forall_mem h]
  refine Machine.along_iff_forall_isPrefix (I := Phase)
    (fun s e u he hs hforwards hstep ↦ ?_) hall phase_new forwards_new h
  exact ⟨hs.step hstep, Forwards.step_iff hs hforwards he hstep⟩

/-- One byte for port 80 of an address. -/
def wellFormedDatagram : RecvFrom := ([0, 0, 0, 1, 1, 2, 3, 4, 0, 80, 9], ⟨.v4 ⟨127, 0, 0, 1⟩, 5000⟩)

def fragmentDatagram : RecvFrom := ([0, 0, 1, 1, 1, 2, 3, 4, 0, 80, 9], ⟨.v4 ⟨127, 0, 0, 1⟩, 5000⟩)

/-- Besides the datagrams there is a reply, and the tunnel panics at the end. -/
def relayed : List UdpEvent :=
  starts ++ [.firstRecv (.ok wellFormedDatagram), .routed "direct", .created (.ok ()),
    .tunnelOpened (.ok true), .firstWritten (.ok ()), .recv (.ok fragmentDatagram),
    .tunnelRead (.ok ⟨⟨"1.2.3.4", 80, "127.0.0.1", 5000⟩, [8]⟩), .sent (.ok ()),
    .tunnelRead (.error .panic), .recv (.ok wellFormedDatagram), .written (.ok ())]

theorem forwards_relayed : ((machine fun _ ↦ true).run new relayed).isSome ∧
    ∀ es' u, es' <+: relayed → (machine fun _ ↦ true).run new es' = some u → u.Forwards := by
  have hrun : ((machine fun _ ↦ true).run new relayed).isSome := by decide
  obtain ⟨t, ht⟩ := Option.isSome_iff_exists.mp hrun
  have hfirst : (forwarded wellFormedDatagram).isSome := by decide
  have hfriendly : ∀ e ∈ relayed, e.Friendly fun _ ↦ true := by
    simp [relayed, starts, UdpEvent.Friendly]
  have hwell : ∀ e ∈ relayed, e.WellFormed := by
    simp only [relayed, starts, List.cons_append, List.nil_append, List.forall_mem_cons]
    exact ⟨trivial, trivial, trivial, hfirst, trivial, trivial, trivial, trivial, ⟨_, rfl⟩, trivial,
      trivial, trivial, ⟨_, rfl⟩, trivial, by rintro e ⟨⟩⟩
  exact ⟨hrun, (forwards_iff hfriendly ht).mpr hwell⟩

/-- A fragment comes first. -/
theorem fragment_ends_association : ¬∀ connector es t, (∀ e ∈ es, e.Friendly connector) →
    (machine connector).run new es = some t → t.Forwards := by
  intro h
  have hrun : (machine fun _ ↦ true).run new (starts ++ [.firstRecv (.ok fragmentDatagram)]) =
    some ⟨.left (.ok ()), .selecting, .unspawned, .unspawned, true, [fragmentDatagram], []⟩ := rfl
  have hfriendly : ∀ e ∈ starts ++ [.firstRecv (.ok fragmentDatagram)],
      e.Friendly fun _ ↦ true := by
    simp [starts, UdpEvent.Friendly]
  exact ((h (fun _ ↦ true) _ _ hfriendly hrun).alive (by rintro ⟨⟩)).1 ⟨_, rfl⟩

end UdpConnection

end Rog
