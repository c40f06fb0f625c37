import Rog.Lib.ForwardLoop
import Rog.Object.Tasks

/-!
# Raw UDP relays

`handle_raw_udp` from the opening of the tunnel on. Its loop `b` takes the packets of the listener
to the tunnel, and its loop `c` takes those of the tunnel back.
-/

namespace Rog

open Lib

inductive RawUdpRelayPc where
  | udpTunnel (firstPacket : UDPPacket)
  | firstWrite (firstPacket : UDPPacket)
  | joinB
  | joinC
  | left (result : Except RawUdpError Unit)

inductive RawUdpEvent where
  /-- `udp_tunnel` returns a tunnel, or none, or panics. -/
  | tunnelOpened (r : Io Bool)
  | firstWritten (r : Except IoError Unit)
  | b (e : LoopEvent UDPPacket IoError)
  | c (e : LoopEvent UDPPacket IoError)
  | joined

/-- The event is one of the two loops. -/
def RawUdpEvent.ofLoop : RawUdpEvent → Bool
  | .b _ | .c _ => true
  | .tunnelOpened _ | .firstWritten _ | .joined => false

/-- Where the event is the return of a call of a loop, it returns the one or the other. -/
def RawUdpEvent.Returns (readB readC : Except IoError UDPPacket) (written : Except IoError Unit) :
    RawUdpEvent → Prop
  | .b e => e.Returns readB written
  | .c e => e.Returns readC written
  | .tunnelOpened _ | .firstWritten _ | .joined => True

/-- The two loops, as they are spawned with the token. -/
abbrev RawUdpLoops := LoopPair UDPPacket UDPPacket UDPPacket UDPPacket

/-- `loops` is there from when the loops are spawned, and `first` has the first packet once it is
written to the tunnel. `tx` and `rx` have what `add_tx` and `add_rx` were called with. -/
structure RawUdp where
  main : RawUdpRelayPc
  first : List UDPPacket
  loops : Option RawUdpLoops
  tx : ℕ
  rx : ℕ

namespace RawUdp

/-- `raw udp drop`. -/
def keep (packet : UDPPacket) : Option UDPPacket :=
  if packet.data = [] then none else some packet

def new (firstPacket : UDPPacket) : RawUdp := ⟨.udpTunnel firstPacket, [], none, 0, 0⟩

def leave (s : RawUdp) (result : Except RawUdpError Unit) : RawUdp := { s with main := .left result }

/-- What is counted when a loop has written the packet it is about. -/
def counted (l : ForwardLoop UDPPacket UDPPacket) : LoopEvent UDPPacket IoError → ℕ
  | .written (.ok ()) => (l.pc.items.map (·.data.length)).sum
  | _ => 0

def noTunnel : IoError := ⟨.other, "UDP tunnel creation failed or not supported by connector"⟩

def step (s : RawUdp) : RawUdpEvent → Option RawUdp
  | .tunnelOpened r => match s.main with
      | .udpTunnel firstPacket => some <| match r with
          | .ok true => { s with main := .firstWrite firstPacket }
          | .ok false => s.leave (.error (.io noTunnel))
          | .error e => s.leave (.error e.rawUdp)
      | _ => none
  | .firstWritten r => match s.main with
      | .firstWrite firstPacket => some <| match r with
          | .ok () => { s with
              main := .joinB
              first := [firstPacket]
              loops := some .new
              tx := s.tx + firstPacket.data.length }
          | .error e => s.leave (.error (.io e))
      | _ => none
  | .b e => do
      let loops ← s.loops
      let loops' ← loops.step keep some (.first e)
      return { s with loops := some loops', tx := s.tx + counted loops.first e }
  | .c e => do
      let loops ← s.loops
      let loops' ← loops.step keep some (.second e)
      return { s with loops := some loops', rx := s.rx + counted loops.second e }
  | .joined => do
      let loops ← s.loops
      match s.main with
      | .joinB => if loops.first.pc.Over then some { s with main := .joinC } else none
      | .joinC => if loops.second.pc.Over then some (s.leave (.ok ())) else none
      | _ => none

def machine (firstPacket : UDPPacket) : Machine RawUdp RawUdpEvent where
  init s := s = new firstPacket
  step := step

/-- The packets that were written to the tunnel, and those that were written back. -/
def tunnelled (s : RawUdp) : List UDPPacket :=
  s.first ++ (s.loops.map (·.first.given)).getD []

def replied (s : RawUdp) : List UDPPacket := (s.loops.map (·.second.given)).getD []

def bytes (packets : List UDPPacket) : ℕ := (packets.map (·.data.length)).sum

theorem filterMap_keep (packets : List UDPPacket) :
    packets.filterMap keep = packets.filter fun packet ↦ packet.data ≠ [] := by
  induction packets with
  | nil => rfl
  | cons packet packets ih =>
      by_cases h : packet.data = []
      · simp [keep, h, ih]
      · simp [keep, h, ih]

variable {firstPacket : UDPPacket} {s s' : RawUdp} {e : RawUdpEvent} {loops : RawUdpLoops}

/-- What a step can be. -/
theorem step_cases (h : s.step e = some s') :
    (∃ main, s' = { s with main := main } ∧ (∀ e', e ≠ .b e' ∧ e ≠ .c e') ∧
      ((∃ p, s.main = .udpTunnel p ∧ (main = .firstWrite p ∨ ∃ err, main = .left (.error err))) ∨
        (∃ p err, s.main = .firstWrite p ∧ main = .left (.error err)) ∨
        ∃ loops, e = .joined ∧ s.loops = some loops ∧
          (s.main = .joinB ∧ loops.first.pc.Over ∧ main = .joinC ∨
            s.main = .joinC ∧ loops.second.pc.Over ∧ main = .left (.ok ())))) ∨
    (∃ p, s.main = .firstWrite p ∧ e = .firstWritten (.ok ()) ∧
      s' = ⟨.joinB, [p], some .new, s.tx + p.data.length, s.rx⟩) ∨
    (∃ e' loops loops', e = .b e' ∧ s.loops = some loops ∧
      loops.step keep some (.first e') = some loops' ∧
      s' = { s with loops := some loops', tx := s.tx + counted loops.first e' }) ∨
    ∃ e' loops loops', e = .c e' ∧ s.loops = some loops ∧
      loops.step keep some (.second e') = some loops' ∧
      s' = { s with loops := some loops', rx := s.rx + counted loops.second e' } := by
  cases e with
  | tunnelOpened r =>
      obtain ⟨main, first, loops, tx, rx⟩ := s
      cases main with
      | udpTunnel p =>
          rcases r with err | opened
          · cases h
            exact .inl ⟨_, rfl, fun _ ↦ ⟨nofun, nofun⟩, .inl ⟨p, rfl, .inr ⟨_, rfl⟩⟩⟩
          · cases opened <;> cases h
            · exact .inl ⟨_, rfl, fun _ ↦ ⟨nofun, nofun⟩, .inl ⟨p, rfl, .inr ⟨_, rfl⟩⟩⟩
            · exact .inl ⟨_, rfl, fun _ ↦ ⟨nofun, nofun⟩, .inl ⟨p, rfl, .inl rfl⟩⟩
      | _ => cases h
  | firstWritten r =>
      obtain ⟨main, first, loops, tx, rx⟩ := s
      cases main with
      | firstWrite p =>
          rcases r with err | v
          · cases h
            exact .inl ⟨_, rfl, fun _ ↦ ⟨nofun, nofun⟩, .inr (.inl ⟨p, _, rfl, rfl⟩)⟩
          · cases h
            exact .inr (.inl ⟨p, rfl, rfl, rfl⟩)
      | _ => cases h
  | b e' =>
      simp only [step, bind, Option.bind_eq_some_iff] at h
      obtain ⟨loops, hloops, loops', hstep, h⟩ := h
      exact .inr (.inr (.inl ⟨e', loops, loops', rfl, hloops, hstep, (Option.some.inj h).symm⟩))
  | c e' =>
      simp only [step, bind, Option.bind_eq_some_iff] at h
      obtain ⟨loops, hloops, loops', hstep, h⟩ := h
      exact .inr (.inr (.inr ⟨e', loops, loops', rfl, hloops, hstep, (Option.some.inj h).symm⟩))
  | joined =>
      simp only [step, bind, Option.bind_eq_some_iff] at h
      obtain ⟨loops, hloops, h⟩ := h
      obtain ⟨main, first, _, tx, rx⟩ := s
      cases main with
      | joinB =>
          dsimp only at h
          split at h
          · rename_i hover
            cases h
            exact .inl ⟨_, rfl, fun _ ↦ ⟨nofun, nofun⟩,
              .inr (.inr ⟨loops, rfl, hloops, .inl ⟨rfl, hover, rfl⟩⟩)⟩
          · cases h
      | joinC =>
          dsimp only at h
          split at h
          · rename_i hover
            cases h
            exact .inl ⟨_, rfl, fun _ ↦ ⟨nofun, nofun⟩,
              .inr (.inr ⟨loops, rfl, hloops, .inr ⟨rfl, hover, rfl⟩⟩)⟩
          · cases h
      | _ => cases h

/-! ## What is forwarded -/

/-- The counters go with the packets that are written. -/
theorem bytes_given {f : UDPPacket → Option UDPPacket} {token : Bool}
    {l l' : ForwardLoop UDPPacket UDPPacket} {e : LoopEvent UDPPacket IoError}
    (h : l.step f token e = some l') : bytes l'.given = bytes l.given + counted l e := by
  rcases ForwardLoop.step_cases h with ⟨rfl, -, -, rfl⟩ | ⟨rfl, -, -, rfl⟩ | ⟨rfl, -, rfl⟩ |
    ⟨a, rfl, -, rfl⟩ | ⟨err, rfl, -, rfl⟩ | ⟨item, rfl, hpc, rfl⟩ | ⟨item, err, rfl, -, rfl⟩ |
    ⟨rfl, -, rfl⟩ | ⟨rfl, -, rfl⟩
  · rfl
  · rfl
  · rfl
  · rfl
  · rfl
  · simp [ForwardLoop.give, counted, hpc, LoopPc.items, bytes]
  · rfl
  · rfl
  · rfl

structure Accounts (firstPacket : UDPPacket) (s : RawUdp) : Prop where
  packet : ∀ p, s.main = .udpTunnel p ∨ s.main = .firstWrite p → p = firstPacket ∧ s.loops = none
  unspawned : s.loops = none → s.first = [] ∧ s.tx = 0 ∧ s.rx = 0
  spawned : ∀ loops, s.loops = some loops → s.first = [firstPacket] ∧ loops.Forwards keep some ∧
    s.tx = bytes (firstPacket :: loops.first.given) ∧ s.rx = bytes loops.second.given

namespace Accounts

theorem new (firstPacket : UDPPacket) : (new firstPacket).Accounts firstPacket where
  packet p h := by
    rcases h with h | h
    · exact ⟨(RawUdpRelayPc.udpTunnel.inj h).symm, rfl⟩
    · cases h
  unspawned _ := ⟨rfl, rfl, rfl⟩
  spawned loops h := by cases h

theorem step (hs : s.Accounts firstPacket) (h : s.step e = some s') : s'.Accounts firstPacket := by
  rcases step_cases h with ⟨main, rfl, -, hmain⟩ | ⟨p, hp, -, rfl⟩ |
    ⟨e', loops, loops', -, hloops, hstep, rfl⟩ | ⟨e', loops, loops', -, hloops, hstep, rfl⟩
  · refine ⟨fun p hp ↦ ?_, hs.unspawned, hs.spawned⟩
    rcases hmain with ⟨q, hq, rfl | ⟨err, rfl⟩⟩ | ⟨q, err, -, rfl⟩ |
      ⟨loops, -, -, ⟨-, -, rfl⟩ | ⟨-, -, rfl⟩⟩
    · rcases hp with hp | hp
      · cases hp
      · obtain rfl := RawUdpRelayPc.firstWrite.inj hp
        exact hs.packet q (.inl hq)
    · rcases hp with hp | hp <;> cases hp
    · rcases hp with hp | hp <;> cases hp
    · rcases hp with hp | hp <;> cases hp
    · rcases hp with hp | hp <;> cases hp
  · obtain ⟨rfl, hnone⟩ := hs.packet p (.inr hp)
    obtain ⟨-, htx, hrx⟩ := hs.unspawned hnone
    refine ⟨fun q hq ↦ ?_, fun h ↦ ?_, fun loops h ↦ ?_⟩
    · rcases hq with hq | hq <;> cases hq
    · cases h
    · obtain rfl := Option.some.inj h
      exact ⟨rfl, .new, by simp [htx, bytes, LoopPair.new, ForwardLoop.new],
        by simp [hrx, bytes, LoopPair.new, ForwardLoop.new]⟩
  · obtain ⟨hfirst, hforwards, htx, hrx⟩ := hs.spawned loops hloops
    refine ⟨fun p hp ↦ ?_, fun h ↦ ?_, fun l h ↦ ?_⟩
    · cases hloops.symm.trans (hs.packet p hp).2
    · cases h
    · obtain rfl := Option.some.inj h
      refine ⟨hfirst, hforwards.step hstep, ?_, ?_⟩
      · rcases LoopPair.step_cases hstep with ⟨_, l, he, hl, rfl⟩ | ⟨_, l, he, -, -⟩
        · obtain rfl := PairEvent.first.inj he
          have hgiven := bytes_given hl
          simp only [bytes, List.map_cons, List.sum_cons] at htx hgiven ⊢
          omega
        · cases he
      · rcases LoopPair.step_cases hstep with ⟨_, l, he, -, rfl⟩ | ⟨_, l, he, -, -⟩
        · exact hrx
        · cases he
  · obtain ⟨hfirst, hforwards, htx, hrx⟩ := hs.spawned loops hloops
    refine ⟨fun p hp ↦ ?_, fun h ↦ ?_, fun l h ↦ ?_⟩
    · cases hloops.symm.trans (hs.packet p hp).2
    · cases h
    · obtain rfl := Option.some.inj h
      refine ⟨hfirst, hforwards.step hstep, ?_, ?_⟩
      · rcases LoopPair.step_cases hstep with ⟨_, l, he, -, -⟩ | ⟨_, l, he, -, rfl⟩
        · cases he
        · exact htx
      · rcases LoopPair.step_cases hstep with ⟨_, l, he, -, -⟩ | ⟨_, l, he, hl, rfl⟩
        · cases he
        · obtain rfl := PairEvent.second.inj he
          have hgiven := bytes_given hl
          change s.rx + counted loops.second e' = bytes l.given
          omega

theorem of_reachable (h : (machine firstPacket).Reachable s) : s.Accounts firstPacket := by
  refine h.invariant (I := fun s ↦ s.Accounts firstPacket) ?_ fun s e s' hs hstep ↦ hs.step hstep
  rintro s rfl
  exact .new firstPacket

end Accounts

/-- The tunnel gets the packets that the listener hands over, in order: the first one as it is, and
of the others those that have data. The listener gets all packets of the tunnel. In either direction
at most one packet is on its way or has got lost, and the counters have what was written. -/
theorem forwards_of_reachable (h : (machine firstPacket).Reachable s) :
    s.tx = bytes s.tunnelled ∧ s.rx = bytes s.replied ∧
    (s.loops = none → s.tunnelled = [] ∧ s.replied = []) ∧
    ∀ loops, s.loops = some loops →
      (∃ rest, rest.length ≤ 1 ∧ (loops.first.pc ≠ .left → ¬loops.first.pc.Over →
          rest = loops.first.pc.items) ∧ s.tunnelled ++ rest =
        firstPacket :: loops.first.taken.filter fun packet ↦ packet.data ≠ []) ∧
      ∃ rest, rest.length ≤ 1 ∧ (loops.second.pc ≠ .left → ¬loops.second.pc.Over →
          rest = loops.second.pc.items) ∧ s.replied ++ rest = loops.second.taken := by
  have hs := Accounts.of_reachable h
  cases hloops : s.loops with
  | none =>
      obtain ⟨hfirst, htx, hrx⟩ := hs.unspawned hloops
      have htunnelled : s.tunnelled = [] := by simp [tunnelled, hfirst, hloops]
      have hreplied : s.replied = [] := by simp [replied, hloops]
      refine ⟨?_, ?_, fun _ ↦ ⟨htunnelled, hreplied⟩, fun loops h ↦ ?_⟩
      · rw [htx, htunnelled]
        rfl
      · rw [hrx, hreplied]
        rfl
      · cases h
  | some loops =>
      obtain ⟨hfirst, hforwards, htx, hrx⟩ := hs.spawned loops hloops
      have htunnelled : s.tunnelled = firstPacket :: loops.first.given := by
        simp [tunnelled, hfirst, hloops]
      have hreplied : s.replied = loops.second.given := by simp [replied, hloops]
      refine ⟨by rw [htx, htunnelled], by rw [hrx, hreplied], fun h ↦ ?_, fun l h ↦ ?_⟩
      · cases h
      · obtain rfl := Option.some.inj h
        obtain ⟨rest, hrest, htaken⟩ := hforwards.first.lost
        obtain ⟨rest', hrest', htaken'⟩ := hforwards.second.lost
        refine ⟨⟨rest, hrest, fun hleft hover ↦ ?_, ?_⟩, rest', hrest', fun hleft hover ↦ ?_, ?_⟩
        · exact List.append_cancel_left (htaken.trans (hforwards.first.exact hleft hover).symm)
        · rw [htunnelled, List.cons_append, htaken, filterMap_keep]
        · exact List.append_cancel_left (htaken'.trans (hforwards.second.exact hleft hover).symm)
        · rw [hreplied, htaken', List.filterMap_some]

/-- A packet of `n` bytes from a client to a resolver. -/
def query (n : ℕ) : UDPPacket := ⟨⟨"1.2.3.4", 53, "10.0.0.1", 5000⟩, List.replicate n 7⟩

/-- After the first packet an empty one arrives and one with data, there is a reply, and the tunnel
is closed then. -/
def answered : List RawUdpEvent :=
  [.tunnelOpened (.ok true), .firstWritten (.ok ()), .b .uncancelled, .b (.read (.ok (query 0))),
    .b .uncancelled, .b (.read (.ok (query 2))), .b (.written (.ok ())), .c .uncancelled,
    .c (.read (.ok (query 3))), .c (.written (.ok ())), .c .uncancelled,
    .c (.read (.error ⟨.brokenPipe, "stream closed"⟩)), .c .cancel]

theorem forwards_answered : ∃ s, (machine (query 1)).run (new (query 1)) answered = some s ∧
    s.tx = bytes s.tunnelled ∧ s.tunnelled = [query 1, query 2] ∧ s.rx = 3 := by
  have hrun : ((machine (query 1)).run (new (query 1)) answered).isSome := by decide
  obtain ⟨s, hs⟩ := Option.isSome_iff_exists.mp hrun
  have hreach : (machine (query 1)).Reachable s := ⟨new (query 1), answered, rfl, hs⟩
  obtain ⟨htx, -, -, -⟩ := forwards_of_reachable hreach
  refine ⟨s, hs, htx, ?_⟩
  cases hs
  exact ⟨rfl, rfl⟩

/-! ## How it ends -/

/-- The function waits for both loops. -/
structure Joins (s : RawUdp) : Prop where
  spawned : s.loops ≠ none → s.main = .joinB ∨ s.main = .joinC ∨ ∃ r, s.main = .left r
  joinC : ∀ loops, s.loops = some loops → s.main = .joinC → loops.first.pc.Over
  left : ∀ loops, s.loops = some loops → (∃ r, s.main = .left r) → loops.Over

namespace Joins

theorem new (firstPacket : UDPPacket) : (new firstPacket).Joins where
  spawned h := absurd rfl h
  joinC loops h := by cases h
  left loops h := by cases h

theorem loop_step (hs : s.Joins) (hloops : s.loops = some loops) {loops' : RawUdpLoops}
    {e : PairEvent UDPPacket UDPPacket IoError} (h : loops.step keep some e = some loops')
    (tx rx : ℕ) : ({ s with loops := some loops', tx := tx, rx := rx } : RawUdp).Joins := by
  obtain ⟨hfirst, hsecond⟩ := LoopPair.over_step h
  refine ⟨fun _ ↦ hs.spawned (by simp [hloops]), fun l hl hmain ↦ ?_, fun l hl hmain ↦ ?_⟩
  · obtain rfl := Option.some.inj hl
    exact hfirst (hs.joinC loops hloops hmain)
  · obtain rfl := Option.some.inj hl
    have hover := hs.left loops hloops hmain
    exact ⟨hfirst hover.1, hsecond hover.2⟩

theorem step (hs : s.Joins) (haccounts : s.Accounts firstPacket) (h : s.step e = some s') :
    s'.Joins := by
  rcases step_cases h with ⟨main, rfl, -, hmain⟩ | ⟨p, hp, -, rfl⟩ |
    ⟨e', loops, loops', -, hloops, hstep, rfl⟩ | ⟨e', loops, loops', -, hloops, hstep, rfl⟩
  · rcases hmain with ⟨q, hq, -⟩ | ⟨q, err, hq, -⟩ |
      ⟨loops, -, hloops, ⟨hjoin, hover, rfl⟩ | ⟨hjoin, hover, rfl⟩⟩
    · have hnone := (haccounts.packet q (.inl hq)).2
      exact ⟨fun h ↦ absurd hnone h, fun l hl ↦ (nomatch hnone.symm.trans hl),
        fun l hl ↦ nomatch hnone.symm.trans hl⟩
    · have hnone := (haccounts.packet q (.inr hq)).2
      exact ⟨fun h ↦ absurd hnone h, fun l hl ↦ (nomatch hnone.symm.trans hl),
        fun l hl ↦ nomatch hnone.symm.trans hl⟩
    · refine ⟨fun _ ↦ .inr (.inl rfl), fun l hl _ ↦ ?_, fun l hl ⟨r, hr⟩ ↦ (nomatch hr)⟩
      obtain rfl := Option.some.inj (hloops.symm.trans hl)
      exact hover
    · refine ⟨fun _ ↦ .inr (.inr ⟨_, rfl⟩), fun l hl hr ↦ (nomatch hr), fun l hl _ ↦ ?_⟩
      obtain rfl := Option.some.inj (hloops.symm.trans hl)
      exact ⟨hs.joinC loops hloops hjoin, hover⟩
  · exact ⟨fun _ ↦ .inl rfl, fun l hl hr ↦ (nomatch hr), fun l hl ⟨r, hr⟩ ↦ (nomatch hr)⟩
  · exact hs.loop_step hloops hstep _ s.rx
  · exact hs.loop_step hloops hstep s.tx _

theorem of_reachable (h : (machine firstPacket).Reachable s) : s.Joins := by
  refine h.invariant_of (I := Joins) (fun s ↦ Accounts.of_reachable) ?_
    fun s e s' haccounts hs hstep ↦ hs.step haccounts hstep
  rintro s rfl
  exact .new firstPacket

end Joins

/-- Where one loop is over the token is cancelled. -/
def Together (s : RawUdp) : Prop := ∀ loops, s.loops = some loops → loops.Together

/-- No loop panics before the token is cancelled. -/
def Calm (s : RawUdp) (e : RawUdpEvent) : Prop :=
  ∀ loops, s.loops = some loops → e = .b .panicked ∨ e = .c .panicked → loops.token = true

theorem Together.step_iff (hs : s.Together) (h : s.step e = some s') :
    s'.Together ↔ s.Calm e := by
  rcases step_cases h with ⟨main, rfl, hother, -⟩ | ⟨p, -, rfl, rfl⟩ |
    ⟨e', loops, loops', rfl, hloops, hstep, rfl⟩ | ⟨e', loops, loops', rfl, hloops, hstep, rfl⟩
  · apply iff_of_true hs
    rintro loops - (he | he)
    · exact absurd he (hother _).1
    · exact absurd he (hother _).2
  · refine iff_of_true ?_ (by rintro loops - (h | h) <;> cases h)
    rintro loops h (hover | hover)
    · obtain rfl := Option.some.inj h
      exact hover.elim
    · obtain rfl := Option.some.inj h
      exact hover.elim
  · have hiff := LoopPair.Together.step_iff (hs loops hloops) hstep
    constructor
    · intro ht l hl he
      obtain rfl := Option.some.inj (hloops.symm.trans hl)
      refine hiff.mp (ht loops' rfl) (.inl ?_)
      rcases he with he | he <;> cases he
      rfl
    · intro hcalm l hl
      obtain rfl := Option.some.inj hl
      refine hiff.mpr fun he ↦ hcalm loops hloops (.inl ?_)
      rcases he with he | he <;> cases he
      rfl
  · have hiff := LoopPair.Together.step_iff (hs loops hloops) hstep
    constructor
    · intro ht l hl he
      obtain rfl := Option.some.inj (hloops.symm.trans hl)
      refine hiff.mp (ht loops' rfl) (.inr ?_)
      rcases he with he | he <;> cases he
      rfl
    · intro hcalm l hl
      obtain rfl := Option.some.inj hl
      refine hiff.mpr fun he ↦ hcalm loops hloops (.inr ?_)
      rcases he with he | he <;> cases he
      rfl

/-- The token stays cancelled, and the events of the loops are numbered. -/
theorem step_cancelled (hloops : s.loops = some loops) (htoken : loops.token = true)
    (hs : s.Accounts firstPacket) (h : s.step e = some s') : ∃ loops', s'.loops = some loops' ∧
      loops'.token = true ∧ (if e.ofLoop then 1 else 0) + loops'.rank ≤ loops.rank ∧
      loops'.first.given.length + loops'.first.pc.writes ≤
        loops.first.given.length + loops.first.pc.writes ∧
      loops'.second.given.length + loops'.second.pc.writes ≤
        loops.second.given.length + loops.second.pc.writes := by
  rcases step_cases h with ⟨main, rfl, hother, -⟩ | ⟨p, hp, -, -⟩ |
    ⟨e', l, loops', rfl, hl, hstep, rfl⟩ | ⟨e', l, loops', rfl, hl, hstep, rfl⟩
  · have hloop : e.ofLoop = false := by
      cases e with
      | b e' => exact absurd rfl (hother e').1
      | c e' => exact absurd rfl (hother e').2
      | _ => rfl
    exact ⟨loops, hloops, htoken, by simp [hloop], le_rfl, le_rfl⟩
  · cases hloops.symm.trans (hs.packet p (.inr hp)).2
  · obtain rfl := Option.some.inj (hloops.symm.trans hl)
    obtain ⟨htoken', hrank, hfirst, hsecond⟩ := LoopPair.step_cancelled htoken hstep
    refine ⟨loops', rfl, htoken', ?_, hfirst, hsecond⟩
    simp only [RawUdpEvent.ofLoop, if_true]
    omega
  · obtain rfl := Option.some.inj (hloops.symm.trans hl)
    obtain ⟨htoken', hrank, hfirst, hsecond⟩ := LoopPair.step_cancelled htoken hstep
    refine ⟨loops', rfl, htoken', ?_, hfirst, hsecond⟩
    simp only [RawUdpEvent.ofLoop, if_true]
    omega

theorem run_cancelled (hloops : s.loops = some loops) (htoken : loops.token = true)
    (hs : s.Accounts firstPacket) {es : List RawUdpEvent}
    (h : (machine firstPacket).run s es = some s') : ∃ loops', s'.loops = some loops' ∧
      es.countP RawUdpEvent.ofLoop + loops'.rank ≤ loops.rank ∧
      loops'.first.given.length + loops'.first.pc.writes ≤
        loops.first.given.length + loops.first.pc.writes ∧
      loops'.second.given.length + loops'.second.pc.writes ≤
        loops.second.given.length + loops.second.pc.writes := by
  induction es generalizing s loops with
  | nil =>
      obtain rfl : s = s' := by simpa using h
      exact ⟨loops, hloops, by simp, le_rfl, le_rfl⟩
  | cons e es ih =>
      obtain ⟨t, ht, hrest⟩ := Machine.run_cons_some _ h
      obtain ⟨loops₁, hloops₁, htoken₁, hrank, hfirst, hsecond⟩ :=
        step_cancelled hloops htoken hs ht
      obtain ⟨loops', hloops', hrank', hfirst', hsecond'⟩ :=
        ih hloops₁ htoken₁ (hs.step ht) hrest
      refine ⟨loops', hloops', ?_, hfirst'.trans hfirst, hsecond'.trans hsecond⟩
      rw [List.countP_cons]
      omega

/-- The step of the function that is this step of its loops. -/
def ofPair : PairEvent UDPPacket UDPPacket IoError → RawUdpEvent
  | .first e => .b e
  | .second e => .c e

theorem run_of_loops (firstPacket : UDPPacket) (hloops : s.loops = some loops)
    {es : List (PairEvent UDPPacket UDPPacket IoError)} {loops' : RawUdpLoops}
    (h : (LoopPair.machine keep some).run loops es = some loops') :
    ∃ s', (machine firstPacket).run s (es.map ofPair) = some s' ∧ s'.loops = some loops' ∧
      s'.main = s.main := by
  induction es generalizing s loops with
  | nil =>
      obtain rfl : loops = loops' := by simpa using h
      exact ⟨s, rfl, hloops, rfl⟩
  | cons e es ih =>
      obtain ⟨l, hl, hrest⟩ := Machine.run_cons_some _ h
      obtain ⟨t, ht, htl, hmain⟩ : ∃ t, s.step (ofPair e) = some t ∧ t.loops = some l ∧
          t.main = s.main := by
        have hstep : loops.step keep some e = some l := hl
        cases e with
        | first e' =>
            exact ⟨{ s with loops := some l, tx := s.tx + counted loops.first e' },
              by simp [step, ofPair, hloops, hstep], rfl, rfl⟩
        | second e' =>
            exact ⟨{ s with loops := some l, rx := s.rx + counted loops.second e' },
              by simp [step, ofPair, hloops, hstep], rfl, rfl⟩
      obtain ⟨s', hrun, hloops', hmain'⟩ := ih htl hrest
      refine ⟨s', ?_, hloops', hmain'.trans hmain⟩
      rw [List.map_cons, Machine.run_cons]
      exact Option.bind_eq_some_iff.mpr ⟨t, ht, hrun⟩

/-- With both loops over the function returns. -/
theorem run_joined (firstPacket : UDPPacket) (hs : s.Joins) (hloops : s.loops = some loops)
    (hover : loops.Over) :
    ∃ n s', (machine firstPacket).run s (List.replicate n .joined) = some s' ∧
      ∃ r, s'.main = .left r := by
  have hjoinC : ∀ t : RawUdp, t.loops = some loops → t.main = .joinC →
      t.step .joined = some (t.leave (.ok ())) := by
    intro t ht hmain
    simp [step, ht, hmain, hover.2]
  rcases hs.spawned (by simp [hloops]) with hmain | hmain | ⟨r, hmain⟩
  · let t : RawUdp := { s with main := .joinC }
    have hjoinB : s.step .joined = some t := by simp [step, hloops, hmain, hover.1, t]
    refine ⟨2, t.leave (.ok ()), ?_, _, rfl⟩
    simp [Machine.run_cons, machine, hjoinB, hjoinC t hloops rfl]
  · refine ⟨1, s.leave (.ok ()), ?_, _, rfl⟩
    simp [Machine.run_cons, machine, hjoinC s hloops hmain]
  · exact ⟨0, s, rfl, r, hmain⟩

/-- The loops end together in exactly the runs in which none of them panics before the token is
cancelled. -/
theorem together_iff {es : List RawUdpEvent}
    (h : (machine firstPacket).run (new firstPacket) es = some s) :
    (∀ es' t, es' <+: es → (machine firstPacket).run (new firstPacket) es' = some t →
      t.Together) ↔ (machine firstPacket).Along Calm (new firstPacket) es := by
  have hany : (machine firstPacket).Along (fun _ _ ↦ True) (new firstPacket) es :=
    .of_forall (fun _ _ _ ↦ trivial) _
  have hnew : (new firstPacket).Together := by
    intro loops h
    cases h
  exact Machine.along_iff_forall_isPrefix (I := fun _ ↦ True)
    (fun s e t _ _ hs hstep ↦ ⟨trivial, Together.step_iff hs hstep⟩) hany trivial hnew h

theorem together_answered : ((machine (query 1)).run (new (query 1)) answered).isSome ∧
    ∀ es' t, es' <+: answered →
      (machine (query 1)).run (new (query 1)) es' = some t → t.Together := by
  have hrun : ((machine (query 1)).run (new (query 1)) answered).isSome := by decide
  obtain ⟨s, hs⟩ := Option.isSome_iff_exists.mp hrun
  refine ⟨hrun, (together_iff hs).mpr (.of_forall (fun e he s loops _ hpanic ↦ ?_) _)⟩
  rcases hpanic with rfl | rfl <;> simp [answered] at he

/-- Once the token is cancelled the loops have eight more steps at most, whatever their calls
return, and in either direction one more packet at most is forwarded. The function comes to its end
then, and not before both loops have. -/
theorem ends_of_cancelled (h : (machine firstPacket).Reachable s) (hloops : s.loops = some loops)
    (htoken : loops.token = true) :
    (∀ es s', (machine firstPacket).run s es = some s' → es.countP RawUdpEvent.ofLoop ≤ 8 ∧
      s'.tunnelled.length ≤ s.tunnelled.length + 1 ∧
      s'.replied.length ≤ s.replied.length + 1) ∧
    ((∃ r, s.main = .left r) → loops.Over) ∧
    ∀ readB readC written, ∃ es s', (machine firstPacket).run s es = some s' ∧
      (∃ r, s'.main = .left r) ∧ ∀ e ∈ es, e.Returns readB readC written := by
  have hs := Accounts.of_reachable h
  have hjoins := Joins.of_reachable h
  obtain ⟨hfirst, -⟩ := hs.spawned loops hloops
  refine ⟨fun es s' hrun ↦ ?_, hjoins.left loops hloops, fun readB readC written ↦ ?_⟩
  · obtain ⟨loops', hloops', hrank, htunnelled, hreplied⟩ :=
      run_cancelled hloops htoken hs hrun
    obtain ⟨hfirst', -⟩ := (Accounts.of_reachable (h.of_run hrun)).spawned loops' hloops'
    refine ⟨(Nat.le_of_add_right_le hrank).trans loops.rank_le, ?_, ?_⟩
    · have hwrites := loops.first.pc.writes_le
      simp only [tunnelled, hfirst, hfirst', hloops, hloops', Option.map_some, Option.getD_some,
        List.length_append]
      omega
    · have hwrites := loops.second.pc.writes_le
      simp only [replied, hloops, hloops', Option.map_some, Option.getD_some]
      omega
  · obtain ⟨es, loops', hrun, hover, hes⟩ :=
      LoopPair.exists_over htoken keep some readB readC written
    obtain ⟨t, ht, htl, -⟩ := run_of_loops firstPacket hloops hrun
    obtain ⟨n, s', hjoined, hleft⟩ :=
      run_joined firstPacket (Joins.of_reachable (h.of_run ht)) htl hover
    refine ⟨es.map ofPair ++ List.replicate n .joined, s', ?_, hleft, fun e he ↦ ?_⟩
    · exact (machine firstPacket).run_append_eq_some.mpr ⟨t, ht, hjoined⟩
    · rcases List.mem_append.mp he with he | he
      · obtain ⟨e', he', rfl⟩ := List.mem_map.mp he
        have hreturns := hes e' he'
        cases e' <;> exact hreturns
      · rw [List.eq_of_mem_replicate he]
        trivial

theorem ends_answered : ∃ s, (machine (query 1)).run (new (query 1)) answered = some s ∧
    ∃ es s', (machine (query 1)).run s es = some s' ∧ ∃ r, s'.main = .left r := by
  let found : Option (RawUdp × RawUdpLoops) :=
    ((machine (query 1)).run (new (query 1)) answered).bind fun s ↦ s.loops.bind fun loops ↦
      if loops.token then some (s, loops) else none
  have hfound : found.isSome := by decide
  obtain ⟨⟨s, loops⟩, h⟩ := Option.isSome_iff_exists.mp hfound
  obtain ⟨s', hs, h⟩ := Option.bind_eq_some_iff.mp h
  obtain ⟨loops', hloops, h⟩ := Option.bind_eq_some_iff.mp h
  split at h
  · rename_i htoken
    cases h
    have hreach : (machine (query 1)).Reachable s := ⟨new (query 1), answered, rfl, hs⟩
    obtain ⟨-, -, hends⟩ := ends_of_cancelled hreach hloops htoken
    obtain ⟨es, s', hrun, hleft, -⟩ := hends (.ok (query 0)) (.ok (query 0)) (.ok ())
    exact ⟨s, hs, es, s', hrun, hleft⟩
  · cases h

end RawUdp

end Rog
