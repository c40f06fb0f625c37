import Rog.Pool.Accounting
import Rog.Pool.WakeUp
import Rog.Relay.Buffered

/-!
# Steps that a lane can take

What is shown of a connection in the end comes from steps that its own tasks can take in any state
that it gets into. That needs to be known of the tasks and the calls that they have made: where a
task is, its call can only be in some of its states.
-/

namespace Rog

open Lib

/-! ## Where the tasks and their calls can be -/

/-- The state of the `provide` call while its task is here. -/
def Reader.Allows : Reader → Provide → Prop
  | .reading, p | .finished _, p => p = .idle
  | .providing, p => p ≠ .cancelNotified ∧ p ≠ .cancelWait
  | .finishing _, p => p = .idle ∨ p = .cancelNotified ∨ p = .cancelWait

/-- The state of the `consume` call while its task is here. -/
def Writer.Allows : Writer → Consume → Prop
  | .consuming, q => q ≠ .cancel
  | .finishing, q => q = .idle ∨ q = .cancel
  | .writing _, q | .counting _, q | .finished, q => q = .idle

/-- Both tasks have ended. -/
def Lane.Over (l : Lane) : Prop := (∃ why, l.reader = .finished why) ∧ l.writer = .finished

/-- The tasks of a lane and the calls that they have made. -/
structure Lane.Coherent (l : Lane) (c : Cell) : Prop where
  reader : l.reader.Allows c.provider
  writer : l.writer.Allows c.consumer
  gone : c.life ≠ .live → l.Over
  awake : c.Awake

section LaneStep

variable {ι : Type*} [DecidableEq ι] {i : ι} {m m' : BlockManager ι} {b b' : DataBlock}
  {c c' : Cell} {observe token cancels : Bool} {l l' : Lane} {e : LaneEvent}
  {a : Option CellAction}

theorem ProvideMove.allows {r : Reader} {x : ProvideEvent} {p p' : Provide} (hr : r.Allows p)
    (hx : x ≠ .drop) (h : ProvideMove i m b x p m' b' p') : r.Allows p' := by
  cases r with
  | reading | finished why =>
      obtain rfl : p = .idle := hr
      cases h with
      | empty _ data hp | nonempty _ data hp => simp at hp
  | providing =>
      cases h with
      | cancelNotified => exact absurd rfl hr.1
      | unpolled | cancel => exact absurd rfl hx
      | _ => exact ⟨by simp, by simp⟩
  | finishing why =>
      obtain rfl | rfl | rfl := hr
      · cases h with
        | empty _ data hp | nonempty _ data hp => simp at hp
      · cases h with
        | cancelNotified => exact .inr (.inr rfl)
        | empty _ data hp | nonempty _ data hp => simp at hp
      · cases h with
        | cancelWait => exact .inl rfl
        | empty _ data hp | nonempty _ data hp => simp at hp

omit [DecidableEq ι] in
theorem ConsumeMove.allows {w : Writer} {x : ConsumeEvent} {q q' : Consume} (hw : w.Allows q)
    (hx : x ≠ .drop) (h : ConsumeMove m b x q m' b' q') : w.Allows q' := by
  cases w with
  | consuming =>
      cases h with
      | cancel | unpolled => exact absurd rfl hx
      | _ => simp [Writer.Allows]
  | writing data | counting n | finished =>
      obtain rfl : q = .idle := hw
      cases h with
      | empty _ hq | nonempty _ hq => simp at hq
  | finishing =>
      obtain rfl | rfl := hw
      · cases h with
        | empty _ hq | nonempty _ hq => simp at hq
      · cases h with
        | cancelled => exact .inl rfl
        | empty _ hq | nonempty _ hq => simp at hq

theorem ProvideMove.of_drop {p p' : Provide} (h : ProvideMove i m b .drop p m' b' p') :
    p' = .idle ∨ p' = .cancelNotified := by
  cases h with
  | unpolled => exact .inl rfl
  | cancel => exact .inr rfl

omit [DecidableEq ι] in
theorem ConsumeMove.of_drop {q q' : Consume} (h : ConsumeMove m b .drop q m' b' q') :
    q' = .idle ∨ q' = .cancel := by
  cases h with
  | unpolled => exact .inl rfl
  | cancel => exact .inr rfl

theorem CellEffect.awake (hc : c.Awake) (h : CellEffect i m c a m' c') : c'.Awake := by
  cases a with
  | none =>
      obtain ⟨-, rfl⟩ := h
      exact hc
  | some a => exact hc.move h

theorem Lane.Coherent.new (hreading : l.reader = .reading) (hconsuming : l.writer = .consuming) :
    l.Coherent .new := by
  refine ⟨?_, ?_, fun h ↦ absurd rfl h, .new⟩
  · rw [hreading]
    exact rfl
  · rw [hconsuming]
    simp [Writer.Allows, Cell.new]

theorem Lane.Coherent.step (h : l.Coherent c)
    (hlane : LaneMove observe token c l e l' a cancels) (hcell : CellEffect i m c a m' c') :
    l'.Coherent c' := by
  have hawake := hcell.awake h.awake
  obtain ⟨hr, hw, hover, -⟩ := h
  have hlive : ¬l.Over → c.life = .live := not_imp_comm.mp hover
  cases hlane with
  | read data hreading hfits =>
      cases hcell with
      | provide _ hlive hidle => exact ⟨⟨by simp, by simp⟩, hw, fun h ↦ absurd hlive h, hawake⟩
  | eof hreading | readError hreading | readCancelled hreading _ =>
      obtain ⟨rfl, rfl⟩ := hcell
      rw [hreading] at hr
      exact ⟨.inl hr, hw, fun h ↦ absurd (hlive (by simp [Lane.Over, hreading])) h, hawake⟩
  | provider x hx =>
      cases hcell with
      | provider _ m' b p hlive hmove =>
          exact ⟨hmove.allows hr hx, hw, fun h ↦ absurd hlive h, hawake⟩
  | provided hproviding hidle =>
      obtain ⟨rfl, rfl⟩ := hcell
      exact ⟨hidle, hw, fun h ↦ absurd (hlive (by simp [Lane.Over, hproviding])) h, hawake⟩
  | provideCancelled hproviding _ =>
      cases hcell with
      | provider _ m' b p hlive hmove =>
          exact ⟨hmove.of_drop.imp_right .inl, hw, fun h ↦ absurd hlive h, hawake⟩
  | readerCancel why hfinishing hidle =>
      obtain ⟨rfl, rfl⟩ := hcell
      exact ⟨hidle, hw, fun h ↦ absurd (hlive (by simp [Lane.Over, hfinishing])) h, hawake⟩
  | consume hconsuming =>
      cases hcell with
      | consume hlive hidle =>
          refine ⟨hr, ?_, fun h ↦ absurd hlive h, hawake⟩
          simp [hconsuming, Writer.Allows]
  | consumer x hx =>
      cases hcell with
      | consumer _ m' b q hlive hmove =>
          exact ⟨hr, hmove.allows hw hx, fun h ↦ absurd hlive h, hawake⟩
  | consumed data hconsuming hready =>
      cases hcell with
      | taken _ hlive _ => exact ⟨hr, rfl, fun h ↦ absurd hlive h, hawake⟩
  | written data hwriting =>
      obtain ⟨rfl, rfl⟩ := hcell
      rw [hwriting] at hw
      exact ⟨hr, hw, fun h ↦ absurd (hlive (by simp [Lane.Over, hwriting])) h, hawake⟩
  | writeFailed data hwriting =>
      obtain ⟨rfl, rfl⟩ := hcell
      rw [hwriting] at hw
      exact ⟨hr, .inl hw, fun h ↦ absurd (hlive (by simp [Lane.Over, hwriting])) h, hawake⟩
  | counted n hcounting =>
      obtain ⟨rfl, rfl⟩ := hcell
      rw [hcounting] at hw
      refine ⟨hr, ?_, fun h ↦ absurd (hlive (by simp [Lane.Over, hcounting])) h, hawake⟩
      rw [hw]
      simp [Writer.Allows]
  | writerCancelled hconsuming _ =>
      cases hcell with
      | consumer _ m' b q hlive hmove =>
          exact ⟨hr, hmove.of_drop, fun h ↦ absurd hlive h, hawake⟩
  | writerCancel hfinishing hidle =>
      obtain ⟨rfl, rfl⟩ := hcell
      exact ⟨hr, hidle, fun h ↦ absurd (hlive (by simp [Lane.Over, hfinishing])) h, hawake⟩
  | drop why hreader hwriter =>
      cases hcell with
      | drop => exact ⟨hr, hw, fun _ ↦ ⟨⟨why, hreader⟩, hwriter⟩, hawake⟩
  | dropping =>
      have hover' : l.Over := by
        apply hover
        cases hcell with
        | release k hlife | notify k hlife => simp [hlife]
        | dropped hlife => simp [hlife]
      cases hcell with
      | release | notify | dropped => exact ⟨hr, hw, fun _ ↦ hover', hawake⟩

end LaneStep

/-! ## Steps -/

section Goes

variable {ι : Type*} [DecidableEq ι]

def cellAct (i : ι) (m : BlockManager ι) (c : Cell) : Option CellAction →
    Option (BlockManager ι × Cell)
  | none => some (m, c)
  | some a => cellStep i m c a

/-- The lane can take a step, of those that are allowed, which lowers the rank. -/
def Lane.Goes (observe token : Bool) (Allowed : LaneEvent → Prop) (rank : Lane → Cell → ℕ) (i : ι)
    (m : BlockManager ι) (c : Cell) (l : Lane) : Prop :=
  ∃ e l' a cancels m' c', laneStep observe token c l e = some (l', a, cancels) ∧ Allowed e ∧
    cellAct i m c a = some (m', c') ∧ rank l' c' < rank l c

end Goes

namespace Relay

variable {ι : Type*} [DecidableEq ι] {blockLimit : UInt64} {cache : Option Bytes} {observe : Bool}
  {name : Direction → ι} {s t : Relay ι} {d : Direction}

theorem coherent (hs : (machine blockLimit cache observe name).Reachable s)
    (hmain : s.main = .spawned) (d : Direction) :
    (s.lane d).Coherent (s.pool.cell (name d)) := by
  refine lane_invariant (I := fun _ ↦ Lane.Coherent) ?_ ?_ hs hmain d
  · intro d l hreading hconsuming _ _ _
    exact .new hreading hconsuming
  · intro i d token m c l e l' a cancels m' c' h hlane hcell
    exact h.step hlane hcell

/-- A step of the lane of `d` that reads nothing is one of the connection. -/
theorem exists_lane_step {Allowed : LaneEvent → Prop} {rank : Lane → Cell → ℕ}
    (hs : (machine blockLimit cache observe name).Reachable s) (hmain : s.main = .spawned)
    (hread : ∀ r, ¬Allowed (.read r))
    (h : (s.lane d).Goes observe s.token Allowed rank (name d) s.pool.manager
      (s.pool.cell (name d))) :
    ∃ e t, s.step observe name (.lane d e) = some t ∧ Allowed e ∧
      rank (t.lane d) (t.pool.cell (name d)) < rank (s.lane d) (s.pool.cell (name d)) := by
  have hids := ((wired hs).named hmain d).1
  obtain ⟨e, l, a, cancels, m, c, hlane, hallowed, hact, hrank⟩ := h
  have hpool : poolStep (name d) s.pool a = some (s.pool.update (name d) m c) := by
    cases a with
    | none =>
        obtain ⟨rfl, rfl⟩ := by simpa [cellAct] using hact
        simp [poolStep, Pool.update]
    | some b =>
        have hfits : s.pool.Fits b := by
          cases laneStep_move hlane with
          | read data => exact absurd hallowed (hread _)
          | _ => trivial
        have hcell : cellStep (name d) s.pool.manager (s.pool.cell (name d)) b = some (m, c) := hact
        simp [poolStep, Pool.step, hids, hfits, hcell]
  refine ⟨e, { s.setLane d l with
    token := s.token || cancels, pool := s.pool.update (name d) m c }, ?_, hallowed, ?_⟩
  · simp [step, hmain, hlane, hpool]
  · simpa [setLane] using hrank

/-- What a step of the lane of `d` leaves as it is. -/
theorem lane_step_frame {e : LaneEvent} (h : s.step observe name (.lane d e) = some t) :
    t.main = s.main ∧ (s.token = true → t.token = true) ∧ t.pool.ids = s.pool.ids ∧
      t.lane d.opposite = s.lane d.opposite ∧
        ∀ i, i ≠ name d → t.pool.cell i = s.pool.cell i := by
  obtain ⟨hmain, l, a, cancels, m, c, -, -, rfl⟩ := step_lane h
  refine ⟨rfl, fun htoken ↦ by simp [htoken], rfl, by simp [setLane, d.opposite_ne], ?_⟩
  intro i hi
  simp [hi]

end Relay

end Rog
