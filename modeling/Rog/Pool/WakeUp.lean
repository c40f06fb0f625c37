import Rog.Pool.Accounting

/-!
# No lost wake-up

A provider that waits with an empty queue, or a consumer that waits with a non-empty one,
has a notification coming. The invariant starts where the check is made: from the moment a
provider has seen its queue non-empty, the pop that empties the queue is followed by a
notification which only this provider can take. It speaks of one data block and its two
tasks, whatever the other blocks do to the shared manager.
-/

namespace Rog

open Lib

/-! ## Waiting -/

def Provide.Waiting : Provide → Prop
  | .select _ => True
  | _ => False

/-- The provider has seen a non-empty queue and has not looked again. -/
def Provide.SawData : Provide → Prop
  | .limit _ | .select _ => True
  | _ => False

/-- The provider is between `push_back` and `provide_notify.notify_one`. -/
def Provide.Notifying : Provide → Prop
  | .notify => True
  | _ => False

def Consume.Waiting : Consume → Prop
  | .wait => True
  | _ => False

/-- The consumer is between `pop_front` and `consume_notify.notify_one`. -/
def Consume.Notifying : Consume → Prop
  | .release _ | .releaseNotify _ | .notify _ => True
  | _ => False

theorem Provide.Waiting.sawData {p : Provide} (h : p.Waiting) : p.SawData := by
  cases p with
  | select data => trivial
  | _ => exact h.elim

/-! ## The invariant of one data block -/

/-- What holds of a block and its two calls between any two atomic steps. -/
structure WakeUp (b : DataBlock) (p : Provide) (q : Consume) : Prop where
  provider : p.SawData → b.data = [] → b.consumeNotify.Pending () ∨ q.Notifying
  consumer : q.Waiting → b.data ≠ [] → b.provideNotify.Pending () ∨ p.Notifying
  pop : q = .pop → b.data ≠ []
  noPanic : q ≠ .panicked
  consumeSound : b.consumeNotify.Sound
  provideSound : b.provideNotify.Sound

theorem WakeUp.new : WakeUp .new .idle .idle where
  provider h := h.elim
  consumer h := h.elim
  pop := nofun
  noPanic := nofun
  consumeSound := .new
  provideSound := .new

section Step

variable {ι : Type*} [DecidableEq ι] {m m' : BlockManager ι} {b b' : DataBlock}

/-- The provider's own steps. It enters the waiting states only after it has seen data, and
a poll that keeps it waiting leaves a pending notification in place. -/
theorem WakeUp.provide {i : ι} {e : ProvideEvent} {p p' : Provide} {q : Consume} (h : WakeUp b p q)
    (hmove : ProvideMove i m b e p m' b' p') : WakeUp b' p' q := by
  obtain ⟨hp, hq, hpop, hpanic, hcs, hps⟩ := h
  cases hmove with
  | unpolled data => exact ⟨fun h ↦ h.elim, hq, hpop, hpanic, hcs, hps⟩
  | empty _ data _ hempty =>
      exact ⟨fun h ↦ h.elim, fun _ hne ↦ absurd hempty hne, hpop, hpanic, hcs, hps⟩
  | nonempty _ data hor hne =>
      refine ⟨fun _ hempty ↦ absurd hempty hne, ?_, hpop, hpanic, hcs, hps⟩
      rcases hor with rfl | rfl <;> exact hq
  | canTake data _ => exact ⟨fun h ↦ h.elim, hq, hpop, hpanic, hcs, hps⟩
  | full data _ => exact ⟨hp, hq, hpop, hpanic, hcs, hps⟩
  | take data => exact ⟨fun h ↦ h.elim, hq, hpop, hpanic, hcs, hps⟩
  | count data => exact ⟨fun h ↦ h.elim, hq, hpop, hpanic, hcs, hps⟩
  | push data =>
      have hne : (b.pushBack data).data ≠ [] := by simp [DataBlock.pushBack]
      exact ⟨fun h ↦ h.elim, fun _ _ ↦ .inr trivial, fun _ ↦ hne, hpanic, hcs, hps⟩
  | notify =>
      exact ⟨fun h ↦ h.elim, fun _ _ ↦ .inl (b.provideNotify.pending_notifyOne ()), hpop,
        hpanic, hcs, hps.notifyOne⟩
  | notified data _ => exact ⟨fun h ↦ h.elim, hq, hpop, hpanic, hcs.poll (), hps⟩
  | notNotified data hready =>
      refine ⟨?_, hq, hpop, hpanic, hcs.poll (), hps⟩
      intro hsaw hempty
      rcases hp hsaw hempty with hpending | hnotifying
      · exact .inl (hpending.poll_of_not_ready hready)
      · exact .inr hnotifying
  | released data _ => exact ⟨fun h ↦ h.elim, hq, hpop, hpanic, hcs, hps⟩
  | notReleased data _ => exact ⟨hp, hq, hpop, hpanic, hcs, hps⟩
  | dropWait data => exact ⟨fun h ↦ h.elim, hq, hpop, hpanic, hcs, hps⟩
  | dropNotified data => exact ⟨fun h ↦ h.elim, hq, hpop, hpanic, hcs.dropFuture (), hps⟩
  | cancel data => exact ⟨fun h ↦ h.elim, hq, hpop, hpanic, hcs, hps⟩
  | cancelNotified => exact ⟨fun h ↦ h.elim, hq, hpop, hpanic, hcs.dropFuture (), hps⟩
  | cancelWait => exact ⟨fun h ↦ h.elim, hq, hpop, hpanic, hcs, hps⟩

omit [DecidableEq ι] in
/-- The consumer's own steps. Only its pop empties the queue, and it notifies after that. -/
theorem WakeUp.consume {e : ConsumeEvent} {p : Provide} {q q' : Consume} (h : WakeUp b p q)
    (hmove : ConsumeMove m b e q m' b' q') : WakeUp b' p q' := by
  obtain ⟨hp, hq, hpop, hpanic, hcs, hps⟩ := h
  cases hmove with
  | unpolled => exact ⟨hp, fun h ↦ h.elim, nofun, nofun, hcs, hps⟩
  | empty _ hor hempty =>
      refine ⟨?_, fun _ hne ↦ absurd hempty hne, nofun, nofun, hcs, hps⟩
      rcases hor with rfl | rfl <;> exact hp
  | nonempty _ hor hne =>
      exact ⟨fun _ hempty ↦ absurd hempty hne, fun h ↦ h.elim, fun _ ↦ hne, nofun, hcs, hps⟩
  | notified _ => exact ⟨hp, fun h ↦ h.elim, nofun, nofun, hcs, hps.poll ()⟩
  | notNotified hready =>
      refine ⟨hp, ?_, nofun, nofun, hcs, hps.poll ()⟩
      intro hwait hne
      rcases hq hwait hne with hpending | hnotifying
      · exact .inl (hpending.poll_of_not_ready hready)
      · exact .inr hnotifying
  | pop data rest _ =>
      exact ⟨fun _ _ ↦ .inr trivial, fun h ↦ h.elim, nofun, nofun, hcs, hps⟩
  | panic hempty => exact absurd hempty (hpop rfl)
  | release data => exact ⟨fun _ _ ↦ .inr trivial, fun h ↦ h.elim, nofun, nofun, hcs, hps⟩
  | releaseNotify data =>
      exact ⟨fun _ _ ↦ .inr trivial, fun h ↦ h.elim, nofun, nofun, hcs, hps⟩
  | notify data =>
      exact ⟨fun _ _ ↦ .inl (b.consumeNotify.pending_notifyOne ()), fun h ↦ h.elim, nofun,
        nofun, hcs.notifyOne, hps⟩
  | cancel => exact ⟨hp, fun h ↦ h.elim, nofun, nofun, hcs, hps⟩
  | cancelled => exact ⟨hp, fun h ↦ h.elim, nofun, nofun, hcs, hps.dropFuture ()⟩

/-- The invariant of a cell; a dropped block has no calls left to wait. -/
structure Cell.Awake (c : Cell) : Prop where
  wellFormed : c.WellFormed
  wakeUp : c.life = .live → WakeUp c.block c.provider c.consumer

theorem Cell.Awake.new : Cell.new.Awake :=
  ⟨.new, fun _ ↦ .new⟩

theorem Cell.Awake.move {i : ι} {c c' : Cell} {a : CellAction} (hc : c.Awake)
    (h : CellMove i m c a m' c') : c'.Awake := by
  refine ⟨hc.wellFormed.move h, ?_⟩
  cases h with
  | provide data hlive hidle =>
      intro _
      obtain ⟨-, hq, hpop, hpanic, hcs, hps⟩ := hc.wakeUp hlive
      rw [hidle] at hq
      exact ⟨fun h ↦ h.elim, hq, hpop, hpanic, hcs, hps⟩
  | provider e m' b p hlive hmove => exact fun _ ↦ (hc.wakeUp hlive).provide hmove
  | consume hlive hidle =>
      intro _
      obtain ⟨hp, -, -, -, hcs, hps⟩ := hc.wakeUp hlive
      rw [hidle] at hp
      exact ⟨hp, fun h ↦ h.elim, nofun, nofun, hcs, hps⟩
  | consumer e m' b q hlive hmove => exact fun _ ↦ (hc.wakeUp hlive).consume hmove
  | taken data hlive hready =>
      intro _
      obtain ⟨hp, -, -, -, hcs, hps⟩ := hc.wakeUp hlive
      rw [hready] at hp
      exact ⟨hp, fun h ↦ h.elim, nofun, nofun, hcs, hps⟩
  | drop => exact nofun
  | release => exact nofun
  | notify => exact nofun
  | dropped => exact nofun

end Step

/-! ## Stuck tasks -/

namespace Cell

variable {ι : Type*} [DecidableEq ι]

/-- The provider waits, and neither branch of its `select!` would complete if polled. -/
def ProviderStuck (i : ι) (m : BlockManager ι) (c : Cell) : Prop :=
  c.provider.Waiting ∧ (c.block.consumeNotify.poll ()).1 = false ∧ (m.notify.poll i).1 = false

/-- The consumer waits, and its future would not complete if polled. -/
def ConsumerStuck (c : Cell) : Prop :=
  c.consumer.Waiting ∧ (c.block.provideNotify.poll ()).1 = false

theorem Awake.live_of_waiting {c : Cell} (hc : c.Awake)
    (h : c.provider.Waiting ∨ c.consumer.Waiting ∨ c.consumer = .pop) : c.life = .live := by
  by_contra hlive
  obtain ⟨hp, hq⟩ := hc.wellFormed.calls hlive
  rcases h with h | h | h
  · exact (hp ▸ h : Provide.idle.Waiting).elim
  · exact (hq ▸ h : Consume.idle.Waiting).elim
  · simp [hq] at h

/-- When both wait, the queue is empty or not, and one of the two has its notification. -/
theorem Awake.not_both_stuck {c : Cell} (hc : c.Awake) (i : ι) (m : BlockManager ι) :
    ¬ (c.ProviderStuck i m ∧ c.ConsumerStuck) := by
  rintro ⟨⟨hpwait, hpoll, -⟩, hqwait, hqoll⟩
  have h := hc.wakeUp (hc.live_of_waiting (.inl hpwait))
  by_cases hempty : c.block.data = []
  · rcases h.provider hpwait.sawData hempty with hpending | hnotifying
    · simp [hpending.poll_ready h.consumeSound] at hpoll
    · cases hq : c.consumer <;> simp [hq, Consume.Waiting, Consume.Notifying] at hqwait hnotifying
  · rcases h.consumer hqwait hempty with hpending | hnotifying
    · simp [hpending.poll_ready h.provideSound] at hqoll
    · cases hp : c.provider <;> simp [hp, Provide.Waiting, Provide.Notifying] at hpwait hnotifying

end Cell

namespace Pool

variable {ι : Type*} [DecidableEq ι]

/-- In every reachable pool, for each of its data blocks: a provider that waits with an
empty queue and a consumer that waits with a non-empty one have a notification pending or
about to be sent, `pop_front().unwrap()` finds a chunk, and the two are not both stuck. -/
theorem no_lost_wakeUp {blockLimit : UInt64} {s : Pool ι}
    (hs : (machine ι blockLimit).Reachable s) {i : ι} (hi : i ∈ s.ids) :
    ((s.cell i).provider.Waiting → (s.cell i).block.data = [] →
        (s.cell i).block.consumeNotify.Pending () ∨ (s.cell i).consumer.Notifying) ∧
      ((s.cell i).consumer.Waiting → (s.cell i).block.data ≠ [] →
        (s.cell i).block.provideNotify.Pending () ∨ (s.cell i).provider.Notifying) ∧
      ((s.cell i).consumer = .pop → (s.cell i).block.data ≠ []) ∧
      ¬ ((s.cell i).ProviderStuck i s.manager ∧ (s.cell i).ConsumerStuck) := by
  have hc : (s.cell i).Awake :=
    cell_invariant .new (fun _ _ _ _ _ _ hc hmove ↦ hc.move hmove) hs i hi
  refine ⟨?_, ?_, ?_, hc.not_both_stuck i s.manager⟩
  · intro hwait hempty
    exact (hc.wakeUp (hc.live_of_waiting (.inl hwait))).provider hwait.sawData hempty
  · intro hwait hne
    exact (hc.wakeUp (hc.live_of_waiting (.inr (.inl hwait)))).consumer hwait hne
  · intro hpop
    exact (hc.wakeUp (hc.live_of_waiting (.inr (.inr hpop)))).pop hpop

/-- The provider of a full pool sees data, the consumer empties the queue before the
provider is registered, and the provider then waits with an empty queue. -/
def lateWaitRun : List (PoolAction ℕ) :=
  [.new 0, .act 0 (.provide [1])] ++ List.replicate 5 (.act 0 (.provider .run)) ++
    [.act 0 (.provide [2]), .act 0 (.provider .run), .act 0 (.provider .run),
      .act 0 .consume] ++ List.replicate 5 (.act 0 (.consumer .run))

theorem no_lost_wakeUp_lateWaitRun : ∃ s, (machine ℕ 1).run (new 1) lateWaitRun = some s ∧
    (((s.cell 0).provider.Waiting → (s.cell 0).block.data = [] →
        (s.cell 0).block.consumeNotify.Pending () ∨ (s.cell 0).consumer.Notifying) ∧
      ((s.cell 0).consumer.Waiting → (s.cell 0).block.data ≠ [] →
        (s.cell 0).block.provideNotify.Pending () ∨ (s.cell 0).provider.Notifying) ∧
      ((s.cell 0).consumer = .pop → (s.cell 0).block.data ≠ []) ∧
      ¬ ((s.cell 0).ProviderStuck 0 s.manager ∧ (s.cell 0).ConsumerStuck)) := by
  have hrun : ((machine ℕ 1).run (new 1) lateWaitRun).isSome = true := by decide
  obtain ⟨s, hs⟩ := Option.isSome_iff_exists.mp hrun
  have hmem : ((machine ℕ 1).run (new 1) lateWaitRun).all (fun t ↦ decide (0 ∈ t.ids)) = true := by
    decide
  rw [hs] at hmem
  exact ⟨s, hs, no_lost_wakeUp ⟨new 1, lateWaitRun, rfl, hs⟩ (by simpa using hmem)⟩

end Pool

end Rog
