import Rog.Relay.Fidelity

/-!
# What has been written when a connection is over

A direction of a connection ends when its read half returns the end of the stream. In the
unbuffered mode everything that was read has been written by then. In the buffered mode the
reader cancels the token while chunks may be queued, and the writer stops at the first
`select!` that takes `cancelled()`: what has been written at the end is everything exactly
when the queue was empty at that step.
-/

namespace Rog

open Lib

/-- Past the read call that returned the end of the stream. -/
def Reader.AtEof : Reader → Prop
  | .finishing .eof | .finished .eof => True
  | _ => False

def Reader.Active : Reader → Prop
  | .reading | .providing => True
  | _ => False

theorem Reader.Active.not_atEof {r : Reader} (h : r.Active) : ¬ r.AtEof := by
  cases r with
  | reading => exact id
  | providing => exact id
  | finishing why => exact h.elim
  | finished why => exact h.elim

theorem Reader.AtEof.intact {r : Reader} (h : r.AtEof) : r.Intact := by
  cases r with
  | reading => exact h.elim
  | providing => exact h.elim
  | finishing why => cases why <;> first | exact h.elim | trivial
  | finished why => cases why <;> first | exact h.elim | trivial

/-! ## One lane -/

section Moves

variable {ι : Type*} [DecidableEq ι] {m m' : BlockManager ι} {b b' : DataBlock}

/-- No chunk of the queue or of the `provide` call is empty. -/
def Solid (b : DataBlock) (p : Provide) : Prop :=
  (∀ data ∈ b.data, data ≠ []) ∧ (p.chunks = 1 → p.hand ≠ [])

theorem ProvideMove.solid {i : ι} {e : ProvideEvent} {p p' : Provide} (hsolid : Solid b p)
    (h : ProvideMove i m b e p m' b' p') : Solid b' p' := by
  obtain ⟨hqueue, hhand⟩ := hsolid
  cases h with
  | empty _ data hp _ => exact ⟨hqueue, by rcases hp with rfl | rfl <;> exact hhand⟩
  | nonempty _ data hp _ => exact ⟨hqueue, by rcases hp with rfl | rfl <;> exact hhand⟩
  | push data =>
      refine ⟨?_, nofun⟩
      intro x hx
      rcases List.mem_append.mp hx with hx | hx
      · exact hqueue x hx
      · obtain rfl := List.mem_singleton.mp hx
        exact hhand rfl
  | unpolled | notify | cancel | cancelNotified | cancelWait => exact ⟨hqueue, nofun⟩
  | _ => exact ⟨hqueue, hhand⟩

theorem Solid.flatten_eq_nil_iff {p : Provide} (h : Solid b p) :
    b.data.flatten = [] ↔ b.data = [] := by
  constructor
  · intro hflatten
    rw [List.flatten_eq_nil_iff] at hflatten
    apply List.eq_nil_iff_forall_not_mem.mpr
    intro data hdata
    exact h.1 data hdata (hflatten data hdata)
  · intro hdata
    rw [hdata, List.flatten_nil]

omit [DecidableEq ι] in
theorem ConsumeMove.data_subset {e : ConsumeEvent} {q q' : Consume}
    (h : ConsumeMove m b e q m' b' q') : b'.data ⊆ b.data := by
  cases h with
  | pop data rest hdata => simp [hdata]
  | _ => exact List.Subset.refl _

end Moves

/-- Between the reader and the queue of a lane. -/
structure Lane.Tidy (l : Lane) (c : Cell) : Prop where
  idle : l.reader = .reading ∨ l.reader.AtEof → c.provider = .idle
  solid : Solid c.block c.provider

theorem Lane.Tidy.new {l : Lane} : l.Tidy .new :=
  ⟨fun _ ↦ rfl, nofun, nofun⟩

section LaneStep

variable {ι : Type*} [DecidableEq ι] {i : ι} {m m' : BlockManager ι} {c c' : Cell}
  {observe token cancels : Bool} {l l' : Lane} {e : LaneEvent} {a : Option CellAction}

theorem Lane.Tidy.step (h : l.Tidy c) (hlane : LaneMove observe token c l e l' a cancels)
    (hcell : CellEffect i m c a m' c') : l'.Tidy c' := by
  obtain ⟨idle, solid⟩ := h
  cases hlane with
  | read data hreading hfits =>
      cases hcell with
      | provide _ hlive hidle =>
          refine ⟨?_, solid.1, fun _ ↦ hfits.1⟩
          rintro (h | h)
          · simp at h
          · exact h.elim
  | eof hreading | readError hreading | readCancelled hreading _ =>
      obtain ⟨rfl, rfl⟩ := hcell
      exact ⟨fun _ ↦ idle (.inl hreading), solid⟩
  | provider e he =>
      cases hcell with
      | provider _ m' b p hlive hmove =>
          refine ⟨fun hr ↦ ?_, hmove.solid solid⟩
          -- an idle provider has no step
          rw [idle hr] at hmove
          cases hmove with
          | empty _ data hp _ => simp at hp
          | nonempty _ data hp _ => simp at hp
  | provided _ hidle =>
      obtain ⟨rfl, rfl⟩ := hcell
      exact ⟨fun _ ↦ hidle, solid⟩
  | provideCancelled hproviding _ =>
      cases hcell with
      | provider _ m' b p hlive hmove =>
          refine ⟨?_, hmove.solid solid⟩
          rintro (h | h)
          · simp at h
          · exact h.elim
  | readerCancel why hfinishing hidle =>
      obtain ⟨rfl, rfl⟩ := hcell
      exact ⟨fun _ ↦ hidle, solid⟩
  | consume hconsuming => cases hcell with | consume => exact ⟨idle, solid⟩
  | consumer e he =>
      cases hcell with
      | consumer _ m' b q hlive hmove =>
          exact ⟨idle, fun data hdata ↦ solid.1 data (hmove.data_subset hdata), solid.2⟩
  | consumed data hconsuming hready => cases hcell with | taken => exact ⟨idle, solid⟩
  | written | writeFailed | counted | writerCancel =>
      obtain ⟨rfl, rfl⟩ := hcell
      exact ⟨idle, solid⟩
  | writerCancelled hconsuming _ =>
      cases hcell with
      | consumer _ m' b q hlive hmove =>
          exact ⟨idle, fun data hdata ↦ solid.1 data (hmove.data_subset hdata), solid.2⟩
  | drop => cases hcell with | drop => exact ⟨idle, solid⟩
  | dropping =>
      cases hcell with
      | release => exact ⟨idle, solid⟩
      | notify => exact ⟨idle, solid⟩
      | dropped => exact ⟨idle, nofun, solid.2⟩

/-- While the token is not cancelled, the tasks of a lane leave their loops only on the
results of their own calls. -/
theorem LaneMove.running (h : LaneMove observe false c l e l' a cancels)
    (hreader : l.reader.Active) (hwriter : l.writer.Active) (herr : e ≠ .read .err)
    (hfailed : e ≠ .writeFailed) :
    (e = .read .eof ∧ l'.reader.AtEof) ∨
      (cancels = false ∧ l'.reader.Active ∧ l'.writer.Active) := by
  cases h with
  | eof => exact .inl ⟨rfl, trivial⟩
  | readError => exact absurd rfl herr
  | writeFailed => exact absurd rfl hfailed
  | readCancelled _ htoken => cases htoken
  | provideCancelled _ htoken => cases htoken
  | writerCancelled _ htoken => cases htoken
  | readerCancel why hfinishing _ => simp [hfinishing, Reader.Active] at hreader
  | writerCancel hfinishing _ => simp [hfinishing, Writer.Active] at hwriter
  | drop why _ hfinished => simp [hfinished, Writer.Active] at hwriter
  | read | provided => exact .inr ⟨rfl, trivial, hwriter⟩
  | consumed | written | counted => exact .inr ⟨rfl, hreader, trivial⟩
  | provider | consume | consumer | dropping => exact .inr ⟨rfl, hreader, hwriter⟩

theorem LaneMove.atEof (h : LaneMove observe token c l e l' a cancels) (heof : l.reader.AtEof) :
    l'.reader.AtEof := by
  cases h with
  | read _ hreader | eof hreader | readError hreader | readCancelled hreader | provided hreader
  | provideCancelled hreader => simp [hreader, Reader.AtEof] at heof
  | readerCancel why hfinishing =>
      rw [hfinishing] at heof
      cases why <;> exact heof
  | _ => exact heof

theorem LaneMove.stopped (h : LaneMove observe token c l e l' a cancels)
    (heof : l.reader.AtEof) (hwriter : ¬ l.writer.Active) :
    l'.ends = l.ends ∧ ¬ l'.writer.Active ∧ e ≠ .writerCancelled := by
  cases h with
  | read _ hreader => simp [hreader, Reader.AtEof] at heof
  | consumed _ hw | written _ hw | writeFailed _ hw | counted _ hw | writerCancelled hw =>
      simp [hw, Writer.Active] at hwriter
  | writerCancel => exact ⟨rfl, id, by simp⟩
  | _ => exact ⟨rfl, hwriter, by simp⟩

theorem LaneMove.writer_stops (h : LaneMove observe token c l e l' a cancels)
    (hwriter : l.writer.Active) (hstops : ¬ l'.writer.Active) :
    e = .writeFailed ∨ (e = .writerCancelled ∧ l.writer = .consuming ∧ token = true ∧
      a = some (.consumer .drop) ∧ l'.ends = l.ends ∧ l'.reader = l.reader) := by
  cases h with
  | writeFailed => exact .inl rfl
  | writerCancelled hconsuming htoken =>
      exact .inr ⟨rfl, hconsuming, htoken, rfl, rfl, rfl⟩
  | writerCancel hfinishing => simp [hfinishing, Writer.Active] at hwriter
  | consumed | written | counted => exact absurd trivial hstops
  | _ => exact absurd hwriter hstops

theorem LaneMove.writerCancelled_stops
    (h : LaneMove observe token c l .writerCancelled l' a cancels) : ¬ l'.writer.Active := by
  cases h
  exact id

omit [DecidableEq ι] in
theorem ConsumeMove.drop_hand {b b' : DataBlock} {q q' : Consume}
    (h : ConsumeMove m b .drop q m' b' q') : q.hand = [] := by
  cases h <;> rfl

end LaneStep

/-! ## The buffered connection -/

namespace Relay

variable {ι : Type*}

def Finished (s : Relay ι) : Prop :=
  ∀ d, (∃ why, (s.lane d).reader = .finished why) ∧ (s.lane d).writer = .finished

/-- What is assumed of the environment when direction `d` is to be relayed to its end: no
write fails, the read half of `d` does not fail, and the other read half neither ends nor
fails before the one of `d` has ended. -/
def Undisturbed (d : Direction) (s : Relay ι) : RelayEvent ι → Prop
  | .cache .writeFailed => False
  | .lane _ .writeFailed => False
  | .lane e (.read .eof) => e = d ∨ (s.lane d).reader.AtEof
  | .lane e (.read .err) => e ≠ d ∧ (s.lane d).reader.AtEof
  | _ => True

/-- If the writer of `d` takes `cancelled()`, its queue is empty. -/
def Dry (name : Direction → ι) (d : Direction) (s : Relay ι) : RelayEvent ι → Prop
  | .lane e .writerCancelled => e = d → (s.pool.cell (name d)).block.data = []
  | _ => True

def Running (s : Relay ι) : Prop :=
  s.token = false ∧ ∀ d, (s.lane d).reader.Active ∧ (s.lane d).writer.Active

/-- Nothing stops before the read half of `d` has ended. -/
def Ordered (d : Direction) (s : Relay ι) : Prop :=
  (s.lane d).reader.AtEof ∨ s.Running

variable [DecidableEq ι] {blockLimit : UInt64} {cache : Option Bytes} {observe : Bool}
  {name : Direction → ι} {s t : Relay ι} {d : Direction} {ev : RelayEvent ι}

omit [DecidableEq ι] in
theorem dry_of_ne (h : ev ≠ .lane d .writerCancelled) : s.Dry name d ev := by
  cases ev with
  | lane e x =>
      cases x with
      | writerCancelled =>
          rintro rfl
          exact absurd rfl h
      | _ => trivial
  | _ => trivial

omit [DecidableEq ι] in
theorem Ordered.new (p : Pool ι) : (new cache p).Ordered d :=
  .inr ⟨rfl, fun _ ↦ ⟨trivial, trivial⟩⟩

theorem Ordered.step (h : s.Ordered d) (hev : s.Undisturbed d ev)
    (hstep : s.step observe name ev = some t) : t.Ordered d := by
  obtain ⟨e, p, x, rfl, hcache, rfl⟩ | ⟨p, q, rfl, hmain, hp, hq, rfl⟩ |
    ⟨f, e, l, a, cancels, m, c, rfl, hmain, hlane, hcell, rfl⟩ | ⟨a, p, rfl, hne, hpool, rfl⟩ :=
      step_cases hstep
  · have hreader : ∀ f, ((s.setLane .s2c { s.lane .s2c with ends := x }).lane f).reader =
        (s.lane f).reader ∧ ((s.setLane .s2c { s.lane .s2c with ends := x }).lane f).writer =
        (s.lane f).writer := by
      intro f
      by_cases hf : f = .s2c
      · subst hf
        simp [setLane]
      · simp [setLane, hf]
    refine h.imp (fun heof ↦ ?_) (fun hrunning ↦ ⟨hrunning.1, fun f ↦ ?_⟩)
    · simpa [(hreader d).1] using heof
    · simpa [(hreader f).1, (hreader f).2] using hrunning.2 f
  · exact h
  · obtain heof | ⟨htoken, hactive⟩ := h
    · left
      obtain rfl | rfl := f.eq_or_eq_opposite d
      · simpa [setLane] using hlane.atEof heof
      · simpa [setLane, f.opposite_ne] using heof
    · rw [htoken] at hlane
      have hopen : ¬ (s.lane d).reader.AtEof := (hactive d).1.not_atEof
      have herr : e ≠ .read .err := by
        rintro rfl
        exact hopen hev.2
      have hfailed : e ≠ .writeFailed := by
        rintro rfl
        exact hev
      obtain ⟨rfl, hend⟩ | ⟨rfl, hreader, hwriter⟩ :=
        hlane.running (hactive f).1 (hactive f).2 herr hfailed
      · left
        obtain rfl : f = d := hev.resolve_right hopen
        simpa [setLane] using hend
      · right
        refine ⟨by simp [htoken], fun g ↦ ?_⟩
        obtain rfl | rfl := f.eq_or_eq_opposite g
        · simpa [setLane] using ⟨hreader, hwriter⟩
        · simpa [setLane, f.opposite_ne] using hactive f.opposite
  · exact h

theorem tidy (hs : (machine blockLimit cache observe name).Reachable s)
    (hmain : s.main = .spawned) (d : Direction) :
    (s.lane d).Tidy (s.pool.cell (name d)) := by
  refine lane_invariant (I := fun _ ↦ Lane.Tidy) ?_ ?_ hs hmain d
  · intro d l _ _ _ _ _
    exact .new
  · intro i d token m c l e l' a cancels m' c' h hlane hcell
    exact h.step hlane hcell

/-- When the writer of `d` takes `cancelled()`, what is missing is its queue. -/
theorem written_at_cancel (hs : (machine blockLimit cache observe name).Reachable s)
    (hmain : s.main = .spawned) (hwriter : (s.lane d).writer = .consuming)
    (heof : (s.lane d).reader.AtEof) (hhand : (s.pool.cell (name d)).consumer.hand = []) :
    (s.lane d).ends.written ++ (s.pool.cell (name d)).block.data.flatten =
      cacheOf cache d ++ (s.lane d).ends.source := by
  have hall := (faithful hs hmain d).pipe.lossless heof.intact (by simp [hwriter, Writer.Active])
  have hidle := (tidy hs hmain d).idle (.inr heof)
  simpa [Lane.transit, hwriter, Writer.hand, hhand, hidle, Provide.hand] using hall

def Stopped (d : Direction) (x : Ends) (s : Relay ι) : Prop :=
  (s.lane d).reader.AtEof ∧ ¬ (s.lane d).writer.Active ∧ (s.lane d).ends = x

theorem Stopped.step {x : Ends} (h : s.Stopped d x)
    (hs : (machine blockLimit cache observe name).Reachable s)
    (hstep : s.step observe name ev = some t) : t.Stopped d x ∧ s.Dry name d ev := by
  obtain ⟨heof, hwriter, hends⟩ := h
  obtain ⟨e, p, y, rfl, hcache, rfl⟩ | ⟨p, q, rfl, hmain, hp, hq, rfl⟩ |
    ⟨f, e, l, a, cancels, m, c, rfl, hmain, hlane, hcell, rfl⟩ | ⟨a, p, rfl, hne, hpool, rfl⟩ :=
      step_cases hstep
  · -- nothing has stopped before the tasks are spawned
    have hfresh := (wired hs).fresh (cacheStep_not_spawned hcache) d
    simp [hfresh.2, Writer.Active] at hwriter
  · exact ⟨⟨heof, hwriter, hends⟩, trivial⟩
  · obtain rfl | rfl := f.eq_or_eq_opposite d
    · obtain ⟨hsame, hstopped, hne⟩ := hlane.stopped heof hwriter
      refine ⟨⟨?_, ?_, ?_⟩, dry_of_ne (by simpa using hne)⟩
      · simpa [setLane] using hlane.atEof heof
      · simpa [setLane] using hstopped
      · simpa [setLane, hsame] using hends
    · refine ⟨?_, dry_of_ne (by simp [f.opposite_ne.symm])⟩
      simpa [Stopped, setLane, f.opposite_ne] using ⟨heof, hwriter, hends⟩
  · exact ⟨⟨heof, hwriter, hends⟩, trivial⟩

theorem Stopped.run {x : Ends} {evs : List (RelayEvent ι)} (h : s.Stopped d x)
    (hs : (machine blockLimit cache observe name).Reachable s)
    (hrun : (machine blockLimit cache observe name).run s evs = some t) :
    t.Stopped d x ∧ (machine blockLimit cache observe name).Along (Dry name d) s evs := by
  have hany : (machine blockLimit cache observe name).Along (fun _ _ ↦ True) s evs :=
    .of_forall (fun _ _ _ ↦ trivial) s
  have hstep : ∀ s ev t, True →
      (machine blockLimit cache observe name).Reachable s ∧ s.Stopped d x →
      (machine blockLimit cache observe name).step s ev = some t →
      ((machine blockLimit cache observe name).Reachable t ∧ t.Stopped d x) ∧
        s.Dry name d ev := by
    intro s ev t _ ⟨hs, h⟩ hev
    exact ⟨⟨hs.step hev, (h.step hs hev).1⟩, (h.step hs hev).2⟩
  constructor
  · exact (Machine.run_preserves (fun s ev t hP hI hev ↦ (hstep s ev t hP hI hev).1) hany
      ⟨hs, h⟩ hrun).2
  · exact Machine.Along.of_invariant hstep hany ⟨hs, h⟩ hrun

/-- The step at which the writer of `d` stops is the only one that can lose anything. -/
theorem stops (hs : (machine blockLimit cache observe name).Reachable s) (hordered : s.Ordered d)
    (hwriter : (s.lane d).writer.Active) (hev : s.Undisturbed d ev)
    (hstep : s.step observe name ev = some t) (hstops : ¬ (t.lane d).writer.Active) :
    ev = .lane d .writerCancelled ∧ s.main = .spawned ∧ t.Stopped d (s.lane d).ends ∧
      (s.lane d).ends.written ++ (s.pool.cell (name d)).block.data.flatten =
        cacheOf cache d ++ (s.lane d).ends.source := by
  obtain ⟨e, p, y, rfl, hcache, rfl⟩ | ⟨p, q, rfl, hmain, hp, hq, rfl⟩ |
    ⟨f, e, l, a, cancels, m, c, rfl, hmain, hlane, hcell, rfl⟩ | ⟨a, p, rfl, hne, hpool, rfl⟩ :=
      step_cases hstep
  · refine absurd ?_ hstops
    by_cases hd : d = .s2c
    · subst hd
      simpa [setLane] using hwriter
    · simpa [setLane, hd] using hwriter
  · exact absurd hwriter hstops
  · obtain rfl | rfl := f.eq_or_eq_opposite d
    · have hstopped : ¬ l.writer.Active := by simpa [setLane] using hstops
      obtain rfl | ⟨rfl, hconsuming, htoken, rfl, hends, hreader⟩ :=
        hlane.writer_stops hwriter hstopped
      · exact hev.elim
      · have heof : (s.lane d).reader.AtEof := by
          refine hordered.resolve_right fun hrunning ↦ ?_
          simp [hrunning.1] at htoken
        have hhand : (s.pool.cell (name d)).consumer.hand = [] := by
          cases hcell with
          | consumer _ m' b q hlive hmove => exact hmove.drop_hand
        refine ⟨rfl, hmain, ?_, written_at_cancel hs hmain hconsuming heof hhand⟩
        simpa [Stopped, setLane, hreader, hends] using ⟨heof, hstopped⟩
    · refine absurd ?_ hstops
      simpa [setLane, f.opposite_ne] using hwriter
  · exact absurd hwriter hstops

/-- From any state in which the writer of `d` has not stopped, to any in which it has. -/
theorem written_eq_iff_along {evs : List (RelayEvent ι)}
    (hs : (machine blockLimit cache observe name).Reachable s) (hordered : s.Ordered d)
    (hwriter : (s.lane d).writer.Active)
    (hevs : (machine blockLimit cache observe name).Along (Undisturbed d) s evs)
    (hrun : (machine blockLimit cache observe name).run s evs = some t)
    (hstopped : ¬ (t.lane d).writer.Active) :
    (t.lane d).ends.written = cacheOf cache d ++ (t.lane d).ends.source ↔
      (machine blockLimit cache observe name).Along (Dry name d) s evs := by
  induction evs generalizing s with
  | nil =>
      obtain rfl : s = t := by simpa using hrun
      exact absurd hwriter hstopped
  | cons ev evs ih =>
      obtain ⟨u, hu, hrest⟩ := Machine.run_cons_some _ hrun
      obtain ⟨hev, hevs⟩ := (Machine.along_cons_iff hu).mp hevs
      rw [Machine.along_cons_iff hu]
      by_cases hactive : (u.lane d).writer.Active
      · -- the step is not the one that stops the writer
        have hdry : s.Dry name d ev := by
          apply dry_of_ne
          rintro rfl
          obtain ⟨-, l, a, cancels, m, c, hlane, -, rfl⟩ := step_lane hu
          exact hlane.writerCancelled_stops (by simpa [setLane] using hactive)
        have hih := ih (hs.step hu) (hordered.step hev hu) hactive hevs hrest
        simpa [hdry] using hih
      · obtain ⟨rfl, hmain, hfrozen, hmissing⟩ := stops hs hordered hwriter hev hu hactive
        obtain ⟨⟨-, -, hends⟩, hdry⟩ := hfrozen.run (hs.step hu) hrest
        have hqueue := (tidy hs hmain d).solid.flatten_eq_nil_iff
        rw [hends, ← hmissing, List.self_eq_append_right, hqueue]
        exact ⟨fun hempty ↦ ⟨fun _ ↦ hempty, hdry⟩, fun h ↦ h.1 rfl⟩

end Relay

/-! ## The unbuffered connection -/

theorem CopyMove.active {observe token cancels : Bool} {l l' : CopyLane} {e : CopyEvent}
    (h : CopyMove observe token l e l' cancels) (hfailed : e ≠ .writeFailed)
    (hactive : l.task.Active) : l'.task.Active := by
  cases h with
  | writeFailed => exact absurd rfl hfailed
  | cancel why hfinishing =>
      rw [hfinishing] at hactive
      cases why <;> exact hactive
  | _ => trivial

namespace DirectRelay

def Finished (s : DirectRelay) : Prop :=
  ∀ d, ∃ why, (s.lane d).task = .finished why

def WriteSucceeds : DirectEvent → Prop
  | .cache .writeFailed => False
  | .lane _ .writeFailed => False
  | _ => True

variable {cache : Option Bytes} {observe : Bool} {s t : DirectRelay} {ev : DirectEvent}

theorem active_step (hactive : ∀ d, (s.lane d).task.Active) (hev : WriteSucceeds ev)
    (hstep : s.step observe ev = some t) (d : Direction) : (t.lane d).task.Active := by
  obtain ⟨e, p, x, rfl, hcache, rfl⟩ | ⟨rfl, hmain, rfl⟩ |
    ⟨f, e, l, cancels, rfl, hmain, hcopy, rfl⟩ := step_cases hstep
  · by_cases hd : d = .s2c
    · subst hd
      simpa [setLane] using hactive .s2c
    · simpa [setLane, hd] using hactive d
  · exact hactive d
  · obtain rfl | rfl := f.eq_or_eq_opposite d
    · have hfailed : e ≠ .writeFailed := by
        rintro rfl
        exact hev
      simpa [setLane] using hcopy.active hfailed (hactive d)
    · simpa [setLane, f.opposite_ne] using hactive f.opposite

/-- When no write fails, everything that was read has been written in the end. -/
theorem written_of_finished {evs : List DirectEvent}
    (hrun : (machine cache observe).run (new cache) evs = some s)
    (hevs : ∀ ev ∈ evs, WriteSucceeds ev) (hfinished : s.Finished) (d : Direction) :
    (s.lane d).ends.written = cacheOf cache d ++ (s.lane d).ends.source := by
  have hsucceed : (machine cache observe).Along (fun _ ev ↦ WriteSucceeds ev) (new cache) evs :=
    .of_forall (fun ev hev _ ↦ hevs ev hev) _
  have hactive : ∀ d, (s.lane d).task.Active := by
    refine Machine.run_preserves (I := fun s ↦ ∀ d, (s.lane d).task.Active) ?_ hsucceed
      (fun _ ↦ trivial) hrun
    intro s ev t hev hactive hstep
    exact active_step hactive hev hstep
  have hfaithful := faithful_of_reachable (⟨_, evs, rfl, hrun⟩ : (machine cache observe).Reachable s)
  obtain ⟨why, hwhy⟩ := hfinished d
  have hmain : s.main = .spawned := by
    by_contra hmain
    have htask := hfaithful.fresh hmain d
    rw [hwhy] at htask
    cases htask
  have hall := (hfaithful.lanes hmain d).pipe.lossless trivial (hactive d)
  simpa [hwhy, Copier.hand] using hall

end DirectRelay

/-! ## Both modes compared -/

section Modes

variable {ι : Type*} [DecidableEq ι] {blockLimit : UInt64} {cache : Option Bytes}
  {observe : Bool} {name : Direction → ι} {s t : Relay ι} {evs : List (RelayEvent ι)}

/-- When the read half of `d` ends first and no write fails, the buffered mode has written
the cache and everything that was read, as the unbuffered mode has after the same reads, if
and only if its writer never took `cancelled()` with data in its queue. -/
theorem written_like_unbuffered_iff (d : Direction)
    (hinit : (Relay.machine blockLimit cache observe name).init s)
    (hevs : (Relay.machine blockLimit cache observe name).Along (Relay.Undisturbed d) s evs)
    (hrun : (Relay.machine blockLimit cache observe name).run s evs = some t)
    (hfinished : t.Finished) :
    ((t.lane d).ends.written = cacheOf cache d ++ (t.lane d).ends.source ∧
        ∀ devs u, (DirectRelay.machine cache observe).run (.new cache) devs = some u →
          (∀ ev ∈ devs, DirectRelay.WriteSucceeds ev) → u.Finished →
          (u.lane d).ends.returned = (t.lane d).ends.returned →
          (u.lane d).ends.written = (t.lane d).ends.written) ↔
      (Relay.machine blockLimit cache observe name).Along (Relay.Dry name d) s evs := by
  have hs : (Relay.machine blockLimit cache observe name).Reachable s := .of_init hinit
  obtain ⟨p, -, rfl⟩ := hinit
  have hstopped : ¬ (t.lane d).writer.Active := by simp [(hfinished d).2, Writer.Active]
  rw [← Relay.written_eq_iff_along hs (.new p) trivial hevs hrun hstopped]
  constructor
  · exact And.left
  · intro hwritten
    refine ⟨hwritten, ?_⟩
    intro devs u hdirect hsucceed hend hreturned
    rw [DirectRelay.written_of_finished hdirect hsucceed hend d, hwritten, Ends.source, hreturned]
    rfl

/-- The server sends one chunk and ends; the chunk is queued. -/
def chunkThenEof : List (RelayEvent Direction) :=
  [.spawn, .lane .s2c (.read (.ok [1]))] ++ List.replicate 5 (.lane .s2c (.provider .run)) ++
    [.lane .s2c .provided, .lane .s2c (.read .eof), .lane .s2c .readerCancel,
      .lane .s2c .consume]

def writeChunk : List (RelayEvent Direction) :=
  List.replicate 5 (.lane .s2c (.consumer .run)) ++
    [.lane .s2c .consumed, .lane .s2c .written, .lane .s2c .counted, .lane .s2c .consume]

def cancelAll : List (RelayEvent Direction) :=
  [.lane .s2c .writerCancelled, .lane .s2c .writerCancel, .lane .c2s .readCancelled,
    .lane .c2s .readerCancel, .lane .c2s .consume, .lane .c2s .writerCancelled,
    .lane .c2s .writerCancel]

theorem finished_of_lanes {ι : Type*} {t : Relay ι} {x y : Ends}
    (h : (t.lane .s2c, t.lane .c2s) =
      (⟨x, .finished .eof, .finished⟩, ⟨y, .finished .interrupted, .finished⟩)) :
    t.Finished := by
  obtain ⟨hs2c, hc2s⟩ := Prod.mk.inj h
  intro d
  cases d with
  | s2c => simp [hs2c]
  | c2s => simp [hc2s]

theorem undisturbed_of_drain {evs : List (RelayEvent Direction)}
    (h : evs ⊆ chunkThenEof ++ writeChunk ++ cancelAll) (s : Relay Direction) :
    (Relay.machine 1 none false id).Along (Relay.Undisturbed .s2c) s evs := by
  have hall : ∀ ev ∈ chunkThenEof ++ writeChunk ++ cancelAll, ∀ s : Relay Direction,
      s.Undisturbed .s2c ev := by
    simp [chunkThenEof, writeChunk, cancelAll, or_imp, forall_and, Relay.Undisturbed]
  exact .of_forall (fun ev hev ↦ hall ev (h hev)) s

theorem written_like_unbuffered_iff_drainedRun :
    ∃ t, (Relay.machine 1 none false id).run (.new none (.new 1))
        (chunkThenEof ++ writeChunk ++ cancelAll) = some t ∧
      (((t.lane .s2c).ends.written = [] ++ (t.lane .s2c).ends.source ∧
        ∀ devs u, (DirectRelay.machine none false).run (.new none) devs = some u →
          (∀ ev ∈ devs, DirectRelay.WriteSucceeds ev) → u.Finished →
          (u.lane .s2c).ends.returned = (t.lane .s2c).ends.returned →
          (u.lane .s2c).ends.written = (t.lane .s2c).ends.written) ↔
      (Relay.machine 1 none false id).Along (Relay.Dry id .s2c) (.new none (.new 1))
        (chunkThenEof ++ writeChunk ++ cancelAll)) := by
  have hpool : (Pool.machine Direction 1).Reachable (.new 1) := .of_init rfl
  have hend : ((Relay.machine 1 none false id).run (.new none (.new 1))
      (chunkThenEof ++ writeChunk ++ cancelAll)).map (fun t ↦ (t.lane .s2c, t.lane .c2s)) =
        some (⟨⟨[[1]], [1], 0⟩, .finished .eof, .finished⟩,
          ⟨.new, .finished .interrupted, .finished⟩) := by
    decide +kernel
  obtain ⟨t, hrun, hlanes⟩ := Option.map_eq_some_iff.mp hend
  exact ⟨t, hrun, written_like_unbuffered_iff .s2c ⟨_, hpool, rfl⟩
    (undisturbed_of_drain (List.Subset.refl _) _) hrun (finished_of_lanes hlanes)⟩

/-- The reader cancels the token, and the writer takes `cancelled()` with the chunk in its
queue: nothing is written. -/
theorem eof_discards_queue :
    ∃ t, (Relay.machine 1 none false id).run (.new none (.new 1))
        (chunkThenEof ++ cancelAll) = some t ∧
      (Relay.machine 1 none false id).Along (Relay.Undisturbed .s2c) (.new none (.new 1))
        (chunkThenEof ++ cancelAll) ∧
      t.Finished ∧ (t.lane .s2c).ends.returned = [[1]] ∧ (t.lane .s2c).ends.written = [] := by
  have hend : ((Relay.machine 1 none false id).run (.new none (.new 1))
      (chunkThenEof ++ cancelAll)).map (fun t ↦ (t.lane .s2c, t.lane .c2s)) =
        some (⟨⟨[[1]], [], 0⟩, .finished .eof, .finished⟩,
          ⟨.new, .finished .interrupted, .finished⟩) := by
    decide +kernel
  obtain ⟨t, hrun, hlanes⟩ := Option.map_eq_some_iff.mp hend
  have hs2c := (Prod.mk.inj hlanes).1
  have hsubset : chunkThenEof ++ cancelAll ⊆ chunkThenEof ++ writeChunk ++ cancelAll := by
    simp
  exact ⟨t, hrun, undisturbed_of_drain hsubset _, finished_of_lanes hlanes, by simp [hs2c],
    by simp [hs2c]⟩

end Modes

end Rog