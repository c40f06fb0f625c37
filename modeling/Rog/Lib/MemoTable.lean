import Rog.Lib.Machine
import Mathlib.Logic.Function.Basic
import Mathlib.Data.List.Nodup

/-!
# Tables that are filled on demand

A table behind a fair lock. A task looks its key up while it has the lock, and where the table has
no value for the key it makes one before it gives the lock up. Making a value can take long, and it
can fail.

However the tasks come between each other, their lookups are those of `lookup`, one after the
other, in the order in which the tasks have come to the lock.
-/

namespace Rog.Lib

universe u v w x

variable {τ : Type u} {κ : Type v} {ν : Type w} {ε : Type x}

/-- How far a task is with its lookup. -/
inductive MemoPhase (κ : Type v) (ν : Type w) (ε : Type x) where
  | idle
  | waiting (k : κ)
  /-- It has the lock, and there was no value. -/
  | making (k : κ)
  | done (r : Except ε ν)

/-- A lookup, with what making the value has given where it was made. -/
structure MemoCall (τ : Type u) (κ : Type v) (ν : Type w) (ε : Type x) where
  task : τ
  key : κ
  made : Option (Except ε ν)
  result : Except ε ν

/-- The first of the `queue` has the lock; `asked` keeps all that have come to it, and `calls` the
lookups that are over. -/
structure MemoTable (τ : Type u) (κ : Type v) (ν : Type w) (ε : Type x) where
  table : κ → Option ν
  queue : List (τ × κ)
  phase : τ → MemoPhase κ ν ε
  asked : List (τ × κ)
  calls : List (MemoCall τ κ ν ε)

inductive MemoEvent (τ : Type u) (κ : Type v) (ν : Type w) (ε : Type x) where
  | ask (t : τ) (k : κ)
  | enter (t : τ)
  | made (t : τ) (r : Except ε ν)

namespace MemoTable

section Lookup

variable [DecidableEq κ]

/-- A lookup that nothing comes between. -/
def lookup (table : κ → Option ν) (k : κ) (make : Except ε ν) : Except ε ν × (κ → Option ν) :=
  match table k with
  | some v => (.ok v, table)
  | none =>
      match make with
      | .ok v => (.ok v, Function.update table k (some v))
      | .error e => (.error e, table)

/-- The calls one after the other. A value is made where there is none, and only there. -/
inductive Replay (table : κ → Option ν) : List (MemoCall τ κ ν ε) → (κ → Option ν) → Prop where
  | nil : Replay table [] table
  | snoc {t t' : κ → Option ν} {calls : List (MemoCall τ κ ν ε)} {c : MemoCall τ κ ν ε}
      (before : Replay table calls t) (made : c.made = none ↔ (t c.key).isSome)
      (eq : ∀ make, lookup t c.key (c.made.getD make) = (c.result, t')) :
      Replay table (calls ++ [c]) t'

variable {table t : κ → Option ν} {calls : List (MemoCall τ κ ν ε)}

theorem lookup_keeps {k j : κ} {make r : Except ε ν} {t' : κ → Option ν} {v : ν}
    (h : lookup t k make = (r, t')) (hv : t j = some v) : t' j = some v := by
  unfold lookup at h
  split at h
  · obtain ⟨-, rfl⟩ := Prod.mk.inj h
    exact hv
  · rename_i hnone
    split at h
    · obtain ⟨-, rfl⟩ := Prod.mk.inj h
      have hj : j ≠ k := by
        rintro rfl
        cases hnone.symm.trans hv
      rw [Function.update_of_ne hj]
      exact hv
    · obtain ⟨-, rfl⟩ := Prod.mk.inj h
      exact hv

theorem lookup_ok {k : κ} {make : Except ε ν} {t' : κ → Option ν} {v : ν}
    (h : lookup t k make = (.ok v, t')) : t' k = some v := by
  unfold lookup at h
  split at h
  · rename_i hv
    obtain ⟨hr, rfl⟩ := Prod.mk.inj h
    rw [hv, Except.ok.inj hr]
  · split at h
    · obtain ⟨hr, rfl⟩ := Prod.mk.inj h
      rw [Function.update_self, Except.ok.inj hr]
    · cases h

namespace Replay

variable {t' : κ → Option ν} {c : MemoCall τ κ ν ε}

/-- A value that is in the table stays. -/
theorem keeps (h : Replay table calls t) {k : κ} {v : ν} (hv : table k = some v) :
    t k = some v := by
  induction h with
  | nil => exact hv
  | snoc before made eq ih => exact lookup_keeps (eq (.ok v)) ih

theorem mem_table (h : Replay table calls t) (hc : c ∈ calls) {v : ν} (hv : c.result = .ok v) :
    t c.key = some v := by
  induction h with
  | nil => cases hc
  | snoc before made eq ih =>
      have heq := eq (.ok v)
      rcases List.mem_append.mp hc with hc | hc
      · exact lookup_keeps heq (ih hc)
      · obtain rfl := List.mem_singleton.mp hc
        rw [hv] at heq
        exact lookup_ok heq

/-- After a call that succeeds nothing is made for its key any more: all later calls for it have
the same result. -/
theorem shared (h : Replay table calls t) : calls.Pairwise fun c d ↦
    c.key = d.key → ∀ v, c.result = .ok v → d.made = none ∧ d.result = .ok v := by
  induction h with
  | nil => exact .nil
  | @snoc t t' calls d before made eq ih =>
      refine List.pairwise_append.mpr ⟨ih, List.pairwise_singleton _ d, fun c hc d' hd ↦ ?_⟩
      obtain rfl := List.mem_singleton.mp hd
      intro hkey v hv
      have htable : t d'.key = some v := hkey ▸ before.mem_table hc hv
      have hlookup := eq (.ok v)
      simp only [lookup, htable, Prod.mk.injEq] at hlookup
      exact ⟨made.mpr (by simp [htable]), hlookup.1.symm⟩

theorem made_eq (h : Replay table calls t) (hc : c ∈ calls) {r : Except ε ν}
    (hr : c.made = some r) : c.result = r ∧ table c.key = none := by
  induction h with
  | nil => cases hc
  | @snoc t t' calls d before made eq ih =>
      rcases List.mem_append.mp hc with hc | hc
      · exact ih hc
      · obtain rfl := List.mem_singleton.mp hc
        have hnone : t c.key = none := by
          cases hk : t c.key with
          | none => rfl
          | some v => cases hr.symm.trans (made.mpr (by simp [hk]))
        refine ⟨?_, ?_⟩
        · have hlookup := eq r
          rw [hr] at hlookup
          unfold lookup at hlookup
          rw [hnone] at hlookup
          cases r <;> exact (Prod.mk.inj hlookup).1.symm
        · cases hk : table c.key with
          | none => rfl
          | some v => cases hnone.symm.trans (before.keeps hk)

end Replay

end Lookup

variable [DecidableEq τ]

def new (table : κ → Option ν) : MemoTable τ κ ν ε := ⟨table, [], fun _ ↦ .idle, [], []⟩

def setPhase (s : MemoTable τ κ ν ε) (t : τ) (p : MemoPhase κ ν ε) : MemoTable τ κ ν ε :=
  { s with phase := Function.update s.phase t p }

def ask (s : MemoTable τ κ ν ε) (t : τ) (k : κ) : MemoTable τ κ ν ε :=
  { s.setPhase t (.waiting k) with
    queue := s.queue ++ [(t, k)]
    asked := s.asked ++ [(t, k)] }

/-- The lock is given up, and the next of the queue has it. -/
def finish (s : MemoTable τ κ ν ε) (table : κ → Option ν) (c : MemoCall τ κ ν ε) :
    MemoTable τ κ ν ε :=
  { s.setPhase c.task (.done c.result) with
    table := table
    queue := s.queue.tail
    calls := s.calls ++ [c] }

section Phase

variable (s : MemoTable τ κ ν ε) {t u : τ} (k : κ) (p : MemoPhase κ ν ε) (table : κ → Option ν)
  (c : MemoCall τ κ ν ε)

@[simp] theorem phase_setPhase_self : (s.setPhase t p).phase t = p := by simp [setPhase]

@[simp] theorem phase_ask_self : (s.ask t k).phase t = .waiting k := by simp [ask]

@[simp] theorem phase_finish_self : (s.finish table c).phase c.task = .done c.result := by
  simp [finish]

variable (h : u ≠ t)

include h

theorem phase_setPhase_ne : (s.setPhase t p).phase u = s.phase u := by simp [setPhase, h]

theorem phase_ask_ne : (s.ask t k).phase u = s.phase u := phase_setPhase_ne s (.waiting k) h

omit h in
theorem phase_finish_ne (h : u ≠ c.task) : (s.finish table c).phase u = s.phase u :=
  phase_setPhase_ne s (.done c.result) h

end Phase

variable [DecidableEq κ]

def insert (s : MemoTable τ κ ν ε) (k : κ) : Except ε ν → κ → Option ν
  | .ok v => Function.update s.table k (some v)
  | .error _ => s.table

def step (s : MemoTable τ κ ν ε) : MemoEvent τ κ ν ε → Option (MemoTable τ κ ν ε)
  | .ask t k => match s.phase t with
      | .idle => some (s.ask t k)
      | _ => none
  | .enter t => match s.phase t with
      | .waiting k => if s.queue.head?.map Prod.fst = some t then
            match s.table k with
            | some v => some (s.finish s.table ⟨t, k, none, .ok v⟩)
            | none => some (s.setPhase t (.making k))
          else none
      | _ => none
  | .made t r => match s.phase t with
      | .making k => some (s.finish (s.insert k r) ⟨t, k, some r, r⟩)
      | _ => none

def machine (table : κ → Option ν) : Machine (MemoTable τ κ ν ε) (MemoEvent τ κ ν ε) where
  init s := s = new table
  step := step

variable {table : κ → Option ν} {s s' : MemoTable τ κ ν ε} {e : MemoEvent τ κ ν ε}

/-- What a step can be. -/
theorem step_cases (h : s.step e = some s') :
    (∃ t k, e = .ask t k ∧ s.phase t = .idle ∧ s' = s.ask t k) ∨
    (∃ t k v, e = .enter t ∧ s.phase t = .waiting k ∧ s.queue.head?.map Prod.fst = some t ∧
      s.table k = some v ∧ s' = s.finish s.table ⟨t, k, none, .ok v⟩) ∨
    (∃ t k, e = .enter t ∧ s.phase t = .waiting k ∧ s.queue.head?.map Prod.fst = some t ∧
      s.table k = none ∧ s' = s.setPhase t (.making k)) ∨
    ∃ t k r, e = .made t r ∧ s.phase t = .making k ∧
      s' = s.finish (s.insert k r) ⟨t, k, some r, r⟩ := by
  cases e with
  | ask t k =>
      cases hp : s.phase t with
      | idle =>
          obtain rfl : s.ask t k = s' := by simpa [step, hp] using h
          exact .inl ⟨t, k, rfl, hp, rfl⟩
      | _ => simp [step, hp] at h
  | enter t =>
      cases hp : s.phase t with
      | waiting k =>
          by_cases hhead : s.queue.head?.map Prod.fst = some t
          · cases hk : s.table k with
            | some v =>
                obtain rfl : s.finish s.table ⟨t, k, none, .ok v⟩ = s' := by
                  simpa only [step, hp, hhead, hk, if_true, Option.some.injEq] using h
                exact .inr (.inl ⟨t, k, v, rfl, hp, hhead, hk, rfl⟩)
            | none =>
                obtain rfl : s.setPhase t (.making k) = s' := by
                  simpa only [step, hp, hhead, hk, if_true, Option.some.injEq] using h
                exact .inr (.inr (.inl ⟨t, k, rfl, hp, hhead, hk, rfl⟩))
          · simp only [step, hp, hhead, if_false] at h
            cases h
      | _ => simp [step, hp] at h
  | made t r =>
      cases hp : s.phase t with
      | making k =>
          obtain rfl : s.finish (s.insert k r) ⟨t, k, some r, r⟩ = s' := by
            simpa [step, hp] using h
          exact .inr (.inr (.inr ⟨t, k, r, rfl, hp, rfl⟩))
      | _ => simp [step, hp] at h

theorem enter_cases {t : τ} (h : s.step (.enter t) = some s') :
    ∃ k, s.phase t = .waiting k ∧ s.queue.head?.map Prod.fst = some t ∧
      ((∃ v, s.table k = some v ∧ s' = s.finish s.table ⟨t, k, none, .ok v⟩) ∨
        s.table k = none ∧ s' = s.setPhase t (.making k)) := by
  rcases step_cases h with ⟨u, k, he, -⟩ | ⟨u, k, v, he, hwaiting, hhead, hv, rfl⟩ |
    ⟨u, k, he, hwaiting, hhead, hnone, rfl⟩ | ⟨u, k, r, he, -⟩
  · cases he
  · obtain rfl := MemoEvent.enter.inj he
    exact ⟨k, hwaiting, hhead, .inl ⟨v, hv, rfl⟩⟩
  · obtain rfl := MemoEvent.enter.inj he
    exact ⟨k, hwaiting, hhead, .inr ⟨hnone, rfl⟩⟩
  · cases he

theorem made_cases {t : τ} {r : Except ε ν} (h : s.step (.made t r) = some s') :
    ∃ k, s.phase t = .making k ∧ s' = s.finish (s.insert k r) ⟨t, k, some r, r⟩ := by
  rcases step_cases h with ⟨u, k, he, -⟩ | ⟨u, k, v, he, -⟩ | ⟨u, k, he, -⟩ |
    ⟨u, k, r', he, hmaking, rfl⟩
  · cases he
  · cases he
  · cases he
  · obtain ⟨rfl, rfl⟩ := MemoEvent.made.inj he
    exact ⟨k, hmaking, rfl⟩

/-- What holds of a table that was `table` when no task had come yet. -/
structure Served (table : κ → Option ν) (s : MemoTable τ κ ν ε) : Prop where
  nodup : (s.queue.map Prod.fst).Nodup
  queued : ∀ t k, (t, k) ∈ s.queue ↔ s.phase t = .waiting k ∨ s.phase t = .making k
  making : ∀ t k, s.phase t = .making k →
    s.queue.head?.map Prod.fst = some t ∧ s.table k = none
  called : ∀ c ∈ s.calls, s.phase c.task = .done c.result
  done : ∀ t r, s.phase t = .done r → ∃ c ∈ s.calls, c.task = t ∧ c.result = r
  asked : s.asked = s.calls.map (fun c ↦ (c.task, c.key)) ++ s.queue
  replay : Replay table s.calls s.table

namespace Served

omit [DecidableEq τ] in
theorem new : Served table (new table : MemoTable τ κ ν ε) where
  nodup := List.nodup_nil
  queued t k := by simp [MemoTable.new]
  making t k h := by cases h
  called c hc := by cases hc
  done t r h := by cases h
  asked := rfl
  replay := .nil

omit [DecidableEq τ] in
theorem first (hs : s.Served table) {t : τ} {k : κ} (h : (t, k) ∈ s.queue)
    (hhead : s.queue.head?.map Prod.fst = some t) : ∃ rest, s.queue = (t, k) :: rest := by
  cases hq : s.queue with
  | nil => simp [hq] at h
  | cons p rest =>
      have hfst : p.1 = t := by simpa [hq] using hhead
      have hp : p = (t, k) :=
        List.inj_on_of_nodup_map hs.nodup (by simp [hq]) h hfst
      exact ⟨rest, by rw [hp]⟩

theorem ask (hs : s.Served table) {t : τ} (hidle : s.phase t = .idle) (k : κ) :
    (s.ask t k).Served table := by
  have hnot : ∀ k', (t, k') ∉ s.queue := by
    intro k' h
    rcases (hs.queued t k').mp h with h | h <;> cases hidle.symm.trans h
  have hphase : ∀ u, u ≠ t → (s.ask t k).phase u = s.phase u := fun u hu ↦ phase_ask_ne s k hu
  have hself : (s.ask t k).phase t = .waiting k := phase_ask_self s k
  constructor
  · have hqueue : (s.ask t k).queue.map Prod.fst = s.queue.map Prod.fst ++ [t] := by
      simp [MemoTable.ask]
    rw [hqueue, List.nodup_append]
    refine ⟨hs.nodup, List.nodup_singleton t, ?_⟩
    rintro u hu v hv rfl
    obtain rfl := List.mem_singleton.mp hv
    obtain ⟨⟨_, k'⟩, hmem, rfl⟩ := List.mem_map.mp hu
    exact hnot k' hmem
  · intro u k'
    have hmem : (u, k') ∈ (s.ask t k).queue ↔ (u, k') ∈ s.queue ∨ (u = t ∧ k' = k) := by
      simp [MemoTable.ask]
    rw [hmem]
    by_cases hu : u = t
    · subst hu
      rw [hself]
      simp [hnot, eq_comm]
    · rw [hphase u hu, ← hs.queued u k']
      simp [hu]
  · intro u k' h
    by_cases hu : u = t
    · subst hu
      cases hself.symm.trans h
    · obtain ⟨hhead, hnone⟩ := hs.making u k' ((hphase u hu).symm.trans h)
      refine ⟨?_, hnone⟩
      cases hq : s.queue with
      | nil => simp [hq] at hhead
      | cons p rest => simpa [MemoTable.ask, hq] using hhead
  · intro c hc
    have hdone := hs.called c hc
    by_cases hu : c.task = t
    · rw [hu, hidle] at hdone
      cases hdone
    · rw [hphase c.task hu]
      exact hdone
  · intro u r h
    by_cases hu : u = t
    · subst hu
      cases hself.symm.trans h
    · exact hs.done u r ((hphase u hu).symm.trans h)
  · change s.asked ++ [(t, k)] = _ ++ (s.queue ++ [(t, k)])
    rw [hs.asked, List.append_assoc]
    rfl
  · exact hs.replay

theorem make (hs : s.Served table) {t : τ} {k : κ} (hwaiting : s.phase t = .waiting k)
    (hhead : s.queue.head?.map Prod.fst = some t) (hnone : s.table k = none) :
    (s.setPhase t (.making k)).Served table := by
  have hphase : ∀ u, u ≠ t → (s.setPhase t (.making k)).phase u = s.phase u := fun u hu ↦
    phase_setPhase_ne s (.making k) hu
  have hself : (s.setPhase t (.making k)).phase t = .making k := phase_setPhase_self s (.making k)
  refine ⟨hs.nodup, fun u k' ↦ ?_, fun u k' h ↦ ?_, fun c hc ↦ ?_, fun u r h ↦ ?_, hs.asked,
    hs.replay⟩
  · by_cases hu : u = t
    · subst hu
      rw [hself]
      apply (hs.queued u k').trans
      simp [hwaiting]
    · rw [hphase u hu]
      exact hs.queued u k'
  · by_cases hu : u = t
    · subst hu
      obtain rfl := MemoPhase.making.inj (hself.symm.trans h)
      exact ⟨hhead, hnone⟩
    · exact hs.making u k' ((hphase u hu).symm.trans h)
  · have hdone := hs.called c hc
    by_cases hu : c.task = t
    · rw [hu, hwaiting] at hdone
      cases hdone
    · rw [hphase c.task hu]
      exact hdone
  · by_cases hu : u = t
    · subst hu
      cases hself.symm.trans h
    · exact hs.done u r ((hphase u hu).symm.trans h)

/-- The task that has the lock finishes with a call that could come next. -/
theorem finish (hs : s.Served table) {c : MemoCall τ κ ν ε} (hmem : (c.task, c.key) ∈ s.queue)
    (hhead : s.queue.head?.map Prod.fst = some c.task) {t' : κ → Option ν}
    (hmade : c.made = none ↔ (s.table c.key).isSome)
    (heq : ∀ make, lookup s.table c.key (c.made.getD make) = (c.result, t')) :
    (s.finish t' c).Served table := by
  obtain ⟨rest, hq⟩ := hs.first hmem hhead
  have hnodup : c.task ∉ rest.map Prod.fst ∧ (rest.map Prod.fst).Nodup := by
    have h := hs.nodup
    rw [hq, List.map_cons, List.nodup_cons] at h
    exact h
  have hphase : ∀ u, u ≠ c.task → (s.finish t' c).phase u = s.phase u := fun u hu ↦
    phase_finish_ne s t' c hu
  have hself : (s.finish t' c).phase c.task = .done c.result := phase_finish_self s t' c
  have hqueue : (s.finish t' c).queue = rest := by simp [MemoTable.finish, hq]
  constructor
  · rw [hqueue]
    exact hnodup.2
  · intro u k'
    rw [hqueue]
    by_cases hu : u = c.task
    · subst hu
      rw [hself]
      refine iff_of_false (fun h ↦ hnodup.1 (List.mem_map.mpr ⟨_, h, rfl⟩)) ?_
      rintro (h | h) <;> cases h
    · rw [hphase u hu, ← hs.queued u k', hq]
      simp [hu]
  · intro u k' h
    by_cases hu : u = c.task
    · subst hu
      cases hself.symm.trans h
    · have hfirst := (hs.making u k' ((hphase u hu).symm.trans h)).1
      rw [hhead] at hfirst
      exact absurd (Option.some.inj hfirst).symm hu
  · intro d hd
    rcases List.mem_append.mp hd with hd | hd
    · have hdone := hs.called d hd
      by_cases hu : d.task = c.task
      · rcases (hs.queued _ _).mp hmem with h | h <;> cases h.symm.trans (hu ▸ hdone)
      · rw [hphase d.task hu]
        exact hdone
    · obtain rfl := List.mem_singleton.mp hd
      exact hself
  · intro u r h
    by_cases hu : u = c.task
    · subst hu
      exact ⟨c, List.mem_append_right _ (List.mem_singleton_self c), rfl,
        MemoPhase.done.inj (hself.symm.trans h)⟩
    · obtain ⟨d, hd, htask, hresult⟩ := hs.done u r ((hphase u hu).symm.trans h)
      exact ⟨d, List.mem_append_left _ hd, htask, hresult⟩
  · change s.asked = (s.calls ++ [c]).map _ ++ (s.finish t' c).queue
    rw [hqueue, hs.asked, hq]
    simp
  · exact .snoc hs.replay hmade heq

omit [DecidableEq τ] in
theorem lookup_insert {k : κ} (hnone : s.table k = none) (r : Except ε ν) :
    lookup s.table k r = (r, s.insert k r) := by
  cases r <;> simp [lookup, hnone, insert]

theorem step (hs : s.Served table) (h : s.step e = some s') : s'.Served table := by
  rcases step_cases h with ⟨t, k, -, hidle, rfl⟩ | ⟨t, k, v, -, hwaiting, hhead, hv, rfl⟩ |
    ⟨t, k, -, hwaiting, hhead, hnone, rfl⟩ | ⟨t, k, r, -, hmaking, rfl⟩
  · exact hs.ask hidle k
  · have hmem : (t, k) ∈ s.queue := (hs.queued t k).mpr (.inl hwaiting)
    refine hs.finish hmem hhead ?_ fun make ↦ ?_
    · simp [hv]
    · simp [lookup, hv]
  · exact hs.make hwaiting hhead hnone
  · have hmem : (t, k) ∈ s.queue := (hs.queued t k).mpr (.inr hmaking)
    obtain ⟨hhead, hnone⟩ := hs.making t k hmaking
    refine hs.finish hmem hhead ?_ fun make ↦ ?_
    · simp [hnone]
    · exact lookup_insert hnone r

/-- While a value is being made, no lookup is over and the table stays. -/
theorem blocked (hs : s.Served table) {t : τ} {k : κ} (hmaking : s.phase t = .making k)
    (h : s.step e = some s') :
    (∃ r, e = .made t r) ∨ s'.phase t = .making k ∧ s'.table = s.table ∧ s'.calls = s.calls := by
  have hfirst := (hs.making t k hmaking).1
  rcases step_cases h with ⟨u, j, -, hidle, rfl⟩ | ⟨u, j, v, -, hwaiting, hhead, -, -⟩ |
    ⟨u, j, -, hwaiting, hhead, -, -⟩ | ⟨u, j, r, rfl, hu, -⟩
  · have hne : t ≠ u := by
      rintro rfl
      cases hmaking.symm.trans hidle
    exact .inr ⟨(phase_ask_ne s j hne).trans hmaking, rfl, rfl⟩
  · obtain rfl := Option.some.inj (hfirst.symm.trans hhead)
    cases hmaking.symm.trans hwaiting
  · obtain rfl := Option.some.inj (hfirst.symm.trans hhead)
    cases hmaking.symm.trans hwaiting
  · obtain rfl := Option.some.inj (hfirst.symm.trans (hs.making u j hu).1)
    exact .inl ⟨r, rfl⟩

theorem table_step (hs : s.Served table) (h : s.step e = some s') {k : κ} {v : ν}
    (hv : s.table k = some v) : s'.table k = some v := by
  rcases step_cases h with ⟨t, j, -, -, rfl⟩ | ⟨t, j, w, -, -, -, -, rfl⟩ |
    ⟨t, j, -, -, -, -, rfl⟩ | ⟨t, j, r, -, hmaking, rfl⟩
  · exact hv
  · exact hv
  · exact hv
  · exact lookup_keeps (lookup_insert (hs.making t j hmaking).2 r) hv

/-- The first of the queue gets its result in two steps of its own, whatever comes of making the
value. -/
theorem serve_first (hs : s.Served table) {t : τ} {k : κ} {rest : List (τ × κ)}
    (hq : s.queue = (t, k) :: rest) (r : Except ε ν) :
    ∃ es s', (es = [.enter t] ∨ es = [.made t r] ∨ es = [.enter t, .made t r]) ∧
      (machine table).run s es = some s' ∧ s'.queue = rest ∧ ∃ r', s'.phase t = .done r' := by
  have hhead : s.queue.head?.map Prod.fst = some t := by rw [hq]; rfl
  rcases (hs.queued t k).mp (by simp [hq]) with hwaiting | hmaking
  · cases hk : s.table k with
    | some v =>
        refine ⟨[.enter t], s.finish s.table ⟨t, k, none, .ok v⟩, .inl rfl, ?_, ?_, .ok v, ?_⟩
        · simp [Machine.run_cons, machine, MemoTable.step, hwaiting, hhead, hk]
        · simp [MemoTable.finish, hq]
        · simp [MemoTable.finish, setPhase]
    | none =>
        let u := s.setPhase t (.making k)
        refine ⟨[.enter t, .made t r], u.finish (u.insert k r) ⟨t, k, some r, r⟩,
          .inr (.inr rfl), ?_, ?_, r, ?_⟩
        · have henter : s.step (.enter t) = some u := by
            simp [MemoTable.step, hwaiting, hhead, hk, u]
          have hmade : u.step (.made t r) = some (u.finish (u.insert k r) ⟨t, k, some r, r⟩) := by
            simp [MemoTable.step, u, setPhase]
          simp [Machine.run_cons, machine, henter, hmade]
        · simp [MemoTable.finish, setPhase, u, hq]
        · simp [MemoTable.finish, setPhase]
  · refine ⟨[.made t r], s.finish (s.insert k r) ⟨t, k, some r, r⟩, .inr (.inl rfl), ?_, ?_, r, ?_⟩
    · simp [Machine.run_cons, machine, MemoTable.step, hmaking]
    · simp [MemoTable.finish, hq]
    · simp [MemoTable.finish, setPhase]

theorem run (hs : s.Served table) {es : List (MemoEvent τ κ ν ε)}
    (h : (machine table).run s es = some s') : s'.Served table := by
  have hall : (machine table).Along (fun _ _ ↦ True) s es := .of_forall (fun _ _ _ ↦ trivial) s
  exact Machine.run_preserves (I := fun s ↦ s.Served table)
    (fun s e s' _ hs hstep ↦ hs.step hstep) hall hs h

/-- A task in the queue gets its result by steps of its own and of the tasks before it, two for
each of them. -/
theorem serve (hs : s.Served table) {before after : List (τ × κ)} {t : τ} {k : κ}
    (hq : s.queue = before ++ (t, k) :: after) (outcome : τ → Except ε ν) :
    ∃ es s', (machine table).run s es = some s' ∧
      (∀ e ∈ es, ∃ u ∈ before.map Prod.fst ++ [t], e = .enter u ∨ e = .made u (outcome u)) ∧
      es.length ≤ 2 * (before.length + 1) ∧ s'.queue = after ∧ ∃ r, s'.phase t = .done r := by
  induction before generalizing s with
  | nil =>
      obtain ⟨es, s', hes, hrun, hrest, hdone⟩ := hs.serve_first hq (outcome t)
      refine ⟨es, s', hrun, ?_, ?_, hrest, hdone⟩
      · rcases hes with rfl | rfl | rfl <;> simp
      · rcases hes with rfl | rfl | rfl <;> simp
  | cons p before ih =>
      obtain ⟨u, j⟩ := p
      obtain ⟨es, v, hes, hrun, hrest, -⟩ := hs.serve_first hq (outcome u)
      obtain ⟨es', s', hrun', hown, hlength, hafter, hdone⟩ := ih (hs.run hrun) hrest
      refine ⟨es ++ es', s', (machine table).run_append_eq_some.mpr ⟨v, hrun, hrun'⟩, ?_, ?_,
        hafter, hdone⟩
      · intro e he
        rcases List.mem_append.mp he with he | he
        · refine ⟨u, by simp, ?_⟩
          rcases hes with rfl | rfl | rfl <;> simp at he <;> simp [he]
        · obtain ⟨w, hw, he⟩ := hown e he
          exact ⟨w, List.mem_cons_of_mem u hw, he⟩
      · have htwo : es.length ≤ 2 := by rcases hes with rfl | rfl | rfl <;> simp
        simp only [List.length_append, List.length_cons]
        omega

omit [DecidableEq τ] in
/-- Only one task makes a value at a time. -/
theorem eq_of_making (hs : s.Served table) {t u : τ} {j k : κ} (ht : s.phase t = .making j)
    (hu : s.phase u = .making k) : t = u :=
  Option.some.inj ((hs.making t j ht).1.symm.trans (hs.making u k hu).1)

theorem of_reachable (h : (machine table).Reachable s) : s.Served table := by
  refine h.invariant (I := fun s ↦ s.Served table) ?_ fun s e s' hs hstep ↦ hs.step hstep
  rintro s rfl
  exact .new

end Served

end MemoTable

end Rog.Lib
