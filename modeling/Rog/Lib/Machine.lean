import Mathlib.Data.List.Basic

/-!
# Labelled machines

A machine is a partial step function on states, driven by labels: `step s a` is `none`
exactly when the action `a` is not enabled in `s`. All nondeterminism of the modelled
program (the scheduler, its environment, the branch a `select!` takes) sits in the labels,
so that a run is a list of labels and can be evaluated.

The rules proved here are the ones every safety argument uses: a property which one step
preserves holds at the end of a run, and of every reachable state.
-/

namespace Rog.Lib

variable {σ α : Type*}

structure Machine (σ α : Type*) where
  init : σ → Prop
  step : σ → α → Option σ

namespace Machine

variable (M : Machine σ α)

def run (s : σ) : List α → Option σ
  | [] => some s
  | a :: as => (M.step s a).bind fun t ↦ run t as

@[simp] theorem run_nil (s : σ) : M.run s [] = some s := rfl

theorem run_cons (s : σ) (a : α) (as : List α) :
    M.run s (a :: as) = (M.step s a).bind fun t ↦ M.run t as := rfl

theorem run_append (s : σ) (as bs : List α) :
    M.run s (as ++ bs) = (M.run s as).bind fun t ↦ M.run t bs := by
  induction as generalizing s with
  | nil => rfl
  | cons a as ih =>
      cases h : M.step s a with
      | none => simp [run_cons, h]
      | some t => simpa [run_cons, h] using ih t

theorem run_append_eq_some {s t : σ} {as bs : List α} :
    M.run s (as ++ bs) = some t ↔ ∃ u, M.run s as = some u ∧ M.run u bs = some t := by
  rw [run_append]
  exact Option.bind_eq_some_iff

theorem run_cons_some {s t : σ} {a : α} {as : List α} (h : M.run s (a :: as) = some t) :
    ∃ u, M.step s a = some u ∧ M.run u as = some t := by
  rw [run_cons] at h
  exact Option.bind_eq_some_iff.mp h

/-- The states that some run from an initial state ends in. -/
def Reachable (s : σ) : Prop :=
  ∃ s₀ as, M.init s₀ ∧ M.run s₀ as = some s

variable {M}

variable (M) in
/-- `P` holds at each step of the run from `s`, of the state before the step and its label.
It carries what is assumed of the environment or the scheduler. -/
def Along (P : σ → α → Prop) (s : σ) : List α → Prop
  | [] => True
  | a :: as => P s a ∧ ∀ t, M.step s a = some t → Along P t as

theorem along_cons_iff {P : σ → α → Prop} {s t : σ} {a : α} {as : List α}
    (h : M.step s a = some t) : M.Along P s (a :: as) ↔ P s a ∧ M.Along P t as := by
  simp [Along, h]

instance decidableAlong {P : σ → α → Prop} [∀ s a, Decidable (P s a)] :
    (s : σ) → (as : List α) → Decidable (M.Along P s as)
  | _, [] => .isTrue trivial
  | s, a :: as => match h : M.step s a with
    | none => decidable_of_iff (P s a) (by simp [Along, h])
    | some t =>
        have : Decidable (M.Along P t as) := decidableAlong t as
        decidable_of_iff _ (along_cons_iff h).symm

theorem Along.of_forall {P : σ → α → Prop} {as : List α} (hP : ∀ a ∈ as, ∀ s, P s a) (s : σ) :
    M.Along P s as := by
  induction as generalizing s with
  | nil => trivial
  | cons a as ih =>
      refine ⟨hP a (by simp) s, fun t _ ↦ ?_⟩
      exact ih (fun b hb ↦ hP b (List.mem_cons_of_mem a hb)) t

theorem along_iff_forall_mem {P : α → Prop} {s t : σ} {as : List α} (h : M.run s as = some t) :
    M.Along (fun _ a ↦ P a) s as ↔ ∀ a ∈ as, P a := by
  induction as generalizing s with
  | nil => exact iff_of_true trivial nofun
  | cons a as ih =>
      obtain ⟨u, hu, hrest⟩ := M.run_cons_some h
      rw [along_cons_iff hu, ih hrest, List.forall_mem_cons]

/-- The run rule: what each step of a run preserves, under what is assumed along the run,
holds at its end. -/
theorem run_preserves {I : σ → Prop} {P : σ → α → Prop}
    (hstep : ∀ s a t, P s a → I s → M.step s a = some t → I t)
    {as : List α} {s t : σ} (hP : M.Along P s as) (hs : I s) (h : M.run s as = some t) :
    I t := by
  induction as generalizing s with
  | nil =>
      obtain rfl : s = t := by simpa using h
      exact hs
  | cons a as ih =>
      obtain ⟨u, hu, hrest⟩ := M.run_cons_some h
      obtain ⟨hPs, hPu⟩ := (along_cons_iff hu).mp hP
      exact ih hPu (hstep s a u hPs hs hu) hrest

/-- What an invariant implies of each enabled step holds along every run. -/
theorem Along.of_invariant {I : σ → Prop} {P Q : σ → α → Prop}
    (hstep : ∀ s a t, P s a → I s → M.step s a = some t → I t ∧ Q s a)
    {as : List α} {s t : σ} (hP : M.Along P s as) (hs : I s) (h : M.run s as = some t) :
    M.Along Q s as := by
  induction as generalizing s with
  | nil => trivial
  | cons a as ih =>
      obtain ⟨u, hu, hrest⟩ := M.run_cons_some h
      obtain ⟨hPs, hPu⟩ := (along_cons_iff hu).mp hP
      obtain ⟨hI, hQ⟩ := hstep s a u hPs hs hu
      exact (along_cons_iff hu).mpr ⟨hQ, ih hPu hI hrest⟩

/-- The states of a run all have a property if and only if each step is as it has to be to keep
it, relative to an invariant and to what is assumed along the run. -/
theorem along_iff_forall_isPrefix {I P : σ → Prop} {E Q : σ → α → Prop}
    (hstep : ∀ s a t, E s a → I s → P s → M.step s a = some t → I t ∧ (P t ↔ Q s a))
    {as : List α} {s t : σ} (hE : M.Along E s as) (hI : I s) (hP : P s)
    (h : M.run s as = some t) :
    (∀ bs u, bs <+: as → M.run s bs = some u → P u) ↔ M.Along Q s as := by
  induction as generalizing s with
  | nil =>
      refine iff_of_true (fun bs u hbs hu ↦ ?_) trivial
      obtain rfl := List.prefix_nil.mp hbs
      obtain rfl := Option.some.inj hu
      exact hP
  | cons a as ih =>
      obtain ⟨v, hv, hrest⟩ := M.run_cons_some h
      obtain ⟨hEs, hEv⟩ := (along_cons_iff hv).mp hE
      obtain ⟨hIv, hiff⟩ := hstep s a v hEs hI hP hv
      rw [along_cons_iff hv, ← hiff]
      constructor
      · intro hall
        have hPv : P v := hall [a] v ⟨as, rfl⟩ (by rw [run_cons, hv]; rfl)
        refine ⟨hPv, (ih hEv hIv hPv hrest).mp fun bs u hbs hu ↦ ?_⟩
        refine hall (a :: bs) u (List.cons_prefix_cons.mpr ⟨rfl, hbs⟩) ?_
        rw [run_cons, hv]
        exact hu
      · rintro ⟨hPv, halong⟩ bs u hbs hu
        cases bs with
        | nil =>
            obtain rfl := Option.some.inj hu
            exact hP
        | cons b bs =>
            obtain ⟨rfl, htail⟩ := List.cons_prefix_cons.mp hbs
            rw [run_cons, hv] at hu
            exact (ih hEv hIv hPv hrest).mpr halong bs u htail hu

theorem Reachable.of_init {s : σ} (h : M.init s) : M.Reachable s :=
  ⟨s, [], h, rfl⟩

theorem Reachable.of_run {s t : σ} {as : List α} (hs : M.Reachable s)
    (h : M.run s as = some t) : M.Reachable t := by
  obtain ⟨s₀, bs, h₀, hbs⟩ := hs
  exact ⟨s₀, bs ++ as, h₀, by rw [run_append, hbs]; exact h⟩

theorem Reachable.step {s t : σ} {a : α} (hs : M.Reachable s) (h : M.step s a = some t) :
    M.Reachable t := by
  have hrun : M.run s [a] = some t := by simp [run_cons, h]
  exact hs.of_run hrun

/-- The invariant rule: what holds initially and is preserved by each step holds of every
reachable state. -/
theorem Reachable.invariant {I : σ → Prop} (hinit : ∀ s, M.init s → I s)
    (hstep : ∀ s a t, I s → M.step s a = some t → I t) {s : σ} (hs : M.Reachable s) :
    I s := by
  obtain ⟨s₀, as, h₀, has⟩ := hs
  have hP : M.Along (fun _ _ ↦ True) s₀ as := .of_forall (fun _ _ _ ↦ trivial) s₀
  exact run_preserves (fun s a t _ ↦ hstep s a t) hP (hinit s₀ h₀) has

/-- The progress rule: where every state short of the goal has an allowed step that keeps the
invariant and lowers the rank, allowed steps lead to the goal, in no more of them than the rank. -/
theorem exists_run_of_rank {I Goal : σ → Prop} {Allowed : α → Prop} (rank : σ → ℕ)
    (hstep : ∀ s, I s → ¬Goal s →
      ∃ a t, M.step s a = some t ∧ Allowed a ∧ I t ∧ rank t < rank s)
    {s : σ} (hs : I s) :
    ∃ as t, M.run s as = some t ∧ (∀ a ∈ as, Allowed a) ∧ as.length ≤ rank s ∧ I t ∧ Goal t := by
  induction hn : rank s using Nat.strongRecOn generalizing s with
  | ind n ih =>
      by_cases hgoal : Goal s
      · exact ⟨[], s, rfl, by simp, Nat.zero_le n, hs, hgoal⟩
      · obtain ⟨a, t, ht, ha, hI, hrank⟩ := hstep s hs hgoal
        obtain ⟨as, u, hrun, has, hlength, hend⟩ := ih (rank t) (hn ▸ hrank) hI rfl
        refine ⟨a :: as, u, ?_, List.forall_mem_cons.mpr ⟨ha, has⟩, ?_, hend⟩
        · rw [run_cons, ht]
          exact hrun
        · simp only [List.length_cons]
          omega

theorem Reachable.invariant_of {I J : σ → Prop} (hJ : ∀ s, M.Reachable s → J s)
    (hinit : ∀ s, M.init s → I s)
    (hstep : ∀ s a t, J s → I s → M.step s a = some t → I t) {s : σ} (hs : M.Reachable s) :
    I s := by
  have hboth : M.Reachable s ∧ I s := by
    refine hs.invariant (I := fun s ↦ M.Reachable s ∧ I s) ?_ ?_
    · intro s h
      exact ⟨.of_init h, hinit s h⟩
    · intro s a t ⟨hr, hI⟩ h
      exact ⟨hr.step h, hstep s a t (hJ s hr) hI h⟩
  exact hboth.2

end Machine

end Rog.Lib
