import Mathlib.Data.List.Induction
import Mathlib.Logic.Function.Basic

/-!
# Tables from lists

A table is filled from the entries of a list, one after the other. An entry takes the place of an
earlier one for the same key, and some entries give nothing.
-/

namespace Rog.Lib

universe u v w

variable {α : Type u} {κ : Type v} {ν : Type w} [DecidableEq κ] {entry : α → Option (κ × ν)}
  {xs : List α} {k : κ} {b : ν}

def enter (entry : α → Option (κ × ν)) (table : κ → Option ν) (x : α) : κ → Option ν :=
  match entry x with
  | none => table
  | some (k, b) => Function.update table k (some b)

def tableOf (entry : α → Option (κ × ν)) (xs : List α) : κ → Option ν :=
  xs.foldl (enter entry) fun _ ↦ none

/-- The last of the entries for `k` gives `b`. -/
def LastEntry (entry : α → Option (κ × ν)) (xs : List α) (k : κ) (b : ν) : Prop :=
  ∃ before x after, xs = before ++ x :: after ∧ entry x = some (k, b) ∧
    ∀ y ∈ after, ∀ b', entry y ≠ some (k, b')

theorem tableOf_concat (x : α) : tableOf entry (xs ++ [x]) = enter entry (tableOf entry xs) x := by
  rw [tableOf, List.foldl_append]
  rfl

theorem enter_of_entry {table : κ → Option ν} {x : α} (h : entry x = some (k, b)) :
    enter entry table x k = some b := by
  rw [enter, h]
  exact Function.update_self k _ table

theorem enter_of_ne {table : κ → Option ν} {x : α} (h : ∀ b, entry x ≠ some (k, b)) :
    enter entry table x k = table k := by
  unfold enter
  cases hx : entry x with
  | none => rfl
  | some p =>
      have hne : k ≠ p.1 := by
        rintro rfl
        exact h p.2 hx
      exact Function.update_of_ne hne _ table

omit [DecidableEq κ] in
theorem LastEntry.concat {x : α} (h : LastEntry entry xs k b) (hx : ∀ b, entry x ≠ some (k, b)) :
    LastEntry entry (xs ++ [x]) k b := by
  obtain ⟨before, y, after, rfl, hy, hafter⟩ := h
  refine ⟨before, y, after ++ [x], by simp, hy, fun z hz ↦ ?_⟩
  rcases List.mem_append.mp hz with hz | hz
  · exact hafter z hz
  · rw [List.mem_singleton.mp hz]
    exact hx

theorem lastEntry_of_tableOf (h : tableOf entry xs k = some b) : LastEntry entry xs k b := by
  induction xs using List.reverseRecOn with
  | nil => cases h
  | append_singleton xs x ih =>
      rw [tableOf_concat] at h
      by_cases hx : ∃ b', entry x = some (k, b')
      · obtain ⟨b', hx⟩ := hx
        rw [enter_of_entry hx] at h
        obtain rfl := Option.some.inj h
        exact ⟨xs, x, [], rfl, hx, fun y hy ↦ absurd hy List.not_mem_nil⟩
      · have hx := not_exists.mp hx
        rw [enter_of_ne hx] at h
        exact (ih h).concat hx

theorem foldl_enter_of_ne {table : κ → Option ν} (h : ∀ x ∈ xs, ∀ b, entry x ≠ some (k, b)) :
    xs.foldl (enter entry) table k = table k := by
  induction xs generalizing table with
  | nil => rfl
  | cons x xs ih =>
      rw [List.foldl_cons, ih fun y hy ↦ h y (List.mem_cons_of_mem x hy)]
      exact enter_of_ne (h x List.mem_cons_self)

theorem tableOf_eq_some_iff : tableOf entry xs k = some b ↔ LastEntry entry xs k b := by
  constructor
  · exact lastEntry_of_tableOf
  · rintro ⟨before, x, after, rfl, hx, hafter⟩
    rw [tableOf, List.foldl_append, List.foldl_cons, foldl_enter_of_ne hafter]
    exact enter_of_entry hx

theorem tableOf_eq_none_iff : tableOf entry xs k = none ↔ ∀ x ∈ xs, ∀ b, entry x ≠ some (k, b) := by
  constructor
  · induction xs using List.reverseRecOn with
    | nil => exact fun _ x hx ↦ absurd hx List.not_mem_nil
    | append_singleton xs x ih =>
        intro h
        rw [tableOf_concat] at h
        have hx : ∀ b, entry x ≠ some (k, b) := by
          intro b hx
          rw [enter_of_entry hx] at h
          cases h
        rw [enter_of_ne hx] at h
        intro y hy
        rcases List.mem_append.mp hy with hy | hy
        · exact ih h y hy
        · rw [List.mem_singleton.mp hy]
          exact hx
  · exact fun h ↦ foldl_enter_of_ne h

theorem tableOf_map {μ : Type*} {entry' : α → Option (κ × μ)} (f : ν → μ)
    (hentry : ∀ x, entry' x = (entry x).map (Prod.map id f)) :
    tableOf entry' xs k = (tableOf entry xs k).map f := by
  induction xs using List.reverseRecOn with
  | nil => rfl
  | append_singleton xs x ih =>
      rw [tableOf_concat, tableOf_concat]
      by_cases hx : ∃ b, entry x = some (k, b)
      · obtain ⟨b, hx⟩ := hx
        have hx' : entry' x = some (k, f b) := by
          rw [hentry, hx]
          rfl
        rw [enter_of_entry hx, enter_of_entry hx', Option.map_some]
      · have hx := not_exists.mp hx
        have hx' (d : μ) : entry' x ≠ some (k, d) := by
          rw [hentry]
          intro h
          obtain ⟨⟨j, b⟩, hb, hjd⟩ := Option.map_eq_some_iff.mp h
          obtain ⟨rfl, -⟩ := Prod.mk.inj hjd
          exact hx b hb
        rw [enter_of_ne hx, enter_of_ne hx', ih]

/-- The entries that are not for `k` can be left out. -/
theorem tableOf_filter {p : α → Bool} (h : ∀ x b, entry x = some (k, b) → p x = true) :
    tableOf entry (xs.filter p) k = tableOf entry xs k := by
  induction xs using List.reverseRecOn with
  | nil => rfl
  | append_singleton xs x ih =>
      rw [List.filter_append, tableOf_concat]
      by_cases hx : ∃ b, entry x = some (k, b)
      · obtain ⟨b, hx⟩ := hx
        have hkept : [x].filter p = [x] := by simp [h x b hx]
        rw [hkept, tableOf_concat, enter_of_entry hx, enter_of_entry hx]
      · have hx := not_exists.mp hx
        rw [enter_of_ne hx, ← ih]
        cases hp : p x with
        | false =>
            have hleft : [x].filter p = [] := by simp [hp]
            rw [hleft, List.append_nil]
        | true =>
            have hkept : [x].filter p = [x] := by simp [hp]
            rw [hkept, tableOf_concat, enter_of_ne hx]

end Rog.Lib
