import Mathlib.Data.List.Basic

/-!
# The results of successive calls

An operation that returns a result and the state after it, called again and again.
-/

namespace Rog.Lib

variable {σ β : Type*}

def results (op : σ → β × σ) : ℕ → σ → List β × σ
  | 0, s => ([], s)
  | n + 1, s =>
      let (b, t) := op s
      let (bs, u) := results op n t
      (b :: bs, u)

section Sent

variable {ε : Type} {μ γ : Type} {op : σ → β × σ} {write : γ → Except ε μ} {received : γ → β}

/-- The rule for an operation that receives what `write` sends: `Holds ms s` says that the
messages `ms` are to come out of `s`, the first of them first. -/
theorem results_sent (Holds : List μ → σ → Prop)
    (hop : ∀ c m ms s, write c = .ok m → Holds (m :: ms) s →
      ∃ t, op s = (received c, t) ∧ Holds ms t)
    {calls : List γ} {ms : List μ} {s : σ} (hwrites : calls.mapM write = .ok ms)
    (h : Holds ms s) :
    ∃ t, results op calls.length s = (calls.map received, t) ∧ Holds [] t := by
  induction calls generalizing ms s with
  | nil =>
      obtain rfl : [] = ms := Except.ok.inj hwrites
      exact ⟨s, rfl, h⟩
  | cons c calls ih =>
      rw [List.mapM_cons] at hwrites
      cases hc : write c with
      | error e => simp [hc, bind, Except.bind] at hwrites
      | ok m =>
          cases hcalls : calls.mapM write with
          | error e => simp [hc, hcalls, bind, Except.bind] at hwrites
          | ok rest =>
              obtain rfl : m :: rest = ms := by
                simpa [hc, hcalls, bind, Except.bind, pure, Except.pure] using hwrites
              obtain ⟨t, hfirst, ht⟩ := hop c m rest s hc h
              obtain ⟨u, hrest, hu⟩ := ih hcalls ht
              refine ⟨u, ?_, hu⟩
              simp [results, hfirst, hrest]

end Sent

section Until

variable {μ : Type*} {op : σ → β × σ} {received : μ → β} {Stopped : β → Prop}

/-- The rule for an operation that receives the messages `ms` out of `s`, where `Holds ms s`, and
has nothing more to give after them. -/
theorem results_until (Holds : List μ → σ → Prop)
    (hop : ∀ m ms s, Holds (m :: ms) s → ∃ t, op s = (received m, t) ∧ Holds ms t)
    (hstop : ∀ s, Holds [] s → ∃ b t, op s = (b, t) ∧ Stopped b ∧ Holds [] t)
    {ms : List μ} {s : σ} (h : Holds ms s) (n : ℕ) :
    ∃ stops, (results op n s).1 = (ms.take n).map received ++ stops ∧
      stops.length = n - ms.length ∧ ∀ b ∈ stops, Stopped b := by
  induction n generalizing ms s with
  | zero => exact ⟨[], by simp [results], by simp, by simp⟩
  | succ n ih =>
      cases ms with
      | nil =>
          obtain ⟨b, t, hb, hstopped, ht⟩ := hstop s h
          obtain ⟨stops, hresults, hlength, hstops⟩ := ih ht
          refine ⟨b :: stops, ?_, by simp [hlength], List.forall_mem_cons.mpr ⟨hstopped, hstops⟩⟩
          simpa [results, hb] using hresults
      | cons m ms =>
          obtain ⟨t, hm, ht⟩ := hop m ms s h
          obtain ⟨stops, hresults, hlength, hstops⟩ := ih ht
          refine ⟨stops, ?_, by simp [hlength], hstops⟩
          simp [results, hm, hresults]

end Until

end Rog.Lib
