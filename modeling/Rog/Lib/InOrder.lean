import Mathlib.Data.List.Forall2
import Rog.Lib.Reassembly
import Rog.Lib.Results

/-!
# Delivery in order

A source gives the items it has to give in order, and may fail at any time. What has been
received from it by calls none of which failed is a prefix of these items. Where nodes stand in a
row, and each one passes on in order what it receives of the one before it, the last one passes on
a prefix of what the first one receives.
-/

namespace Rog.Lib

variable {σ τ α β μ ν ε ε' : Type*}

/-- Where `Holds ms s`, a call on `s` gives the first of `ms` and leaves the others, or fails. -/
def Feeds (op : σ → Except ε β × σ) (Holds : List β → σ → Prop) : Prop :=
  ∀ ms s, Holds ms s → (∃ e t, op s = (.error e, t)) ∨
    ∃ m rest t, ms = m :: rest ∧ op s = (.ok m, t) ∧ Holds rest t

namespace Feeds

theorem prefix_of_results {op : σ → Except ε β × σ} {Holds : List β → σ → Prop}
    (hop : Feeds op Holds) {ms as : List β} {s : σ} (h : Holds ms s)
    (hresults : (results op as.length s).1 = as.map .ok) : as <+: ms := by
  induction as generalizing ms s with
  | nil => exact List.nil_prefix
  | cons a as ih =>
      rcases hop ms s h with ⟨e, t, herror⟩ | ⟨m, rest, t, rfl, hok, ht⟩
      · simp [results, herror] at hresults
      · obtain ⟨hm, hrest⟩ : m = a ∧ (results op as.length t).1 = as.map .ok := by
          simpa [results, hok] using hresults
        subst hm
        exact (List.prefix_cons_inj m).mpr (ih ht hrest)

/-- A call that reads a message and converts it. -/
theorem convert {read : σ → Except ε μ × σ} {Holds : List μ → σ → Prop} (hread : Feeds read Holds)
    {f : μ → Except ε' β} {op : σ → Except ε' β × σ}
    (hok : ∀ s m t, read s = (.ok m, t) → op s = (f m, t))
    (herror : ∀ s e t, read s = (.error e, t) → ∃ e' t', op s = (.error e', t')) :
    Feeds op fun bs s ↦ ∃ ms, List.Forall₂ (fun m b ↦ f m = .ok b) ms bs ∧ Holds ms s := by
  rintro bs s ⟨ms, hconvert, hs⟩
  rcases hread ms s hs with ⟨e, t, hfails⟩ | ⟨m, rest, t, rfl, hreads, ht⟩
  · exact .inl (herror s e t hfails)
  · cases hconvert with
    | @cons _ b _ bs hb hrest =>
        refine .inr ⟨b, bs, t, rfl, ?_, rest, hrest, ht⟩
        rw [hok s m t hreads, hb]

/-- A reader that keeps the source among other things. -/
theorem view {read : σ → Except ε β × σ} {Holds : List β → σ → Prop} (hread : Feeds read Holds)
    (make : σ → τ) {op : τ → Except ε β × τ}
    (hop : ∀ s, op (make s) = ((read s).1, make (read s).2)) :
    Feeds op fun bs u ↦ ∃ s, u = make s ∧ Holds bs s := by
  rintro bs u ⟨s, rfl, hs⟩
  rcases hread bs s hs with ⟨e, t, hfails⟩ | ⟨b, rest, t, rfl, hreads, ht⟩
  · exact .inl ⟨e, make t, by rw [hop, hfails]⟩
  · exact .inr ⟨b, rest, make t, rfl, by rw [hop, hreads], t, rfl, ht⟩

/-- A reassembler over such a source returns a prefix of the bytes, with empty messages too. -/
theorem prefix_of_reads {pull : σ → Except ε (List α) × σ} {Holds : List (List α) → σ → Prop}
    (hpull : Feeds pull Holds) {payloads outs : List (List α)} {r : Reassembler σ α}
    (h : Holds payloads r.source) {caps : List ℕ}
    (hreads : (Reassembler.reads (Reassembler.read pull) caps r).1 = outs.map .ok) :
    outs.flatten <+: r.pending ++ payloads.flatten := by
  induction caps generalizing payloads outs r with
  | nil =>
      obtain rfl : outs = [] := by simpa [Reassembler.reads] using hreads.symm
      exact List.nil_prefix
  | cons cap caps ih =>
      obtain ⟨out, outs, rfl⟩ : ∃ out rest, outs = out :: rest := by
        cases outs with
        | nil => simp [Reassembler.reads] at hreads
        | cons out outs => exact ⟨out, outs, rfl⟩
      obtain ⟨result, r', hread⟩ : ∃ result r', r.read pull cap = (result, r') := ⟨_, _, rfl⟩
      obtain ⟨rfl, hrest⟩ : result = .ok out ∧
          (Reassembler.reads (Reassembler.read pull) caps r').1 = outs.map .ok := by
        simpa [Reassembler.reads, hread] using hreads
      by_cases hpos : r.cachePos < r.cache.length
      · obtain ⟨t, ht, hsource, -, hpending⟩ := Reassembler.read_pending pull cap hpos
        obtain ⟨hout, rfl⟩ := Prod.mk.inj (hread.symm.trans ht)
        have hnext := ih (hsource ▸ h) hrest
        rw [hpending] at hnext
        rw [List.flatten_cons, Except.ok.inj hout, ← List.take_append_drop cap r.pending,
          List.append_assoc, List.take_append_drop]
        exact (List.prefix_append_right_inj _).mpr hnext
      · have hpending : r.pending = [] := by simpa [Reassembler.pending] using hpos
        rw [hpending, List.nil_append]
        rcases hpull payloads r.source h with ⟨e, t, hfails⟩ | ⟨payload, rest, t, rfl, hgives, ht⟩
        · simp [Reassembler.read, hpos, hfails] at hread
        · by_cases hpayload : payload = []
          · subst hpayload
            obtain ⟨rfl, rfl⟩ : [] = out ∧ ⟨t, [], 0⟩ = r' := by
              simpa [Reassembler.read, hpos, hgives] using hread
            exact ih ht hrest
          · obtain ⟨u, hu, hsource, -, hdrop⟩ := Reassembler.read_pulled cap hpos hgives hpayload
            obtain ⟨hout, rfl⟩ := Prod.mk.inj (hread.symm.trans hu)
            have hnext := ih (hsource ▸ ht) hrest
            rw [hdrop] at hnext
            rw [List.flatten_cons, List.flatten_cons, Except.ok.inj hout,
              ← List.take_append_drop cap payload, List.append_assoc, List.take_append_drop]
            exact (List.prefix_append_right_inj _).mpr hnext

end Feeds

/-! ## Messages that arrive -/

theorem forall₂_of_mapM {γ : Type} {ε μ : Type} {write : γ → Except ε μ} {calls : List γ}
    {ms : List μ} (h : calls.mapM write = .ok ms) : List.Forall₂ (fun m c ↦ write c = .ok m) ms calls := by
  induction calls generalizing ms with
  | nil =>
      obtain rfl : [] = ms := Except.ok.inj h
      exact .nil
  | cons c calls ih =>
      rw [List.mapM_cons] at h
      cases hc : write c with
      | error e => simp [hc, bind, Except.bind] at h
      | ok m =>
          cases hcalls : calls.mapM write with
          | error e => simp [hc, hcalls, bind, Except.bind] at h
          | ok rest =>
              obtain rfl : m :: rest = ms := by
                simpa [hc, hcalls, bind, Except.bind, pure, Except.pure] using h
              exact .cons hc (ih hcalls)

/-- Some of the messages have arrived, and nothing but failures comes after them. -/
def Arrives (ms : List μ) (s : List (Except ε μ)) : Prop :=
  ∃ arrived rest, arrived <+: ms ∧ s = arrived.map .ok ++ rest ∧ ∀ r ∈ rest, ∃ e, r = .error e

theorem Arrives.of_cons {m m' : μ} {ms : List μ} {s : List (Except ε μ)}
    (h : Arrives (m :: ms) (.ok m' :: s)) : m' = m ∧ Arrives ms s := by
  obtain ⟨arrived, rest, harrived, hs, hrest⟩ := h
  cases arrived with
  | nil =>
      rw [List.map_nil, List.nil_append] at hs
      subst hs
      obtain ⟨e, he⟩ := hrest _ List.mem_cons_self
      cases he
  | cons m₁ arrived =>
      obtain ⟨rfl, hprefix⟩ := List.cons_prefix_cons.mp harrived
      obtain ⟨hm, rfl⟩ := List.cons.inj hs
      exact ⟨Except.ok.inj hm, arrived, rest, hprefix, rfl, hrest⟩

theorem feeds_arrives {f : μ → Except ε' β}
    {op : List (Except ε μ) → Except ε' β × List (Except ε μ)}
    (hnil : ∃ e t, op [] = (.error e, t)) (hok : ∀ m s, op (.ok m :: s) = (f m, s))
    (herror : ∀ e s, ∃ e' t, op (.error e :: s) = (.error e', t)) :
    Feeds op fun bs s ↦ ∃ ms, List.Forall₂ (fun m b ↦ f m = .ok b) ms bs ∧ Arrives ms s := by
  rintro bs s ⟨ms, hconvert, arrived, rest, harrived, rfl, hrest⟩
  cases arrived with
  | nil =>
      cases rest with
      | nil => exact .inl hnil
      | cons r rest =>
          obtain ⟨e, rfl⟩ := hrest r (by simp)
          exact .inl (herror e rest)
  | cons m arrived =>
      obtain ⟨later, rfl⟩ := harrived
      cases hconvert with
      | @cons _ b _ bs hb hconvert =>
          refine .inr ⟨b, bs, arrived.map .ok ++ rest, rfl, ?_, arrived ++ later, hconvert, ?_⟩
          · rw [← hb]
            exact hok m _
          · exact ⟨arrived, rest, List.prefix_append arrived later, rfl, hrest⟩

/-! ## Nodes in a row -/

/-- Of more items `clean` leaves more, and of the items that it leaves it leaves all. -/
structure Cleans (clean : List α → List α) : Prop where
  mono : ∀ l l', l <+: l' → clean l <+: clean l'
  idem : ∀ l, clean (clean l) = clean l

theorem cleans_id : Cleans (id : List α → List α) := ⟨fun _ _ h ↦ h, fun _ ↦ rfl⟩

section Row

variable {clean : List α → List α} {output : ν → List α}

/-- What is passed on from each node to the next one comes out at the last one. -/
theorem Cleans.row (h : Cleans clean) (input : ν → List α) {v : ν} {nodes : List ν}
    (hnode : ∀ w ∈ v :: nodes, output w <+: clean (input w))
    (hlink : (v :: nodes).IsChain fun w w' ↦ input w' <+: output w) :
    output ((v :: nodes).getLast (List.cons_ne_nil v nodes)) <+: clean (input v) := by
  induction nodes generalizing v with
  | nil => exact hnode v (by simp)
  | cons w nodes ih =>
      obtain ⟨hfirst, hrest⟩ := List.isChain_cons_cons.mp hlink
      have hlast := ih (fun u hu ↦ hnode u (List.mem_cons_of_mem v hu)) hrest
      have hin : input w <+: clean (input v) := hfirst.trans (hnode v (by simp))
      have hclean : clean (input w) <+: clean (input v) := by
        rw [← h.idem (input v)]
        exact h.mono _ _ hin
      rw [List.getLast_cons_cons]
      exact hlast.trans hclean

/-- What is passed back from each node to the one before it comes out at the first one. -/
theorem row_back {input : ν → List α} {v : ν} {nodes : List ν}
    (hnode : ∀ w ∈ v :: nodes, output w <+: input w)
    (hlink : (v :: nodes).IsChain fun w w' ↦ input w <+: output w') :
    output v <+: input ((v :: nodes).getLast (List.cons_ne_nil v nodes)) := by
  induction nodes generalizing v with
  | nil => exact hnode v (by simp)
  | cons w nodes ih =>
      obtain ⟨hfirst, hrest⟩ := List.isChain_cons_cons.mp hlink
      have hlast := ih (fun u hu ↦ hnode u (List.mem_cons_of_mem v hu)) hrest
      rw [List.getLast_cons_cons]
      exact ((hnode v (by simp)).trans hfirst).trans hlast

/-- What each node has of the one before it the last one has of the first. -/
theorem row_eq (f : ν → μ) {v : ν} {nodes : List ν}
    (hlink : (v :: nodes).IsChain fun w w' ↦ f w' = f w) :
    f ((v :: nodes).getLast (List.cons_ne_nil v nodes)) = f v := by
  induction nodes generalizing v with
  | nil => rfl
  | cons w nodes ih =>
      obtain ⟨hfirst, hrest⟩ := List.isChain_cons_cons.mp hlink
      rw [List.getLast_cons_cons]
      exact (ih hrest).trans hfirst

end Row

end Rog.Lib
