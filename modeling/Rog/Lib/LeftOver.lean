import Rog.Lib.Reassembly

/-!
# What reads leave of a message

The pieces that buffers of given sizes make of messages of given contents. A buffer takes from
one message only, and may be empty.
-/

namespace Rog.Lib.Reassembler

variable {σ α ε : Type*}

/-- What is left of the message in progress, and the messages to come, after a read of at most
`cap` items. -/
def afterRead (left : List α × List (List α)) (cap : ℕ) : List α × List (List α) :=
  match left with
  | ([], []) => ([], [])
  | ([], payload :: payloads) => (payload.drop cap, payloads)
  | (a :: rest, payloads) => ((a :: rest).drop cap, payloads)

def afterReads (payloads : List (List α)) (caps : List ℕ) : List α × List (List α) :=
  caps.foldl afterRead ([], payloads)

/-- The part that is left of the message in progress. -/
def leftOver (payloads : List (List α)) (caps : List ℕ) : List α := (afterReads payloads caps).1

theorem delivered_singleton_ok (data : List α) :
    delivered [(.ok data : Except ε (List α))] = data := List.append_nil data

theorem delivered_cons (result : Except ε (List α)) (results : List (Except ε (List α))) :
    delivered (result :: results) = delivered [result] ++ delivered results := by
  simp only [delivered, List.flatMap_cons, List.flatMap_nil, List.append_nil]

/-- The reads to come find the rest of a message, and then these messages. -/
def Unread (pull : σ → Except ε (List α) × σ) (r : Reassembler σ α)
    (left : List α × List (List α)) : Prop :=
  r.Tidy ∧ r.pending = left.1 ∧ ∃ t, Yields pull r.source left.2 t ∧ Ended pull t

variable {pull : σ → Except ε (List α) × σ} {r : Reassembler σ α}
  {left : List α × List (List α)}

theorem Unread.remaining (h : r.Unread pull left) :
    r.Remaining pull (left.1 ++ left.2.flatten) := by
  obtain ⟨htidy, hpending, t, hyields, hended⟩ := h
  exact ⟨htidy, left.2, t, hyields, hended, by rw [hpending]⟩

theorem unread_new {s t : σ} {payloads : List (List α)} (h : Yields pull s payloads t)
    (ht : Ended pull t) : (new s).Unread pull ([], payloads) :=
  ⟨tidy_new s, rfl, t, h, ht⟩

/-- One read. -/
theorem Unread.after_read (h : r.Unread pull left) (cap : ℕ) :
    (r.read pull cap).2.Unread pull (afterRead left cap) ∧
      left.1 ++ left.2.flatten = delivered [(r.read pull cap).1] ++
        ((afterRead left cap).1 ++ (afterRead left cap).2.flatten) := by
  obtain ⟨rest, payloads⟩ := left
  obtain ⟨htidy, hpending, t, hyields, hended⟩ := h
  cases rest with
  | cons a rest =>
      have hpos : r.cachePos < r.cache.length := by
        by_contra hnot
        have hempty : r.pending = [] := List.drop_of_length_le (Nat.le_of_not_lt hnot)
        rw [hempty] at hpending
        cases hpending
      obtain ⟨r', hread, hsource, htidy', hpending'⟩ := read_pending pull cap hpos
      rw [hpending] at hread hpending'
      rw [hread]
      refine ⟨⟨htidy', hpending', t, by rwa [hsource], hended⟩, ?_⟩
      simp only [afterRead, delivered_singleton_ok]
      rw [← List.append_assoc, List.take_append_drop]
  | nil =>
      have hpos : ¬r.cachePos < r.cache.length := by
        intro hlt
        have hlength := congrArg List.length hpending
        rw [pending, List.length_drop, List.length_nil] at hlength
        omega
      cases hyields with
      | nil =>
          obtain ⟨e, s, hread, hs⟩ := read_ended cap hpos hended
          rw [hread]
          exact ⟨unread_new (.nil s) hs, rfl⟩
      | @cons _ u _ payload payloads hpull hne hrest =>
          obtain ⟨r', hread, hsource, htidy', hpending'⟩ := read_pulled cap hpos hpull hne
          rw [hread]
          refine ⟨⟨htidy', hpending', t, by rwa [hsource], hended⟩, ?_⟩
          simp only [afterRead, delivered_singleton_ok, List.nil_append, List.flatten_cons]
          rw [← List.append_assoc, List.take_append_drop]

/-- Reads with buffers of any size. -/
theorem Unread.after_reads (h : r.Unread pull left) (caps : List ℕ) :
    (reads (read pull) caps r).2.Unread pull (caps.foldl afterRead left) ∧
      left.1 ++ left.2.flatten = delivered (reads (read pull) caps r).1 ++
        ((caps.foldl afterRead left).1 ++ (caps.foldl afterRead left).2.flatten) := by
  induction caps generalizing r left with
  | nil => exact ⟨h, rfl⟩
  | cons cap caps ih =>
      obtain ⟨hnext, hfirst⟩ := h.after_read cap
      obtain ⟨hlast, hrest⟩ := ih hnext
      refine ⟨hlast, ?_⟩
      rw [hfirst, hrest, ← List.append_assoc]
      refine congrArg (· ++ _) ?_
      exact (delivered_cons _ _).symm

/-! ## Reading on -/

/-- Reads return a part of `rest` from its beginning, and in the end all of it. -/
def Continues {ρ : Type*} (read' : ℕ → ρ → Except ε (List α) × ρ) (reader : ρ) (rest : List α) :
    Prop :=
  (∀ caps, delivered (reads read' caps reader).1 <+: rest) ∧
    ∀ caps, (∀ cap ∈ caps, 1 ≤ cap) → rest.length ≤ caps.length →
      delivered (reads read' caps reader).1 = rest

theorem Unread.continues_iff (h : r.Unread pull left) (rest : List α) :
    Continues (read pull) r rest ↔ rest = left.1 ++ left.2.flatten := by
  have hcomplete := h.remaining.reassembles.complete
  constructor
  · rintro ⟨-, hall⟩
    let n := rest.length + (left.1 ++ left.2.flatten).length
    have hcaps : ∀ cap ∈ List.replicate n 1, 1 ≤ cap := fun cap hcap ↦
      (List.eq_of_mem_replicate hcap).ge
    have hrest := hall _ hcaps (by rw [List.length_replicate]; exact Nat.le_add_right _ _)
    have hdata := hcomplete _ hcaps (by rw [List.length_replicate]; exact Nat.le_add_left _ _)
    exact hrest.symm.trans hdata
  · rintro rfl
    exact ⟨fun caps ↦ ⟨_, (h.after_reads caps).2.symm⟩, hcomplete⟩

/-- A new reader over the same source goes on where the reads before have stopped exactly when
these have left nothing of a message. -/
theorem continues_new_source_iff {s t : σ} {payloads : List (List α)}
    (h : Yields pull s payloads t) (ht : Ended pull t) (caps : List ℕ) :
    Continues (read pull) (new (reads (read pull) caps (new s)).2.source)
        (payloads.flatten.drop (delivered (reads (read pull) caps (new s)).1).length) ↔
      leftOver payloads caps = [] := by
  obtain ⟨⟨-, -, u, hyields, hended⟩, hsplit⟩ := (unread_new h ht).after_reads caps
  have hnew := unread_new hyields hended
  rw [List.nil_append] at hsplit
  rw [hnew.continues_iff, hsplit, List.drop_left, List.append_left_inj]
  rfl

end Rog.Lib.Reassembler
