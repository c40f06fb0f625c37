import Mathlib.Data.List.Basic
import Mathlib.Tactic.Linarith

/-!
# Byte streams out of messages

A reassembler turns a source of messages into a stream of items that can be read in pieces
of any size. What a read does not take of a message is kept in a cache, with a position of
its own, and handed out by the reads that follow; the source is pulled only when the cache
is used up.
-/

namespace Rog.Lib

structure Reassembler (σ α : Type*) where
  source : σ
  cache : List α
  cachePos : ℕ

namespace Reassembler

variable {σ α ε : Type*}

def new (s : σ) : Reassembler σ α := ⟨s, [], 0⟩

/-- A read into a buffer of `cap` items. -/
def read (pull : σ → Except ε (List α) × σ) (cap : ℕ) (r : Reassembler σ α) :
    Except ε (List α) × Reassembler σ α :=
  if r.cachePos < r.cache.length then
    let available := r.cache.length - r.cachePos
    let toCopy := min available cap
    let data := (r.cache.drop r.cachePos).take toCopy
    if r.cache.length ≤ r.cachePos + toCopy then (.ok data, ⟨r.source, [], 0⟩)
    else (.ok data, ⟨r.source, r.cache, r.cachePos + toCopy⟩)
  else
    match pull r.source with
    | (.error e, s) => (.error e, ⟨s, [], 0⟩)
    | (.ok payload, s) =>
        if payload.isEmpty then (.ok [], ⟨s, [], 0⟩)
        else
          let toCopy := min cap payload.length
          (.ok (payload.take toCopy),
            ⟨s, if toCopy < payload.length then payload.drop toCopy else [], 0⟩)

/-- Reads one after the other, each with its own buffer. -/
def reads {ρ : Type*} (read : ℕ → ρ → Except ε (List α) × ρ) :
    List ℕ → ρ → List (Except ε (List α)) × ρ
  | [], r => ([], r)
  | cap :: caps, r =>
      let (result, r) := read cap r
      let (results, r) := reads read caps r
      (result :: results, r)

/-- The position is inside the cache. -/
def Tidy (r : Reassembler σ α) : Prop := r.cachePos ≤ r.cache.length

/-- What is left of the last message. -/
def pending (r : Reassembler σ α) : List α := r.cache.drop r.cachePos

/-- What reads have returned in all; a failed read has returned nothing. -/
def delivered (results : List (Except ε (List α))) : List α :=
  results.flatMap fun
    | .ok data => data
    | .error _ => []

/-- The next pulls of `s` give the messages `payloads`, none of them empty, and end in `t`. -/
inductive Yields (pull : σ → Except ε (List α) × σ) : σ → List (List α) → σ → Prop where
  | nil (s : σ) : Yields pull s [] s
  | cons {s t u : σ} {payload : List α} {payloads : List (List α)}
      (hpull : pull s = (.ok payload, t)) (hne : payload ≠ [])
      (hrest : Yields pull t payloads u) : Yields pull s (payload :: payloads) u

/-- From `s` on every pull fails. -/
def Ended (pull : σ → Except ε (List α) × σ) (s : σ) : Prop :=
  ∃ P : σ → Prop, P s ∧ ∀ s, P s → ∃ e t, pull s = (.error e, t) ∧ P t

theorem Ended.pull {pull : σ → Except ε (List α) × σ} {s : σ} (h : Ended pull s) :
    ∃ e t, pull s = (.error e, t) ∧ Ended pull t := by
  obtain ⟨P, hs, hP⟩ := h
  obtain ⟨e, t, hpull, ht⟩ := hP s hs
  exact ⟨e, t, hpull, P, ht, hP⟩

section Read

variable {pull : σ → Except ε (List α) × σ} {r : Reassembler σ α} {cap : ℕ}

theorem tidy_new (s : σ) : (new s : Reassembler σ α).Tidy := Nat.le_refl 0

theorem read_pending (pull : σ → Except ε (List α) × σ) (cap : ℕ)
    (hpos : r.cachePos < r.cache.length) :
    ∃ r', r.read pull cap = (.ok (r.pending.take cap), r') ∧ r'.source = r.source ∧ r'.Tidy ∧
      r'.pending = r.pending.drop cap := by
  obtain ⟨n, hn⟩ : ∃ n, n = min (r.cache.length - r.cachePos) cap := ⟨_, rfl⟩
  have hlength : r.pending.length = r.cache.length - r.cachePos := List.length_drop
  have htake : r.pending.take n = r.pending.take cap := by
    rw [hn, Nat.min_comm, ← hlength, List.take_eq_take_min (i := cap)]
  by_cases hall : r.cache.length ≤ r.cachePos + n
  · refine ⟨⟨r.source, [], 0⟩, ?_, rfl, Nat.le_refl 0, ?_⟩
    · rw [← htake]
      simp [read, hpos, ← hn, hall, pending]
    · have hle : r.pending.length ≤ cap := by omega
      rw [List.drop_of_length_le hle]
      rfl
  · have hcap : n = cap := by omega
    refine ⟨⟨r.source, r.cache, r.cachePos + n⟩, ?_, rfl, (Nat.lt_of_not_le hall).le, ?_⟩
    · rw [← htake]
      simp [read, hpos, ← hn, hall, pending]
    · rw [pending, pending, ← List.drop_drop, hcap]

theorem read_pulled {payload : List α} {s : σ} (cap : ℕ) (hpos : ¬ r.cachePos < r.cache.length)
    (hpull : pull r.source = (.ok payload, s)) (hne : payload ≠ []) :
    ∃ r', r.read pull cap = (.ok (payload.take cap), r') ∧ r'.source = s ∧ r'.Tidy ∧
      r'.pending = payload.drop cap := by
  have hempty : payload.isEmpty = false := by simpa using hne
  obtain ⟨n, hn⟩ : ∃ n, n = min cap payload.length := ⟨_, rfl⟩
  have htake : payload.take n = payload.take cap := by
    rw [hn, ← List.take_eq_take_min]
  refine ⟨⟨s, if n < payload.length then payload.drop n else [], 0⟩, ?_, rfl, Nat.zero_le _, ?_⟩
  · rw [← htake]
    simp [read, hpos, hpull, hempty, ← hn]
  · by_cases hlt : n < payload.length
    · have hcap : n = cap := by omega
      simp [pending, hcap]
    · have hle : payload.length ≤ cap := by omega
      simp [pending, hlt, List.drop_of_length_le hle]

theorem read_cached (pull : σ → Except ε (List α) × σ) (hcap : 1 ≤ cap)
    (hpos : r.cachePos < r.cache.length) :
    ∃ data r', r.read pull cap = (.ok data, r') ∧ 1 ≤ data.length ∧ data.length ≤ cap ∧
      r'.source = r.source ∧ r'.Tidy ∧ r.pending = data ++ r'.pending := by
  obtain ⟨r', hread, hsource, htidy, hpending⟩ := read_pending pull cap hpos
  have hlength : r.pending.length = r.cache.length - r.cachePos := List.length_drop
  refine ⟨r.pending.take cap, r', hread, ?_, List.length_take_le _ _, hsource, htidy, ?_⟩
  · rw [List.length_take]
    omega
  · rw [hpending, List.take_append_drop]

theorem read_message {payload : List α} {s : σ} (hcap : 1 ≤ cap)
    (hpos : ¬ r.cachePos < r.cache.length) (hpull : pull r.source = (.ok payload, s))
    (hne : payload ≠ []) :
    ∃ data r', r.read pull cap = (.ok data, r') ∧ 1 ≤ data.length ∧ data.length ≤ cap ∧
      r'.source = s ∧ r'.Tidy ∧ payload = data ++ r'.pending := by
  have hlength : 0 < payload.length := List.length_pos_iff.mpr hne
  obtain ⟨r', hread, hsource, htidy, hpending⟩ := read_pulled cap hpos hpull hne
  refine ⟨payload.take cap, r', hread, ?_, List.length_take_le _ _, hsource, htidy, ?_⟩
  · rw [List.length_take]
    omega
  · rw [hpending, List.take_append_drop]

theorem read_ended (cap : ℕ) (hpos : ¬ r.cachePos < r.cache.length) (hended : Ended pull r.source) :
    ∃ e s, r.read pull cap = (.error e, .new s) ∧ Ended pull s := by
  obtain ⟨e, s, hpull, hs⟩ := hended.pull
  exact ⟨e, s, by simp [read, hpos, hpull, new], hs⟩

/-- What reads have still to return is `data`. -/
def Remaining (pull : σ → Except ε (List α) × σ) (r : Reassembler σ α) (data : List α) : Prop :=
  r.Tidy ∧ ∃ payloads t, Yields pull r.source payloads t ∧ Ended pull t ∧
    data = r.pending ++ payloads.flatten

theorem read_remaining {data : List α} (hcap : 1 ≤ cap) (h : r.Remaining pull data)
    (hdata : data ≠ []) :
    ∃ out r' rest, r.read pull cap = (.ok out, r') ∧ 1 ≤ out.length ∧ out.length ≤ cap ∧
      data = out ++ rest ∧ r'.Remaining pull rest := by
  obtain ⟨htidy, payloads, t, hyields, hended, rfl⟩ := h
  by_cases hpos : r.cachePos < r.cache.length
  · obtain ⟨out, r', hread, hone, hle, hsource, htidy', hpending⟩ :=
      read_cached pull hcap hpos
    refine ⟨out, r', r'.pending ++ payloads.flatten, hread, hone, hle, ?_, htidy', payloads, t,
      by rwa [hsource], hended, rfl⟩
    rw [hpending, List.append_assoc]
  · have hpending : r.pending = [] := by simpa [pending] using hpos
    cases hyields with
    | nil => simp [hpending] at hdata
    | cons hpull hne hrest =>
        obtain ⟨out, r', hread, hone, hle, hsource, htidy', hpayload⟩ :=
          read_message hcap hpos hpull hne
        refine ⟨out, r', _, hread, hone, hle, ?_, htidy', _, t, by rwa [hsource], hended, rfl⟩
        rw [hpending, List.nil_append, List.flatten_cons, hpayload, List.append_assoc]

theorem read_drained (cap : ℕ) (h : r.Remaining pull []) :
    ∃ e r', r.read pull cap = (.error e, r') ∧ r'.Remaining pull [] := by
  obtain ⟨htidy, payloads, t, hyields, hended, hdata⟩ := h
  obtain ⟨hpending, hflatten⟩ := List.append_eq_nil_iff.mp hdata.symm
  have hpos : ¬ r.cachePos < r.cache.length := by simpa [pending] using hpending
  cases hyields with
  | nil =>
      obtain ⟨e, s, hread, hs⟩ := read_ended cap hpos hended
      exact ⟨e, .new s, hread, tidy_new s, [], s, .nil s, hs, rfl⟩
  | cons hpull hne hrest => exact absurd (List.append_eq_nil_iff.mp hflatten).1 hne

theorem remaining_new {s t : σ} {payloads : List (List α)} (h : Yields pull s payloads t)
    (ht : Ended pull t) : (new s).Remaining pull payloads.flatten :=
  ⟨tidy_new s, payloads, t, h, ht, rfl⟩

end Read

/-! ## Runs of reads -/

section Reads

variable {pull : σ → Except ε (List α) × σ} {r : Reassembler σ α} {data : List α}

@[simp] theorem delivered_cons_ok (out : List α) (results : List (Except ε (List α))) :
    delivered (.ok out :: results) = out ++ delivered results := rfl

@[simp] theorem delivered_cons_error (e : ε) (results : List (Except ε (List α))) :
    delivered (.error e :: results) = delivered results := rfl

/-- A run of reads returns a prefix of the data and leaves the rest; each read that finds
data takes some of it. -/
theorem reads_remaining {caps : List ℕ} (hcaps : ∀ cap ∈ caps, 1 ≤ cap)
    (h : r.Remaining pull data) :
    ∃ rest, data = delivered (reads (read pull) caps r).1 ++ rest ∧
      (reads (read pull) caps r).2.Remaining pull rest ∧
      min data.length caps.length ≤ (delivered (reads (read pull) caps r).1).length := by
  induction caps generalizing r data with
  | nil => exact ⟨data, rfl, h, by simp⟩
  | cons cap caps ih =>
      have hcap : 1 ≤ cap := hcaps cap (by simp)
      have hrest : ∀ cap ∈ caps, 1 ≤ cap := fun c hc ↦ hcaps c (List.mem_cons_of_mem cap hc)
      by_cases hdata : data = []
      · subst hdata
        obtain ⟨e, r', hread, h'⟩ := read_drained cap h
        obtain ⟨rest, hsplit, hend, -⟩ := ih hrest h'
        refine ⟨rest, ?_, ?_, by simp⟩
        · simpa [reads, hread] using hsplit
        · simpa [reads, hread] using hend
      · obtain ⟨out, r', more, hread, hone, -, rfl, h'⟩ := read_remaining hcap h hdata
        obtain ⟨rest, rfl, hend, hlength⟩ := ih hrest h'
        refine ⟨rest, ?_, ?_, ?_⟩
        · simp [reads, hread]
        · simpa [reads, hread] using hend
        · simp only [reads, hread, delivered_cons_ok, List.length_append, List.length_cons]
            at hlength ⊢
          omega

/-- What is asked of the `read` of a reader, whose reassembler is `buffer`, over a stream
whose data is `data`: of the reads that have been made, and of the next one. -/
structure Reassembles {ρ : Type*} (read : ℕ → ρ → Except ε (List α) × ρ)
    (buffer : ρ → Reassembler σ α) (r : ρ) (data : List α) : Prop where
  delivered_prefix : ∀ caps, (∀ cap ∈ caps, 1 ≤ cap) →
    delivered (reads read caps r).1 <+: data
  bounds : ∀ caps, (∀ cap ∈ caps, 1 ≤ cap) → ∀ cap, 1 ≤ cap → ∀ out,
    (read cap (reads read caps r).2).1 = .ok out → 1 ≤ out.length ∧ out.length ≤ cap
  progress : ∀ caps, (∀ cap ∈ caps, 1 ≤ cap) → ∀ cap, 1 ≤ cap →
    delivered (reads read caps r).1 ≠ data → ∃ out, (read cap (reads read caps r).2).1 = .ok out
  cachePos_le : ∀ caps, (∀ cap ∈ caps, 1 ≤ cap) →
    (buffer (reads read caps r).2).cachePos ≤ (buffer (reads read caps r).2).cache.length
  complete : ∀ caps, (∀ cap ∈ caps, 1 ≤ cap) → data.length ≤ caps.length →
    delivered (reads read caps r).1 = data

theorem Remaining.reassembles (h : r.Remaining pull data) :
    Reassembles (read pull) id r data := by
  constructor
  case delivered_prefix =>
    intro caps hcaps
    obtain ⟨rest, hsplit, -, -⟩ := reads_remaining hcaps h
    exact ⟨rest, hsplit.symm⟩
  case bounds =>
    intro caps hcaps cap hcap out hout
    obtain ⟨rest, -, hend, -⟩ := reads_remaining hcaps h
    by_cases hrest : rest = []
    · subst hrest
      obtain ⟨e, r', hread, -⟩ := read_drained cap hend
      simp [hread] at hout
    · obtain ⟨out', r', more, hread, hone, hle, -, -⟩ := read_remaining hcap hend hrest
      obtain rfl : out' = out := by simpa [hread] using hout
      exact ⟨hone, hle⟩
  case progress =>
    intro caps hcaps cap hcap hne
    obtain ⟨rest, hsplit, hend, -⟩ := reads_remaining hcaps h
    have hrest : rest ≠ [] := by
      rintro rfl
      exact hne (by simpa using hsplit.symm)
    obtain ⟨out, r', more, hread, -⟩ := read_remaining hcap hend hrest
    exact ⟨out, by rw [hread]⟩
  case cachePos_le =>
    intro caps hcaps
    obtain ⟨rest, -, hend, -⟩ := reads_remaining hcaps h
    exact hend.1
  case complete =>
    intro caps hcaps hlength
    obtain ⟨rest, hsplit, -, hdelivered⟩ := reads_remaining hcaps h
    have hrest : rest.length = 0 := by
      have := congrArg List.length hsplit
      rw [List.length_append] at this
      omega
    rw [List.length_eq_zero_iff] at hrest
    simpa [hrest] using hsplit.symm

/-- With buffers that hold whole messages, reads return the messages. -/
theorem reads_messages {s t : σ} {payloads : List (List α)} (h : Yields pull s payloads t)
    {caps : List ℕ} (hcaps : List.Forall₂ (fun payload cap ↦ payload.length ≤ cap) payloads caps) :
    reads (read pull) caps (new s) = (payloads.map .ok, new t) := by
  induction h generalizing caps with
  | nil s =>
      cases hcaps
      rfl
  | @cons s t u payload payloads hpull hne hrest ih =>
      cases hcaps with
      | @cons _ cap _ caps hcap hcaps =>
          have hempty : payload.isEmpty = false := by simpa using hne
          have hread : (new s).read pull cap = (.ok payload, new t) := by
            simp [read, new, hpull, hempty, Nat.min_eq_right hcap]
          rw [reads, hread]
          simp [ih hcaps]

end Reads

/-! ## Readers that contain a reassembler -/

section View

variable {ρ : Type*} {pull : σ → Except ε (List α) × σ} {read' : ℕ → ρ → Except ε (List α) × ρ}
  {buffer : ρ → Reassembler σ α}

/-- `read'` reads from the reassembler `buffer` and changes it as the read does. -/
def ReadsFrom (pull : σ → Except ε (List α) × σ) (read' : ℕ → ρ → Except ε (List α) × ρ)
    (buffer : ρ → Reassembler σ α) : Prop :=
  ∀ cap r, (read' cap r).1 = ((buffer r).read pull cap).1 ∧
    buffer (read' cap r).2 = ((buffer r).read pull cap).2

theorem ReadsFrom.reads (h : ReadsFrom pull read' buffer) (caps : List ℕ) (r : ρ) :
    (reads read' caps r).1 = (Reassembler.reads (read pull) caps (buffer r)).1 ∧
      buffer (Reassembler.reads read' caps r).2 =
        (Reassembler.reads (read pull) caps (buffer r)).2 := by
  induction caps generalizing r with
  | nil => exact ⟨rfl, rfl⟩
  | cons cap caps ih =>
      obtain ⟨hresult, hbuffer⟩ := h cap r
      obtain ⟨hresults, hbuffers⟩ := ih (read' cap r).2
      rw [hbuffer] at hresults hbuffers
      exact ⟨congrArg₂ _ hresult hresults, hbuffers⟩

theorem Reassembles.view (h : ReadsFrom pull read' buffer) {r : ρ} {data : List α}
    (hr : Reassembles (read pull) id (buffer r) data) : Reassembles read' buffer r data := by
  constructor
  case delivered_prefix =>
    intro caps hcaps
    rw [(h.reads caps r).1]
    exact hr.delivered_prefix caps hcaps
  case bounds =>
    intro caps hcaps cap hcap out hout
    rw [(h cap _).1, (h.reads caps r).2] at hout
    exact hr.bounds caps hcaps cap hcap out hout
  case progress =>
    intro caps hcaps cap hcap hne
    rw [(h.reads caps r).1] at hne
    rw [(h cap _).1, (h.reads caps r).2]
    exact hr.progress caps hcaps cap hcap hne
  case cachePos_le =>
    intro caps hcaps
    rw [(h.reads caps r).2]
    exact hr.cachePos_le caps hcaps
  case complete =>
    intro caps hcaps hlength
    rw [(h.reads caps r).1]
    exact hr.complete caps hcaps hlength

end View

end Reassembler

end Rog.Lib
