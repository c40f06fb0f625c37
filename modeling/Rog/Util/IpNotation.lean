import Mathlib.Tactic.IntervalCases
import Rog.Util.Address
import Rog.Util.IpText

/-!
# The notation of IP addresses

Which characters the text of an address has, and how long it is at least.
-/

namespace Rog

def IpChar (c : Char) : Prop := c.isDigit ∨ ('a' ≤ c ∧ c ≤ 'f') ∨ c = '.' ∨ c = ':'

instance (c : Char) : Decidable (IpChar c) := by
  unfold IpChar
  infer_instance

theorem IpChar.of_mem_all {cs : List Char} (hall : cs.all fun c ↦ IpChar c) {c : Char}
    (h : c ∈ cs) : IpChar c :=
  of_decide_eq_true (List.all_eq_true.mp hall c h)

theorem IpChar.of_mem_repr {n : ℕ} {c : Char} (h : c ∈ n.repr.toList) : IpChar c :=
  .inl (isDigit_of_mem_repr h)

theorem IpChar.digitChar {d : ℕ} (h : d < 16) : IpChar d.digitChar := by
  unfold IpChar
  interval_cases d <;> decide

/-! ## IPv4 -/

namespace Ipv4Addr

theorem toList_toString (ip : Ipv4Addr) : ip.toString.toList =
    ip.a.toNat.repr.toList ++ '.' :: ip.b.toNat.repr.toList ++ '.' :: ip.c.toNat.repr.toList ++
      '.' :: ip.d.toNat.repr.toList := by
  simp [toString, String.toList_append]

theorem mem_toString {ip : Ipv4Addr} {c : Char} (h : c ∈ ip.toString.toList) :
    c.isDigit ∨ c = '.' := by
  simp only [toList_toString, List.mem_append, List.mem_cons] at h
  rcases h with ((h | h | h) | h | h) | h | h
  all_goals first | exact .inr h | exact .inl (isDigit_of_mem_repr h)

theorem ipChar {ip : Ipv4Addr} {c : Char} (h : c ∈ ip.toString.toList) : IpChar c :=
  (mem_toString h).imp_right fun hdot ↦ .inr (.inl hdot)

theorem length_toString (ip : Ipv4Addr) : 7 ≤ ip.toString.toList.length := by
  have hpos (n : ℕ) : 0 < n.repr.toList.length := by
    rw [Nat.toList_repr]
    exact Nat.length_toDigits_pos
  have ha := hpos ip.a.toNat
  have hb := hpos ip.b.toNat
  have hc := hpos ip.c.toNat
  have hd := hpos ip.d.toNat
  simp only [toList_toString, List.length_append, List.length_cons]
  omega

theorem length_toString_le (ip : Ipv4Addr) : ip.toString.toList.length ≤ 15 := by
  have hle (octet : UInt8) : octet.toNat.repr.toList.length ≤ 3 := by
    have hlt := octet.toNat_lt
    rw [Nat.toList_repr]
    exact (Nat.length_toDigits_le_iff (by decide) (by decide)).mpr (by omega)
  have ha := hle ip.a
  have hb := hle ip.b
  have hc := hle ip.c
  have hd := hle ip.d
  simp only [toList_toString, List.length_append, List.length_cons]
  omega

end Ipv4Addr

/-! ## IPv6 -/

namespace Ipv6Addr

theorem mem_hex {segment : UInt16} {c : Char} (h : c ∈ (hex segment).toList) : IpChar c := by
  rw [hex, String.toList_ofList] at h
  generalize segment.toNat = n at h
  induction n using Nat.strongRecOn with
  | ind n ih =>
      rw [Nat.toDigits_eq_if (by decide)] at h
      split at h
      case isTrue hlt =>
        rw [List.mem_singleton.mp h]
        exact .digitChar hlt
      case isFalse hle =>
        rcases List.mem_append.mp h with h | h
        · exact ih (n / 16) (Nat.div_lt_self (by omega) (by decide)) h
        · rw [List.mem_singleton.mp h]
          exact .digitChar (Nat.mod_lt n (by decide))

theorem length_hex_pos (segment : UInt16) : 1 ≤ (hex segment).toList.length := by
  rw [hex, String.toList_ofList]
  exact Nat.length_toDigits_pos

theorem length_hex {segment : UInt16} (h : 0x1000 ≤ segment.toNat) :
    4 ≤ (hex segment).toList.length := by
  rw [hex, String.toList_ofList]
  by_contra hlt
  have hle : (Nat.toDigits 16 segment.toNat).length ≤ 3 := by omega
  have hsmall := (Nat.length_toDigits_le_iff (by decide) (by decide)).mp hle
  omega

theorem length_hex_le (segment : UInt16) : (hex segment).toList.length ≤ 4 := by
  rw [hex, String.toList_ofList]
  exact (Nat.length_toDigits_le_iff (by decide) (by decide)).mpr segment.toNat_lt

theorem toList_fmtSubslice_cons (segment next : UInt16) (chunk : List UInt16) :
    (fmtSubslice (segment :: next :: chunk)).toList =
      (hex segment).toList ++ ':' :: (fmtSubslice (next :: chunk)).toList := by
  simp [fmtSubslice, String.intercalate_cons_cons, String.toList_append]

theorem fmtSubslice_singleton (segment : UInt16) : fmtSubslice [segment] = hex segment :=
  String.intercalate_singleton

theorem mem_fmtSubslice {chunk : List UInt16} {c : Char} (h : c ∈ (fmtSubslice chunk).toList) :
    IpChar c := by
  induction chunk with
  | nil => simp [fmtSubslice] at h
  | cons segment chunk ih =>
      cases chunk with
      | nil =>
          rw [fmtSubslice_singleton] at h
          exact mem_hex h
      | cons next chunk =>
          rw [toList_fmtSubslice_cons, List.mem_append, List.mem_cons] at h
          rcases h with h | rfl | h
          · exact mem_hex h
          · exact .inr (.inr (.inr rfl))
          · exact ih h

/-- The segments of a chunk that have `k` digits each, with a separator between any two. -/
theorem length_fmtSubslice {k : ℕ} {chunk : List UInt16}
    (h : ∀ segment ∈ chunk, k ≤ (hex segment).toList.length) :
    (k + 1) * chunk.length ≤ (fmtSubslice chunk).toList.length + 1 := by
  induction chunk with
  | nil => simp
  | cons segment chunk ih =>
      have hsegment := h segment (by simp)
      cases chunk with
      | nil =>
          rw [fmtSubslice_singleton, List.length_singleton]
          omega
      | cons next chunk =>
          have hrest := ih fun other hother ↦ h other (List.mem_cons_of_mem segment hother)
          rw [toList_fmtSubslice_cons]
          generalize next :: chunk = rest at hrest ⊢
          rw [List.length_append, List.length_cons, List.length_cons, Nat.mul_succ]
          omega

theorem length_fmtSubslice_le (chunk : List UInt16) :
    (fmtSubslice chunk).toList.length ≤ 5 * chunk.length := by
  induction chunk with
  | nil => simp [fmtSubslice]
  | cons segment chunk ih =>
      have hsegment := length_hex_le segment
      cases chunk with
      | nil =>
          rw [fmtSubslice_singleton, List.length_singleton]
          omega
      | cons next chunk =>
          rw [toList_fmtSubslice_cons, List.length_append]
          simp only [List.length_cons] at ih ⊢
          omega

theorem length_fmtSubslice_append (before after : List UInt16) :
    (fmtSubslice after).toList.length ≤ (fmtSubslice (before ++ after)).toList.length := by
  induction before with
  | nil => exact Nat.le_refl _
  | cons segment before ih =>
      rw [List.cons_append]
      cases hrest : before ++ after with
      | nil =>
          obtain ⟨rfl, rfl⟩ := List.append_eq_nil_iff.mp hrest
          simp [fmtSubslice]
      | cons next chunk =>
          rw [hrest] at ih
          rw [toList_fmtSubslice_cons, List.length_append, List.length_cons]
          omega

def Span.Zero (segments : List UInt16) (span : Span) : Prop :=
  ∀ i, span.start ≤ i → i < span.start + span.len → segments[i]? = some 0

/-- What `zeroes` does at one segment, with the longest run so far and the current one. -/
def zeroesStep (runs : Span × Span) (entry : UInt16 × ℕ) : Span × Span :=
  if entry.1 = 0 then
    let current : Span := if runs.2.len = 0 then ⟨entry.2, 1⟩ else ⟨runs.2.start, runs.2.len + 1⟩
    (if runs.1.len < current.len then current else runs.1, current)
  else (runs.1, ⟨0, 0⟩)

theorem zeroes_eq (segments : List UInt16) :
    zeroes segments = (segments.zipIdx.foldl zeroesStep (⟨0, 0⟩, ⟨0, 0⟩)).1 := rfl

theorem zeroes_zero (segments : List UInt16) : (zeroes segments).Zero segments := by
  -- with the current run reaching up to the segment that comes next
  have hfold (rest : List UInt16) (n : ℕ) (longest current : Span)
      (hrest : ∀ i, rest[i]? = segments[n + i]?) (hlongest : longest.Zero segments)
      (hcurrent : current.Zero segments)
      (hreach : current.len = 0 ∨ current.start + current.len = n) :
      ((rest.zipIdx n).foldl zeroesStep (longest, current)).1.Zero segments := by
    induction rest generalizing n longest current with
    | nil => exact hlongest
    | cons segment rest ih =>
        have hhead : segments[n]? = some segment := (hrest 0).symm
        have htail (i : ℕ) : rest[i]? = segments[n + 1 + i]? := by
          have hstep := hrest (i + 1)
          rw [List.getElem?_cons_succ] at hstep
          rw [hstep]
          congr 1
          omega
        rw [List.zipIdx_cons, List.foldl_cons, zeroesStep]
        by_cases hzero : segment = 0
        · simp only [if_pos hzero]
          rw [hzero] at hhead
          by_cases hlen : current.len = 0
          · have hnew : (⟨n, 1⟩ : Span).Zero segments := by
              intro i hle hlt
              obtain rfl : i = n := by simp only at hle hlt; omega
              exact hhead
            simp only [if_pos hlen]
            refine ih (n + 1) _ _ htail ?_ hnew (.inr rfl)
            split
            · exact hnew
            · exact hlongest
          · have hnew : (⟨current.start, current.len + 1⟩ : Span).Zero segments := by
              intro i hle hlt
              by_cases hi : i = n
              · rw [hi]
                exact hhead
              · exact hcurrent i hle (by simp only at hlt; omega)
            simp only [if_neg hlen]
            refine ih (n + 1) _ _ htail ?_ hnew (.inr (by dsimp only; omega))
            split
            · exact hnew
            · exact hlongest
        · simp only [if_neg hzero]
          exact ih (n + 1) longest ⟨0, 0⟩ htail hlongest (by simp [Span.Zero]) (.inl rfl)
  rw [zeroes_eq]
  exact hfold segments 0 ⟨0, 0⟩ ⟨0, 0⟩ (by simp) (by simp [Span.Zero]) (by simp [Span.Zero])
    (.inl rfl)

theorem toString_cases (ip : Ipv6Addr) :
    (∃ ipv4, ip.toIpv4Mapped = some ipv4 ∧ ip.toString = "::ffff:" ++ ipv4.toString) ∨
      1 < (zeroes ip.segments).len ∧ ip.toString =
        fmtSubslice (ip.segments.take (zeroes ip.segments).start) ++ "::" ++
          fmtSubslice (ip.segments.drop
            ((zeroes ip.segments).start + (zeroes ip.segments).len)) ∨
      ip.toString = fmtSubslice ip.segments := by
  unfold toString
  cases hmapped : ip.toIpv4Mapped with
  | some ipv4 => exact .inl ⟨ipv4, rfl, rfl⟩
  | none =>
      by_cases hlen : 1 < (zeroes ip.segments).len
      · exact .inr (.inl ⟨hlen, if_pos hlen⟩)
      · exact .inr (.inr (if_neg hlen))

theorem mem_toString {ip : Ipv6Addr} {c : Char} (h : c ∈ ip.toString.toList) : IpChar c := by
  rcases ip.toString_cases with ⟨ipv4, -, htext⟩ | ⟨-, htext⟩ | htext
  · rw [htext, String.toList_append, List.mem_append] at h
    rcases h with h | h
    · exact .of_mem_all (by decide) h
    · exact Ipv4Addr.ipChar h
  · rw [htext, String.toList_append, String.toList_append, List.mem_append, List.mem_append] at h
    rcases h with (h | h) | h
    · exact mem_fmtSubslice h
    · exact .of_mem_all (by decide) h
    · exact mem_fmtSubslice h
  · rw [htext] at h
    exact mem_fmtSubslice h

theorem colon_mem_toString (ip : Ipv6Addr) : ':' ∈ ip.toString.toList := by
  rcases ip.toString_cases with ⟨ipv4, -, htext⟩ | ⟨-, htext⟩ | htext
  · rw [htext, String.toList_append, List.mem_append]
    exact .inl (by decide)
  · rw [htext, String.toList_append, String.toList_append, List.mem_append, List.mem_append]
    exact .inl (.inr (by decide))
  · obtain ⟨segments, hlength⟩ := ip
    obtain ⟨segment, next, rest, rfl⟩ : ∃ segment next rest, segments = segment :: next :: rest := by
      match segments, hlength with
      | segment :: next :: rest, _ => exact ⟨segment, next, rest, rfl⟩
    rw [htext, toList_fmtSubslice_cons]
    simp

theorem toIpv4Mapped_eq_some {ip : Ipv6Addr} {ipv4 : Ipv4Addr} (h : ip.toIpv4Mapped = some ipv4) :
    ip.segments[4]? = some 0 := by
  unfold toIpv4Mapped at h
  split at h
  · rename_i hsegments
    rw [hsegments]
    rfl
  · cases h

theorem two_le_length_toString (ip : Ipv6Addr) : 2 ≤ ip.toString.toList.length := by
  rcases ip.toString_cases with ⟨ipv4, -, htext⟩ | ⟨-, htext⟩ | htext
  · have hipv4 := ipv4.length_toString
    rw [htext, String.toList_append, List.length_append]
    omega
  · have hcolons : "::".toList.length = 2 := rfl
    rw [htext, String.toList_append, String.toList_append, List.length_append, List.length_append]
    omega
  · have hlength := @length_fmtSubslice 1 ip.segments fun segment _ ↦ length_hex_pos segment
    rw [ip.length_segments, ← htext] at hlength
    omega

theorem length_toString_le (ip : Ipv6Addr) : ip.toString.toList.length ≤ 82 := by
  have hsegments := ip.length_segments
  rcases ip.toString_cases with ⟨ipv4, -, htext⟩ | ⟨-, htext⟩ | htext
  · have hipv4 := ipv4.length_toString_le
    have hstart : "::ffff:".toList.length = 7 := by decide
    rw [htext, String.toList_append, List.length_append]
    omega
  · have htake := length_fmtSubslice_le (ip.segments.take (zeroes ip.segments).start)
    have hdrop := length_fmtSubslice_le
      (ip.segments.drop ((zeroes ip.segments).start + (zeroes ip.segments).len))
    have hcolons : "::".toList.length = 2 := rfl
    rw [List.length_take] at htake
    rw [List.length_drop] at hdrop
    rw [htext, String.toList_append, String.toList_append, List.length_append, List.length_append]
    omega
  · have hle := length_fmtSubslice_le ip.segments
    rw [htext]
    omega

/-- The text is long when the last segments of the address have four digits. -/
theorem length_toString {ip : Ipv6Addr} {before after : List UInt16}
    (hsegments : ip.segments = before ++ after)
    (hafter : ∀ segment ∈ after, 0x1000 ≤ segment.toNat) :
    5 * after.length ≤ ip.toString.toList.length + 1 := by
  have hlengths := ip.length_segments
  rw [hsegments, List.length_append] at hlengths
  have hzero (i : ℕ) (h : ip.segments[i]? = some 0) : i < before.length := by
    by_contra hle
    rw [hsegments, List.getElem?_append_right (by omega)] at h
    have hlarge := hafter 0 (List.mem_of_getElem? h)
    simp at hlarge
  have hchunk := length_fmtSubslice (k := 4) fun segment hmem ↦ length_hex (hafter segment hmem)
  rcases ip.toString_cases with ⟨ipv4, hmapped, htext⟩ | ⟨hlen, htext⟩ | htext
  · have hfour := hzero 4 (toIpv4Mapped_eq_some hmapped)
    have hipv4 := ipv4.length_toString
    have hstart : "::ffff:".toList.length = 7 := by decide
    rw [htext, String.toList_append, List.length_append]
    omega
  · have hlast := hzero _ (zeroes_zero ip.segments
      ((zeroes ip.segments).start + (zeroes ip.segments).len - 1) (by omega) (by omega))
    have hmore := length_fmtSubslice_append
      (before.drop ((zeroes ip.segments).start + (zeroes ip.segments).len)) after
    rw [← List.drop_append_of_le_length (by omega), ← hsegments] at hmore
    rw [htext, String.toList_append, String.toList_append, List.length_append, List.length_append]
    omega
  · have hmore := length_fmtSubslice_append before after
    rw [← hsegments, ← htext] at hmore
    omega

end Ipv6Addr

end Rog
