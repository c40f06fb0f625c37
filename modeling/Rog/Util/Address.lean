import Rog.Io

/-!
# Addresses

`RunAddr` and the parsing of an address that is given as text.
-/

namespace Rog

structure RunAddr where
  addr : String
  port : UInt16
  udp : Bool
  deriving DecidableEq

def RunAddr.endpoint (a : RunAddr) : String := a.addr ++ ":" ++ toString a.port

/-- `str::rsplit_once`. -/
def rsplitOnce (c : Char) : List Char → Option (List Char × List Char)
  | [] => none
  | a :: rest => match rsplitOnce c rest with
    | some (left, right) => some (a :: left, right)
    | none => if a = c then some ([], rest) else none

/-- `str::parse` of an unsigned integer type with `size` values: an optional plus sign and at
least one decimal digit. -/
def parseUnsigned (size : ℕ) (s : List Char) : Option ℕ :=
  let digits := if s.head? = some '+' then s.tail else s
  if digits ≠ [] ∧ digits.all (·.isDigit) then
    let n := digits.foldl (fun n c ↦ n * 10 + (c.toNat - '0'.toNat)) 0
    if n < size then some n else none
  else none

theorem parseUnsigned_lt {size n : ℕ} {s : List Char} (h : parseUnsigned size s = some n) :
    n < size := by
  obtain ⟨digits, hdigits⟩ : ∃ digits, (if s.head? = some '+' then s.tail else s) = digits :=
    ⟨_, rfl⟩
  simp only [parseUnsigned, hdigits] at h
  split at h
  · split at h
    · rename_i hlt
      obtain rfl := Option.some.inj h
      exact hlt
    · cases h
  · cases h

/-- `parse_address` of `connector/grpc.rs`. -/
def parseAddress (addr : String) : Io (String × UInt16) :=
  match rsplitOnce ':' addr.toList with
  | none => Io.raise .invalidData "addr error"
  | some (host, port) =>
      match parseUnsigned UInt16.size port with
      | none => Io.raise .invalidData "addr port error"
      | some port =>
          if host.isEmpty then Io.raise .invalidData "host empty error"
          else .ok (String.ofList host, UInt16.ofNat port)

/-! ## Endpoints -/

theorem rsplitOnce_eq_none {c : Char} {s : List Char} (h : c ∉ s) : rsplitOnce c s = none := by
  induction s with
  | nil => rfl
  | cons a s ih =>
      have ha : a ≠ c := fun heq ↦ h (by simp [heq])
      simp [rsplitOnce, ih (fun hs ↦ h (List.mem_cons_of_mem a hs)), ha]

/-- The split is at the last separator, whatever stands before it. -/
theorem rsplitOnce_append {c : Char} {right : List Char} (h : c ∉ right) (left : List Char) :
    rsplitOnce c (left ++ c :: right) = some (left, right) := by
  induction left with
  | nil => simp [rsplitOnce, rsplitOnce_eq_none h]
  | cons a left ih => simp [rsplitOnce, ih]

theorem isDigit_of_mem_repr {n : ℕ} {c : Char} (h : c ∈ n.repr.toList) : c.isDigit := by
  rw [Nat.toList_repr] at h
  exact Nat.isDigit_of_mem_toDigits (by decide) (by decide) h

theorem repr_ne_nil (n : ℕ) : n.repr.toList ≠ [] := by
  rw [Nat.toList_repr]
  exact Nat.toDigits_ne_nil

theorem parseUnsigned_repr {size n : ℕ} (h : n < size) :
    parseUnsigned size n.repr.toList = some n := by
  have hhead : n.repr.toList.head? ≠ some '+' := by
    intro hplus
    have hdigit := isDigit_of_mem_repr (List.mem_of_mem_head? hplus)
    cases hdigit
  have hne : n.repr.toList ≠ [] := repr_ne_nil n
  have hall : n.repr.toList.all (·.isDigit) := by
    rw [List.all_eq_true]
    exact fun c ↦ isDigit_of_mem_repr
  have hvalue : n.repr.toList.foldl (fun n c ↦ n * 10 + (c.toNat - '0'.toNat)) 0 = n := by
    simpa only [Nat.toList_repr, Nat.ofDigitChars_eq_foldl, Nat.mul_comm] using
      Nat.ofDigitChars_ten_toDigits (n := n)
  simp only [parseUnsigned, hhead, if_false, hne, hall, hvalue, h, ne_eq, not_false_eq_true,
    and_self, if_true]

theorem toList_endpoint (a : RunAddr) :
    a.endpoint.toList = a.addr.toList ++ ':' :: a.port.toNat.repr.toList := by
  have hport : toString a.port = a.port.toNat.repr := rfl
  rw [RunAddr.endpoint, hport, String.toList_append, String.toList_append, List.append_assoc]
  rfl

/-- An address comes back from its endpoint, with any colons that stand in it. -/
theorem parseAddress_endpoint (a : RunAddr) (h : a.addr ≠ "") :
    parseAddress a.endpoint = .ok (a.addr, a.port) := by
  have hcolon : ':' ∉ a.port.toNat.repr.toList := fun hmem ↦ by cases isDigit_of_mem_repr hmem
  have hport : parseUnsigned UInt16.size a.port.toNat.repr.toList = some a.port.toNat :=
    parseUnsigned_repr a.port.toNat_lt
  have hhost : a.addr.toList.isEmpty = false := by simpa using h
  simp only [parseAddress, toList_endpoint, rsplitOnce_append hcolon, hport, hhost]
  simp

end Rog
