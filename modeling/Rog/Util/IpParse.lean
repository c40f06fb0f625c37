import Rog.Util.IpText

/-!
# Parsing of IP addresses

`FromStr` of the addresses of `std::net`. A reader takes what it reads off the front of a text
and takes nothing when it fails.
-/

namespace Rog

namespace IpParser

abbrev Reader (α : Type) := List Char → Option (α × List Char)

/-- `char::to_digit`. -/
def toDigit (radix : ℕ) (c : Char) : Option ℕ :=
  let digit :=
    if '0' ≤ c ∧ c ≤ '9' then c.toNat - '0'.toNat
    else if 'a' ≤ c ∧ c ≤ 'z' then c.toNat - 'a'.toNat + 10
    else if 'A' ≤ c ∧ c ≤ 'Z' then c.toNat - 'A'.toNat + 10
    else radix
  if digit < radix then some digit else none

/-- `read_number` of an integer type with `size` values. -/
def readNumber (size radix maxDigits : ℕ) (allowZeroPrefix : Bool) : Reader ℕ := fun s ↦
  let digits := s.takeWhile fun c ↦ (toDigit radix c).isSome
  let result := digits.foldl (fun n c ↦ n * radix + (toDigit radix c).getD 0) 0
  if maxDigits < digits.length ∨ digits = [] then none
  else if allowZeroPrefix = false ∧ s.head? = some '0' ∧ 1 < digits.length then none
  else if result < size then some (result, s.drop digits.length)
  else none

/-- `read_separator`. -/
def readSeparator {α : Type} (sep : Char) (index : ℕ) (inner : Reader α) : Reader α := fun s ↦
  if index = 0 then inner s
  else
    match s with
    | c :: s => if c = sep then inner s else none
    | [] => none

def readIpv4Addr : Reader Ipv4Addr := fun s ↦ do
  let group := readNumber UInt8.size 10 3 false
  let (a, s) ← readSeparator '.' 0 group s
  let (b, s) ← readSeparator '.' 1 group s
  let (c, s) ← readSeparator '.' 2 group s
  let (d, s) ← readSeparator '.' 3 group s
  return (⟨UInt8.ofNat a, UInt8.ofNat b, UInt8.ofNat c, UInt8.ofNat d⟩, s)

/-- `read_groups` from index `i` on, with `left` groups to fill: the groups, whether the last two
are an IPv4 address, and what is left. -/
def readGroups (i : ℕ) : ℕ → List Char → List UInt16 × Bool × List Char
  | 0, s => ([], false, s)
  | left + 1, s =>
      match if 0 < left then readSeparator ':' i readIpv4Addr s else none with
      | some (ip, s) => ([fromBeBytes ip.a ip.b, fromBeBytes ip.c ip.d], true, s)
      | none =>
          match readSeparator ':' i (readNumber UInt16.size 16 4 true) s with
          | some (group, s) =>
              let (groups, ipv4, s) := readGroups (i + 1) left s
              (UInt16.ofNat group :: groups, ipv4, s)
          | none => ([], false, s)

theorem length_readGroups (i left : ℕ) (s : List Char) : (readGroups i left s).1.length ≤ left := by
  fun_induction readGroups i left s with
  | case1 => exact Nat.le_refl 0
  | case2 i left s ip rest hipv4 =>
      by_cases hleft : 0 < left
      · simp only [List.length_cons, List.length_nil]
        omega
      · rw [if_neg hleft] at hipv4
        cases hipv4
  | case3 i left s hipv4 group rest hgroup groups ipv4 s' hrest ih =>
      rw [hrest] at ih
      exact Nat.succ_le_succ ih
  | case4 => exact Nat.zero_le _

/-- The groups on the two sides of `::`. -/
def ofGroups (head tail : List UInt16) (h : head.length + tail.length ≤ 8) : Ipv6Addr where
  segments := head ++ List.replicate (8 - tail.length - head.length) 0 ++ tail
  length_segments := by
    simp only [List.length_append, List.length_replicate]
    omega

def readIpv6Addr : Reader Ipv6Addr := fun s ↦
  let front := readGroups 0 8 s
  if hsize : front.1.length = 8 then some (⟨front.1, hsize⟩, front.2.2)
  else if front.2.1 then none
  else
    match front.2.2 with
    | ':' :: ':' :: s' =>
        let back := readGroups 0 (8 - (front.1.length + 1)) s'
        have hfits : front.1.length + back.1.length ≤ 8 := by
          have hfront := length_readGroups 0 8 s
          have hback := length_readGroups 0 (8 - (front.1.length + 1)) s'
          dsimp only [front, back] at *
          omega
        some (ofGroups front.1 back.1 hfits, back.2.2)
    | _ => none

def readIpAddr : Reader IpAddr := fun s ↦
  match readIpv4Addr s with
  | some (ip, s) => some (.v4 ip, s)
  | none => (readIpv6Addr s).map fun (ip, s) ↦ (.v6 ip, s)

end IpParser

/-- `str::parse`. -/
def IpAddr.parse (s : String) : Option IpAddr :=
  match IpParser.readIpAddr s.toList with
  | some (ip, []) => some ip
  | _ => none

example : IpAddr.parse "2001:db8::1" = some (.v6 ⟨[0x2001, 0xdb8, 0, 0, 0, 0, 0, 1], rfl⟩) := by
  decide

example : IpAddr.parse "::ffff:1.2.3.4" = some (.v6 ⟨[0, 0, 0, 0, 0, 0xffff, 0x102, 0x304], rfl⟩) := by
  decide

end Rog
