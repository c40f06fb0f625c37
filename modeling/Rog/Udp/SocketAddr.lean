import Rog.Udp.Datagram
import Rog.Util.IpNotation
import Rog.Util.IpParse

/-!
# Socket addresses as texts

`FromStr` of `SocketAddr`, and what it makes of an address that is written with a colon and a port
behind it.
-/

namespace Rog

namespace IpParser

def readPort : Reader UInt16
  | ':' :: s => (readNumber UInt16.size 10 s.length true s).map fun (port, s) ↦ (UInt16.ofNat port, s)
  | _ => none

/-- `read_scope_id`, which need not be there. -/
def skipScopeId : List Char → List Char
  | '%' :: s => ((readNumber UInt32.size 10 s.length true s).map Prod.snd).getD ('%' :: s)
  | s => s

def readSocketAddrV4 : Reader SocketAddr := fun s ↦ do
  let (ip, s) ← readIpv4Addr s
  let (port, s) ← readPort s
  return (⟨.v4 ip, port⟩, s)

def readSocketAddrV6 : Reader SocketAddr
  | '[' :: s => do
      let (ip, s) ← readIpv6Addr s
      match skipScopeId s with
      | ']' :: s =>
          let (port, s) ← readPort s
          return (⟨.v6 ip, port⟩, s)
      | _ => none
  | _ => none

end IpParser

/-- `str::parse`. -/
def SocketAddr.parse (s : String) : Option SocketAddr :=
  match (IpParser.readSocketAddrV4 s.toList).or (IpParser.readSocketAddrV6 s.toList) with
  | some (addr, []) => some addr
  | _ => none

def SocketAddr.isIpv4 (addr : SocketAddr) : Bool :=
  match addr.ip with
  | .v4 _ => true
  | .v6 _ => false

/-! ## Addresses with their ports -/

namespace IpParser

theorem toDigit_of_isDigit {c : Char} (h : c.isDigit) : toDigit 10 c = some (c.toNat - 48) := by
  obtain ⟨hle, hge⟩ := Char.isDigit_iff_toNat.mp h
  have hdigit : '0' ≤ c ∧ c ≤ '9' := by
    rw [Char.le_def, Char.le_def, UInt32.le_iff_toNat_le, UInt32.le_iff_toNat_le]
    exact ⟨hle, hge⟩
  have hzero : '0'.toNat = 48 := rfl
  have hnine : '9'.toNat = 57 := rfl
  rw [toDigit, if_pos hdigit, if_pos (by omega), hzero]

/-- A number that is written in decimal is read off the front of a text that goes on with
something else. -/
theorem readNumber_repr {size maxDigits n : ℕ} {allowZeroPrefix : Bool} {rest : List Char}
    (hsize : n < size) (hdigits : n.repr.toList.length ≤ maxDigits)
    (hzero : allowZeroPrefix = false → ¬(n.repr.toList.head? = some '0' ∧ 1 < n.repr.toList.length))
    (hrest : ∀ c ∈ rest.head?, toDigit 10 c = none) :
    readNumber size 10 maxDigits allowZeroPrefix (n.repr.toList ++ rest) = some (n, rest) := by
  have hdigit {c : Char} (h : c ∈ n.repr.toList) := toDigit_of_isDigit (isDigit_of_mem_repr h)
  have hne := repr_ne_nil n
  have htail : rest.takeWhile (fun c ↦ (toDigit 10 c).isSome) = [] := by
    cases rest with
    | nil => rfl
    | cons c rest => simp [hrest c rfl]
  have htake : (n.repr.toList ++ rest).takeWhile (fun c ↦ (toDigit 10 c).isSome) =
      n.repr.toList := by
    rw [List.takeWhile_append_of_pos (fun c hc ↦ by rw [hdigit hc]; rfl), htail, List.append_nil]
  have hvalue : n.repr.toList.foldl (fun n c ↦ n * 10 + (toDigit 10 c).getD 0) 0 = n := by
    have hten := Nat.ofDigitChars_ten_toDigits (n := n)
    rw [← Nat.toList_repr, Nat.ofDigitChars_eq_foldl] at hten
    refine Eq.trans ?_ hten
    refine List.foldl_ext _ _ _ fun m c hc ↦ ?_
    rw [hdigit hc, Option.getD_some, Nat.mul_comm]
    rfl
  have hhead : (n.repr.toList ++ rest).head? = n.repr.toList.head? :=
    List.head?_append_of_ne_nil _ hne
  rw [readNumber]
  simp only [htake, hvalue, hhead, hne, or_false, Nat.not_lt.mpr hdigits, if_false, hsize, if_true,
    List.drop_left]
  rw [if_neg fun h ↦ hzero h.1 h.2]

theorem readNumber_octet (octet : UInt8) {rest : List Char}
    (hrest : ∀ c ∈ rest.head?, toDigit 10 c = none) :
    readNumber UInt8.size 10 3 false (octet.toNat.repr.toList ++ rest) =
      some (octet.toNat, rest) := by
  have hall : ∀ n < 256, n.repr.toList.length ≤ 3 ∧
      ¬(n.repr.toList.head? = some '0' ∧ 1 < n.repr.toList.length) := by
    decide +kernel
  obtain ⟨hdigits, hzero⟩ := hall octet.toNat octet.toNat_lt
  exact readNumber_repr octet.toNat_lt hdigits (fun _ ↦ hzero) hrest

theorem readIpv4Addr_toString (ip : Ipv4Addr) {rest : List Char}
    (hrest : ∀ c ∈ rest.head?, toDigit 10 c = none) :
    readIpv4Addr (ip.toString.toList ++ rest) = some (ip, rest) := by
  have hdot (s : List Char) : ∀ c ∈ ('.' :: s).head?, toDigit 10 c = none := by
    rintro c ⟨⟩
    decide
  have hgroup (octet : UInt8) (s : List Char) := readNumber_octet octet (hdot s)
  simp only [Ipv4Addr.toList_toString, List.append_assoc, List.cons_append]
  simp only [readIpv4Addr, readSeparator, hgroup, readNumber_octet ip.d hrest, if_true,
    OfNat.ofNat_ne_zero, one_ne_zero, if_false, Option.bind_eq_bind, Option.bind_some,
    UInt8.ofNat_toNat]
  rfl

theorem readNumber_rest {size radix maxDigits : ℕ} {allowZeroPrefix : Bool} {s rest : List Char}
    {n : ℕ} (h : readNumber size radix maxDigits allowZeroPrefix s = some (n, rest)) :
    rest = s.dropWhile fun c ↦ (toDigit radix c).isSome := by
  unfold readNumber at h
  dsimp only at h
  split_ifs at h
  obtain ⟨-, rfl⟩ := Prod.mk.inj (Option.some.inj h)
  let digit (c : Char) : Bool := (toDigit radix c).isSome
  calc s.drop (s.takeWhile digit).length
      = (s.takeWhile digit ++ s.dropWhile digit).drop (s.takeWhile digit).length := by
        rw [List.takeWhile_append_dropWhile]
    _ = s.dropWhile digit := List.drop_left

/-- A colon stands before the first dot. -/
theorem readIpv4Addr_colon {front : List Char} (hfront : '.' ∉ front) (rest : List Char) :
    readIpv4Addr (front ++ ':' :: rest) = none := by
  have hcolon : toDigit 10 ':' = none := by decide
  cases hgroup : readNumber UInt8.size 10 3 false (front ++ ':' :: rest) with
  | none => simp [readIpv4Addr, readSeparator, hgroup]
  | some p =>
      obtain ⟨n, s⟩ := p
      have hs := readNumber_rest hgroup
      rw [List.dropWhile_append] at hs
      have hdot : ∀ s', s ≠ '.' :: s' := by
        rintro s' rfl
        split_ifs at hs with hall
        · rw [List.dropWhile_cons, hcolon] at hs
          cases hs
        · have hmem : '.' ∈ front.dropWhile fun c ↦ (toDigit 10 c).isSome := by
            cases hfirst : front.dropWhile fun c ↦ (toDigit 10 c).isSome with
            | nil => exact absurd (by rw [hfirst]; rfl) hall
            | cons c front' =>
                rw [hfirst, List.cons_append] at hs
                rw [(List.cons.inj hs).1]
                exact List.mem_cons_self
          exact hfront ((List.dropWhile_suffix _).mem hmem)
      have hseparator : readSeparator '.' 1 (readNumber UInt8.size 10 3 false) s = none := by
        cases s with
        | nil => rfl
        | cons c s' =>
            have hc : c ≠ '.' := fun heq ↦ hdot s' (by rw [heq])
            exact if_neg hc
      have hfirst : readSeparator '.' 0 (readNumber UInt8.size 10 3 false)
          (front ++ ':' :: rest) = some (n, s) := hgroup
      simp only [readIpv4Addr, hfirst, Option.bind_eq_bind, Option.bind_some, hseparator,
        Option.bind_none]

end IpParser

namespace Ipv6Addr

theorem dot_notMem_hex (segment : UInt16) : '.' ∉ (hex segment).toList := by
  rw [hex, String.toList_ofList]
  generalize segment.toNat = n
  induction n using Nat.strongRecOn with
  | ind n ih =>
      rw [Nat.toDigits_eq_if (by decide)]
      split
      case isTrue hlt => simp
      case isFalse hle =>
        simpa using ih (n / 16) (Nat.div_lt_self (by omega) (by decide))

theorem dot_notMem_fmtSubslice (chunk : List UInt16) : '.' ∉ (fmtSubslice chunk).toList := by
  induction chunk with
  | nil => simp [fmtSubslice]
  | cons segment chunk ih =>
      cases chunk with
      | nil =>
          rw [fmtSubslice_singleton]
          exact dot_notMem_hex segment
      | cons next chunk =>
          rw [toList_fmtSubslice_cons, List.mem_append, List.mem_cons]
          rintro (h | h | h)
          · exact dot_notMem_hex segment h
          · cases h
          · exact ih h

/-- A colon stands before the first dot of the notation. -/
theorem exists_colon (ip : Ipv6Addr) :
    ∃ front rest, ip.toString.toList = front ++ ':' :: rest ∧ '.' ∉ front := by
  have hcut {s : List Char} (hdot : '.' ∉ s) (hcolon : ':' ∈ s) :
      ∃ front rest, s = front ++ ':' :: rest ∧ '.' ∉ front := by
    obtain ⟨front, rest, rfl⟩ := List.append_of_mem hcolon
    exact ⟨front, rest, rfl, fun h ↦ hdot (List.mem_append_left _ h)⟩
  have hcolon := ip.colon_mem_toString
  rcases ip.toString_cases with ⟨ipv4, -, htext⟩ | ⟨-, htext⟩ | htext
  · rw [htext, String.toList_append]
    exact ⟨[], _, rfl, List.not_mem_nil⟩
  · refine hcut ?_ hcolon
    rw [htext, String.toList_append, String.toList_append, List.mem_append, List.mem_append]
    rintro ((h | h) | h)
    · exact dot_notMem_fmtSubslice _ h
    · exact absurd h (by decide)
    · exact dot_notMem_fmtSubslice _ h
  · refine hcut ?_ hcolon
    rw [htext]
    exact dot_notMem_fmtSubslice _

end Ipv6Addr

namespace SocketAddr

open IpParser

theorem toList_withPort (text : String) (port : UInt16) :
    (text ++ ":" ++ toString port).toList = text.toList ++ ':' :: port.toNat.repr.toList := by
  have hport : toString port = port.toNat.repr := rfl
  rw [hport, String.toList_append, String.toList_append, List.append_assoc]
  rfl

theorem readPort_repr (port : UInt16) :
    readPort (':' :: port.toNat.repr.toList) = some (port, []) := by
  have hnumber : readNumber UInt16.size 10 port.toNat.repr.toList.length true
      port.toNat.repr.toList = some (port.toNat, []) := by
    have hzero : true = false → ¬(port.toNat.repr.toList.head? = some '0' ∧
        1 < port.toNat.repr.toList.length) := fun h ↦ by cases h
    have hend : ∀ c ∈ ([] : List Char).head?, toDigit 10 c = none := fun c hc ↦ by cases hc
    have hread := readNumber_repr port.toNat_lt (Nat.le_refl _) hzero hend
    rwa [List.append_nil] at hread
  rw [readPort, hnumber]
  simp

theorem parse_ipv4 (ip : Ipv4Addr) (port : UInt16) :
    parse (ip.toString ++ ":" ++ toString port) = some ⟨.v4 ip, port⟩ := by
  have hip : readIpv4Addr (ip.toString.toList ++ ':' :: port.toNat.repr.toList) =
      some (ip, ':' :: port.toNat.repr.toList) :=
    readIpv4Addr_toString ip (by rintro c ⟨⟩; decide)
  have hv4 : readSocketAddrV4 (ip.toString.toList ++ ':' :: port.toNat.repr.toList) =
      some (⟨.v4 ip, port⟩, []) := by
    rw [readSocketAddrV4, hip]
    simp only [Option.bind_eq_bind, Option.bind_some, readPort_repr]
    rfl
  rw [parse, toList_withPort, hv4]
  rfl

/-- The colons of an IPv6 address cannot be told from the one before the port. -/
theorem parse_ipv6 (ip : Ipv6Addr) (port : UInt16) :
    parse (ip.toString ++ ":" ++ toString port) = none := by
  obtain ⟨front, rest, htext, hfront⟩ := ip.exists_colon
  have hv4 : readSocketAddrV4 (ip.toString.toList ++ ':' :: port.toNat.repr.toList) = none := by
    rw [readSocketAddrV4, htext, List.append_assoc, List.cons_append, readIpv4Addr_colon hfront]
    rfl
  have hv6 : readSocketAddrV6 (ip.toString.toList ++ ':' :: port.toNat.repr.toList) = none := by
    have hbracket : '[' ∉ ip.toString.toList := fun h ↦ absurd (Ipv6Addr.mem_toString h) (by decide)
    cases hchars : ip.toString.toList with
    | nil => rfl
    | cons c cs =>
        have hc : c ≠ '[' := by
          rintro rfl
          exact hbracket (by rw [hchars]; exact List.mem_cons_self)
        rw [List.cons_append, readSocketAddrV6]
        rintro s' heq
        exact hc (List.cons.inj heq).1
  rw [parse, toList_withPort, hv4, hv6]
  rfl

end SocketAddr

end Rog
