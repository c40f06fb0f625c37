import Rog.Util.IpNotation
import Rog.Util.Socks5Format

/-!
# The addresses of requests

Which text a request stands for, and that the bytes of one request do not end with those of a
shorter one for the same text.
-/

namespace Rog

open Lib

/-- `Ipv4Addr::octets`. -/
def Ipv4Addr.octets (ip : Ipv4Addr) : Bytes := [ip.a, ip.b, ip.c, ip.d]

/-- `Ipv6Addr::octets`. -/
def Ipv6Addr.octets (ip : Ipv6Addr) : Bytes :=
  ip.segments.flatMap fun segment ↦ [(segment / 256).toUInt8, segment.toUInt8]

theorem fromBeBytes_toBeBytes (segment : UInt16) :
    fromBeBytes (segment / 256).toUInt8 segment.toUInt8 = segment := by
  have hlt := segment.toNat_lt
  rw [← UInt16.toNat_inj]
  simp [fromBeBytes]
  omega

namespace Ipv6Addr

theorem length_octets (ip : Ipv6Addr) : ip.octets.length = 16 := by
  simp [octets, ip.length_segments]

theorem getElem?_octets (ip : Ipv6Addr) (i : ℕ) :
    ip.octets[2 * i]? = ip.segments[i]?.map fun segment ↦ (segment / 256).toUInt8 := by
  rw [octets]
  generalize ip.segments = segments
  induction segments generalizing i with
  | nil => rfl
  | cons segment segments ih =>
      cases i with
      | zero => rfl
      | succ i => exact ih i

end Ipv6Addr

/-! ## The text of a request -/

/-- A request with this address type and this address is one for `text`. -/
def Request.Names (text : String) (aTyp : UInt8) (dstAddr : Bytes) : Prop :=
  (∃ ip : Ipv4Addr, aTyp = 1 ∧ dstAddr = ip.octets ∧ text = ip.toString) ∨
    (∃ ip : Ipv6Addr, aTyp = 4 ∧ dstAddr = ip.octets ∧ text = ip.toString) ∨
      aTyp = 3 ∧ dstAddr = asBytes text

namespace RunAddr

theorem tryFromRequest_of_names {req : Request} {text : String}
    (h : Request.Names text req.aTyp req.dstAddr) : tryFromRequest req =
      .ok ⟨text, fromBeBytes req.dstPort.1 req.dstPort.2, req.cmd == cmdUdp⟩ := by
  obtain ⟨version, cmd, rsv, aTyp, dstAddr, high, low⟩ := req
  dsimp only at h
  rcases h with ⟨ip, rfl, rfl, rfl⟩ | ⟨ip, rfl, rfl, rfl⟩ | ⟨rfl, rfl⟩
  · rfl
  · obtain ⟨segments, hlength⟩ := ip
    match segments, hlength with
    | [a, b, c, d, e, f, g, h], _ =>
        have hone : ¬(4 : UInt8) = 1 := by decide
        have hthree : ¬(4 : UInt8) = 3 := by decide
        simp only [tryFromRequest, if_neg hone, if_neg hthree, if_true, Ipv6Addr.octets,
          List.flatMap_cons, List.flatMap_nil, List.cons_append, List.nil_append,
          fromBeBytes_toBeBytes]
        rfl
  · have hone : ¬(3 : UInt8) = 1 := by decide
    simp only [tryFromRequest, if_neg hone, if_true, fromUtf8_asBytes]
    rfl

theorem names_of_tryFromRequest {req : Request} {addr : RunAddr}
    (h : tryFromRequest req = .ok addr) : Request.Names addr.addr req.aTyp req.dstAddr := by
  obtain ⟨version, cmd, rsv, aTyp, dstAddr, port⟩ := req
  unfold tryFromRequest at h
  dsimp only at h ⊢
  by_cases hone : aTyp = 1
  · rw [if_pos hone] at h
    split at h
    · obtain rfl := Except.ok.inj h
      exact .inl ⟨_, hone, rfl, rfl⟩
    · cases h
  rw [if_neg hone] at h
  by_cases hthree : aTyp = 3
  · rw [if_pos hthree] at h
    split at h
    · rename_i domain hutf8
      obtain rfl := Except.ok.inj h
      exact .inr (.inr ⟨hthree, (asBytes_of_fromUtf8 hutf8).symm⟩)
    · cases h
  rw [if_neg hthree] at h
  by_cases hfour : aTyp = 4
  · rw [if_pos hfour] at h
    split at h
    · obtain rfl := Except.ok.inj h
      refine .inr (.inl ⟨_, hfour, ?_, rfl⟩)
      have hpair (high low : UInt8) : [(fromBeBytes high low / 256).toUInt8,
          (fromBeBytes high low).toUInt8] = [high, low] := by
        obtain ⟨hhigh, hlow⟩ := Prod.mk.inj (toBeBytes_fromBeBytes high low)
        rw [hhigh, hlow]
      simp only [Ipv6Addr.octets, List.flatMap_cons, List.flatMap_nil, hpair, List.cons_append,
        List.nil_append]
    · cases h
  · rw [if_neg hfour] at h
    cases h

end RunAddr

/-! ## Addresses given as names -/

theorem IpChar.toNat {c : Char} (h : IpChar c) : 46 ≤ c.toNat ∧ c.toNat < 128 := by
  rcases h with h | ⟨hlow, hhigh⟩ | rfl | rfl
  · simp only [Char.isDigit, Bool.and_eq_true, decide_eq_true_eq, UInt32.le_iff_toNat_le] at h
    simp at h
    omega
  · simp only [Char.le_def, UInt32.le_iff_toNat_le] at hlow hhigh
    simp at hlow hhigh
    omega
  · decide
  · decide

theorem asBytes_ipText {text : String} (h : ∀ c ∈ text.toList, IpChar c) :
    (asBytes text).length = text.toList.length ∧ ∀ b ∈ asBytes text, 46 ≤ b.toNat := by
  rw [asBytes_eq_utf8, utf8_of_ascii fun c hc ↦ (h c hc).toNat.2, List.length_map]
  refine ⟨rfl, fun b hb ↦ ?_⟩
  obtain ⟨c, hc, rfl⟩ := List.mem_map.mp hb
  obtain ⟨hle, hlt⟩ := (h c hc).toNat
  rw [UInt8.toNat_ofNat']
  omega

/-! ## The bytes of a request -/

namespace Request

def header (req : Request) : Bytes :=
  req.version :: req.cmd :: req.rsv :: req.aTyp ::
    if req.aTyp = 3 then [UInt8.ofNat req.dstAddr.length] else []

section Bytes

variable {req : Request}

theorem bytes_eq (req : Request) :
    req.bytes = req.header ++ (req.dstAddr ++ [req.dstPort.1, req.dstPort.2]) := by
  by_cases haTyp : req.aTyp = 3
  · simp [bytes, pieces, addrPieces, header, haTyp]
  · simp [bytes, pieces, addrPieces, header, haTyp]

theorem length_header_domain (h : req.aTyp = 3) : req.header.length = 5 := by
  simp [header, h]

theorem length_header_ip (h : req.aTyp ≠ 3) : req.header.length = 4 := by
  simp [header, h]

theorem length_bytes (req : Request) :
    req.bytes.length = req.header.length + req.dstAddr.length + 2 := by
  simp [bytes_eq, Nat.add_assoc]

theorem getElem?_dstAddr {i : ℕ} (h : i < req.dstAddr.length) :
    req.bytes[req.header.length + i]? = req.dstAddr[i]? := by
  rw [bytes_eq, List.getElem?_append_right (Nat.le_add_right _ _), Nat.add_sub_cancel_left,
    List.getElem?_append_left h]

end Bytes

/-! ## Suffixes -/

section Suffix

variable {req other : Request} {text : String} {extra pad : Bytes}

theorem getElem?_suffix (h : req.bytes = extra ++ (other.bytes ++ pad)) {i : ℕ}
    (hi : i < other.bytes.length) : req.bytes[extra.length + i]? = other.bytes[i]? := by
  rw [h, List.getElem?_append_right (Nat.le_add_right _ _), Nat.add_sub_cancel_left,
    List.getElem?_append_left hi]

/-- No request begins at the second byte of another one: what stands there is a command. -/
theorem two_le_of_suffix (hreq : req.WellFormed) (hother : other.WellFormed)
    (h : req.bytes = extra ++ (other.bytes ++ pad)) (hextra : extra ≠ []) : 2 ≤ extra.length := by
  have hpos := List.length_pos_iff.mpr hextra
  by_contra hlt
  have hone : extra.length = 1 := by omega
  have hversion := getElem?_suffix h (i := 0) (by rw [length_bytes]; omega)
  rw [hone, bytes_eq req, bytes_eq other] at hversion
  simp only [header, List.cons_append, Nat.add_zero, List.getElem?_cons_succ,
    List.getElem?_cons_zero, Option.some.injEq, hother.version] at hversion
  rcases hreq.cmd with hcmd | hcmd
  · rw [hcmd] at hversion
    cases hversion
  · rw [hcmd] at hversion
    cases hversion

/-- A request for a domain that is an IP address does not end with one for this address: the
address type would be one of the characters. -/
theorem eq_nil_of_domain (hreq : req.WellFormed) (hother : other.WellFormed)
    (htext : ∀ c ∈ text.toList, IpChar c) (haTyp : req.aTyp = 3) (hdstAddr : req.dstAddr = asBytes text)
    (hother' : other.aTyp = 1 ∨ other.aTyp = 4)
    (h : req.bytes = extra ++ (other.bytes ++ pad)) : extra = [] := by
  by_contra hextra
  have htwo := two_le_of_suffix hreq hother h hextra
  have hlength := congrArg List.length h
  have hotherLength := other.length_bytes
  have hotherAddr : 4 ≤ other.dstAddr.length := by
    rcases hother.dstAddr with ⟨-, hlen⟩ | ⟨-, hlen⟩ | ⟨hthree, -⟩
    · omega
    · omega
    · rcases hother' with h | h <;> rw [h] at hthree <;> cases hthree
  have hotherHeader : other.header.length = 4 :=
    length_header_ip (by rcases hother' with h | h <;> rw [h] <;> decide)
  rw [List.length_append, List.length_append, length_bytes, length_header_domain haTyp] at hlength
  have hbyte := getElem?_suffix h (i := 3) (by omega)
  have hindex : extra.length + 3 = req.header.length + (extra.length - 2) := by
    rw [length_header_domain haTyp]
    omega
  rw [hindex, getElem?_dstAddr (by omega), bytes_eq other] at hbyte
  simp only [header, List.cons_append, List.getElem?_cons_succ, List.getElem?_cons_zero] at hbyte
  have hmem := List.mem_of_getElem? hbyte
  rw [hdstAddr] at hmem
  have hle := (asBytes_ipText htext).2 _ hmem
  rcases hother' with h | h
  · simp [h] at hle
  · simp [h] at hle

/-- A request for an IPv6 address does not end with one for the domain that is its text: this is
too short for an address that ends with characters. -/
theorem eq_nil_of_v6 {ip : Ipv6Addr} (hreq : req.aTyp = 4) (hdstAddr : req.dstAddr = ip.octets)
    (hother : other.aTyp = 3) (hdomain : other.dstAddr = asBytes ip.toString) (hpad : pad.length ≤ 1)
    (h : req.bytes = extra ++ (other.bytes ++ pad)) : extra = [] := by
  by_contra hextra
  have hpos := List.length_pos_iff.mpr hextra
  obtain ⟨htextLength, hchars⟩ := asBytes_ipText fun c hc ↦ Ipv6Addr.mem_toString hc
  have hheader : req.header.length = 4 := length_header_ip (by rw [hreq]; decide)
  have hlength := congrArg List.length h
  rw [List.length_append, List.length_append, length_bytes, length_bytes, hdstAddr, hdomain, hheader,
    length_header_domain hother, Ipv6Addr.length_octets, htextLength] at hlength
  -- the segments that begin within the text
  have hafter : ∀ segment ∈ ip.segments.drop ((extra.length + 2) / 2), 0x1000 ≤ segment.toNat := by
    intro segment hsegment
    obtain ⟨i, hi⟩ := List.mem_iff_getElem?.mp hsegment
    rw [List.getElem?_drop] at hi
    generalize hindex : (extra.length + 2) / 2 + i = index at hi
    have hlt : index < ip.segments.length := (List.getElem?_eq_some_iff.mp hi).1
    rw [ip.length_segments] at hlt
    obtain ⟨n, hn⟩ : ∃ n, 2 * index = extra.length + 1 + n := ⟨2 * index - extra.length - 1, by omega⟩
    have hoctet := @getElem?_dstAddr req (2 * index) (by
      rw [hdstAddr, ip.length_octets]
      omega)
    have hchar := @getElem?_dstAddr other n (by
      rw [hdomain, htextLength]
      omega)
    have hbyte := getElem?_suffix h (i := 5 + n) (by
      rw [length_bytes, length_header_domain hother, hdomain, htextLength]
      omega)
    have hposition : req.header.length + 2 * index = extra.length + (5 + n) := by omega
    rw [length_header_domain hother] at hchar
    rw [hposition, hbyte, hchar, hdstAddr, ip.getElem?_octets, hi, Option.map_some, hdomain] at hoctet
    have hle := hchars _ (List.mem_of_getElem? hoctet)
    have hsegment := segment.toNat_lt
    simp at hle
    omega
  have hshort := ip.two_le_length_toString
  have hlong := Ipv6Addr.length_toString (List.take_append_drop ((extra.length + 2) / 2) ip.segments).symm
    hafter
  rw [List.length_drop, ip.length_segments] at hlong
  omega

/-- No request ends with a shorter one for the same text, even if its last byte is left out. -/
theorem eq_nil_of_suffix (hreq : req.WellFormed) (hother : other.WellFormed)
    (hnames : Names text req.aTyp req.dstAddr) (hnames' : Names text other.aTyp other.dstAddr)
    (hpad : pad.length ≤ 1) (h : req.bytes = extra ++ (other.bytes ++ pad)) : extra = [] := by
  by_contra hextra
  have hpos := List.length_pos_iff.mpr hextra
  have hlength := congrArg List.length h
  rw [List.length_append, List.length_append, length_bytes, length_bytes] at hlength
  have hheader {r : Request} (haTyp : r.aTyp = 1 ∨ r.aTyp = 4) : r.header.length = 4 :=
    length_header_ip (by rcases haTyp with h | h <;> rw [h] <;> decide)
  rcases hnames with ⟨ip, haTyp, hdstAddr, rfl⟩ | ⟨ip, haTyp, hdstAddr, rfl⟩ | ⟨haTyp, hdstAddr⟩
  · -- a request for an IPv4 address is the shortest
    rw [hheader (.inl haTyp), hdstAddr] at hlength
    have hfour : ip.octets.length = 4 := rfl
    rcases hnames' with ⟨ip', haTyp', hdstAddr', -⟩ | ⟨ip', haTyp', hdstAddr', -⟩ |
      ⟨haTyp', hdstAddr'⟩
    · have hfour' : ip'.octets.length = 4 := rfl
      rw [hheader (.inl haTyp'), hdstAddr'] at hlength
      omega
    · rw [hheader (.inr haTyp'), hdstAddr', ip'.length_octets] at hlength
      omega
    · have htext := ip.length_toString
      rw [length_header_domain haTyp', hdstAddr',
        (asBytes_ipText fun c hc ↦ Ipv4Addr.ipChar hc).1] at hlength
      omega
  · rcases hnames' with ⟨ip', -, -, htext⟩ | ⟨ip', haTyp', hdstAddr', -⟩ | ⟨haTyp', hdstAddr'⟩
    · have hcolon := ip.colon_mem_toString
      rw [htext] at hcolon
      rcases Ipv4Addr.mem_toString hcolon with hdigit | hdot
      · cases hdigit
      · cases hdot
    · rw [hheader (.inr haTyp), hheader (.inr haTyp'), hdstAddr, hdstAddr', ip.length_octets,
        ip'.length_octets] at hlength
      omega
    · exact hextra (eq_nil_of_v6 haTyp hdstAddr haTyp' hdstAddr' hpad h)
  · rcases hnames' with ⟨ip', haTyp', -, rfl⟩ | ⟨ip', haTyp', -, rfl⟩ | ⟨haTyp', hdstAddr'⟩
    · exact hextra (eq_nil_of_domain hreq hother (fun c hc ↦ Ipv4Addr.ipChar hc) haTyp hdstAddr
        (.inl haTyp') h)
    · exact hextra (eq_nil_of_domain hreq hother (fun c hc ↦ Ipv6Addr.mem_toString hc) haTyp
        hdstAddr (.inr haTyp') h)
    · rw [length_header_domain haTyp, length_header_domain haTyp', hdstAddr, hdstAddr'] at hlength
      omega

end Suffix

end Request

end Rog
