import Rog.Udp.Packet
import Rog.Util.Socks5Address

/-!
# The datagrams of clients

`UDPPacket::parse`, which takes the header off a datagram. An index or a range outside of the
buffer panics.
-/

namespace Rog

structure SocketAddr where
  ip : IpAddr
  port : UInt16
  deriving DecidableEq

/-- `buf[i]`. -/
def index (buf : Bytes) (i : ℕ) : Io UInt8 :=
  match buf[i]? with
  | some b => .ok b
  | none => .error .panic

/-- `buf[start..stop]`. -/
def slice (buf : Bytes) (start stop : ℕ) : Io Bytes :=
  if start ≤ stop ∧ stop ≤ buf.length then .ok ((buf.take stop).drop start) else .error .panic

/-- `u16::from_be_bytes` of a vector, which has to have two bytes. -/
def fromBeVec : Bytes → Io UInt16
  | [high, low] => .ok (fromBeBytes high low)
  | _ => .error .panic

/-- `Ipv6Addr::new`. -/
def Ipv6Addr.new (a b c d e f g h : UInt16) : Ipv6Addr := ⟨[a, b, c, d, e, f, g, h], rfl⟩

namespace UDPPacket

/-- `a_len`, negative for an unknown type. -/
def aLen (buf : Bytes) (aTyp : UInt8) : Io ℤ :=
  if aTyp = 1 then .ok 4
  else if aTyp = 4 then .ok 16
  else if aTyp = 3 then do
    let len ← index buf 4
    return len.toNat
  else .ok (-1)

/-- `addr`. -/
def addrText (aTyp : UInt8) (dstAddr : Bytes) : Io String :=
  if aTyp = 1 then
    match dstAddr with
    | [a, b, c, d] => .ok (Ipv4Addr.toString ⟨a, b, c, d⟩)
    | _ => Io.other "Not a ipv4"
  else if aTyp = 3 then
    match fromUtf8 dstAddr with
    | some domain => .ok domain
    | none => Io.other "Not a domain"
  else if aTyp = 4 then
    match dstAddr with
    | [a, b, c, d, e, f, g, h, i, j, k, l, m, n, o, p] =>
        .ok (Ipv6Addr.toString (.new (fromBeBytes a b) (fromBeBytes c d) (fromBeBytes e f)
          (fromBeBytes g h) (fromBeBytes i j) (fromBeBytes k l) (fromBeBytes m n) (fromBeBytes o p)))
    | _ => Io.other "Not a ipv6"
  else Io.other "a_type not found"

/-- What a fragment becomes. -/
def fragment : UDPPacket := ⟨⟨"", 0, "", 0⟩, []⟩

def parse (buf : Bytes) (srcAddr : SocketAddr) : Io UDPPacket := do
  if buf.length < 5 then Io.raise .invalidData "udp parse packet too short"
  else
    let frag ← index buf 2
    if frag ≠ 0 then return fragment
    else
      let aTyp ← index buf 3
      let aLen ← aLen buf aTyp
      let start : ℕ := if aTyp = 3 then 5 else 4
      if aLen < 0 then Io.raise .invalidData "udp parse invalid addr type"
      else if (start : ℤ) + aLen + 2 ≥ buf.length then
        Io.raise .invalidData "udp parse packet too short2"
      else
        let aLen := aLen.toNat
        let dstAddr ← slice buf start (start + aLen)
        let dstPort ← slice buf (start + aLen) (start + aLen + 2)
        let data ← slice buf (start + aLen + 2) buf.length
        let port ← fromBeVec dstPort
        let addr ← addrText aTyp dstAddr
        return ⟨⟨addr, port, srcAddr.ip.toString, srcAddr.port⟩, data⟩

end UDPPacket

theorem RunAddr.tryFromRequest_eq (req : Request) : tryFromRequest req =
    (UDPPacket.addrText req.aTyp req.dstAddr).map fun addr ↦
      ⟨addr, fromBeBytes req.dstPort.1 req.dstPort.2, req.cmd == cmdUdp⟩ := by
  obtain ⟨version, cmd, rsv, aTyp, dstAddr, port⟩ := req
  unfold tryFromRequest UDPPacket.addrText
  dsimp only
  split_ifs
  · rcases dstAddr with _ | ⟨a, _ | ⟨b, _ | ⟨c, _ | ⟨d, _ | ⟨e, rest⟩⟩⟩⟩⟩ <;> rfl
  · cases fromUtf8 dstAddr <;> rfl
  · rcases dstAddr with _ | ⟨a, _ | ⟨b, _ | ⟨c, _ | ⟨d, _ | ⟨e, _ | ⟨f, _ | ⟨g, _ | ⟨h, _ | ⟨i, _ |
      ⟨j, _ | ⟨k, _ | ⟨l, _ | ⟨m, _ | ⟨n, _ | ⟨o, _ | ⟨p, _ | ⟨q, rest⟩⟩⟩⟩⟩⟩⟩⟩⟩⟩⟩⟩⟩⟩⟩⟩⟩ <;> rfl
  · rfl

/-! ## Ranges -/

theorem slice_eq {buf : Bytes} {start stop : ℕ} (front piece back : Bytes)
    (hbuf : buf = front ++ (piece ++ back)) (hstart : start = front.length)
    (hstop : stop = start + piece.length) : slice buf start stop = .ok piece := by
  have hlength := congrArg List.length hbuf
  rw [List.length_append, List.length_append] at hlength
  rw [slice, if_pos ⟨by omega, by omega⟩, hstop, hstart, hbuf, ← List.length_append,
    ← List.append_assoc, List.take_left, List.drop_left]

namespace UDPPacket

/-! ## Datagrams -/

def header (rsv : UInt8 × UInt8) (frag aTyp : UInt8) (dstAddr : Bytes) : Bytes :=
  rsv.1 :: rsv.2 :: frag :: aTyp :: if aTyp = 3 then [UInt8.ofNat dstAddr.length] else []

def datagram (rsv : UInt8 × UInt8) (frag aTyp : UInt8) (dstAddr : Bytes) (port : UInt8 × UInt8)
    (data : Bytes) : Bytes :=
  header rsv frag aTyp dstAddr ++ (dstAddr ++ ([port.1, port.2] ++ data))

variable {rsv : UInt8 × UInt8} {frag aTyp : UInt8} {dstAddr : Bytes} {port : UInt8 × UInt8}
  {data buf : Bytes} {src : SocketAddr} {packet : UDPPacket}

theorem length_header : (header rsv frag aTyp dstAddr).length = if aTyp = 3 then 5 else 4 := by
  by_cases h : aTyp = 3
  · simp [header, h]
  · simp [header, h]

theorem aLen_datagram (hfits : Request.FitsType aTyp dstAddr) :
    aLen (datagram rsv frag aTyp dstAddr port data) aTyp = .ok dstAddr.length := by
  rcases hfits with ⟨rfl, hlen⟩ | ⟨rfl, hlen⟩ | ⟨rfl, hlen⟩
  · rw [hlen]
    rfl
  · rw [hlen]
    rfl
  · have hbyte : index (datagram rsv frag 3 dstAddr port data) 4 =
        .ok (UInt8.ofNat dstAddr.length) := rfl
    rw [aLen, if_neg (by decide), if_neg (by decide), if_pos rfl, hbyte]
    have hlength : (UInt8.ofNat dstAddr.length).toNat = dstAddr.length := by
      rw [UInt8.toNat_ofNat', Nat.mod_eq_of_lt hlen]
    exact congrArg (fun n : ℕ ↦ (Except.ok (n : ℤ) : Io ℤ)) hlength

theorem parse_datagram (hfits : Request.FitsType aTyp dstAddr) (hdata : data ≠ []) :
    parse (datagram rsv 0 aTyp dstAddr port data) src = (addrText aTyp dstAddr).map fun addr ↦
      ⟨⟨addr, fromBeBytes port.1 port.2, src.ip.toString, src.port⟩, data⟩ := by
  obtain ⟨start, hstart⟩ : ∃ start, start = if aTyp = 3 then 5 else 4 := ⟨_, rfl⟩
  have hfour : 4 ≤ start := by rw [hstart]; split <;> omega
  have hheader : start = (header rsv 0 aTyp dstAddr).length := hstart.trans length_header.symm
  have hfrag : index (datagram rsv 0 aTyp dstAddr port data) 2 = .ok 0 := rfl
  have haTyp : index (datagram rsv 0 aTyp dstAddr port data) 3 = .ok aTyp := rfl
  have hlen := @aLen_datagram rsv 0 aTyp dstAddr port data hfits
  have haddr : slice (datagram rsv 0 aTyp dstAddr port data) start (start + dstAddr.length) =
      .ok dstAddr :=
    slice_eq (header rsv 0 aTyp dstAddr) dstAddr _ rfl hheader rfl
  have hport : slice (datagram rsv 0 aTyp dstAddr port data) (start + dstAddr.length)
      (start + dstAddr.length + 2) = .ok [port.1, port.2] :=
    slice_eq (header rsv 0 aTyp dstAddr ++ dstAddr) [port.1, port.2] data
      (List.append_assoc ..).symm (by rw [List.length_append, hheader]) rfl
  have hlength : (datagram rsv 0 aTyp dstAddr port data).length =
      start + dstAddr.length + 2 + data.length := by
    simp [datagram, hheader]
    omega
  have hrest : slice (datagram rsv 0 aTyp dstAddr port data) (start + dstAddr.length + 2)
      (datagram rsv 0 aTyp dstAddr port data).length = .ok data :=
    slice_eq (header rsv 0 aTyp dstAddr ++ dstAddr ++ [port.1, port.2]) data []
      (by simp [datagram]) (by simp [hheader, Nat.add_assoc]) hlength
  generalize datagram rsv 0 aTyp dstAddr port data = buf at *
  have hpos := List.length_pos_iff.mpr hdata
  have hlong : ¬buf.length < 5 := by omega
  have hshort : ¬(start : ℤ) + dstAddr.length + 2 ≥ buf.length := by omega
  have hnonneg : ¬(dstAddr.length : ℤ) < 0 := by omega
  have hport' : fromBeVec [port.1, port.2] = .ok (fromBeBytes port.1 port.2) := rfl
  simp only [parse, if_neg hlong, hfrag, haTyp, hlen, ← hstart, bind, Except.bind, ne_eq,
    not_true_eq_false, if_false, if_neg hnonneg, if_neg hshort, Int.toNat_natCast, haddr, hport,
    hrest, hport']
  cases addrText aTyp dstAddr <;> rfl

theorem split_addr {rest : Bytes} {n : ℕ} (h : n + 2 < rest.length) :
    ∃ dstAddr high low data, dstAddr.length = n ∧ data ≠ [] ∧
      rest = dstAddr ++ ([high, low] ++ data) := by
  obtain ⟨high, more, hhigh⟩ := List.exists_cons_of_length_pos
    (show 0 < (rest.drop n).length by rw [List.length_drop]; omega)
  have hmore := congrArg List.length hhigh
  rw [List.length_drop, List.length_cons] at hmore
  obtain ⟨low, data, rfl⟩ := List.exists_cons_of_length_pos (show 0 < more.length by omega)
  rw [List.length_cons] at hmore
  refine ⟨rest.take n, high, low, data, ?_, ?_, ?_⟩
  · rw [List.length_take]
    omega
  · rintro rfl
    rw [List.length_nil] at hmore
    omega
  · have hsplit := List.take_append_drop n rest
    rw [hhigh] at hsplit
    exact hsplit.symm

/-- A datagram with data, or a fragment, or an error. -/
theorem parse_cases (buf : Bytes) (src : SocketAddr) :
    (∃ rsv aTyp dstAddr port data, Request.FitsType aTyp dstAddr ∧ data ≠ [] ∧
      buf = datagram rsv 0 aTyp dstAddr port data) ∨
    parse buf src = .ok fragment ∨ ∃ kind message, parse buf src = Io.raise kind message := by
  by_cases hlong : buf.length < 5
  · exact .inr (.inr ⟨_, _, if_pos hlong⟩)
  rcases buf with _ | ⟨r₁, _ | ⟨r₂, _ | ⟨frag, _ | ⟨aTyp, _ | ⟨len, rest⟩⟩⟩⟩⟩
  iterate 5 exact (hlong (by simp)).elim
  by_cases hfrag : frag = 0
  case neg =>
    refine .inr (.inl ?_)
    rw [parse, if_neg hlong]
    exact if_pos hfrag
  obtain rfl := hfrag
  have hraise (n : ℤ) (hlen : aLen (r₁ :: r₂ :: 0 :: aTyp :: len :: rest) aTyp = .ok n)
      (hshort : n < 0 ∨ ((if aTyp = 3 then 5 else 4 : ℕ) : ℤ) + n + 2 ≥
        (r₁ :: r₂ :: 0 :: aTyp :: len :: rest).length) :
      ∃ kind message, parse (r₁ :: r₂ :: 0 :: aTyp :: len :: rest) src = Io.raise kind message := by
    have hindex : index (r₁ :: r₂ :: 0 :: aTyp :: len :: rest) 2 = .ok 0 := rfl
    have hindex' : index (r₁ :: r₂ :: 0 :: aTyp :: len :: rest) 3 = .ok aTyp := rfl
    simp only [parse, if_neg hlong, hindex, hindex', hlen, bind, Except.bind, ne_eq,
      not_true_eq_false, if_false]
    by_cases hneg : n < 0
    · exact ⟨_, _, if_pos hneg⟩
    · rw [if_neg hneg, if_pos (hshort.resolve_left hneg)]
      exact ⟨_, _, rfl⟩
  have hip (n : ℕ) (htype : aTyp ≠ 3)
      (hlen : aLen (r₁ :: r₂ :: 0 :: aTyp :: len :: rest) aTyp = .ok n)
      (hfits : ∀ dstAddr : Bytes, dstAddr.length = n → Request.FitsType aTyp dstAddr) :
      (∃ rsv aTyp' dstAddr port data, Request.FitsType aTyp' dstAddr ∧ data ≠ [] ∧
        r₁ :: r₂ :: 0 :: aTyp :: len :: rest = datagram rsv 0 aTyp' dstAddr port data) ∨
      ∃ kind message, parse (r₁ :: r₂ :: 0 :: aTyp :: len :: rest) src = Io.raise kind message := by
    by_cases hshort : n + 2 < (len :: rest).length
    · obtain ⟨dstAddr, high, low, data, hlength, hdata, hrest⟩ := split_addr hshort
      refine .inl ⟨(r₁, r₂), aTyp, dstAddr, (high, low), data, hfits dstAddr hlength, hdata, ?_⟩
      rw [datagram, header, if_neg htype, hrest]
      rfl
    · refine .inr (hraise n hlen (.inr ?_))
      rw [if_neg htype]
      simp only [List.length_cons] at hshort ⊢
      omega
  by_cases hone : aTyp = 1
  · obtain rfl := hone
    exact (hip 4 (by decide) rfl fun _ h ↦ .inl ⟨rfl, h⟩).imp_right .inr
  by_cases hfour : aTyp = 4
  · obtain rfl := hfour
    exact (hip 16 (by decide) rfl fun _ h ↦ .inr (.inl ⟨rfl, h⟩)).imp_right .inr
  by_cases hthree : aTyp = 3
  · obtain rfl := hthree
    by_cases hshort : len.toNat + 2 < rest.length
    · obtain ⟨dstAddr, high, low, data, hlength, hdata, rfl⟩ := split_addr hshort
      refine .inl ⟨(r₁, r₂), 3, dstAddr, (high, low), data, .inr (.inr ⟨rfl, ?_⟩), hdata, ?_⟩
      · rw [hlength]
        exact len.toNat_lt
      · rw [datagram, header, if_pos rfl, hlength, UInt8.ofNat_toNat]
        rfl
    · refine .inr (.inr (hraise len.toNat rfl (.inr ?_)))
      rw [if_pos rfl]
      simp only [List.length_cons]
      omega
  · refine .inr (.inr (hraise (-1) ?_ (.inl (by decide))))
    rw [aLen, if_neg hone, if_neg hfour, if_neg hthree]

theorem addrText_ne_panic (aTyp : UInt8) (dstAddr : Bytes) :
    addrText aTyp dstAddr ≠ .error .panic := by
  unfold addrText Io.other Io.raise
  split_ifs
  · split <;> simp
  · split <;> simp
  · split <;> simp
  · simp

theorem addrText_isOk_iff (hfits : Request.FitsType aTyp dstAddr) :
    (∃ text, addrText aTyp dstAddr = .ok text) ↔ (aTyp = 3 → (fromUtf8 dstAddr).isSome) := by
  rcases hfits with ⟨rfl, hlen⟩ | ⟨rfl, hlen⟩ | ⟨rfl, -⟩
  · obtain ⟨a, b, c, d, rfl⟩ := List.length_eq_four.mp hlen
    exact iff_of_true ⟨_, rfl⟩ (fun h ↦ absurd h (by decide))
  · refine iff_of_true ?_ (fun h ↦ absurd h (by decide))
    match dstAddr, hlen with
    | [_, _, _, _, _, _, _, _, _, _, _, _, _, _, _, _], _ => exact ⟨_, rfl⟩
  · have htext : addrText 3 dstAddr = match fromUtf8 dstAddr with
      | some domain => .ok domain
      | none => Io.other "Not a domain" := rfl
    rw [htext]
    cases fromUtf8 dstAddr <;> simp [Io.other, Io.raise]

theorem parse_ne_panic (buf : Bytes) (src : SocketAddr) : parse buf src ≠ .error .panic := by
  intro hpanic
  rcases parse_cases buf src with ⟨rsv, aTyp, dstAddr, port, data, hfits, hdata, rfl⟩ | h |
    ⟨kind, message, h⟩
  · rw [parse_datagram hfits hdata] at hpanic
    cases haddr : addrText aTyp dstAddr with
    | ok text =>
        rw [haddr] at hpanic
        cases hpanic
    | error e =>
        rw [haddr] at hpanic
        obtain rfl := Except.error.inj hpanic
        exact addrText_ne_panic aTyp dstAddr haddr
  · rw [h] at hpanic
    cases hpanic
  · rw [h] at hpanic
    cases hpanic

theorem exists_datagram_of_parse (hparse : parse buf src = .ok packet) (hne : packet.data ≠ []) :
    ∃ rsv aTyp dstAddr port data, Request.FitsType aTyp dstAddr ∧
      (aTyp = 3 → (fromUtf8 dstAddr).isSome) ∧ data ≠ [] ∧
        buf = datagram rsv 0 aTyp dstAddr port data := by
  rcases parse_cases buf src with ⟨rsv, aTyp, dstAddr, port, data, hfits, hdata, rfl⟩ | h |
    ⟨kind, message, h⟩
  · rw [parse_datagram hfits hdata] at hparse
    refine ⟨rsv, aTyp, dstAddr, port, data, hfits, (addrText_isOk_iff hfits).mp ?_, hdata, rfl⟩
    cases haddr : addrText aTyp dstAddr with
    | ok text => exact ⟨text, rfl⟩
    | error e =>
        rw [haddr] at hparse
        cases hparse
  · rw [h] at hparse
    obtain rfl := Except.ok.inj hparse
    exact absurd rfl hne
  · rw [h] at hparse
    cases hparse

/-- `parse` takes the header off exactly the datagrams that have one in full with data behind it,
and reads the address in it as a request does; it never panics. -/
theorem parse_exact (buf : Bytes) (src : SocketAddr) :
    parse buf src ≠ .error .panic ∧
    ((∃ packet, parse buf src = .ok packet ∧ packet.data ≠ []) ↔
      ∃ rsv aTyp dstAddr port data, Request.FitsType aTyp dstAddr ∧
        (aTyp = 3 → (fromUtf8 dstAddr).isSome) ∧ data ≠ [] ∧
          buf = datagram rsv 0 aTyp dstAddr port data) ∧
    (∀ rsv aTyp dstAddr port data rsv', Request.FitsType aTyp dstAddr → data ≠ [] →
      buf = datagram rsv 0 aTyp dstAddr port data →
        ∃ req n, Request.parseBytes (Request.bytes ⟨5, cmdConnect, rsv', aTyp, dstAddr, port⟩) =
            .ok (req, n) ∧
          parse buf src = (RunAddr.tryFromRequest req).map fun addr ↦
            ⟨⟨addr.addr, addr.port, src.ip.toString, src.port⟩, data⟩) ∧
    (∀ frag packet, buf[2]? = some frag → frag ≠ 0 → parse buf src = .ok packet →
      packet.data = []) := by
  refine ⟨parse_ne_panic buf src, ⟨?_, ?_⟩, ?_, ?_⟩
  · rintro ⟨packet, hparse, hne⟩
    exact exists_datagram_of_parse hparse hne
  · rintro ⟨rsv, aTyp, dstAddr, port, data, hfits, hutf8, hdata, rfl⟩
    obtain ⟨text, htext⟩ := (addrText_isOk_iff hfits).mpr hutf8
    rw [parse_datagram hfits hdata, htext]
    exact ⟨_, rfl, hdata⟩
  · rintro rsv aTyp dstAddr port data rsv' hfits hdata rfl
    have hparse := Request.parseBytes_eq_ok_iff.mpr
      ⟨(⟨rfl, .inl rfl, hfits⟩ : Request.WellFormed ⟨5, cmdConnect, rsv', aTyp, dstAddr, port⟩),
        List.prefix_refl _, rfl⟩
    refine ⟨_, _, hparse, ?_⟩
    rw [parse_datagram hfits hdata, RunAddr.tryFromRequest_eq]
    cases addrText aTyp dstAddr <;> rfl
  · intro frag packet hbyte hfrag hparse
    by_contra hne
    obtain ⟨rsv, aTyp, dstAddr, port, data, -, -, -, rfl⟩ := exists_datagram_of_parse hparse hne
    exact hfrag (Option.some.inj hbyte).symm

end UDPPacket

end Rog
