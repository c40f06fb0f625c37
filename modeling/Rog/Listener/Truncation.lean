import Rog.Listener.Agreement

/-!
# Truncated messages

The parsers of a stream and of bytes share a grammar and differ in their reads: a stream that ends
within a read has its last bytes filled up with zeros, and a read of no bytes is an end of stream.
Both differences are seen in a message exactly where it is cut within its last read, or has a
field of length zero.
-/

namespace Rog

open Lib StateIo TcpRunStream

/-! ## Reads at the end of a stream -/

namespace TcpRunStream

variable {s : TcpRunStream}

theorem runOn_read_of_silent (hfails : s.readFails = none) (cap : ℕ) :
    ∃ data t, (read cap).runOn s = (.ok data, t) ∧ t.readFails = none := by
  refine ⟨(takeSome cap s.incoming).1, { s with incoming := (takeSome cap s.incoming).2 }, ?_,
    hfails⟩
  simp only [read, runOn, hfails]
  cases (takeSome cap s.incoming).1 <;> rfl

/-- The loop takes what there is of the bytes that it is to read. -/
theorem runOn_readLoop {fuel len : ℕ} (hfuel : len ≤ fuel) (hfails : s.readFails = none) :
    ∃ t, (readLoop fuel len).runOn s = (.ok (s.unread.take len), t) ∧
      t.unread = s.unread.drop len ∧ t.readFails = none := by
  induction fuel generalizing s len with
  | zero =>
      obtain rfl := Nat.le_zero.mp hfuel
      exact ⟨s, rfl, rfl, hfails⟩
  | succ fuel ih =>
      by_cases hlen : len = 0
      · subst hlen
        exact ⟨s, rfl, rfl, hfails⟩
      obtain ⟨data, u, hread, hu⟩ := runOn_read_of_silent hfails len
      have happend := read_append hread
      have hlength := read_length hread
      rw [readLoop, if_neg hlen, runOn_bind_ok hread]
      by_cases hdata : data = []
      · subst hdata
        have hend := read_nil (Nat.pos_of_ne_zero hlen) hread
        rw [hend, List.append_nil] at happend
        refine ⟨u, ?_, ?_, hu⟩
        · rw [happend, List.take_nil]
          rfl
        · rw [happend, hend, List.drop_nil]
      · have hpos := List.length_pos_iff.mpr hdata
        obtain ⟨t, hloop, ht, htFails⟩ := ih (s := u) (show len - data.length ≤ fuel by omega) hu
        have hempty : ¬data.isEmpty = true := by simpa using hdata
        refine ⟨t, ?_, ?_, htFails⟩
        · rw [if_neg hempty, runOn_bind_ok hloop, happend, List.take_append,
            List.take_of_length_le hlength]
          rfl
        · rw [ht, happend, List.drop_append, List.drop_eq_nil_of_le hlength, List.nil_append]

/-- A read that the stream ends within is filled up with zeros. -/
theorem runOn_readExact (len : ℕ) (hfails : s.readFails = none) (hlen : len ≠ 0)
    (hs : s.unread ≠ []) : ∃ t, (readExact len).runOn s =
      (.ok (s.unread.take len ++ List.replicate (len - (s.unread.take len).length) 0), t) ∧
        t.unread = s.unread.drop len ∧ t.readFails = none := by
  obtain ⟨t, hloop, ht, htFails⟩ := runOn_readLoop (Nat.le_refl len) hfails
  refine ⟨t, ?_, ht, htFails⟩
  have hempty : ¬(s.unread.take len).isEmpty = true := by
    simp [List.take_eq_nil_iff, hlen, hs]
  rw [readExact, runOn_bind_ok hloop, if_neg hempty]
  rfl

end TcpRunStream

namespace StreamParser

variable {s t : TcpRunStream} {pieces : List Bytes}

theorem piece_ne_nil (h : ReadAll readExact s pieces t) : ∀ piece ∈ pieces, piece ≠ [] := by
  induction h with
  | nil => simp
  | cons hread _ ih =>
      intro piece hpiece
      rcases List.mem_cons.mp hpiece with rfl | hpiece
      · rintro rfl
        cases hread
      · exact ih piece hpiece

/-- The last piece is filled up with zeros. -/
theorem readAll_of_end (pieces : List Bytes) (data last : Bytes) (hfails : s.readFails = none)
    (hne : ∀ piece ∈ pieces, piece ≠ []) (hdata : data ≠ []) (hlength : data.length ≤ last.length)
    (hlast : data ++ List.replicate (last.length - data.length) 0 = last)
    (hs : s.unread = pieces.flatten ++ data) :
    ∃ t, ReadAll readExact s (pieces ++ [last]) t ∧ t.unread = [] := by
  induction pieces generalizing s with
  | nil =>
      rw [List.flatten_nil, List.nil_append] at hs
      have hpos := List.length_pos_iff.mpr hdata
      obtain ⟨t, hread, ht, -⟩ := TcpRunStream.runOn_readExact last.length hfails
        (by omega) (hs ▸ hdata)
      rw [hs, List.take_of_length_le hlength, hlast] at hread
      rw [hs, List.drop_eq_nil_of_le hlength] at ht
      exact ⟨t, .cons hread (.nil t), ht⟩
  | cons piece pieces ih =>
      rw [List.flatten_cons, List.append_assoc] at hs
      have hpiece : piece ≠ [] := hne piece (by simp)
      obtain ⟨u, hread, hu, huFails⟩ := TcpRunStream.runOn_readExact piece.length hfails
        (by simpa using hpiece) (by simp [hs, hpiece])
      rw [hs, List.take_left, Nat.sub_self, List.replicate_zero, List.append_nil] at hread
      rw [hs, List.drop_left] at hu
      obtain ⟨t, hrest, ht⟩ :=
        ih huFails (fun other hother ↦ hne other (List.mem_cons_of_mem piece hother)) hu
      exact ⟨t, .cons hread hrest, ht⟩

end StreamParser

/-! ## Agreement -/

/-- What a parser makes of what a stream still has: the message, and how many bytes it took. -/
def parseStream {M : Type} (parser : TcpM M) (s : TcpRunStream) : Io (M × ℕ) :=
  let (result, t) := parser.runOn s
  result.map fun msg ↦ (msg, s.unread.length - t.unread.length)

theorem parseStream_eq_ok_iff {M : Type} {parser : TcpM M} {s : TcpRunStream} {msg : M} {n : ℕ} :
    parseStream parser s = .ok (msg, n) ↔
      ∃ t, parser.runOn s = (.ok msg, t) ∧ n = s.unread.length - t.unread.length := by
  obtain ⟨result, u, hrun⟩ : ∃ result u, parser.runOn s = (result, u) := ⟨_, _, rfl⟩
  rw [parseStream, hrun]
  cases result with
  | error e => simp [Except.map]
  | ok other => simp [Except.map, eq_comm]

/-- A message that one of the parsers accepts is accepted alike by the other one. -/
def ParsersAgree {M : Type} (parse : TcpM M) (parseBytes : Bytes → Io (M × ℕ))
    (segments : Socket) : Prop :=
  ∀ msg n, parseStream parse (.new segments) = .ok (msg, n) ↔
    parseBytes segments.flatten = .ok (msg, n)

namespace ClientHello

/-- The bytes do not begin with a first message without methods, and do not end within its
methods. -/
def ReadAlike (bytes : Bytes) : Prop :=
  ∀ methodNum rest, bytes = 5 :: methodNum :: rest →
    methodNum ≠ 0 ∧ (rest = [] ∨ methodNum.toNat ≤ rest.length)

variable {s t : TcpRunStream} {hello : ClientHello} {bytes : Bytes}

theorem WellFormed.methods_ne_nil_iff (h : hello.WellFormed) :
    hello.methods ≠ [] ↔ hello.methodNum ≠ 0 := by
  rw [← List.length_pos_iff, h.methods, Nat.pos_iff_ne_zero, Ne, Ne, ← UInt8.toNat_inj]
  rfl

theorem parse_of_readAlike (h : ReadAlike s.unread) (hparse : parse.runOn s = (.ok hello, t)) :
    hello.WellFormed ∧ s.unread = hello.bytes ++ t.unread := by
  obtain ⟨hformed, hread⟩ := (parseInner_eq_ok_iff StreamParser.fills).mp hparse
  have hpieces : hello.pieces = [[hello.version], [hello.methodNum]] ++ [hello.methods] := rfl
  rw [hpieces] at hread
  obtain ⟨-, methods, hne, hle, hunread, hlast, hend⟩ := StreamParser.readAll_stream hread
  have hbytes : s.unread = 5 :: hello.methodNum :: (methods ++ t.unread) := by
    rw [hunread, hformed.version]
    simp
  obtain ⟨-, hshort⟩ := h _ _ hbytes
  have hmethods : methods = hello.methods := by
    rcases hend with hfull | ht
    · exact hfull
    · rw [ht, List.append_nil] at hshort
      have hge := hshort.resolve_left hne
      rw [← hformed.methods] at hge
      rw [Nat.sub_eq_zero_of_le hge] at hlast
      simpa using hlast.symm
  refine ⟨hformed, ?_⟩
  rw [hbytes, hmethods, hello.bytes_eq, hformed.version]
  rfl

/-- A first message that ends within its methods is accepted from a stream. -/
theorem parse_of_end {methodNum : UInt8} {rest : Bytes} (hfails : s.readFails = none)
    (hrest : rest ≠ []) (hshort : rest.length ≤ methodNum.toNat)
    (hs : s.unread = 5 :: methodNum :: rest) : ∃ hello t, parse.runOn s = (.ok hello, t) ∧
      hello.methodNum = methodNum := by
  obtain ⟨t, hread, -⟩ := StreamParser.readAll_of_end [[5], [methodNum]] rest
    (rest ++ List.replicate (methodNum.toNat - rest.length) 0) hfails (by simp) hrest
    (by simp) (by simp [hshort]) (by simpa using hs)
  refine ⟨⟨5, methodNum, _⟩, t, (parseInner_eq_ok_iff StreamParser.fills).mpr
    ⟨⟨rfl, ?_⟩, hread⟩, rfl⟩
  simp
  omega

theorem length_bytes (h : hello.WellFormed) : hello.bytes.length = 2 + hello.methodNum.toNat := by
  rw [hello.bytes_eq, List.length_cons, List.length_cons, h.methods]
  omega

theorem parsersAgree_iff (segments : Socket) :
    ParsersAgree parse parseBytes segments ↔ ReadAlike segments.flatten := by
  have hunread : (TcpRunStream.new segments).unread = segments.flatten := rfl
  constructor
  · intro hagree methodNum rest hbytes
    refine ⟨?_, or_iff_not_imp_left.mpr fun hrest ↦ ?_⟩
    · rintro rfl
      have hformed : WellFormed ⟨5, 0, []⟩ := ⟨rfl, rfl⟩
      have hfront : bytes ⟨5, 0, []⟩ <+: segments.flatten := ⟨rest, by rw [hbytes]; rfl⟩
      obtain ⟨t, hparse, -⟩ := parseStream_eq_ok_iff.mp
        ((hagree _ _).mpr (parseBytes_eq_ok_iff.mpr ⟨hformed, hfront, rfl⟩))
      obtain ⟨-, hread⟩ := (parseInner_eq_ok_iff StreamParser.fills).mp hparse
      exact StreamParser.piece_ne_nil hread [] (by simp [pieces]) rfl
    · by_contra hshort
      obtain ⟨hello, t, hparse, rfl⟩ := parse_of_end (s := .new segments) rfl hrest
        (Nat.le_of_not_le hshort) hbytes
      obtain ⟨hformed, hfront, -⟩ := parseBytes_eq_ok_iff.mp
        ((hagree hello _).mp (parseStream_eq_ok_iff.mpr ⟨t, hparse, rfl⟩))
      have hlength := hfront.length_le
      rw [length_bytes hformed, hbytes, List.length_cons, List.length_cons] at hlength
      omega
  · intro h hello n
    rw [parseStream_eq_ok_iff, parseBytes_eq_ok_iff, hunread]
    constructor
    · rintro ⟨t, hparse, rfl⟩
      obtain ⟨hformed, happend⟩ := parse_of_readAlike (s := .new segments) h hparse
      rw [hunread] at happend
      exact ⟨hformed, ⟨t.unread, happend.symm⟩, by rw [happend]; simp⟩
    · rintro ⟨hformed, ⟨more, hmore⟩, rfl⟩
      have hbytes := hmore
      rw [hello.bytes_eq, hformed.version] at hbytes
      have hne := hformed.methods_ne_nil_iff.mpr (h _ _ hbytes.symm).1
      obtain ⟨t, hparse, ht, -⟩ := parse_append (s := .new segments) hformed hne hmore.symm
      exact ⟨t, hparse, by rw [ht, ← hmore]; simp⟩

end ClientHello

namespace Request

/-- The bytes do not begin with a request for the empty name, and do not end right before the last
byte of a request. -/
def ReadAlike (bytes : Bytes) : Prop :=
  ∀ cmd rsv aTyp rest, bytes = 5 :: cmd :: rsv :: aTyp :: rest → cmd = cmdConnect ∨ cmd = cmdUdp →
    (aTyp = 1 → rest.length ≠ 5) ∧ (aTyp = 4 → rest.length ≠ 17) ∧
      ∀ len name, aTyp = 3 → rest = len :: name →
        if len = 0 then name.length < 2 else name.length ≠ len.toNat + 1

variable {s t : TcpRunStream} {req : Request} {bytes : Bytes}

theorem dstAddr_ne_nil (h : parse.runOn s = (.ok req, t)) : req.dstAddr ≠ [] := by
  obtain ⟨-, hread⟩ := (parseInner_eq_ok_iff StreamParser.fills).mp h
  refine StreamParser.piece_ne_nil hread req.dstAddr ?_
  simp only [pieces, addrPieces]
  split <;> simp

theorem bytes_eq_cons (h : req.WellFormed) :
    req.bytes = 5 :: req.cmd :: req.rsv :: req.aTyp ::
      ((if req.aTyp = 3 then [UInt8.ofNat req.dstAddr.length] else []) ++
        (req.dstAddr ++ [req.dstPort.1, req.dstPort.2])) := by
  rw [req.bytes_eq, header, h.version]
  rfl

theorem eq_of_append_zero (h : req.WellFormed) (hbytes : bytes ++ [0] = req.bytes) :
    req.dstPort.2 = 0 ∧ bytes = 5 :: req.cmd :: req.rsv :: req.aTyp ::
      ((if req.aTyp = 3 then [UInt8.ofNat req.dstAddr.length] else []) ++
        (req.dstAddr ++ [req.dstPort.1])) := by
  have hsplit : req.bytes = (5 :: req.cmd :: req.rsv :: req.aTyp ::
      ((if req.aTyp = 3 then [UInt8.ofNat req.dstAddr.length] else []) ++
        (req.dstAddr ++ [req.dstPort.1]))) ++ [req.dstPort.2] := by
    rw [bytes_eq_cons h]
    simp
  rw [hsplit] at hbytes
  obtain ⟨hfront, hlast⟩ := List.append_inj' hbytes rfl
  exact ⟨(List.cons.inj hlast).1.symm, hfront⟩

/-- A request whose last byte is missing is accepted from a stream, with a zero in its place. -/
theorem parse_of_end (hfails : s.readFails = none) (hformed : req.WellFormed)
    (hne : req.dstAddr ≠ []) (hs : s.unread ++ [0] = req.bytes) :
    ∃ t, parse.runOn s = (.ok req, t) := by
  obtain ⟨hzero, hunread⟩ := eq_of_append_zero hformed hs
  have hpieces : ∀ piece ∈ [req.version] :: [req.cmd] :: [req.rsv] :: [req.aTyp] ::
      addrPieces req.aTyp req.dstAddr, piece ≠ [] := by
    by_cases haTyp : req.aTyp = 3 <;> simp [addrPieces, haTyp, hne]
  obtain ⟨t, hread, -⟩ := StreamParser.readAll_of_end _ [req.dstPort.1]
    [req.dstPort.1, req.dstPort.2] hfails hpieces (by simp) (by simp) (by simp [hzero])
    (by rw [hunread, hformed.version]; by_cases haTyp : req.aTyp = 3 <;> simp [addrPieces, haTyp])
  exact ⟨t, (parseInner_eq_ok_iff StreamParser.fills).mpr ⟨hformed, hread⟩⟩

theorem ReadAlike.append_zero_ne (h : ReadAlike bytes) (hformed : req.WellFormed)
    (hne : req.dstAddr ≠ []) : bytes ++ [0] ≠ req.bytes := by
  intro hbytes
  obtain ⟨-, hbytes⟩ := eq_of_append_zero hformed hbytes
  obtain ⟨hfour, hsixteen, hname⟩ := h _ _ _ _ hbytes hformed.cmd
  rcases hformed.dstAddr with ⟨haTyp, hlength⟩ | ⟨haTyp, hlength⟩ | ⟨haTyp, hlength⟩
  · exact hfour haTyp (by simp [haTyp, hlength])
  · exact hsixteen haTyp (by simp [haTyp, hlength])
  · have hlen := hname (UInt8.ofNat req.dstAddr.length) (req.dstAddr ++ [req.dstPort.1]) haTyp
      (by simp [haTyp])
    have hpos := List.length_pos_iff.mpr hne
    have hnum : (UInt8.ofNat req.dstAddr.length).toNat = req.dstAddr.length := by
      rw [UInt8.toNat_ofNat', Nat.mod_eq_of_lt hlength]
    rw [if_neg (fun hzero ↦ by rw [hzero] at hnum; simp at hnum; omega), hnum] at hlen
    simp at hlen

theorem ReadAlike.dstAddr_ne_nil (h : ReadAlike bytes) (hformed : req.WellFormed)
    (hfront : req.bytes <+: bytes) : req.dstAddr ≠ [] := by
  intro hnil
  obtain ⟨more, hmore⟩ := hfront
  rw [bytes_eq_cons hformed, hnil] at hmore
  rcases hformed.dstAddr with ⟨-, hlength⟩ | ⟨-, hlength⟩ | ⟨haTyp, -⟩
  · simp [hnil] at hlength
  · simp [hnil] at hlength
  · obtain ⟨-, -, hname⟩ := h _ _ _ _ hmore.symm hformed.cmd
    have hlen := hname 0 (req.dstPort.1 :: req.dstPort.2 :: more) haTyp (by simp [haTyp])
    rw [if_pos rfl, List.length_cons, List.length_cons] at hlen
    omega

theorem not_agree_of_append_zero {segments : Socket} (hformed : req.WellFormed)
    (hne : req.dstAddr ≠ []) (hs : segments.flatten ++ [0] = req.bytes) :
    ¬ParsersAgree parse parseBytes segments := by
  intro hagree
  obtain ⟨t, hparse⟩ := parse_of_end (s := .new segments) rfl hformed hne hs
  obtain ⟨-, hfront, -⟩ := parseBytes_eq_ok_iff.mp
    ((hagree req _).mp (parseStream_eq_ok_iff.mpr ⟨t, hparse, rfl⟩))
  have hlength := hfront.length_le
  rw [← hs, List.length_append] at hlength
  simp at hlength

theorem readAlike_of_agree {segments : Socket} (hagree : ParsersAgree parse parseBytes segments) :
    ReadAlike segments.flatten := by
  intro cmd rsv aTyp rest hbytes hcmd
  have hwhole (dstAddr : Bytes) (p : UInt8) (hfits : FitsType aTyp dstAddr) (hne : dstAddr ≠ []) :
      rest ≠ (if aTyp = 3 then [UInt8.ofNat dstAddr.length] else []) ++ (dstAddr ++ [p]) := by
    rintro rfl
    have hformed : WellFormed ⟨5, cmd, rsv, aTyp, dstAddr, (p, 0)⟩ := ⟨rfl, hcmd, hfits⟩
    refine not_agree_of_append_zero hformed hne ?_ hagree
    rw [hbytes, bytes_eq_cons hformed]
    simp
  have hlast (text : Bytes) (n : ℕ) (hn : n ≠ 0) (htext : text.length = n + 1) :
      ∃ p, text.dropLast ≠ [] ∧ text.dropLast.length = n ∧ text.dropLast ++ [p] = text := by
    have hne : text ≠ [] := by
      rintro rfl
      cases htext
    have hdrop : text.dropLast.length = n := by rw [List.length_dropLast, htext, Nat.add_sub_cancel]
    refine ⟨text.getLast hne, ?_, hdrop, List.dropLast_append_getLast hne⟩
    rw [← List.length_pos_iff, hdrop]
    omega
  refine ⟨?_, ?_, ?_⟩
  · rintro rfl hlength
    obtain ⟨p, hne, hdrop, hrest⟩ := hlast rest 4 (by decide) hlength
    exact hwhole rest.dropLast p (.inl ⟨rfl, hdrop⟩) hne (by simp [hrest])
  · rintro rfl hlength
    obtain ⟨p, hne, hdrop, hrest⟩ := hlast rest 16 (by decide) hlength
    exact hwhole rest.dropLast p (.inr (.inl ⟨rfl, hdrop⟩)) hne (by simp [hrest])
  · rintro len name rfl rfl
    split
    · subst len
      by_contra hlong
      obtain _ | ⟨p, _ | ⟨q, more⟩⟩ := name
      · simp at hlong
      · simp at hlong
      have hformed : WellFormed ⟨5, cmd, rsv, 3, [], (p, q)⟩ :=
        ⟨rfl, hcmd, .inr (.inr ⟨rfl, by simp⟩)⟩
      have hfront : Request.bytes ⟨5, cmd, rsv, 3, [], (p, q)⟩ <+: segments.flatten :=
        ⟨more, by rw [hbytes]; rfl⟩
      obtain ⟨t, hparse, -⟩ := parseStream_eq_ok_iff.mp
        ((hagree _ _).mpr (parseBytes_eq_ok_iff.mpr ⟨hformed, hfront, rfl⟩))
      exact dstAddr_ne_nil hparse rfl
    · rename_i hlen
      intro hlength
      have hpos : len.toNat ≠ 0 := fun hzero ↦ hlen (UInt8.toNat_inj.mp hzero)
      obtain ⟨p, hne, hdrop, hname⟩ := hlast name len.toNat hpos hlength
      refine hwhole name.dropLast p (.inr (.inr ⟨rfl, by rw [hdrop]; exact len.toNat_lt⟩)) hne ?_
      simp [hname, hdrop]

theorem parsersAgree_iff (segments : Socket) :
    ParsersAgree parse parseBytes segments ↔ ReadAlike segments.flatten := by
  have hunread : (TcpRunStream.new segments).unread = segments.flatten := rfl
  refine ⟨readAlike_of_agree, fun h req n ↦ ?_⟩
  rw [parseStream_eq_ok_iff, parseBytes_eq_ok_iff, hunread]
  constructor
  · rintro ⟨t, hparse, rfl⟩
    obtain ⟨hformed, -, request, -, happend, hend⟩ := parse_eq_ok hparse
    rw [hunread] at happend
    have hrequest : request = req.bytes := by
      refine hend.resolve_right fun ⟨hzero, ht⟩ ↦ ?_
      rw [ht, List.append_nil] at happend
      rw [← happend] at hzero
      exact h.append_zero_ne hformed (dstAddr_ne_nil hparse) hzero
    rw [hrequest] at happend
    exact ⟨hformed, ⟨t.unread, happend.symm⟩, by rw [happend]; simp⟩
  · rintro ⟨hformed, hfront, rfl⟩
    have hne := h.dstAddr_ne_nil hformed hfront
    obtain ⟨more, hmore⟩ := hfront
    obtain ⟨t, hparse, ht, -⟩ := parse_append (s := .new segments) hformed hne hmore.symm
    exact ⟨t, hparse, by rw [ht, ← hmore]; simp⟩

end Request

/-- However a stream is cut, the parsers of a message agree if and only if the message has no
field of length zero and the stream does not end within its last read. -/
theorem parsers_agree_iff (segments : Socket) :
    (ParsersAgree ClientHello.parse ClientHello.parseBytes segments ↔
        ClientHello.ReadAlike segments.flatten) ∧
      (ParsersAgree Request.parse Request.parseBytes segments ↔
        Request.ReadAlike segments.flatten) :=
  ⟨ClientHello.parsersAgree_iff segments, Request.parsersAgree_iff segments⟩

def truncatedRequest : Bytes := [5, 1, 0, 3, 1, 97, 0]

theorem truncated_request_accepted :
    parseStream Request.parse (.new [truncatedRequest]) = .ok (⟨5, 1, 0, 3, [97], (0, 0)⟩, 7) ∧
      Request.parseBytes truncatedRequest = Io.raise .invalidInput "no enough data" ∧
      ¬ParsersAgree Request.parse Request.parseBytes [truncatedRequest] := by
  have hstream : parseStream Request.parse (.new [truncatedRequest]) =
      .ok (⟨5, 1, 0, 3, [97], (0, 0)⟩, 7) := rfl
  have hbytes : Request.parseBytes truncatedRequest = Io.raise .invalidInput "no enough data" := rfl
  refine ⟨hstream, hbytes, fun hagree ↦ ?_⟩
  have hok := (hagree _ _).mp hstream
  rw [List.flatten_singleton, hbytes] at hok
  cases hok

example : ClientHello.parseBytes [5, 0] = .ok (⟨5, 0, []⟩, 2) ∧
    parseStream ClientHello.parse (.new [[5, 0]]) = Io.raise .unexpectedEof "early eof" :=
  ⟨rfl, rfl⟩

end Rog
