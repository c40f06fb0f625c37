import Rog.Listener.HttpServe
import Rog.Util.Socks5Address

/-!
# The two SOCKS5 handshakes

The SOCKS5 listener reads the messages of a client by their lengths, the combined listener makes
one read for each of them. A client that the first one accepts is served alike by the second if
and only if these two reads return what they are meant to.
-/

namespace Rog

open Lib StateIo TcpRunStream

/-! ## Messages at the front of a stream -/

theorem ClientHello.bytes_eq (hello : ClientHello) :
    hello.bytes = hello.version :: hello.methodNum :: hello.methods := by
  simp [bytes, pieces]

def helloLength (bytes : Bytes) : ℕ := 2 + (bytes[1]?.getD 0).toNat

def requestLength (bytes : Bytes) : ℕ :=
  if bytes[3]? = some 1 then 10
  else if bytes[3]? = some 4 then 22
  else 7 + (bytes[4]?.getD 0).toNat

theorem helloLength_append {hello : ClientHello} (h : hello.WellFormed) (more : Bytes) :
    helloLength (hello.bytes ++ more) = hello.bytes.length := by
  rw [helloLength, hello.bytes_eq]
  simp only [List.cons_append, List.getElem?_cons_succ, List.getElem?_cons_zero, Option.getD_some,
    List.length_cons, h.methods]
  omega

theorem ClientHello.eq_of_isPrefix {hello other : ClientHello} {data : Bytes} (h : hello.WellFormed)
    (hother : other.WellFormed) (hdata : hello.bytes <+: data) (hdata' : other.bytes <+: data) :
    hello = other := by
  have hparse := parseBytes_eq_ok_iff.mpr ⟨h, hdata, rfl⟩
  rw [parseBytes_eq_ok_iff.mpr ⟨hother, hdata', rfl⟩] at hparse
  exact (Prod.mk.inj (Except.ok.inj hparse)).1.symm

namespace Request

theorem eq_of_isPrefix {req other : Request} {data : Bytes} (h : req.WellFormed)
    (hother : other.WellFormed) (hdata : req.bytes <+: data) (hdata' : other.bytes <+: data) :
    req = other := by
  have hparse := parseBytes_eq_ok_iff.mpr ⟨h, hdata, rfl⟩
  rw [parseBytes_eq_ok_iff.mpr ⟨hother, hdata', rfl⟩] at hparse
  exact (Prod.mk.inj (Except.ok.inj hparse)).1.symm

/-- The length does not depend on what follows the first five bytes. -/
theorem requestLength_eq {req : Request} (h : req.WellFormed) {w more pad : Bytes}
    (hw : w ++ pad = req.bytes) (hpad : pad.length ≤ 1) :
    requestLength (w ++ more) = req.bytes.length := by
  have hlength := req.length_bytes
  have hwLength := congrArg List.length hw
  rw [List.length_append] at hwLength
  have hheader : 4 ≤ req.header.length := by simp [header]
  have hfits : 5 ≤ req.header.length + req.dstAddr.length := by
    rcases h.dstAddr with ⟨-, hlen⟩ | ⟨-, hlen⟩ | ⟨hthree, -⟩
    · omega
    · omega
    · rw [length_header_domain hthree]
      omega
  have hbyte (i : ℕ) (hi : i < 5) : (w ++ more)[i]? = req.bytes[i]? := by
    rw [← hw, List.getElem?_append_left (by omega), List.getElem?_append_left (by omega)]
  rw [requestLength, hbyte 3 (by decide), hbyte 4 (by decide), bytes_eq]
  simp only [header, List.cons_append, List.getElem?_cons_succ, List.getElem?_cons_zero,
    Option.some.injEq]
  rcases h.dstAddr with ⟨haTyp, hlen⟩ | ⟨haTyp, hlen⟩ | ⟨haTyp, hlen⟩
  · simp [haTyp, hlen]
  · simp [haTyp, hlen]
  · simp [haTyp, Nat.mod_eq_of_lt hlen]
    omega

end Request

/-! ## The handshake of the SOCKS5 listener -/

/-- What a client has sent that the SOCKS5 listener accepts; `request` is the part that the last
message takes, which lacks a byte if the stream ends there. -/
structure SocksRunAcceptor.Accepts (s t : TcpRunStream) (addr : RunAddr) (hello : ClientHello)
    (req : Request) (request : Bytes) : Prop where
  helloFormed : hello.WellFormed
  contains : hello.contains noAuth
  reqFormed : req.WellFormed
  runAddr : RunAddr.tryFromRequest req = .ok addr
  unread : s.unread = hello.bytes ++ (request ++ t.unread)
  whole : request = req.bytes ∨ request ++ [0] = req.bytes ∧ t.unread = []
  writeFails : s.writeFails = none
  written : t.written = s.written ++ ServerHello.toBytes ⟨hello.version, noAuth⟩

theorem ClientHello.answer_eq_ok {hello : ClientHello} {s t : TcpRunStream}
    (h : hello.answer.runOn s = (.ok (), t)) : hello.contains noAuth ∧ s.writeFails = none ∧
      t = { s with written := s.written ++ ServerHello.toBytes ⟨hello.version, noAuth⟩ } := by
  unfold answer at h
  split at h
  · rename_i hcontains
    by_cases hfails : s.writeFails = none
    · rw [runOn_write_none hfails] at h
      exact ⟨hcontains, hfails, (Prod.mk.inj h).2.symm⟩
    · obtain ⟨e, he⟩ := Option.ne_none_iff_exists'.mp hfails
      rw [runOn_write_some he] at h
      cases h
  · cases h

theorem ClientHello.answer_of_contains {hello : ClientHello} {s : TcpRunStream}
    (hcontains : hello.contains noAuth) (hfails : s.writeFails = none) :
    hello.answer.runOn s = (.ok (),
      { s with written := s.written ++ ServerHello.toBytes ⟨hello.version, noAuth⟩ }) := by
  rw [answer, if_pos hcontains, runOn_write_none hfails]

/-- A first message that is not the last of the stream has been read in full. -/
theorem ClientHello.parse_eq_ok {s t : TcpRunStream} {hello : ClientHello}
    (h : parse.runOn s = (.ok hello, t)) (ht : t.unread ≠ []) :
    hello.WellFormed ∧ s.unread = hello.bytes ++ t.unread ∧ SameOutput s t := by
  obtain ⟨hformed, hread⟩ := (parseInner_eq_ok_iff StreamParser.fills).mp h
  have hpieces : hello.pieces = [[hello.version], [hello.methodNum]] ++ [hello.methods] := rfl
  rw [hpieces] at hread
  obtain ⟨hsame, methods, -, -, hunread, -, hmethods⟩ := StreamParser.readAll_stream hread
  refine ⟨hformed, ?_, hsame⟩
  rw [hunread, hmethods.resolve_right ht, hello.bytes_eq]
  rfl

/-- A request has been read in full, but for its last byte where the stream ends. -/
theorem Request.parse_eq_ok {s t : TcpRunStream} {req : Request}
    (h : parse.runOn s = (.ok req, t)) : req.WellFormed ∧ SameOutput s t ∧
      ∃ request, request ≠ [] ∧ s.unread = request ++ t.unread ∧
        (request = req.bytes ∨ request ++ [0] = req.bytes ∧ t.unread = []) := by
  obtain ⟨hformed, hread⟩ := (parseInner_eq_ok_iff StreamParser.fills).mp h
  have hpieces : req.pieces = ([req.version] :: [req.cmd] :: [req.rsv] :: [req.aTyp] ::
      addrPieces req.aTyp req.dstAddr) ++ [[req.dstPort.1, req.dstPort.2]] := rfl
  rw [hpieces] at hread
  rw [bytes, hpieces]
  generalize [req.version] :: [req.cmd] :: [req.rsv] :: [req.aTyp] ::
    addrPieces req.aTyp req.dstAddr = pieces at hread ⊢
  obtain ⟨hsame, port, hne, hlength, hunread, hport, hend⟩ := StreamParser.readAll_stream hread
  refine ⟨hformed, hsame, pieces.flatten ++ port, by simp [hne], hunread, ?_⟩
  rw [List.flatten_append, List.flatten_singleton]
  have hpos := List.length_pos_iff.mpr hne
  rcases Nat.lt_or_ge port.length 2 with hlt | hge
  · have hone : port.length = 1 := by omega
    rw [hone] at hport
    refine .inr ⟨by rw [List.append_assoc, hport]; rfl, hend.resolve_left fun hfull ↦ ?_⟩
    rw [hfull] at hone
    cases hone
  · have htwo : port.length = 2 := Nat.le_antisymm hlength hge
    rw [htwo] at hport
    exact .inl (by rw [hport]; simp)

/-- However a stream is cut, the messages at its front are parsed. -/
theorem ClientHello.parse_append {s : TcpRunStream} {hello : ClientHello} {more : Bytes}
    (hformed : hello.WellFormed) (hne : hello.methods ≠ []) (hs : s.unread = hello.bytes ++ more) :
    ∃ t, parse.runOn s = (.ok hello, t) ∧ t.unread = more ∧ SameOutput s t := by
  obtain ⟨t, hread, ht, hsame⟩ := StreamParser.readAll_of_append (by simp [pieces, hne]) hs
  exact ⟨t, (parseInner_eq_ok_iff StreamParser.fills).mpr ⟨hformed, hread⟩, ht, hsame⟩

theorem Request.parse_append {s : TcpRunStream} {req : Request} {more : Bytes}
    (hformed : req.WellFormed) (hne : req.dstAddr ≠ []) (hs : s.unread = req.bytes ++ more) :
    ∃ t, parse.runOn s = (.ok req, t) ∧ t.unread = more ∧ SameOutput s t := by
  have hpieces : ∀ piece ∈ req.pieces, piece ≠ [] := by
    by_cases haTyp : req.aTyp = 3
    · simp [pieces, addrPieces, haTyp, hne]
    · simp [pieces, addrPieces, haTyp, hne]
  obtain ⟨t, hread, ht, hsame⟩ := StreamParser.readAll_of_append hpieces hs
  exact ⟨t, (parseInner_eq_ok_iff StreamParser.fills).mpr ⟨hformed, hread⟩, ht, hsame⟩

theorem SocksRunAcceptor.handshake_of_append {s : TcpRunStream} {hello : ClientHello} {req : Request}
    {addr : RunAddr} {more : Bytes} (hhello : hello.WellFormed) (hcontains : hello.contains noAuth)
    (hfails : s.writeFails = none) (hreq : req.WellFormed) (hne : req.dstAddr ≠ [])
    (haddr : RunAddr.tryFromRequest req = .ok addr)
    (hs : s.unread = hello.bytes ++ (req.bytes ++ more)) :
    ∃ t, handshake.runOn s = (.ok (addr, none), t) := by
  have hmethods : hello.methods ≠ [] := by
    intro hnil
    rw [ClientHello.contains, hnil] at hcontains
    cases hcontains
  obtain ⟨u, hparse, hu, hsame⟩ := ClientHello.parse_append
    (s := { s with info := { s.info with protocolName := "socks5" } }) hhello hmethods hs
  have hanswer := hello.answer_of_contains hcontains (hsame.2.1.trans hfails)
  obtain ⟨t, hparse', -, -⟩ := Request.parse_append
    (s := { u with written := u.written ++ ServerHello.toBytes ⟨hello.version, noAuth⟩ }) hreq hne hu
  refine ⟨t, ?_⟩
  rw [handshake, runOn_bind_ok (runOn_setInfo _ s), runOn_bind_ok hparse, runOn_bind_ok hanswer,
    runOn_bind_ok hparse', haddr, runOn_bind_ok (runOn_ofIo _ t)]
  rfl

theorem SocksRunAcceptor.handshake_eq_ok {s t : TcpRunStream} {addr : RunAddr}
    {cache : Option Bytes} (h : handshake.runOn s = (.ok (addr, cache), t)) :
    cache = none ∧ ∃ hello req request, Accepts s t addr hello req request := by
  obtain ⟨_, s₁, hinfo, h⟩ := runOn_bind_eq_ok h
  obtain ⟨hello, s₂, hhello, h⟩ := runOn_bind_eq_ok h
  obtain ⟨_, s₃, hanswer, h⟩ := runOn_bind_eq_ok h
  obtain ⟨req, s₄, hreq, h⟩ := runOn_bind_eq_ok h
  obtain ⟨addr', s₅, haddr, h⟩ := runOn_bind_eq_ok h
  obtain ⟨hresult, rfl⟩ := Prod.mk.inj h
  obtain ⟨rfl, rfl⟩ := Prod.mk.inj (Except.ok.inj hresult)
  obtain ⟨hrunAddr, rfl⟩ := Prod.mk.inj haddr
  obtain ⟨-, rfl⟩ := Prod.mk.inj hinfo
  obtain ⟨hcontains, hfails, rfl⟩ := ClientHello.answer_eq_ok hanswer
  obtain ⟨hreqFormed, hsame', request, hne, hrest, hwhole⟩ := Request.parse_eq_ok hreq
  have hs₂ : s₂.unread = request ++ s₄.unread := hrest
  obtain ⟨hhelloFormed, hunread, hsame⟩ := ClientHello.parse_eq_ok hhello (by simp [hs₂, hne])
  rw [hs₂] at hunread
  refine ⟨rfl, hello, req, request, hhelloFormed, hcontains, hreqFormed, hrunAddr, hunread, hwhole,
    ?_, ?_⟩
  · exact hsame.2.1.symm.trans hfails
  · rw [hsame'.1, hsame.1]

/-! ## The handshake of the combined listener -/

/-- What a read right after the first one returns. -/
def TcpRunStream.secondRead (s : TcpRunStream) : Bytes :=
  (takeSome tcpIoBufferSize.toNat s.afterFirstRead).1

namespace Htss5RunAcceptor

variable {x : UrlCrate} {serverId : String} {s t : TcpRunStream}

theorem getD_cache (data : Bytes) :
    (if data.isEmpty then none else some data : Option Bytes).getD [] = data := by
  cases data with
  | nil => rfl
  | cons b bs => rfl

theorem handshake_eq_ok {addr : RunAddr} {cache : Option Bytes} (hs : s.firstRead.head? = some 5)
    (h : (handshake x serverId).runOn s = (.ok (addr, cache), t)) :
    ∃ (hello : ClientHello) (req : Request), hello.WellFormed ∧ hello.bytes <+: s.firstRead ∧
      req.WellFormed ∧ req.bytes <+: s.secondRead ∧ RunAddr.tryFromRequest req = .ok addr ∧
        cache.getD [] = s.secondRead.drop req.bytes.length ∧
          s.afterFirstRead.flatten = s.secondRead ++ t.unread := by
  have hne : s.firstRead ≠ [] := by
    intro hnil
    rw [hnil] at hs
    cases hs
  rw [handshake, runOn_bind_ok (runOn_read hne)] at h
  simp only [hs, if_true] at h
  obtain ⟨⟨hello, n⟩, s₁, hhello, h⟩ := runOn_bind_eq_ok h
  obtain ⟨_, s₂, hanswer, h⟩ := runOn_bind_eq_ok h
  obtain ⟨data, s₃, hread, h⟩ := runOn_bind_eq_ok h
  obtain ⟨⟨req, readed⟩, s₄, hreq, h⟩ := runOn_bind_eq_ok h
  obtain ⟨_, s₅, hinfo, h⟩ := runOn_bind_eq_ok h
  obtain ⟨addr', s₆, haddr, h⟩ := runOn_bind_eq_ok h
  obtain ⟨hresult, rfl⟩ := Prod.mk.inj h
  obtain ⟨rfl, rfl⟩ := Prod.mk.inj (Except.ok.inj hresult)
  obtain ⟨hrunAddr, rfl⟩ := Prod.mk.inj haddr
  obtain ⟨-, rfl⟩ := Prod.mk.inj hinfo
  obtain ⟨hparse, rfl⟩ := Prod.mk.inj hhello
  obtain ⟨hparse', rfl⟩ := Prod.mk.inj hreq
  obtain ⟨-, -, rfl⟩ := ClientHello.answer_eq_ok hanswer
  have happend := read_append hread
  obtain ⟨hdata, -⟩ := read_eq_ok hread
  obtain rfl : data = s.secondRead := hdata
  obtain ⟨hhelloFormed, hhelloPrefix, -⟩ := ClientHello.parseBytes_eq_ok_iff.mp hparse
  obtain ⟨hreqFormed, hreqPrefix, rfl⟩ := Request.parseBytes_eq_ok_iff.mp hparse'
  exact ⟨hello, req, hhelloFormed, hhelloPrefix, hreqFormed, hreqPrefix, hrunAddr, getD_cache _,
    happend⟩

theorem handshake_of_reads {hello : ClientHello} {req : Request} {addr : RunAddr}
    (hhello : hello.WellFormed) (hcontains : hello.contains noAuth) (hfirst : hello.bytes <+: s.firstRead)
    (hfails : s.writeFails = none) (hreq : req.WellFormed) (hsecond : req.bytes <+: s.secondRead)
    (haddr : RunAddr.tryFromRequest req = .ok addr) :
    ∃ cache t, (handshake x serverId).runOn s = (.ok (addr, cache), t) ∧
      t.written = s.written ++ ServerHello.toBytes ⟨hello.version, noAuth⟩ ∧
        s.afterFirstRead.flatten = req.bytes ++ (cache.getD [] ++ t.unread) := by
  have hne : s.firstRead ≠ [] := by
    intro hnil
    rw [hnil, hello.bytes_eq] at hfirst
    cases List.prefix_nil.mp hfirst
  have hhead : s.firstRead.head? = some 5 := by
    obtain ⟨more, hmore⟩ := hfirst
    rw [← hmore, hello.bytes_eq, hhello.version]
    rfl
  have hsecondNe : s.secondRead ≠ [] := by
    intro hnil
    rw [hnil, req.bytes_eq] at hsecond
    cases List.prefix_nil.mp hsecond
  have hparse := ClientHello.parseBytes_eq_ok_iff.mpr ⟨hhello, hfirst, rfl⟩
  have hparse' := Request.parseBytes_eq_ok_iff.mpr ⟨hreq, hsecond, rfl⟩
  have hanswer := hello.answer_of_contains hcontains
    (s := { s with incoming := s.afterFirstRead }) hfails
  obtain ⟨u, hread, hwritten, hrest⟩ : ∃ u, (TcpRunStream.read tcpIoBufferSize.toNat).runOn
      { s with
        incoming := s.afterFirstRead
        written := s.written ++ ServerHello.toBytes ⟨hello.version, noAuth⟩ } =
          (.ok s.secondRead, u) ∧
      u.written = s.written ++ ServerHello.toBytes ⟨hello.version, noAuth⟩ ∧
        s.afterFirstRead.flatten = s.secondRead ++ u.unread :=
    ⟨_, runOn_read (s := { s with
      incoming := s.afterFirstRead
      written := s.written ++ ServerHello.toBytes ⟨hello.version, noAuth⟩ }) hsecondNe, rfl,
      (takeSome_append _ _).symm⟩
  obtain ⟨surplus, hsurplus⟩ := hsecond
  rw [← hsurplus] at hparse' hrest hread
  refine ⟨if surplus.isEmpty then none else some surplus,
    { u with info := { u.info with protocolName := "socks5" } }, ?_, hwritten, ?_⟩
  · rw [handshake, runOn_bind_ok (runOn_read hne)]
    simp only [hhead, if_true]
    rw [socks5, hparse, runOn_bind_ok (runOn_ofIo _ _)]
    dsimp only
    rw [runOn_bind_ok hanswer, runOn_bind_ok hread, hparse', runOn_bind_ok (runOn_ofIo _ _)]
    dsimp only
    rw [runOn_bind_ok (runOn_setInfo _ _), haddr, runOn_bind_ok (runOn_ofIo _ _), List.drop_left]
    rfl
  · rw [getD_cache, ← List.append_assoc]
    exact hrest

end Htss5RunAcceptor

/-! ## Agreement -/

/-- The combined listener accepts the client as well: for the same address, with the same answer,
and with the same bytes left to relay. -/
def Htss5RunAcceptor.Agrees (x : UrlCrate) (serverId : String) (s : TcpRunStream) (addr : RunAddr)
    (cache : Option Bytes) (t : TcpRunStream) : Prop :=
  ∃ cache' t', (handshake x serverId).runOn s = (.ok (addr, cache'), t') ∧
    t'.written = t.written ∧ cache'.getD [] ++ t'.unread = cache.getD [] ++ t.unread

section Agreement

variable {x : UrlCrate} {serverId : String} {s t : TcpRunStream} {addr : RunAddr}
  {hello : ClientHello} {req : Request} {request : Bytes}

namespace SocksRunAcceptor.Accepts

variable (h : Accepts s t addr hello req request)

include h

theorem helloLength_eq : helloLength s.unread = hello.bytes.length := by
  rw [h.unread]
  exact helloLength_append h.helloFormed _

theorem head?_firstRead : s.firstRead.head? = some 5 := by
  have hunread := h.unread
  rw [hello.bytes_eq, h.helloFormed.version] at hunread
  cases hfirst : s.firstRead with
  | nil =>
      have hnil : s.unread = [] := (takeSome_eq_nil_iff (by decide) s.incoming).mp hfirst
      rw [hnil] at hunread
      cases hunread
  | cons b bs =>
      rw [s.unread_eq, hfirst] at hunread
      exact congrArg some (List.cons.inj hunread).1

theorem exists_pad : ∃ pad : Bytes, request ++ pad = req.bytes ∧ pad.length ≤ 1 ∧
    (pad = [] ∨ t.unread = []) := by
  rcases h.whole with hwhole | ⟨hshort, hnil⟩
  · exact ⟨[], by rw [hwhole, List.append_nil], Nat.zero_le 1, .inl rfl⟩
  · exact ⟨[0], hshort, Nat.le_refl 1, .inr hnil⟩

theorem requestLength_eq :
    requestLength (s.unread.drop (helloLength s.unread)) = req.bytes.length := by
  obtain ⟨pad, hpad, hlength, -⟩ := h.exists_pad
  rw [h.helloLength_eq, h.unread, List.drop_left]
  exact Request.requestLength_eq h.reqFormed hpad hlength

/-- A second read that returns a whole request returns this one, and it is not cut off. -/
theorem request_isPrefix (hfirst : s.firstRead.length = hello.bytes.length)
    (hsecond : req.bytes.length ≤ s.secondRead.length) :
    s.firstRead = hello.bytes ∧ request = req.bytes ∧ req.bytes <+: s.secondRead := by
  have hunread := s.unread_eq
  rw [h.unread] at hunread
  obtain ⟨hhello, hrest⟩ := List.append_inj hunread hfirst.symm
  have hsplit : s.secondRead ++ _ = s.afterFirstRead.flatten := takeSome_append _ _
  rw [← hrest] at hsplit
  have hrequest : request = req.bytes := by
    rcases h.whole with hwhole | ⟨hshort, hnil⟩
    · exact hwhole
    · have hlength := congrArg List.length hsplit
      have hshortLength := congrArg List.length hshort
      simp only [List.length_append, hnil, List.length_nil, List.length_singleton] at hlength hshortLength
      omega
  refine ⟨hhello.symm, hrequest, ?_⟩
  rw [hrequest] at hsplit
  exact List.prefix_of_prefix_length_le ⟨_, rfl⟩ ⟨_, hsplit⟩ hsecond

/-- Messages that the combined listener finds at the front of its two reads and that leave the
same bytes are those that the client has sent, one in each read. -/
theorem eq_of_agrees {hello' : ClientHello} {req' : Request} (hhello' : hello'.WellFormed)
    (hfirst : hello'.bytes <+: s.firstRead) (hreq' : req'.WellFormed)
    (hsecond : req'.bytes <+: s.secondRead) (haddr : RunAddr.tryFromRequest req' = .ok addr)
    (hleft : s.afterFirstRead.flatten = req'.bytes ++ t.unread) :
    s.firstRead = hello.bytes ∧ req.bytes <+: s.secondRead := by
  obtain rfl : hello' = hello := ClientHello.eq_of_isPrefix hhello' h.helloFormed
    (hfirst.trans ⟨_, s.unread_eq.symm⟩) ⟨_, h.unread.symm⟩
  obtain ⟨extra, hextra⟩ := hfirst
  obtain ⟨pad, hpad, hlength, -⟩ := h.exists_pad
  have hrequest : request = extra ++ req'.bytes := by
    have hunread := s.unread_eq
    rw [h.unread, ← hextra, hleft, List.append_assoc] at hunread
    have hcancel := List.append_cancel_left hunread
    rw [← List.append_assoc] at hcancel
    exact List.append_cancel_right hcancel
  rw [hrequest, List.append_assoc] at hpad
  obtain rfl := Request.eq_nil_of_suffix h.reqFormed hreq'
    (RunAddr.names_of_tryFromRequest h.runAddr) (RunAddr.names_of_tryFromRequest haddr) hlength
    hpad.symm
  obtain rfl : req' = req := Request.eq_of_isPrefix hreq' h.reqFormed ⟨pad, hpad⟩ (List.prefix_refl _)
  exact ⟨by rw [← hextra, List.append_nil], hsecond⟩

end SocksRunAcceptor.Accepts

theorem Htss5RunAcceptor.agrees_iff {cache : Option Bytes}
    (h : SocksRunAcceptor.handshake.runOn s = (.ok (addr, cache), t)) :
    Agrees x serverId s addr cache t ↔
      s.firstRead.length = helloLength s.unread ∧
        requestLength (s.unread.drop (helloLength s.unread)) ≤ s.secondRead.length := by
  obtain ⟨rfl, hello, req, request, haccepts⟩ := SocksRunAcceptor.handshake_eq_ok h
  rw [haccepts.requestLength_eq, haccepts.helloLength_eq]
  constructor
  · rintro ⟨cache', t', hrun, -, hleft⟩
    obtain ⟨hello', req', hhello', hfirst, hreq', hsecond, haddr, hcache, hrest⟩ :=
      handshake_eq_ok haccepts.head?_firstRead hrun
    have hleft' : s.afterFirstRead.flatten = req'.bytes ++ t.unread := by
      obtain ⟨surplus, hsurplus⟩ := hsecond
      rw [← hsurplus, List.drop_left] at hcache
      rw [hrest, ← hsurplus, List.append_assoc, ← hcache, hleft]
      rfl
    obtain ⟨hhello, hreq⟩ :=
      haccepts.eq_of_agrees hhello' hfirst hreq' hsecond haddr hleft'
    exact ⟨congrArg List.length hhello, hreq.length_le⟩
  · rintro ⟨hfirst, hsecond⟩
    obtain ⟨hhello, hrequest, hfront⟩ := haccepts.request_isPrefix hfirst hsecond
    obtain ⟨cache', t', hrun, hwritten, hrest⟩ := handshake_of_reads haccepts.helloFormed
      haccepts.contains (hhello ▸ List.prefix_refl _) haccepts.writeFails haccepts.reqFormed hfront
      haccepts.runAddr
    refine ⟨cache', t', hrun, hwritten.trans haccepts.written.symm, ?_⟩
    have hunread := haccepts.unread
    rw [s.unread_eq, hhello, hrest, hrequest] at hunread
    exact List.append_cancel_left (List.append_cancel_left hunread)

end Agreement

def politeClient : TcpRunStream := .new [[5, 1, 0], [5, 1, 0, 1, 1, 2, 3, 4, 0, 80, 71, 69, 84]]

theorem politeClient_agrees : ∃ t, SocksRunAcceptor.handshake.runOn politeClient =
      (.ok (⟨"1.2.3.4", 80, false⟩, none), t) ∧
    Htss5RunAcceptor.Agrees .plain "id" politeClient ⟨"1.2.3.4", 80, false⟩ none t := by
  have hresult : (SocksRunAcceptor.handshake.runOn politeClient).1 =
      .ok (⟨"1.2.3.4", 80, false⟩, none) := by decide +kernel
  have hcondition : politeClient.firstRead.length = helloLength politeClient.unread ∧
      requestLength (politeClient.unread.drop (helloLength politeClient.unread)) ≤
        politeClient.secondRead.length := by decide
  generalize politeClient = s at hresult hcondition ⊢
  obtain ⟨result, t, hrun⟩ : ∃ result t,
      SocksRunAcceptor.handshake.runOn s = (result, t) := ⟨_, _, rfl⟩
  rw [hrun] at hresult
  obtain rfl : result = .ok (⟨"1.2.3.4", 80, false⟩, none) := hresult
  exact ⟨t, hrun, (Htss5RunAcceptor.agrees_iff hrun).mpr hcondition⟩

def eagerClient : TcpRunStream := .new [[5, 1, 0, 5, 1, 0, 1, 1, 2, 3, 4, 0, 80]]

/-- The combined listener drops what follows the first message in its read. -/
theorem eagerClient_disagrees : eagerClient.unread.head? = some 5 ∧
    (SocksRunAcceptor.handshake.runOn eagerClient).1 = .ok (⟨"1.2.3.4", 80, false⟩, none) ∧
      ((Htss5RunAcceptor.handshake .plain "id").runOn eagerClient).1 =
        Io.raise .invalidInput "no enough data" ∧
      ¬Htss5RunAcceptor.Agrees .plain "id" eagerClient ⟨"1.2.3.4", 80, false⟩ none
        (SocksRunAcceptor.handshake.runOn eagerClient).2 := by
  have hrefused : ((Htss5RunAcceptor.handshake .plain "id").runOn eagerClient).1 =
      Io.raise .invalidInput "no enough data" := by decide
  refine ⟨rfl, by decide +kernel, hrefused, ?_⟩
  rintro ⟨cache, t, hrun, -⟩
  rw [hrun] at hrefused
  cases hrefused

end Rog
