import Rog.Listener.Agreement
import Rog.Listener.HttpFidelity
import Rog.Listener.HttpTarget
import Rog.Router.DefaultRouter

/-!
# IP destinations through the listeners

A client that asks for an IP address through SOCKS5 is given the text of the address, one that
asks for it through HTTP is given the host of a URL.
-/

namespace Rog

open Lib StateIo TcpRunStream

/-! ## Clients -/

namespace IpAddr

def aTyp : IpAddr → UInt8
  | .v4 _ => 1
  | .v6 _ => 4

def octets : IpAddr → Bytes
  | .v4 ip => ip.octets
  | .v6 ip => ip.octets

def urlHost : IpAddr → List Char
  | .v4 ip => ip.toString.toList
  | .v6 ip => '[' :: (ip.toString.toList ++ [']'])

def authority (ip : IpAddr) (port : UInt16) : List Char :=
  ip.urlHost ++ ':' :: port.toNat.repr.toList

def url (ip : IpAddr) (port : UInt16) : String :=
  String.ofList ("http://".toList ++ ip.authority port)

end IpAddr

structure Request.Connects (req : Request) (ip : IpAddr) (port : UInt16) : Prop where
  version : req.version = 5
  cmd : req.cmd = cmdConnect
  aTyp : req.aTyp = ip.aTyp
  dstAddr : req.dstAddr = ip.octets
  dstPort : req.dstPort = ((port / 256).toUInt8, port.toUInt8)

namespace TcpRunStream

def SendsSocks (s : TcpRunStream) (ip : IpAddr) (port : UInt16) : Prop :=
  ∃ (hello : ClientHello) (req : Request) (more : Bytes), hello.WellFormed ∧ req.Connects ip port ∧
    s.unread = hello.bytes ++ (req.bytes ++ more)

def connectStart (ip : IpAddr) (port : UInt16) : List Char :=
  "CONNECT ".toList ++ (ip.authority port ++ [' '])

def SendsHttp (s : TcpRunStream) (ip : IpAddr) (port : UInt16) : Prop :=
  utf8 (connectStart ip port) <+: s.firstRead

end TcpRunStream

/-- What the `url` crate does with the URLs of IP addresses: it reads all of them, keeps the port,
renders an IPv4 address as its text and an IPv6 address inside brackets. -/
structure UrlCrate.RendersIps (x : UrlCrate) : Prop where
  parse (ip : IpAddr) (port : UInt16) : ∃ url, x.parse (ip.url port) = .ok url
  port {ip : IpAddr} {port : UInt16} {url : x.Url} (h : x.parse (ip.url port) = .ok url) :
    x.portOrKnownDefault url = some port
  ipv4 {ip : Ipv4Addr} {port : UInt16} {url : x.Url} (h : x.parse ((IpAddr.v4 ip).url port) = .ok url) :
    x.hostStr url = some ip.toString
  ipv6 {ip : Ipv6Addr} {port : UInt16} {url : x.Url} (h : x.parse ((IpAddr.v6 ip).url port) = .ok url) :
    ∃ inner, x.hostStr url = some (String.ofList ('[' :: (inner ++ [']'])))

/-! ## The SOCKS5 path -/

section Socks

variable {req : Request} {ip : IpAddr} {port : UInt16}

namespace Request.Connects

variable (h : req.Connects ip port)

include h

theorem names : Names ip.toString req.aTyp req.dstAddr := by
  rw [h.aTyp, h.dstAddr]
  cases ip with
  | v4 ip => exact .inl ⟨ip, rfl, rfl, rfl⟩
  | v6 ip => exact .inr (.inl ⟨ip, rfl, rfl, rfl⟩)

theorem wellFormed : req.WellFormed where
  version := h.version
  cmd := .inl h.cmd
  dstAddr := by
    rw [h.aTyp, h.dstAddr]
    cases ip with
    | v4 ip => exact .inl ⟨rfl, rfl⟩
    | v6 ip => exact .inr (.inl ⟨rfl, ip.length_octets⟩)

theorem tryFromRequest : RunAddr.tryFromRequest req = .ok ⟨ip.toString, port, false⟩ := by
  rw [RunAddr.tryFromRequest_of_names h.names, h.dstPort, h.cmd, fromBeBytes_toBeBytes]
  rfl

theorem dstAddr_ne_nil : req.dstAddr ≠ [] := by
  rw [h.dstAddr]
  cases ip with
  | v4 ip => exact List.cons_ne_nil _ _
  | v6 ip => exact List.ne_nil_of_length_pos (by rw [IpAddr.octets, ip.length_octets]; decide)

end Request.Connects

theorem SocksRunAcceptor.runAddr_of_sends {s t : TcpRunStream} {addr : RunAddr}
    {cache : Option Bytes} (hs : s.SendsSocks ip port)
    (h : handshake.runOn s = (.ok (addr, cache), t)) : addr = ⟨ip.toString, port, false⟩ := by
  obtain ⟨hello, req, more, hhello, hreq, hunread⟩ := hs
  obtain ⟨-, hello', req', request, haccepts⟩ := handshake_eq_ok h
  obtain rfl : hello' = hello := ClientHello.eq_of_isPrefix haccepts.helloFormed hhello
    ⟨_, haccepts.unread.symm⟩ ⟨_, hunread.symm⟩
  rw [haccepts.unread] at hunread
  have hrest := List.append_cancel_left hunread
  obtain ⟨pad, hpad, -, hend⟩ := haccepts.exists_pad
  obtain rfl : req' = req := by
    rcases hend with rfl | hend
    · rw [List.append_nil] at hpad
      rw [hpad] at hrest
      exact Request.eq_of_isPrefix haccepts.reqFormed hreq.wellFormed ⟨_, rfl⟩ ⟨_, hrest.symm⟩
    · rw [hend, List.append_nil] at hrest
      refine Request.eq_of_isPrefix haccepts.reqFormed hreq.wellFormed (List.prefix_refl _) ?_
      rw [← hpad, hrest, List.append_assoc]
      exact List.prefix_append _ _
  have haddr := haccepts.runAddr
  rw [hreq.tryFromRequest] at haddr
  exact (Except.ok.inj haddr).symm

def connectRequest (ip : IpAddr) (port : UInt16) : Request :=
  ⟨5, cmdConnect, 0, ip.aTyp, ip.octets, ((port / 256).toUInt8, port.toUInt8)⟩

def socksClient (ip : IpAddr) (port : UInt16) : TcpRunStream :=
  .new [[5, 1, noAuth], (connectRequest ip port).bytes]

theorem connects_connectRequest (ip : IpAddr) (port : UInt16) :
    (connectRequest ip port).Connects ip port := ⟨rfl, rfl, rfl, rfl, rfl⟩

theorem unread_socksClient (ip : IpAddr) (port : UInt16) : (socksClient ip port).unread =
    ClientHello.bytes ⟨5, 1, [noAuth]⟩ ++ ((connectRequest ip port).bytes ++ []) := rfl

theorem sendsSocks_socksClient (ip : IpAddr) (port : UInt16) :
    (socksClient ip port).SendsSocks ip port :=
  ⟨_, _, _, ⟨rfl, rfl⟩, connects_connectRequest ip port, unread_socksClient ip port⟩

theorem SocksRunAcceptor.handshake_socksClient (ip : IpAddr) (port : UInt16) : ∃ t,
    handshake.runOn (socksClient ip port) = (.ok (⟨ip.toString, port, false⟩, none), t) := by
  have hreq := connects_connectRequest ip port
  exact handshake_of_append ⟨rfl, rfl⟩ (by decide) rfl hreq.wellFormed hreq.dstAddr_ne_nil
    hreq.tryFromRequest (unread_socksClient ip port)

end Socks

/-! ## The HTTP path -/

section Http

variable {ip : IpAddr} {port : UInt16}

namespace IpAddr

theorem mem_authority {c : Char} (h : c ∈ ip.authority port) : IpChar c ∨ c = '[' ∨ c = ']' := by
  rw [authority, List.mem_append, List.mem_cons] at h
  rcases h with h | rfl | h
  · cases ip with
    | v4 ip => exact .inl (Ipv4Addr.ipChar h)
    | v6 ip =>
        rw [urlHost, List.mem_cons, List.mem_append, List.mem_singleton] at h
        rcases h with rfl | h | rfl
        · exact .inr (.inl rfl)
        · exact .inl (Ipv6Addr.mem_toString h)
        · exact .inr (.inr rfl)
  · exact .inl (.inr (.inr (.inr rfl)))
  · exact .inl (.of_mem_repr h)

theorem ascii_authority : Ascii (ip.authority port) := by
  intro c hc
  rcases mem_authority hc with h | rfl | rfl
  · exact h.toNat.2
  · decide
  · decide

theorem not_mem_authority {c : Char} (hc : c = '\r' ∨ c = ' ' ∨ c ∈ "/?#".toList) :
    c ∉ ip.authority port := by
  have hnone : ¬(IpChar c ∨ c = '[' ∨ c = ']') := by
    unfold IpChar
    obtain rfl | rfl | hc := hc
    · decide
    · decide
    · obtain rfl | rfl | rfl := mem_delimiters.mp hc <;> decide
  exact fun hmem ↦ hnone (mem_authority hmem)

theorem length_authority (ip : IpAddr) (port : UInt16) : (ip.authority port).length ≤ 90 := by
  have hport : port.toNat.repr.toList.length ≤ 5 := by
    have hlt := port.toNat_lt
    rw [Nat.toList_repr]
    exact (Nat.length_toDigits_le_iff (by decide) (by decide)).mpr (by omega)
  have hhost : ip.urlHost.length ≤ 84 := by
    cases ip with
    | v4 ip =>
        have hle := ip.length_toString_le
        rw [urlHost]
        omega
    | v6 ip =>
        have hle := ip.length_toString_le
        rw [urlHost, List.length_cons, List.length_append, List.length_singleton]
        omega
  rw [authority, List.length_append, List.length_cons]
  omega

theorem requestUrl_authority : requestUrl (ip.authority port) = ip.url port := by
  have hscheme : ¬"://".toList <:+: ip.authority port := fun hoccurs ↦
    not_mem_authority (.inr (.inr (by decide))) (hoccurs.subset (by decide : '/' ∈ "://".toList))
  exact congrArg String.ofList (if_neg hscheme)

end IpAddr

theorem connectStart_eq (ip : IpAddr) (port : UInt16) :
    connectStart ip port = "CONNECT ".toList ++ (ip.authority port ++ [' ']) := rfl

theorem ascii_connectStart : Ascii (connectStart ip port) := by
  intro c hc
  rw [connectStart_eq, List.mem_append, List.mem_append, List.mem_singleton] at hc
  rcases hc with hc | hc | rfl
  · exact (by decide : Ascii "CONNECT ".toList) c hc
  · exact ip.ascii_authority c hc
  · decide

theorem cr_notMem_connectStart : '\r' ∉ connectStart ip port := by
  intro hc
  rw [connectStart_eq, List.mem_append, List.mem_append, List.mem_singleton] at hc
  rcases hc with hc | hc | hc
  · exact absurd hc (by decide)
  · exact IpAddr.not_mem_authority (.inl rfl) hc
  · cases hc

/-- The start of the first line is the start of the header, wherever the header ends. -/
theorem prefix_header {data : Bytes} {cs str : List Char} {bodyBytes : Option Bytes}
    (hascii : Ascii cs) (hcr : '\r' ∉ cs) (hdata : utf8 cs <+: data)
    (h : headerAndBody data = .ok (str, bodyBytes)) : cs <+: str := by
  rw [← utf8_prefix_iff hascii]
  cases hhead : cut headEnd data with
  | none =>
      rw [headerAndBody, hhead] at h
      obtain ⟨str', hstr, h⟩ := Io.bind_eq_ok h
      obtain ⟨rfl, -⟩ := Prod.mk.inj (Except.ok.inj h)
      rwa [headerStr_eq_ok.mp hstr]
  | some p =>
      obtain ⟨before, body⟩ := p
      obtain ⟨hstr, -⟩ := (headerAndBody_eq_ok hhead).mp h
      have hheader : before ++ headEnd <+: data := ⟨body, by
        rw [eq_append_of_cut hhead, List.append_assoc]⟩
      rw [hstr]
      refine (List.prefix_or_prefix_of_prefix hdata hheader).resolve_right fun hlonger ↦ hcr ?_
      have hmem : (13 : UInt8) ∈ utf8 cs := hlonger.subset (by simp [headEnd])
      rw [utf8_of_ascii hascii] at hmem
      obtain ⟨c, hc, hbyte⟩ := List.mem_map.mp hmem
      have hlt := hascii c hc
      obtain rfl : c = '\r' := by
        rw [← Char.toNat_inj]
        have hnat := congrArg UInt8.toNat hbyte
        rw [UInt8.toNat_ofNat'] at hnat
        simp at hnat ⊢
        omega
      exact hc

theorem head?_split_connect {str : List Char} (h : connectStart ip port <+: str) :
    ∃ rest, (split crlf str).head? = some (connectStart ip port ++ rest) := by
  obtain ⟨more, rfl⟩ := h
  have hne : ∀ c ∈ connectStart ip port, c ≠ '\r' := fun c hc ↦
    ne_of_mem_of_not_mem hc cr_notMem_connectStart
  have hcut := cut_append_of_ne ['\n'] hne more
  rw [split_eq (by decide), crlf, hcut]
  cases cut ['\r', '\n'] more with
  | none => exact ⟨more, rfl⟩
  | some p => exact ⟨p.1, rfl⟩

theorem lineTarget_connect (rest : List Char) :
    lineTarget (connectStart ip port ++ rest) = some (ip.authority port) := by
  have hmethod : cut [' '] (connectStart ip port ++ rest) =
      some ("CONNECT".toList, ip.authority port ++ ' ' :: rest) := by
    have hspace : ' ' ∉ "CONNECT".toList := by decide
    have hne : ∀ c ∈ "CONNECT".toList, c ≠ ' ' := fun c hc ↦ ne_of_mem_of_not_mem hc hspace
    have hsplit : "CONNECT ".toList = "CONNECT".toList ++ [' '] := by decide
    rw [connectStart_eq, hsplit, List.append_assoc, List.append_assoc, cut_append_of_ne [] hne,
      cut_of_isPrefix (List.prefix_append _ _)]
    simp
  have htarget : cut [' '] (ip.authority port ++ ' ' :: rest) = some (ip.authority port, rest) := by
    have hne : ∀ c ∈ ip.authority port, c ≠ ' ' := fun c hc ↦
      ne_of_mem_of_not_mem hc (IpAddr.not_mem_authority (.inr (.inl rfl)))
    rw [cut_append_of_ne [] hne, cut_of_isPrefix (List.cons_prefix_cons.mpr ⟨rfl, List.nil_prefix⟩)]
    simp
  have hslash : (ip.authority port).head? ≠ some '/' := fun hhead ↦
    IpAddr.not_mem_authority (.inr (.inr (by decide))) (List.mem_of_mem_head? hhead)
  rw [lineTarget, split_of_cut (by decide) hmethod, split_of_cut (by decide) htarget]
  exact if_neg hslash

theorem urlText_of_sends {serverId : String} {s : TcpRunStream} {text : String}
    (hs : s.SendsHttp ip port) (h : s.urlText serverId = some text) : text = ip.url port := by
  rw [TcpRunStream.urlText, Rog.urlText] at h
  cases hheader : headerAndBody s.firstRead with
  | error e => simp [hheader] at h
  | ok p =>
      obtain ⟨str, bodyBytes⟩ := p
      obtain ⟨rest, hline⟩ := head?_split_connect
        (prefix_header ascii_connectStart cr_notMem_connectStart hs hheader)
      simp only [hheader, hline, Option.bind_eq_bind, Option.bind_some] at h
      split at h
      · cases h
      · rw [lineTarget_connect, Option.bind_some, IpAddr.requestUrl_authority] at h
        exact (Option.some.inj h).symm

variable {x : UrlCrate} {serverId : String} {node : HttpListener} {s t : TcpRunStream}

theorem takesHttp_of_sends (hs : s.SendsHttp ip port) : node.TakesHttp s := by
  intro _ hfive
  obtain ⟨more, hmore⟩ := hs
  rw [utf8_of_ascii ascii_connectStart] at hmore
  rw [← hmore] at hfive
  cases hfive

theorem HttpListener.address_of_sends {addr : RunAddr} {cache : Option Bytes}
    (hs : s.SendsHttp ip port) (h : (node.handshake x serverId).runOn s = (.ok (addr, cache), t)) :
    x.address (ip.url port) = some addr := by
  obtain ⟨-, hserve⟩ := handshake_eq_ok (takesHttp_of_sends hs) h
  obtain ⟨text, htext, haddr⟩ := serve_address_iff.mp ⟨cache, hserve⟩
  rwa [urlText_of_sends hs htext] at haddr

theorem exists_header (cs : List Char) :
    ∃ str bodyBytes, headerAndBody (utf8 cs) = .ok (str, bodyBytes) := by
  cases hcut : cut (crlf ++ crlf) cs with
  | none =>
      have hhead : cut headEnd (utf8 cs) = none := by rw [cut_headEnd_utf8, hcut]; rfl
      refine ⟨cs, none, ?_⟩
      rw [headerAndBody, hhead]
      simp only [headerStr_eq_ok.mpr rfl]
      rfl
  | some p =>
      have hhead : cut headEnd (utf8 cs) = some (utf8 p.1, utf8 p.2) := by
        rw [cut_headEnd_utf8, hcut]
        rfl
      refine ⟨p.1 ++ (crlf ++ crlf), some (utf8 p.2), (headerAndBody_eq_ok hhead).mpr ⟨?_, rfl⟩⟩
      rw [utf8_append, utf8_crlf_crlf]

def connectClient (ip : IpAddr) (port : UInt16) : TcpRunStream :=
  .new [utf8 (connectStart ip port ++ "HTTP/1.1\r\n\r\n".toList)]

theorem firstRead_connectClient (ip : IpAddr) (port : UInt16) : (connectClient ip port).firstRead =
    utf8 (connectStart ip port ++ "HTTP/1.1\r\n\r\n".toList) := by
  have hascii : Ascii (connectStart ip port ++ "HTTP/1.1\r\n\r\n".toList) := by
    intro c hc
    rcases List.mem_append.mp hc with hc | hc
    · exact ascii_connectStart c hc
    · exact (by decide : Ascii "HTTP/1.1\r\n\r\n".toList) c hc
  have hlength : (utf8 (connectStart ip port ++ "HTTP/1.1\r\n\r\n".toList)).length ≤ 2048 := by
    have hauthority := ip.length_authority port
    have hstart : "CONNECT ".toList.length = 8 := by decide
    have hend : "HTTP/1.1\r\n\r\n".toList.length = 12 := by decide
    rw [utf8_of_ascii hascii, List.length_map, List.length_append, connectStart_eq,
      List.length_append, List.length_append, List.length_singleton]
    omega
  have hne : utf8 (connectStart ip port ++ "HTTP/1.1\r\n\r\n".toList) ≠ [] := by
    rw [utf8_of_ascii hascii]
    exact List.cons_ne_nil _ _
  exact congrArg Prod.fst (takeSome_cons hne hlength [])

theorem sendsHttp_connectClient (ip : IpAddr) (port : UInt16) :
    (connectClient ip port).SendsHttp ip port := by
  rw [SendsHttp, firstRead_connectClient, utf8_append]
  exact List.prefix_append _ _

theorem urlText_connectClient (serverId : String) (ip : IpAddr) (port : UInt16) :
    (connectClient ip port).urlText serverId = some (ip.url port) := by
  obtain ⟨str, bodyBytes, hheader⟩ :=
    exists_header (connectStart ip port ++ "HTTP/1.1\r\n\r\n".toList)
  rw [← firstRead_connectClient] at hheader
  obtain ⟨rest, hline⟩ := head?_split_connect (prefix_header ascii_connectStart
    cr_notMem_connectStart (sendsHttp_connectClient ip port) hheader)
  have hconnect : "CONNECT".toList <+: connectStart ip port ++ rest := by
    have hmethod : "CONNECT".toList <+: "CONNECT ".toList := by decide
    rw [connectStart_eq, List.append_assoc]
    exact hmethod.trans (List.prefix_append _ _)
  have hserved : ¬Refused serverId (connectClient ip port).writeFails str
      (connectStart ip port ++ rest) := by
    rw [Refused, if_pos hconnect]
    exact not_not.mpr rfl
  rw [TcpRunStream.urlText, Rog.urlText]
  simp only [hheader, hline, Option.bind_eq_bind, Option.bind_some, if_neg hserved,
    lineTarget_connect, IpAddr.requestUrl_authority]
  rfl

theorem HttpRunAcceptor.handshake_connectClient {addr : RunAddr}
    (haddr : x.address (ip.url port) = some addr) : ∃ cache t,
      (HttpListener.http.handshake x serverId).runOn (connectClient ip port) =
        (.ok (addr, cache), t) := by
  have hne : (connectClient ip port).firstRead ≠ [] := by
    obtain ⟨more, hmore⟩ := sendsHttp_connectClient ip port
    rw [← hmore, utf8_of_ascii ascii_connectStart]
    exact List.cons_ne_nil _ _
  obtain ⟨t, hrun, -⟩ := HttpListener.runOn_handshake x serverId .http
    (takesHttp_of_sends (sendsHttp_connectClient ip port)) hne
  obtain ⟨cache, hserve⟩ := serve_address_iff.mpr
    ⟨ip.url port, urlText_connectClient serverId ip port, haddr⟩
  exact ⟨cache, t, hrun.trans (congrArg (·, t) hserve)⟩

end Http

/-! ## Both paths -/

/-- What holds of any two addresses that this destination is given, through SOCKS5 and through
HTTP. -/
def BothPaths (x : UrlCrate) (serverId : String) (ip : IpAddr) (port : UInt16)
    (P : RunAddr → RunAddr → Prop) : Prop :=
  ∀ (node : HttpListener) s s' t t' addr addr' cache cache', s.SendsSocks ip port →
    s'.SendsHttp ip port → SocksRunAcceptor.handshake.runOn s = (.ok (addr, cache), t) →
      (node.handshake x serverId).runOn s' = (.ok (addr', cache'), t') → P addr addr'

def RunAddr.SameAddress (a b : RunAddr) : Prop := a.addr = b.addr ∧ a.port = b.port

section BothPaths

variable {x : UrlCrate} (serverId : String) {ip : IpAddr} {port : UInt16}

theorem bothPaths_iff {addr' : RunAddr} (haddr : x.address (ip.url port) = some addr')
    (P : RunAddr → RunAddr → Prop) :
    BothPaths x serverId ip port P ↔ P ⟨ip.toString, port, false⟩ addr' := by
  constructor
  · intro h
    obtain ⟨t, hrun⟩ := SocksRunAcceptor.handshake_socksClient ip port
    obtain ⟨cache', t', hrun'⟩ := HttpRunAcceptor.handshake_connectClient haddr
    exact h .http _ _ _ _ _ _ _ _ (sendsSocks_socksClient ip port) (sendsHttp_connectClient ip port)
      hrun hrun'
  · intro h node s s' t t' addr addr'' cache cache' hs hs' hrun hrun'
    have haddr' := HttpListener.address_of_sends hs' hrun'
    rw [haddr] at haddr'
    obtain rfl := Option.some.inj haddr'
    rw [SocksRunAcceptor.runAddr_of_sends hs hrun]
    exact h

/-- The crate gives an address its own text if and only if this has no brackets. -/
theorem UrlCrate.RendersIps.exists_address (hx : x.RendersIps) (ip : IpAddr) (port : UInt16) :
    ∃ host, x.address (ip.url port) = some ⟨host, port, false⟩ ∧
      (ip.toString = host ↔ ∃ ipv4, ip = .v4 ipv4) := by
  obtain ⟨url, hparse⟩ := hx.parse ip port
  have hport := hx.port hparse
  cases ip with
  | v4 ip =>
      refine ⟨ip.toString, UrlCrate.address_eq_some.mpr ⟨url, hparse, _, _, hx.ipv4 hparse, hport, rfl⟩,
        ⟨fun _ ↦ ⟨ip, rfl⟩, fun _ ↦ rfl⟩⟩
  | v6 ip =>
      obtain ⟨inner, hhost⟩ := hx.ipv6 hparse
      refine ⟨_, UrlCrate.address_eq_some.mpr ⟨url, hparse, _, _, hhost, hport, rfl⟩, fun heq ↦ ?_,
        fun ⟨ipv4, hipv4⟩ ↦ by cases hipv4⟩
      have hbracket : '[' ∈ ip.toString.toList := by
        rw [← IpAddr.toString, heq, String.toList_ofList]
        exact List.mem_cons_self
      have hchar : ¬IpChar '[' := by
        unfold IpChar
        decide
      exact absurd (Ipv6Addr.mem_toString hbracket) hchar

/-- The two paths agree on an address, and then every router does, if and only if it is one of
IPv4. -/
theorem routed_alike_iff (x : UrlCrate) (hx : x.RendersIps) (serverId : String) (ip : IpAddr)
    (port : UInt16) :
    (BothPaths x serverId ip port RunAddr.SameAddress ↔ ∃ ipv4, ip = .v4 ipv4) ∧
      (BothPaths x serverId ip port RunAddr.SameRoute ↔ ∃ ipv4, ip = .v4 ipv4) := by
  obtain ⟨host, haddr, hhost⟩ := hx.exists_address ip port
  rw [bothPaths_iff serverId haddr, bothPaths_iff serverId haddr, RunAddr.sameRoute_iff, ← hhost]
  exact ⟨and_iff_left rfl, Iff.rfl⟩

end BothPaths

/-! ## Two addresses -/

theorem UrlCrate.plain_rendersIps : UrlCrate.plain.RendersIps := by
  have hparse (ip : IpAddr) (port : UInt16) : UrlCrate.plain.parse (ip.url port) =
      .ok (String.ofList ip.urlHost, some port) := by
    have hscheme : cut "://".toList (ip.url port).toList =
        some ("http".toList, ip.authority port) := by
      have hurl : (ip.url port).toList = "http".toList ++ ("://".toList ++ ip.authority port) :=
        String.toList_ofList
      rw [hurl]
      exact cut_replace (by decide : cut "://".toList "http://".toList = some ("http".toList, [])) _
    have htake : (ip.authority port).takeWhile (· ∉ "/?#".toList) = ip.authority port :=
      List.takeWhile_eq_self_iff.mpr fun c hc ↦ decide_eq_true fun hmem ↦
        IpAddr.not_mem_authority (.inr (.inr hmem)) hc
    have hcolon : ':' ∉ port.toNat.repr.toList := fun hmem ↦ by cases isDigit_of_mem_repr hmem
    have hport := parseUnsigned_repr port.toNat_lt
    obtain ⟨digit, digits, hdigits⟩ := List.exists_cons_of_ne_nil (repr_ne_nil port.toNat)
    simp only [plain, hscheme, htake]
    rw [IpAddr.authority, rsplitOnce_append hcolon]
    rw [hdigits] at hport ⊢
    simp only [hport, UInt16.ofNat_toNat]
  refine ⟨fun ip port ↦ ⟨_, hparse ip port⟩, fun {ip port url} h ↦ ?_, fun {ip port url} h ↦ ?_,
    fun {ip port url} h ↦ ?_⟩
  all_goals
    rw [hparse] at h
    obtain rfl := Except.ok.inj h
  · rfl
  · exact congrArg some (String.ofList_toList)
  · exact ⟨ip.toString.toList, rfl⟩

theorem routed_alike_quad9 :
    BothPaths .plain "id" (.v4 ⟨9, 9, 9, 9⟩) 53 RunAddr.SameRoute :=
  (routed_alike_iff .plain UrlCrate.plain_rendersIps "id" (.v4 ⟨9, 9, 9, 9⟩) 53).2.mpr ⟨_, rfl⟩

def loopback : IpAddr := .v6 ⟨[0, 0, 0, 0, 0, 0, 0, 1], rfl⟩

/-- A router that connects to the local host without a proxy. -/
def localRouter : DefaultBaseRouter .single :=
  .new .single "proxy" [⟨"local", "direct", [], none, none⟩] fun name ↦
    if name = "local" then some (cidrMatcherFactory .single ["::1"]).matchHost else none

/-- The local host is a network of the router only if its text has no brackets. -/
theorem loopback_routed_apart :
    (SocksRunAcceptor.handshake.runOn (socksClient loopback 443)).1 =
        .ok (⟨"::1", 443, false⟩, none) ∧
      ((HttpListener.http.handshake .plain "id").runOn (connectClient loopback 443)).1 =
        .ok (⟨"[::1]", 443, false⟩, none) ∧
      localRouter.route (fun _ _ _ ↦ .ok []) ⟨"::1", 443, false⟩ = ("local", "direct") ∧
      localRouter.route (fun _ _ _ ↦ .ok []) ⟨"[::1]", 443, false⟩ = ("default", "proxy") ∧
      ¬BothPaths .plain "id" loopback 443 RunAddr.SameAddress ∧
      ¬BothPaths .plain "id" loopback 443 RunAddr.SameRoute := by
  have haddr : UrlCrate.plain.address (loopback.url 443) = some ⟨"[::1]", 443, false⟩ := by
    decide +kernel
  have htext : loopback.toString ≠ "[::1]" := by decide +kernel
  refine ⟨by decide +kernel, by decide +kernel, by decide +kernel, by decide +kernel, ?_, ?_⟩
  · rw [bothPaths_iff "id" haddr]
    exact fun h ↦ htext h.1
  · rw [bothPaths_iff "id" haddr, RunAddr.sameRoute_iff]
    exact htext

end Rog
