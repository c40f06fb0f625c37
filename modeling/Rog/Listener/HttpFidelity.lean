import Rog.Listener.HttpServe

/-!
# What an HTTP proxy relays

The bytes that a served client has sent, compared with those that go upstream: the cache that
the handshake returns, and what it has not read.
-/

namespace Rog

open Lib StateIo TcpRunStream

/-! ## Heads -/

def lineEnd : Bytes := [13, 10]

theorem utf8_crlf : utf8 crlf = lineEnd := by decide

theorem utf8_crlf_crlf : utf8 (crlf ++ crlf) = headEnd := by decide

theorem cut_lineEnd_utf8 (str : List Char) :
    cut lineEnd (utf8 str) = (cut crlf str).map fun (line, rest) ↦ (utf8 line, utf8 rest) := by
  rw [← utf8_crlf]
  exact cut_utf8 (by decide) (by decide) str

theorem cut_headEnd_utf8 (str : List Char) : cut headEnd (utf8 str) =
    (cut (crlf ++ crlf) str).map fun (before, after) ↦ (utf8 before, utf8 after) := by
  rw [← utf8_crlf_crlf]
  exact cut_utf8 (by decide) (by decide) str

theorem headerAndBody_eq_ok {data before body : Bytes} {str : List Char} {bodyBytes : Option Bytes}
    (hhead : cut headEnd data = some (before, body)) :
    headerAndBody data = .ok (str, bodyBytes) ↔
      utf8 str = before ++ headEnd ∧ bodyBytes = some body := by
  rw [headerAndBody, hhead]
  constructor
  · intro h
    obtain ⟨s, hs, h⟩ := Io.bind_eq_ok h
    obtain ⟨rfl, rfl⟩ := Prod.mk.inj (Except.ok.inj h)
    exact ⟨headerStr_eq_ok.mp hs, rfl⟩
  · rintro ⟨hstr, rfl⟩
    simp only [headerStr_eq_ok.mpr hstr, bind, Except.bind, pure, Except.pure]

theorem cut_crlf_header {str : List Char} {before : Bytes} (h : utf8 str = before ++ headEnd) :
    ∃ line rest, cut crlf str = some (line, rest) := by
  cases hcut : cut crlf str with
  | some p => exact ⟨p.1, p.2, rfl⟩
  | none =>
      have hnone : cut lineEnd (utf8 str) = none := by rw [cut_lineEnd_utf8, hcut]; rfl
      refine absurd ?_ (cut_eq_none_iff.mp hnone)
      rw [h]
      exact List.IsInfix.trans (List.IsPrefix.isInfix ⟨[13, 10], rfl⟩)
        (List.suffix_append before headEnd).isInfix

theorem HttpRequest.parse_eq_ok {x : UrlCrate} {data before body : Bytes} {req : HttpRequest x}
    (hhead : cut headEnd data = some (before, body)) (h : parse x data = .ok req) :
    utf8 req.str = before ++ headEnd ∧ req.bodyBytes = some body ∧
      firstLineUrl x req.fLine = .ok req.ipPort ∧ ∃ rest, cut crlf req.str = some (req.fLine, rest) := by
  obtain ⟨⟨str, bodyBytes⟩, hheader, h⟩ := Io.bind_eq_ok h
  obtain ⟨hstr, rfl⟩ := (headerAndBody_eq_ok hhead).mp hheader
  obtain ⟨line, rest, hcut⟩ := cut_crlf_header hstr
  simp only [split_of_cut (by decide) hcut, List.head?_cons] at h
  obtain ⟨ipPort, hurl, h⟩ := Io.bind_eq_ok h
  obtain rfl := Except.ok.inj h
  exact ⟨hstr, rfl, hurl, rest, hcut⟩

/-! ## What is owed to the server -/

def requestLine (bytes : Bytes) : Bytes := ((cut lineEnd bytes).map Prod.fst).getD bytes

def afterHead (bytes : Bytes) : Bytes := ((cut headEnd bytes).map Prod.snd).getD []

theorem asBytes_viaLine (serverId : String) :
    asBytes ("Via: 1.1 " ++ serverId) = utf8 (viaLine serverId) := by
  rw [asBytes_eq_utf8, String.toList_append]
  rfl

/-- The bytes with a line of their own behind the request line. -/
def withVia (serverId : String) (bytes : Bytes) : Bytes :=
  match cut lineEnd bytes with
  | some (line, rest) =>
      line ++ lineEnd ++ asBytes ("Via: 1.1 " ++ serverId) ++ lineEnd ++ rest
  | none => bytes

/-- For CONNECT the tunnel begins behind the head; every other request is passed on whole. -/
def owed (serverId : String) (bytes : Bytes) : Bytes :=
  if asBytes "CONNECT " <+: requestLine bytes then afterHead bytes else withVia serverId bytes

section Relayed

variable {x : UrlCrate} {data before body : Bytes} {req : HttpRequest x}

/-- The whole stream behind a first read, in the terms of the parsed request. -/
theorem cut_of_parse (hhead : cut headEnd data = some (before, body))
    (h : HttpRequest.parse x data = .ok req) (more : Bytes) :
    ∃ rest, cut crlf req.str = some (req.fLine, rest) ∧
      cut lineEnd (data ++ more) = some (utf8 req.fLine, utf8 rest ++ (body ++ more)) := by
  obtain ⟨hstr, -, -, rest, hcut⟩ := HttpRequest.parse_eq_ok hhead h
  refine ⟨rest, hcut, ?_⟩
  have hbytes : cut lineEnd (before ++ headEnd) = some (utf8 req.fLine, utf8 rest) := by
    rw [← hstr, cut_lineEnd_utf8, hcut]
    rfl
  rw [eq_append_of_cut hhead, ← List.append_assoc, List.append_assoc]
  exact cut_append hbytes (body ++ more)

theorem requestLine_of_parse (hhead : cut headEnd data = some (before, body))
    (h : HttpRequest.parse x data = .ok req) (more : Bytes) :
    requestLine (data ++ more) = utf8 req.fLine := by
  obtain ⟨rest, -, hwhole⟩ := cut_of_parse hhead h more
  rw [requestLine, hwhole]
  rfl

theorem connect_prefix_iff (hhead : cut headEnd data = some (before, body))
    (h : HttpRequest.parse x data = .ok req) (more : Bytes) :
    asBytes "CONNECT" <+: requestLine (data ++ more) ↔ req.IsConnect := by
  rw [requestLine_of_parse hhead h, asBytes_eq_utf8]
  exact utf8_prefix_iff (by decide)

theorem HttpRequest.cache_of_isConnect {serverId : String} {writeFails : Option IoError}
    {cache : Option Bytes} (hreq : req.IsConnect)
    (h : req.cache serverId data writeFails = .ok cache) : cache = none := by
  simp only [HttpRequest.cache, if_pos hreq] at h
  split at h
  · cases h
  · exact (Except.ok.inj h).symm

theorem HttpRequest.cache_of_not_isConnect {serverId : String} {writeFails : Option IoError}
    {cache : Option Bytes} (hreq : ¬req.IsConnect)
    (h : req.cache serverId data writeFails = .ok cache) :
    viaLoop serverId (split crlf req.str) = false ∧
      cache = some ((req.addVia serverId).getD data) := by
  simp only [HttpRequest.cache, if_neg hreq] at h
  split at h
  · cases h
  · rename_i hloop
    exact ⟨Bool.eq_false_iff.mpr hloop, (Except.ok.inj h).symm⟩

theorem cache_append (serverId : String) (hhead : cut headEnd data = some (before, body))
    (h : HttpRequest.parse x data = .ok req) (more : Bytes) :
    (req.addVia serverId).getD data ++ more = withVia serverId (data ++ more) := by
  obtain ⟨rest, hcut, hwhole⟩ := cut_of_parse hhead h more
  obtain ⟨-, hbody, -, -⟩ := HttpRequest.parse_eq_ok hhead h
  have hnew : req.addVia serverId =
      some (utf8 (req.fLine ++ crlf ++ viaLine serverId ++ crlf ++ rest) ++ body) := by
    simp only [HttpRequest.addVia, hcut, hbody, Option.map_some, Option.getD_some, asBytes_ofList]
  rw [hnew, withVia, hwhole, asBytes_viaLine]
  simp only [Option.getD_some, utf8_append, utf8_crlf, List.append_assoc]

theorem length_withVia (serverId : String) (hhead : cut headEnd data = some (before, body))
    (h : HttpRequest.parse x data = .ok req) (more : Bytes) :
    more.length < (withVia serverId (data ++ more)).length := by
  obtain ⟨rest, -, hwhole⟩ := cut_of_parse hhead h more
  rw [withVia, hwhole]
  simp [lineEnd]
  omega

end Relayed

/-- A request that is served is relayed as owed, unless its first line begins with CONNECT and
it is no CONNECT or something follows its head in the first read. -/
theorem relayed_eq_owed_iff (x : UrlCrate) (serverId : String) (node : HttpListener)
    {s t : TcpRunStream} {addr : RunAddr} {cache : Option Bytes} {before body : Bytes}
    (hnode : node.TakesHttp s)
    (h : (node.handshake x serverId).runOn s = (.ok (addr, cache), t))
    (hhead : cut headEnd s.firstRead = some (before, body)) :
    cache.getD [] ++ t.unread = owed serverId s.unread ↔
      ¬asBytes "CONNECT" <+: requestLine s.unread ∨
        asBytes "CONNECT " <+: requestLine s.unread ∧ body = [] := by
  obtain ⟨hincoming, hserve⟩ := HttpListener.handshake_eq_ok hnode h
  obtain ⟨req, hparse, hcache, -⟩ := HttpRequest.serve_eq_ok.mp hserve
  have hunread : t.unread = s.afterFirstRead.flatten := congrArg List.flatten hincoming
  have hconnect : asBytes "CONNECT" <+: requestLine s.unread ↔ req.IsConnect := by
    rw [s.unread_eq]
    exact connect_prefix_iff hhead hparse _
  by_cases hreq : req.IsConnect
  · -- the cache is dropped
    obtain rfl := HttpRequest.cache_of_isConnect hreq hcache
    by_cases hmethod : asBytes "CONNECT " <+: requestLine s.unread
    · have hafter : afterHead s.unread = body ++ t.unread := by
        rw [afterHead, s.unread_eq, cut_append hhead, hunread]
        rfl
      have hbody : t.unread = body ++ t.unread ↔ body = [] := List.self_eq_append_left
      simp [owed, hmethod, hconnect, hreq, hafter, hbody]
    · have hne : t.unread ≠ withVia serverId s.unread := by
        intro heq
        have hlength := length_withVia serverId hhead hparse s.afterFirstRead.flatten
        rw [← s.unread_eq, ← heq, hunread] at hlength
        exact Nat.lt_irrefl _ hlength
      simp [owed, hmethod, hconnect, hreq, hne]
  · have hmethod : ¬asBytes "CONNECT " <+: requestLine s.unread := fun hmethod ↦
      hreq (hconnect.mp ((by decide : asBytes "CONNECT" <+: asBytes "CONNECT ").trans hmethod))
    obtain ⟨-, rfl⟩ := HttpRequest.cache_of_not_isConnect hreq hcache
    have howed : (req.addVia serverId).getD s.firstRead ++ t.unread =
        withVia serverId s.unread := by
      rw [hunread, s.unread_eq]
      exact cache_append serverId hhead hparse _
    simp [owed, hmethod, hconnect, hreq, howed]

def getRequest : TcpRunStream :=
  .new [asBytes "GET http://a/ HTTP/1.1\r\nHost: a\r\n\r\nbo", asBytes "dy"]

theorem relayed_eq_owed_iff_get :
    (some (asBytes "GET http://a/ HTTP/1.1\r\nVia: 1.1 id\r\nHost: a\r\n\r\nbo")).getD [] ++
      ((HttpListener.http.handshake .plain "id").runOn getRequest).2.unread =
        owed "id" getRequest.unread :=
  (relayed_eq_owed_iff .plain "id" .http (fun h ↦ by cases h)
    (Prod.ext (by decide) rfl : (HttpListener.http.handshake .plain "id").runOn getRequest =
      (.ok (⟨"a", 80, false⟩, _), _))
    (by decide : cut headEnd getRequest.firstRead =
      some (asBytes "GET http://a/ HTTP/1.1\r\nHost: a", asBytes "bo"))).mpr
    (.inl (by decide))

/-- A client that does not wait for the answer to its CONNECT loses what it has sent by then. -/
def earlyConnect : TcpRunStream := .new [asBytes "CONNECT a:1 HTTP/1.1\r\n\r\nhello"]

theorem connect_drops_early_bytes :
    ¬∀ (s t : TcpRunStream) (addr : RunAddr) (cache : Option Bytes),
      (HttpListener.http.handshake .plain "id").runOn s = (.ok (addr, cache), t) →
        (cut headEnd s.firstRead).isSome → cache.getD [] ++ t.unread = owed "id" s.unread := by
  intro h
  have howed := h earlyConnect _ ⟨"a", 1, false⟩ none (Prod.ext (by decide) rfl)
    (by decide)
  have hdropped : (none : Option Bytes).getD [] ++
      ((HttpListener.http.handshake .plain "id").runOn earlyConnect).2.unread ≠
        owed "id" earlyConnect.unread := by
    decide
  exact hdropped howed

end Rog
