import Rog.Listener.HttpFidelity
import Rog.Lib.Machine

/-!
# Proxy loops

A request on its way through proxies, each of which receives what the one before it has
forwarded. It carries the lines of all proxies that it has passed, each as a line of its own,
and is refused by any of them that it comes back to.
-/

namespace Rog

open Lib StateIo TcpRunStream

/-! ## Heads with a new line -/

/-- The bytes begin with a head, whose text is `str`. -/
def HasHead (bytes : Bytes) (str : List Char) : Prop :=
  ∃ before after, cut headEnd bytes = some (before, after) ∧ utf8 str = before ++ headEnd

theorem HasHead.unique {bytes : Bytes} {str str' : List Char} (h : HasHead bytes str)
    (h' : HasHead bytes str') : str = str' := by
  obtain ⟨before, after, hcut, hstr⟩ := h
  obtain ⟨before', after', hcut', hstr'⟩ := h'
  obtain ⟨rfl, rfl⟩ := Prod.mk.inj (Option.some.inj (hcut.symm.trans hcut'))
  exact utf8_injective (hstr.trans hstr'.symm)

section Insert

variable {line rest v before : List Char}

/-- Where a head ends is not changed by a line that is put behind its first one. -/
theorem cut_insert (hline : cut crlf (line ++ (crlf ++ rest)) = some (line, rest))
    (hhead : cut (crlf ++ crlf) (line ++ (crlf ++ rest)) = some (before, []))
    (hv : ∀ c ∈ v, c ≠ '\r') (hne : v ≠ []) :
    ∃ before', cut (crlf ++ crlf) (line ++ (crlf ++ (v ++ (crlf ++ rest)))) = some (before', []) := by
  have hshort : crlf <+: crlf ++ crlf := List.prefix_append crlf crlf
  rw [cut_of_cut_isPrefix hshort hline, Option.map_eq_some_iff] at hhead
  obtain ⟨⟨l, r⟩, htail, heq⟩ := hhead
  obtain ⟨-, rfl⟩ := Prod.mk.inj heq
  obtain ⟨c, v, rfl⟩ := List.exists_cons_of_ne_nil hne
  have hc : c ≠ '\r' := hv c (by simp)
  have hfirst : ¬crlf ++ crlf <+: '\r' :: '\n' :: (c :: v ++ (crlf ++ rest)) := by
    intro h
    simp only [crlf, List.cons_append, List.nil_append, List.cons_prefix_cons] at h
    exact hc h.2.2.1.symm
  have hsecond : ¬crlf ++ crlf <+: '\n' :: (c :: v ++ (crlf ++ rest)) := by
    intro h
    simp only [crlf, List.cons_append, List.nil_append, List.cons_prefix_cons] at h
    exact absurd h.1 (by decide)
  have hpass : cut (crlf ++ crlf) (c :: v ++ (crlf ++ rest)) = some (c :: v ++ l, []) := by
    have hskip := cut_append_of_ne ('\n' :: crlf) hv (crlf ++ rest)
    exact hskip.trans (congrArg _ htail)
  refine ⟨line ++ ('\r' :: '\n' :: (c :: v ++ l)), ?_⟩
  rw [cut_of_cut_isPrefix hshort (cut_replace hline _)]
  have hcut : cut (crlf ++ crlf) ('\r' :: '\n' :: (c :: v ++ (crlf ++ rest))) =
      some ('\r' :: '\n' :: (c :: v ++ l), []) := by
    rw [cut_cons_of_not_isPrefix hfirst, cut_cons_of_not_isPrefix hsecond, hpass]
    rfl
  exact congrArg _ hcut

end Insert

/-- A server id that stays within its line. -/
def PlainId (serverId : String) : Prop :=
  serverId ≠ "" ∧ '\r' ∉ serverId.toList ∧ '\n' ∉ serverId.toList

instance (serverId : String) : Decidable (PlainId serverId) := inferInstanceAs (Decidable (_ ∧ _))

theorem PlainId.viaLine_ne {serverId : String} (h : PlainId serverId) :
    ∀ c ∈ viaLine serverId, c ≠ '\r' := by
  rintro c hc rfl
  rcases List.mem_append.mp hc with hc | hc
  · exact absurd hc (by decide)
  · exact h.2.1 hc

/-- The line of a server is the first one of what it stands before. -/
theorem PlainId.split_viaLine {serverId : String} (h : PlainId serverId) (rest : List Char) :
    split crlf (viaLine serverId ++ (crlf ++ rest)) = viaLine serverId :: split crlf rest := by
  refine split_of_cut (by decide) ?_
  have hskip := cut_append_of_ne ['\n'] h.viaLine_ne (crlf ++ rest)
  rw [show '\r' :: ['\n'] = crlf from rfl, cut_of_isPrefix (List.prefix_append crlf rest)] at hskip
  simpa using hskip

theorem viaLine_ne_nil (serverId : String) : viaLine serverId ≠ [] :=
  List.append_ne_nil_of_left_ne_nil (by decide) _

theorem HasHead.cut_lineEnd {bytes : Bytes} {str line rest : List Char} (h : HasHead bytes str)
    (hline : cut crlf str = some (line, rest)) :
    ∃ after, bytes = utf8 str ++ after ∧
      cut lineEnd bytes = some (utf8 line, utf8 rest ++ after) := by
  obtain ⟨before, after, hcut, hstr⟩ := h
  have hbytes : bytes = utf8 str ++ after := by
    rw [hstr, List.append_assoc]
    exact eq_append_of_cut hcut
  have hcutBytes : cut lineEnd (utf8 str) = some (utf8 line, utf8 rest) := by
    rw [cut_lineEnd_utf8, hline]
    rfl
  refine ⟨after, hbytes, ?_⟩
  rw [hbytes]
  exact cut_append hcutBytes after

theorem HasHead.cut_str {bytes : Bytes} {str : List Char} (h : HasHead bytes str) :
    ∃ l, cut (crlf ++ crlf) str = some (l, []) := by
  obtain ⟨before, after, hcut, hstr⟩ := h
  have hend : cut headEnd (utf8 str) = some (before, []) := by
    rw [hstr]
    simpa using cut_replace hcut []
  rw [cut_headEnd_utf8, Option.map_eq_some_iff] at hend
  obtain ⟨⟨l, r⟩, hl, heq⟩ := hend
  obtain ⟨-, hr⟩ := Prod.mk.inj heq
  obtain rfl : r = [] := utf8_injective hr
  exact ⟨l, hl⟩

theorem HasHead.withVia {bytes : Bytes} {str line rest : List Char} {serverId : String}
    (h : HasHead bytes str) (hline : cut crlf str = some (line, rest)) (hid : PlainId serverId) :
    HasHead (withVia serverId bytes) (line ++ (crlf ++ (viaLine serverId ++ (crlf ++ rest)))) := by
  obtain ⟨l, hl⟩ := h.cut_str
  obtain ⟨after, -, hlineBytes⟩ := h.cut_lineEnd hline
  have hsplit := eq_append_of_cut hline
  rw [hsplit] at hline hl
  obtain ⟨l', hl'⟩ := cut_insert hline hl hid.viaLine_ne (viaLine_ne_nil serverId)
  have hnew := eq_append_of_cut hl'
  refine ⟨utf8 l', after, ?_, ?_⟩
  · have hcutNew : cut headEnd (utf8 (line ++ (crlf ++ (viaLine serverId ++ (crlf ++ rest))))) =
        some (utf8 l', []) := by
      rw [cut_headEnd_utf8, hl']
      rfl
    have hwith : Rog.withVia serverId bytes =
        utf8 (line ++ (crlf ++ (viaLine serverId ++ (crlf ++ rest)))) ++ after := by
      rw [Rog.withVia, hlineBytes, asBytes_viaLine]
      simp only [utf8_append, utf8_crlf, List.append_assoc]
    rw [hwith]
    exact cut_append hcutNew after
  · rw [hnew, ← utf8_crlf_crlf]
    simp only [utf8_append, List.append_nil]

/-! ## Paths -/

/-- A proxy on a path, and the stream in which a request arrives there. -/
structure Hop where
  listener : HttpListener
  serverId : String
  arrival : TcpRunStream

/-- The bytes of the stream are those that were forwarded, and the first read of the proxy has
their whole head. -/
def Hop.Receives (hop : Hop) (bytes : Bytes) : Prop :=
  hop.arrival.unread = bytes ∧ (cut headEnd hop.arrival.firstRead).isSome

instance (hop : Hop) (bytes : Bytes) : Decidable (hop.Receives bytes) :=
  inferInstanceAs (Decidable (_ ∧ _))

def Hop.handshake (x : UrlCrate) (hop : Hop) : Io (RunAddr × Option Bytes) × TcpRunStream :=
  (hop.listener.handshake x hop.serverId).runOn hop.arrival

/-- The bytes of a request from proxy to proxy. -/
def proxyPath (x : UrlCrate) : Machine Bytes Hop where
  init _ := True
  step bytes hop :=
    if hop.Receives bytes then
      match hop.handshake x with
      | (.ok (_, cache), t) => some (cache.getD [] ++ t.unread)
      | (.error _, _) => none
    else none

/-- A request that is neither SOCKS5 nor taken for a CONNECT. -/
def PassedOn (bytes : Bytes) : Prop :=
  ¬asBytes "CONNECT" <+: requestLine bytes ∧ bytes.head? ≠ some 5

section Step

variable {x : UrlCrate} {bytes bytes' : Bytes} {hop : Hop}

theorem Hop.Receives.exists_cut (h : hop.Receives bytes) : ∃ before body,
    cut headEnd hop.arrival.firstRead = some (before, body) ∧
      bytes = hop.arrival.firstRead ++ hop.arrival.afterFirstRead.flatten := by
  obtain ⟨⟨before, body⟩, hcut⟩ := Option.isSome_iff_exists.mp h.2
  exact ⟨before, body, hcut, h.1 ▸ hop.arrival.unread_eq⟩

theorem Hop.Receives.firstRead_ne_nil (h : hop.Receives bytes) : hop.arrival.firstRead ≠ [] := by
  obtain ⟨before, body, hcut, -⟩ := h.exists_cut
  intro hnil
  rw [hnil] at hcut
  cases hcut

theorem Hop.Receives.takesHttp (h : hop.Receives bytes) (hbytes : bytes.head? ≠ some 5) :
    hop.listener.TakesHttp hop.arrival := by
  rintro -
  obtain ⟨before, body, -, hsplit⟩ := h.exists_cut
  obtain ⟨b, bs, hdata⟩ := List.exists_cons_of_ne_nil h.firstRead_ne_nil
  rw [hsplit, hdata] at hbytes
  rw [hdata]
  exact hbytes

/-- What a proxy does with a request that it forwards. -/
theorem forward_cases (hbytes : PassedOn bytes) (h : (proxyPath x).step bytes hop = some bytes') :
    hop.Receives bytes ∧ bytes' = withVia hop.serverId bytes ∧
      ∃ str line rest url, HasHead bytes str ∧ cut crlf str = some (line, rest) ∧
        firstLineUrl x line = .ok url ∧ viaLoop hop.serverId (split crlf str) = false := by
  simp only [proxyPath] at h
  split at h
  · rename_i hreceives
    split at h
    · rename_i addr cache t hrun
      obtain rfl := Option.some.inj h
      obtain ⟨before, body, hhead, hsplit⟩ := hreceives.exists_cut
      obtain ⟨hincoming, hserve⟩ :=
        HttpListener.handshake_eq_ok (hreceives.takesHttp hbytes.2) hrun
      obtain ⟨req, hparse, hcache, -⟩ := HttpRequest.serve_eq_ok.mp hserve
      have hreq : ¬req.IsConnect := fun hreq ↦ by
        have hconnect := (connect_prefix_iff hhead hparse hop.arrival.afterFirstRead.flatten).mpr hreq
        rw [← hsplit] at hconnect
        exact hbytes.1 hconnect
      obtain ⟨hloop, rfl⟩ := HttpRequest.cache_of_not_isConnect hreq hcache
      obtain ⟨hstr, -, hurl, rest, hcut⟩ := HttpRequest.parse_eq_ok hhead hparse
      have hunread : t.unread = hop.arrival.afterFirstRead.flatten := congrArg List.flatten hincoming
      refine ⟨hreceives, ?_, req.str, req.fLine, rest, req.ipPort, ?_, hcut, hurl, hloop⟩
      · rw [hunread, hsplit]
        exact cache_append hop.serverId hhead hparse _
      · refine ⟨before, body ++ hop.arrival.afterFirstRead.flatten, ?_, hstr⟩
        rw [hsplit]
        exact cut_append hhead _
    · cases h
  · cases h

theorem passedOn_withVia (serverId : String) (h : PassedOn bytes) :
    PassedOn (withVia serverId bytes) := by
  cases hcut : cut lineEnd bytes with
  | none => simpa only [withVia, hcut] using h
  | some p =>
      obtain ⟨line, rest⟩ := p
      have hwith : withVia serverId bytes =
          line ++ (lineEnd ++ (asBytes ("Via: 1.1 " ++ serverId) ++ lineEnd ++ rest)) := by
        simp only [withVia, hcut, List.append_assoc]
      have hline : requestLine (withVia serverId bytes) = requestLine bytes := by
        rw [requestLine, requestLine, hwith, cut_replace hcut, hcut]
        rfl
      have hhead : (withVia serverId bytes).head? = bytes.head? := by
        rw [hwith, eq_append_of_cut hcut]
        cases line <;> rfl
      rw [PassedOn, hline, hhead]
      exact h

end Step

/-! ## The lines of a request -/

/-- A request that has passed the proxies `ids` has a line of each of them. -/
structure Stamped (x : UrlCrate) (ids : List String) (bytes : Bytes) : Prop where
  passedOn : PassedOn bytes
  head : ∃ str line rest url, HasHead bytes str ∧ cut crlf str = some (line, rest) ∧
    firstLineUrl x line = .ok url ∧ ∀ serverId ∈ ids, viaLine serverId ∈ split crlf rest

section Stamped

variable {x : UrlCrate} {ids : List String} {bytes bytes' : Bytes} {hop : Hop} {hops : List Hop}

theorem stamped_nil (hbytes : PassedOn bytes) (h : (proxyPath x).step bytes hop = some bytes') :
    Stamped x [] bytes := by
  obtain ⟨-, -, str, line, rest, url, hhead, hcut, hurl, -⟩ := forward_cases hbytes h
  exact ⟨hbytes, str, line, rest, url, hhead, hcut, hurl, by simp⟩

theorem Stamped.step (hbytes : Stamped x ids bytes) (hid : PlainId hop.serverId)
    (h : (proxyPath x).step bytes hop = some bytes') : Stamped x (hop.serverId :: ids) bytes' := by
  obtain ⟨-, rfl, -⟩ := forward_cases hbytes.passedOn h
  obtain ⟨str, line, rest, url, hhead, hcut, hurl, hids⟩ := hbytes.head
  refine ⟨passedOn_withVia _ hbytes.passedOn, _, line,
    viaLine hop.serverId ++ (crlf ++ rest), url, hhead.withVia hcut hid, ?_, hurl, ?_⟩
  · rw [eq_append_of_cut hcut] at hcut
    exact cut_replace hcut _
  · rw [hid.split_viaLine]
    intro serverId hmem
    rcases List.mem_cons.mp hmem with rfl | hmem
    · exact List.mem_cons_self
    · exact List.mem_cons_of_mem _ (hids serverId hmem)

theorem Stamped.run (hbytes : Stamped x ids bytes) (hids : ∀ hop ∈ hops, PlainId hop.serverId)
    (h : (proxyPath x).run bytes hops = some bytes') :
    Stamped x ((hops.map Hop.serverId).reverse ++ ids) bytes' := by
  induction hops generalizing ids bytes with
  | nil =>
      obtain rfl : bytes = bytes' := by simpa using h
      exact hbytes
  | cons hop hops ih =>
      obtain ⟨u, hu, hrest⟩ := (proxyPath x).run_cons_some h
      have hstamped := ih (hbytes.step (hids hop (by simp)) hu)
        (fun other hother ↦ hids other (List.mem_cons_of_mem hop hother)) hrest
      simpa using hstamped

theorem isVia_viaLine (serverId : String) : isVia (viaLine serverId) = true := by
  have hfront : "via:".toList <+: "Via: 1.1 ".toList.map Char.toLower := by decide
  have hlower : "via:".toList <+: (viaLine serverId).map Char.toLower := by
    rw [viaLine_eq, List.map_append]
    exact hfront.trans (List.prefix_append _ _)
  exact List.isPrefixOf_iff_prefix.mpr hlower

theorem viaLoop_of_mem {serverId : String} {lines : List (List Char)}
    (h : viaLine serverId ∈ lines) : viaLoop serverId lines = true := by
  have hid : serverId.toList <:+: viaLine serverId :=
    (List.suffix_append "Via: 1.1 ".toList serverId.toList).isInfix
  refine List.any_eq_true.mpr ⟨viaLine serverId, h, ?_⟩
  rw [isVia_viaLine, Bool.true_and]
  exact decide_eq_true hid

/-- Parsing sees the head of a request whichever part of the rest has been read with it. -/
theorem parse_of_hasHead {data before body more : Bytes} {str line rest : List Char} {url : x.Url}
    (hfirst : cut headEnd data = some (before, body)) (hhead : HasHead (data ++ more) str)
    (hcut : cut crlf str = some (line, rest)) (hurl : firstLineUrl x line = .ok url) :
    HttpRequest.parse x data = .ok ⟨str, some body, line, url⟩ := by
  obtain ⟨before', after, hwhole, hstr⟩ := hhead
  rw [cut_append hfirst] at hwhole
  obtain ⟨rfl, -⟩ := Prod.mk.inj (Option.some.inj hwhole)
  have hheader : headerAndBody data = .ok (str, some body) :=
    (headerAndBody_eq_ok hfirst).mpr ⟨hstr, rfl⟩
  rw [HttpRequest.parse, hheader]
  simp only [bind, Except.bind, split_of_cut (by decide) hcut, List.head?_cons, hurl]
  rfl

theorem Stamped.loop (hbytes : Stamped x ids bytes) (hseen : hop.serverId ∈ ids)
    (hreceives : hop.Receives bytes) : (hop.handshake x).1 = Io.other "Loop detected" := by
  obtain ⟨str, line, rest, url, hhead, hcut, hurl, hids⟩ := hbytes.head
  obtain ⟨before, body, hfirst, hsplit⟩ := hreceives.exists_cut
  have hparse := parse_of_hasHead hfirst (hsplit ▸ hhead) hcut hurl
  obtain ⟨t, hrun, -⟩ := hop.listener.runOn_handshake x hop.serverId
    (hreceives.takesHttp hbytes.passedOn.2) hreceives.firstRead_ne_nil
  have hreq : ¬(⟨str, some body, line, url⟩ : HttpRequest x).IsConnect := fun hreq ↦ by
    have hconnect := (connect_prefix_iff hfirst hparse hop.arrival.afterFirstRead.flatten).mpr hreq
    rw [← hsplit] at hconnect
    exact hbytes.passedOn.1 hconnect
  have hloop : viaLoop hop.serverId (split crlf str) = true := by
    rw [split_of_cut (by decide) hcut]
    exact viaLoop_of_mem (List.mem_cons_of_mem line (hids hop.serverId hseen))
  have hserve : HttpRequest.serve x hop.serverId hop.arrival.firstRead hop.arrival.writeFails =
      Io.other "Loop detected" := by
    rw [HttpRequest.serve, hparse]
    simp only [bind, Except.bind, HttpRequest.cache, if_neg hreq, hloop, if_true, Io.other, Io.raise]
  exact (congrArg Prod.fst hrun).trans hserve

theorem loop_of_run (hbytes : PassedOn bytes) (hids : ∀ hop ∈ hops, PlainId hop.serverId)
    (hrun : (proxyPath x).run bytes hops = some bytes')
    (hseen : hop.serverId ∈ hops.map Hop.serverId) (hreceives : hop.Receives bytes') :
    (hop.handshake x).1 = Io.other "Loop detected" := by
  cases hops with
  | nil => simp at hseen
  | cons first rest =>
      obtain ⟨u, hu, -⟩ := (proxyPath x).run_cons_some hrun
      have hstamped := (stamped_nil hbytes hu).run hids hrun
      exact hstamped.loop (List.mem_append_left [] (List.mem_reverse.mpr hseen)) hreceives

theorem receives_of_step (h : (proxyPath x).step bytes hop = some bytes') :
    hop.Receives bytes ∧ ∃ r, (hop.handshake x).1 = .ok r := by
  simp only [proxyPath] at h
  split at h
  · rename_i hreceives
    split at h
    · rename_i addr cache t hrun
      exact ⟨hreceives, (addr, cache), congrArg Prod.fst hrun⟩
    · cases h
  · cases h

theorem nodup_of_run (hbytes : PassedOn bytes) (hids : ∀ hop ∈ hops, PlainId hop.serverId)
    (hrun : (proxyPath x).run bytes hops = some bytes') : (hops.map Hop.serverId).Nodup := by
  induction hops using List.reverseRecOn generalizing bytes' with
  | nil => simp
  | append_singleton hops hop ih =>
      obtain ⟨u, hu, hlast⟩ := (proxyPath x).run_append_eq_some.mp hrun
      have hids' : ∀ other ∈ hops, PlainId other.serverId :=
        fun other hother ↦ hids other (List.mem_append_left _ hother)
      obtain ⟨v, hv, -⟩ := (proxyPath x).run_cons_some hlast
      obtain ⟨hreceives, r, hr⟩ := receives_of_step hv
      have hnew : hop.serverId ∉ hops.map Hop.serverId := by
        intro hseen
        rw [loop_of_run hbytes hids' hu hseen hreceives] at hr
        cases hr
      rw [List.map_append, List.map_singleton, List.nodup_append]
      refine ⟨ih hids' hu, List.pairwise_singleton _ _, ?_⟩
      rintro serverId hmem _ hlastId rfl
      obtain rfl := List.mem_singleton.mp hlastId
      exact hnew hmem

end Stamped

/-- The proxies that have forwarded a request are distinct, and each of them refuses it when it
comes back. -/
theorem loops_are_cut (x : UrlCrate) {bytes bytes' : Bytes} {hops : List Hop}
    (hbytes : PassedOn bytes) (hids : ∀ hop ∈ hops, PlainId hop.serverId)
    (hrun : (proxyPath x).run bytes hops = some bytes') :
    (hops.map Hop.serverId).Nodup ∧
      ∀ hop : Hop, hop.serverId ∈ hops.map Hop.serverId → hop.Receives bytes' →
        (hop.handshake x).1 = Io.other "Loop detected" :=
  ⟨nodup_of_run hbytes hids hrun, fun _ hseen ↦ loop_of_run hbytes hids hrun hseen⟩

def twoHops : List Hop :=
  [⟨.http, "a", .new [asBytes "GET http://h/ HTTP/1.1\r\n\r\nbo", asBytes "dy"]⟩,
    ⟨.htss5, "b", .new [asBytes "GET http://h/ HTTP/1.1\r\nVia: 1.1 a\r\n\r\nbody"]⟩]

def backAtFirst : Hop :=
  ⟨.http, "a", .new [asBytes "GET http://h/ HTTP/1.1\r\nVia: 1.1 b\r\nVia: 1.1 a\r\n\r\nbody"]⟩

theorem loops_are_cut_twoHops :
    (twoHops.map Hop.serverId).Nodup ∧
      (backAtFirst.handshake .plain).1 = Io.other "Loop detected" := by
  have hloops := @loops_are_cut .plain (asBytes "GET http://h/ HTTP/1.1\r\n\r\nbody")
    backAtFirst.arrival.unread twoHops
    (by unfold PassedOn; decide) (by decide) (by decide)
  exact ⟨hloops.1, hloops.2 backAtFirst (by decide) (by decide)⟩

end Rog
