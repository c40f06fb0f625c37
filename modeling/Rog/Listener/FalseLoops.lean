import Rog.Listener.Loops

/-!
# Requests that are taken for loops

A node looks for its id anywhere in a line that it reads as a Via line, also in the line that
another node has put there. On a path of different nodes a request is refused exactly when it
gets to a node whose id occurs in the line of a node before it.
-/

namespace Rog

open Lib StateIo TcpRunStream

/-- The loop check reads the line, and finds the id in it. -/
def Mentions (serverId : String) (line : List Char) : Prop :=
  isVia line ∧ serverId.toList <:+: line

instance (serverId : String) (line : List Char) : Decidable (Mentions serverId line) :=
  inferInstanceAs (Decidable (_ ∧ _))

theorem viaLoop_eq_true_iff {serverId : String} {lines : List (List Char)} :
    viaLoop serverId lines = true ↔ ∃ line ∈ lines, Mentions serverId line := by
  simp [viaLoop, Mentions]

/-- The head of a request, as its first line and the lines behind it. -/
def HasLines (bytes : Bytes) (line : List Char) (headers : List (List Char)) : Prop :=
  ∃ str rest, HasHead bytes str ∧ cut crlf str = some (line, rest) ∧ split crlf rest = headers

theorem HasLines.unique {bytes : Bytes} {line line' : List Char}
    {headers headers' : List (List Char)} (h : HasLines bytes line headers)
    (h' : HasLines bytes line' headers') :
    line = line' ∧ headers = headers' := by
  obtain ⟨str, rest, hhead, hcut, rfl⟩ := h
  obtain ⟨str', rest', hhead', hcut', rfl⟩ := h'
  obtain rfl := hhead.unique hhead'
  obtain ⟨rfl, rfl⟩ := Prod.mk.inj (Option.some.inj (hcut.symm.trans hcut'))
  exact ⟨rfl, rfl⟩

theorem HasLines.withVia {bytes : Bytes} {line : List Char} {headers : List (List Char)}
    {serverId : String} (h : HasLines bytes line headers) (hid : PlainId serverId) :
    HasLines (withVia serverId bytes) line (viaLine serverId :: headers) := by
  obtain ⟨str, rest, hhead, hcut, rfl⟩ := h
  refine ⟨_, viaLine serverId ++ (crlf ++ rest), hhead.withVia hcut hid, ?_, hid.split_viaLine rest⟩
  rw [eq_append_of_cut hcut] at hcut
  exact cut_replace hcut _

def HasAddr (x : UrlCrate) (url : x.Url) : Prop :=
  (x.hostStr url).isSome ∧ (x.portOrKnownDefault url).isSome

theorem runAddr_eq_ok_iff {x : UrlCrate} {req : HttpRequest x} :
    (∃ addr, req.runAddr = .ok addr) ↔ HasAddr x req.ipPort := by
  rw [HttpRequest.runAddr, HasAddr]
  cases x.hostStr req.ipPort <;> cases x.portOrKnownDefault req.ipPort <;>
    simp [Io.raise, bind, Except.bind, pure, Except.pure]

section Step

variable {x : UrlCrate} {bytes bytes' : Bytes} {hop : Hop}

theorem PassedOn.not_isConnect {data before body more : Bytes} {req : HttpRequest x}
    (h : PassedOn (data ++ more)) (hhead : cut headEnd data = some (before, body))
    (hparse : HttpRequest.parse x data = .ok req) : ¬req.IsConnect :=
  fun hreq ↦ h.1 ((connect_prefix_iff hhead hparse more).mpr hreq)

/-- A node that receives a head parses a request if and only if the head is a text and its first
line has a URL. -/
theorem Hop.Receives.parse_iff (hreceives : hop.Receives bytes) {line : List Char}
    {headers : List (List Char)} {url : x.Url} :
    HasLines bytes line headers ∧ firstLineUrl x line = .ok url ↔
      ∃ req, HttpRequest.parse x hop.arrival.firstRead = .ok req ∧ req.ipPort = url ∧
        split crlf req.str = line :: headers := by
  obtain ⟨before, body, hfirst, hsplit⟩ := hreceives.exists_cut
  constructor
  · rintro ⟨⟨str, rest, hhead, hcut, rfl⟩, hurl⟩
    exact ⟨⟨str, some body, line, url⟩, parse_of_hasHead hfirst (hsplit ▸ hhead) hcut hurl, rfl,
      split_of_cut (by decide) hcut⟩
  · rintro ⟨req, hparse, rfl, hlines⟩
    obtain ⟨hstr, -, hurl, rest, hcut⟩ := HttpRequest.parse_eq_ok hfirst hparse
    rw [split_of_cut (by decide) hcut] at hlines
    obtain ⟨rfl, hheaders⟩ := List.cons.inj hlines
    have hwhole := cut_append hfirst hop.arrival.afterFirstRead.flatten
    rw [← hsplit] at hwhole
    exact ⟨⟨req.str, rest, ⟨before, _, hwhole, hstr⟩, hcut, hheaders⟩, hurl⟩

theorem Hop.Receives.exists_lines (hreceives : hop.Receives bytes) {req : HttpRequest x}
    (hparse : HttpRequest.parse x hop.arrival.firstRead = .ok req) :
    ∃ line headers, split crlf req.str = line :: headers ∧ HasLines bytes line headers ∧
      firstLineUrl x line = .ok req.ipPort := by
  obtain ⟨line, headers, hlines⟩ := List.exists_cons_of_ne_nil (split_ne_nil crlf req.str)
  exact ⟨line, headers, hlines, hreceives.parse_iff.mpr ⟨req, hparse, rfl, hlines⟩⟩

theorem Hop.Receives.handshake_eq_serve (hreceives : hop.Receives bytes) (hbytes : PassedOn bytes) :
    ∃ t, hop.handshake x =
      (HttpRequest.serve x hop.serverId hop.arrival.firstRead hop.arrival.writeFails, t) := by
  obtain ⟨t, hrun, -⟩ := hop.listener.runOn_handshake x hop.serverId
    (hreceives.takesHttp hbytes.2) hreceives.firstRead_ne_nil
  exact ⟨t, hrun⟩

theorem serve_of_parse {data : Bytes} {req : HttpRequest x} {serverId : String}
    {writeFails : Option IoError} (hparse : HttpRequest.parse x data = .ok req)
    (hreq : ¬req.IsConnect) :
    HttpRequest.serve x serverId data writeFails =
      if viaLoop serverId (split crlf req.str) then Io.other "Loop detected"
      else req.runAddr.map fun addr ↦ (addr, some ((req.addVia serverId).getD data)) := by
  rw [HttpRequest.serve, hparse]
  simp only [bind, Except.bind, HttpRequest.cache, if_neg hreq]
  by_cases hloop : viaLoop serverId (split crlf req.str) = true
  · simp only [if_pos hloop]
    rfl
  · simp only [if_neg hloop]
    cases req.runAddr <;> rfl

theorem headerStr_ne_loop (bytes : Bytes) : headerStr bytes ≠ Io.other "Loop detected" := by
  rw [headerStr]
  cases fromUtf8 bytes with
  | some s => simp [Io.other, Io.raise]
  | none =>
      intro h
      have htext : utf8Error bytes = "Loop detected" := by simpa [Io.other, Io.raise] using h
      have hhead := utf8Error_head bytes 'L' (by simp [htext])
      cases hhead

theorem firstLineUrl_ne_loop (line : List Char) :
    firstLineUrl x line ≠ Io.other "Loop detected" := by
  unfold firstLineUrl
  split
  · split
    · simp [Io.other, Io.raise]
    · split <;> simp [Io.other, Io.raise]
  · simp [Io.other, Io.raise]

theorem parse_ne_loop (data : Bytes) :
    HttpRequest.parse x data ≠ Io.other "Loop detected" := by
  have hheader : headerAndBody data ≠ Io.other "Loop detected" := by
    unfold headerAndBody
    split
    · exact Io.bind_ne_error (headerStr_ne_loop _) fun a _ h ↦ by cases h
    · exact Io.bind_ne_error (headerStr_ne_loop _) fun a _ h ↦ by cases h
  refine Io.bind_ne_error hheader fun p _ ↦ ?_
  dsimp only
  split
  · simp [Io.raise]
  · exact Io.bind_ne_error (firstLineUrl_ne_loop _) fun url _ h ↦ by cases h

theorem runAddr_map_ne_loop {α : Type} (req : HttpRequest x) (f : RunAddr → α) :
    req.runAddr.map f ≠ Io.other "Loop detected" := by
  rw [HttpRequest.runAddr]
  cases x.hostStr req.ipPort <;> cases x.portOrKnownDefault req.ipPort <;>
    simp [Io.other, Io.raise, bind, Except.bind, pure, Except.pure, Except.map]

/-- A node that receives a request refuses it as a loop if and only if its id stands in a line
that it takes for a Via line. -/
theorem Hop.Receives.loop_iff (hreceives : hop.Receives bytes) (hbytes : PassedOn bytes) :
    (hop.handshake x).1 = Io.other "Loop detected" ↔ ∃ line headers url,
      HasLines bytes line headers ∧ firstLineUrl x line = .ok url ∧
        ∃ text ∈ line :: headers, Mentions hop.serverId text := by
  obtain ⟨t, hserve⟩ := hreceives.handshake_eq_serve (x := x) hbytes
  obtain ⟨before, body, hfirst, hsplit⟩ := hreceives.exists_cut
  rw [hserve]
  cases hparse : HttpRequest.parse x hop.arrival.firstRead with
  | error e =>
      refine iff_of_false ?_ ?_
      · have hne := parse_ne_loop (x := x) hop.arrival.firstRead
        simp only [HttpRequest.serve]
        exact Io.bind_ne_error hne fun req hreq ↦ by rw [hparse] at hreq; cases hreq
      · rintro ⟨line, headers, url, hlines, hurl, -⟩
        obtain ⟨req, hreq, -⟩ := hreceives.parse_iff.mp ⟨hlines, hurl⟩
        rw [hparse] at hreq
        cases hreq
  | ok req =>
      obtain ⟨line, headers, hstr, hlines, hurl⟩ := hreceives.exists_lines hparse
      rw [serve_of_parse hparse ((hsplit ▸ hbytes).not_isConnect hfirst hparse), hstr]
      constructor
      · intro h
        split at h
        · rename_i hloop
          exact ⟨line, headers, _, hlines, hurl, viaLoop_eq_true_iff.mp hloop⟩
        · exact absurd h (runAddr_map_ne_loop req _)
      · rintro ⟨line', headers', url', hlines', -, hmentions⟩
        obtain ⟨rfl, rfl⟩ := hlines.unique hlines'
        rw [if_pos (viaLoop_eq_true_iff.mpr hmentions)]

/-- A node forwards what it receives if and only if it does not take it for a loop and knows where
it goes. -/
theorem Hop.Receives.step_iff (hreceives : hop.Receives bytes) (hbytes : PassedOn bytes) :
    (∃ bytes', (proxyPath x).step bytes hop = some bytes') ↔ ∃ line headers url,
      HasLines bytes line headers ∧ firstLineUrl x line = .ok url ∧ HasAddr x url ∧
        ∀ text ∈ line :: headers, ¬Mentions hop.serverId text := by
  obtain ⟨t, hserve⟩ := hreceives.handshake_eq_serve (x := x) hbytes
  obtain ⟨before, body, hfirst, hsplit⟩ := hreceives.exists_cut
  have hconnect (req : HttpRequest x)
      (hparse : HttpRequest.parse x hop.arrival.firstRead = .ok req) : ¬req.IsConnect :=
  (hsplit ▸ hbytes).not_isConnect hfirst hparse
  simp only [proxyPath, if_pos hreceives, hserve]
  constructor
  · rintro ⟨bytes', h⟩
    split at h
    · rename_i addr cache u hok
      obtain ⟨hok, -⟩ := Prod.mk.inj hok
      obtain ⟨req, hparse, -, haddr⟩ := HttpRequest.serve_eq_ok.mp hok
      obtain ⟨line, headers, hstr, hlines, hurl⟩ := hreceives.exists_lines hparse
      refine ⟨line, headers, _, hlines, hurl, runAddr_eq_ok_iff.mp ⟨addr, haddr⟩, ?_⟩
      intro text htext hmentions
      rw [serve_of_parse hparse (hconnect req hparse), hstr,
        if_pos (viaLoop_eq_true_iff.mpr ⟨text, htext, hmentions⟩)] at hok
      cases hok
    · cases h
  · rintro ⟨line, headers, url, hlines, hurl, haddr, hclear⟩
    obtain ⟨req, hparse, rfl, hstr⟩ := hreceives.parse_iff.mp ⟨hlines, hurl⟩
    obtain ⟨addr, haddr⟩ := runAddr_eq_ok_iff.mpr haddr
    have hloop : viaLoop hop.serverId (split crlf req.str) ≠ true := by
      rw [hstr, Ne, viaLoop_eq_true_iff]
      rintro ⟨text, htext, hmentions⟩
      exact hclear text htext hmentions
    rw [serve_of_parse hparse (hconnect req hparse), if_neg hloop, haddr]
    exact ⟨_, rfl⟩

end Step

/-! ## Paths -/

/-- What the nodes `before` have made of a request of the lines `line` and `headers`. -/
structure Carried (line : List Char) (headers : List (List Char)) (before : List Hop)
    (bytes : Bytes) : Prop where
  passedOn : PassedOn bytes
  lines : HasLines bytes line
    ((before.map fun hop ↦ viaLine hop.serverId).reverse ++ headers)

/-- No node that the request gets to finds its id in the first line or in the line of a node
before it: the first node is got to if the first line has a URL, the nodes behind it if the URL
also has a host and a port. -/
def Distinguished (x : UrlCrate) (bytes : Bytes) (hops : List Hop) : Prop :=
  ∀ line headers url, HasLines bytes line headers → firstLineUrl x line = .ok url →
    ∀ before hop, before ++ [hop] <+: hops → before = [] ∨ HasAddr x url →
      ¬Mentions hop.serverId line ∧
        ∀ earlier ∈ before, ¬hop.serverId.toList <:+: viaLine earlier.serverId

section Path

variable {x : UrlCrate} {line : List Char} {headers : List (List Char)} {url : x.Url}
  {before hops : List Hop} {hop : Hop} {bytes bytes' : Bytes}

theorem Carried.step (h : Carried line headers before bytes) (hid : PlainId hop.serverId)
    (hstep : (proxyPath x).step bytes hop = some bytes') :
    Carried line headers (before ++ [hop]) bytes' := by
  obtain ⟨-, rfl, -⟩ := forward_cases h.passedOn hstep
  refine ⟨passedOn_withVia _ h.passedOn, ?_⟩
  simpa using h.lines.withVia hid

theorem mentions_iff (hvia : ∀ header ∈ headers, ¬isVia header) {serverId : String} :
    (∃ text ∈ line :: ((before.map fun hop ↦ viaLine hop.serverId).reverse ++ headers),
        Mentions serverId text) ↔
      Mentions serverId line ∨
        ∃ earlier ∈ before, serverId.toList <:+: viaLine earlier.serverId := by
  constructor
  · rintro ⟨text, htext, hmentions⟩
    rcases List.mem_cons.mp htext with rfl | htext
    · exact .inl hmentions
    rcases List.mem_append.mp htext with hnode | hheader
    · obtain ⟨earlier, hearlier, rfl⟩ := List.mem_map.mp (List.mem_reverse.mp hnode)
      exact .inr ⟨earlier, hearlier, hmentions.2⟩
    · exact absurd hmentions.1 (hvia text hheader)
  · rintro (hmentions | ⟨earlier, hearlier, hid⟩)
    · exact ⟨line, List.mem_cons_self, hmentions⟩
    · refine ⟨viaLine earlier.serverId, List.mem_cons_of_mem line (List.mem_append_left _ ?_),
        isVia_viaLine _, hid⟩
      exact List.mem_reverse.mpr (List.mem_map.mpr ⟨earlier, hearlier, rfl⟩)

theorem Carried.loop_iff (h : Carried line headers before bytes)
    (hurl : firstLineUrl x line = .ok url) (hvia : ∀ header ∈ headers, ¬isVia header)
    (hreceives : hop.Receives bytes) :
    (hop.handshake x).1 = Io.other "Loop detected" ↔ Mentions hop.serverId line ∨
      ∃ earlier ∈ before, hop.serverId.toList <:+: viaLine earlier.serverId := by
  rw [hreceives.loop_iff h.passedOn, ← mentions_iff hvia]
  constructor
  · rintro ⟨line', headers', url', hlines, -, hmentions⟩
    obtain ⟨rfl, rfl⟩ := hlines.unique h.lines
    exact hmentions
  · exact fun hmentions ↦ ⟨line, _, url, h.lines, hurl, hmentions⟩

theorem forall_isPrefix_cons_iff {P : List Hop → Hop → Prop} :
    (∀ mid other, mid ++ [other] <+: hop :: hops → P mid other) ↔
      P [] hop ∧ ∀ mid other, mid ++ [other] <+: hops → P (hop :: mid) other := by
  constructor
  · refine fun h ↦ ⟨h [] hop (List.prefix_append [hop] hops), fun mid other hmid ↦ ?_⟩
    exact h (hop :: mid) other (List.cons_prefix_cons.mpr ⟨rfl, hmid⟩)
  · rintro ⟨hfirst, hrest⟩ mid other hmid
    cases mid with
    | nil =>
        obtain ⟨rfl, -⟩ := List.cons_prefix_cons.mp hmid
        exact hfirst
    | cons first mid =>
        obtain ⟨rfl, htail⟩ := List.cons_prefix_cons.mp hmid
        exact hrest mid other htail

/-- The rest of the path of a request that is readable and has passed the nodes `before`. -/
theorem Carried.along_iff (h : Carried line headers before bytes)
    (hurl : firstLineUrl x line = .ok url) (haddr : HasAddr x url)
    (hvia : ∀ header ∈ headers, ¬isVia header) (hids : ∀ hop ∈ hops, PlainId hop.serverId)
    (hreceives : (proxyPath x).Along (fun bytes hop ↦ hop.Receives bytes) bytes hops) :
    (proxyPath x).Along (fun _ hop ↦ (hop.handshake x).1 ≠ Io.other "Loop detected") bytes hops ↔
      ∀ mid hop, mid ++ [hop] <+: hops → ¬Mentions hop.serverId line ∧
        ∀ earlier ∈ before ++ mid, ¬hop.serverId.toList <:+: viaLine earlier.serverId := by
  induction hops generalizing before bytes with
  | nil =>
      refine iff_of_true trivial fun mid hop hfront ↦ ?_
      exact absurd (List.prefix_nil.mp hfront) (by simp)
  | cons hop hops ih =>
      obtain ⟨hfirst, hrest⟩ := hreceives
      have hloop := h.loop_iff hurl hvia hfirst
      rw [forall_isPrefix_cons_iff, List.append_nil]
      by_cases hmentions : Mentions hop.serverId line ∨
          ∃ earlier ∈ before, hop.serverId.toList <:+: viaLine earlier.serverId
      · refine iff_of_false (fun halong ↦ halong.1 (hloop.mpr hmentions)) ?_
        rintro ⟨⟨hline, hbefore⟩, -⟩
        rcases hmentions with hmentions | ⟨earlier, hearlier, hid⟩
        · exact hline hmentions
        · exact hbefore earlier hearlier hid
      · obtain ⟨bytes', hstep⟩ : ∃ bytes', (proxyPath x).step bytes hop = some bytes' := by
          refine (hfirst.step_iff h.passedOn).mpr ⟨line, _, url, h.lines, hurl, haddr, ?_⟩
          exact fun text htext htext' ↦ hmentions ((mentions_iff hvia).mp ⟨text, htext, htext'⟩)
        have hcarried := h.step (hids hop (by simp)) hstep
        have hids' : ∀ other ∈ hops, PlainId other.serverId :=
          fun other hother ↦ hids other (List.mem_cons_of_mem hop hother)
        rw [Machine.along_cons_iff hstep, ih hcarried hids' (hrest bytes' hstep)]
        simp only [List.append_assoc, List.singleton_append]
        refine and_congr_left fun _ ↦ iff_of_true (fun h ↦ hmentions (hloop.mp h)) ?_
        exact ⟨fun h ↦ hmentions (.inl h),
          fun earlier hearlier hid ↦ hmentions (.inr ⟨earlier, hearlier, hid⟩)⟩

theorem distinguished_iff (hlines : HasLines bytes line headers)
    (hurl : firstLineUrl x line = .ok url) :
    Distinguished x bytes hops ↔ ∀ before hop, before ++ [hop] <+: hops →
      before = [] ∨ HasAddr x url → ¬Mentions hop.serverId line ∧
        ∀ earlier ∈ before, ¬hop.serverId.toList <:+: viaLine earlier.serverId := by
  refine ⟨fun h ↦ h line headers url hlines hurl, fun h line' headers' url' hlines' hurl' ↦ ?_⟩
  obtain ⟨rfl, rfl⟩ := hlines.unique hlines'
  obtain rfl := Except.ok.inj (hurl.symm.trans hurl')
  exact h

/-- A request that no node knows the way of gets to the first node only. -/
theorem along_of_not_hasAddr (hbytes : PassedOn bytes) (hlines : HasLines bytes line headers)
    (hurl : firstLineUrl x line = .ok url) (haddr : ¬HasAddr x url)
    (hvia : ∀ header ∈ headers, ¬isVia header)
    (hreceives : hop.Receives bytes) :
    (proxyPath x).Along (fun _ hop ↦ (hop.handshake x).1 ≠ Io.other "Loop detected") bytes
      (hop :: hops) ↔ ¬Mentions hop.serverId line := by
  have hcarried : Carried line headers [] bytes := ⟨hbytes, hlines⟩
  have hloop := hcarried.loop_iff hurl hvia hreceives
  have hstuck : ∀ bytes', (proxyPath x).step bytes hop ≠ some bytes' := by
    intro bytes' hstep
    obtain ⟨line', headers', url', hlines', hurl', haddr', -⟩ :=
      (hreceives.step_iff hbytes).mp ⟨bytes', hstep⟩
    obtain ⟨rfl, rfl⟩ := hlines.unique hlines'
    obtain rfl := Except.ok.inj (hurl.symm.trans hurl')
    exact haddr haddr'
  constructor
  · exact fun halong hmentions ↦ halong.1 (hloop.mpr (.inl hmentions))
  · refine fun hclear ↦ ⟨fun h ↦ ?_, fun bytes' hstep ↦ absurd hstep (hstuck bytes')⟩
    simpa [hclear] using hloop.mp h

/-- A request that cannot be read gets to the first node only. -/
theorem along_of_unreadable (hbytes : PassedOn bytes)
    (hread : ∀ line headers url, HasLines bytes line headers → firstLineUrl x line ≠ .ok url)
    (hreceives : hop.Receives bytes) :
    (proxyPath x).Along (fun _ hop ↦ (hop.handshake x).1 ≠ Io.other "Loop detected") bytes
      (hop :: hops) := by
  refine ⟨fun h ↦ ?_, fun bytes' hstep ↦ ?_⟩
  · obtain ⟨line, headers, url, hlines, hurl, -⟩ := (hreceives.loop_iff hbytes).mp h
    exact hread line headers url hlines hurl
  · obtain ⟨line, headers, url, hlines, hurl, -⟩ :=
      (hreceives.step_iff hbytes).mp ⟨bytes', hstep⟩
    exact absurd hurl (hread line headers url hlines)

end Path

/-- No node of a path takes a request that has no Via line for a loop if and only if none of the
nodes that it gets to finds its id in a line of another node, or in a first line that reads like
a Via line. -/
theorem no_false_loop_iff (x : UrlCrate) {bytes : Bytes} {hops : List Hop}
    (hbytes : PassedOn bytes)
    (hvia : ∀ line headers, HasLines bytes line headers → ∀ header ∈ headers, ¬isVia header)
    (hids : ∀ hop ∈ hops, PlainId hop.serverId)
    (hreceives : (proxyPath x).Along (fun bytes hop ↦ hop.Receives bytes) bytes hops) :
    (proxyPath x).Along (fun _ hop ↦ (hop.handshake x).1 ≠ Io.other "Loop detected") bytes hops ↔
      Distinguished x bytes hops := by
  cases hops with
  | nil =>
      refine iff_of_true trivial fun _ _ _ _ _ before hop hfront ↦ ?_
      exact absurd (List.prefix_nil.mp hfront) (by simp)
  | cons hop hops =>
      by_cases hread : ∀ line headers url, HasLines bytes line headers → firstLineUrl x line ≠ .ok url
      · refine iff_of_true (along_of_unreadable hbytes hread hreceives.1) ?_
        exact fun line headers url hlines hurl ↦ absurd hurl (hread line headers url hlines)
      · push Not at hread
        obtain ⟨line, headers, url, hlines, hurl⟩ := hread
        rw [distinguished_iff hlines hurl]
        by_cases haddr : HasAddr x url
        · have hcarried : Carried line headers [] bytes := ⟨hbytes, hlines⟩
          rw [hcarried.along_iff hurl haddr (hvia line headers hlines) hids hreceives]
          simp [haddr]
        · rw [along_of_not_hasAddr hbytes hlines hurl haddr (hvia line headers hlines) hreceives.1,
            forall_isPrefix_cons_iff]
          simp [haddr]

theorem hasLines_get : HasLines (asBytes "GET http://h/ HTTP/1.1\r\n\r\nbody")
    "GET http://h/ HTTP/1.1".toList [[], []] :=
  ⟨"GET http://h/ HTTP/1.1\r\n\r\n".toList, crlf,
    ⟨asBytes "GET http://h/ HTTP/1.1", asBytes "body", by decide, by decide⟩,
    by decide, by decide⟩

theorem noVia_get {line : List Char} {headers : List (List Char)}
    (h : HasLines (asBytes "GET http://h/ HTTP/1.1\r\n\r\nbody") line headers) :
    ∀ header ∈ headers, ¬isVia header := by
  obtain ⟨-, rfl⟩ := hasLines_get.unique h
  decide

theorem no_false_loop_twoHops :
    (proxyPath .plain).Along (fun _ hop ↦ (hop.handshake .plain).1 ≠ Io.other "Loop detected")
      (asBytes "GET http://h/ HTTP/1.1\r\n\r\nbody") twoHops := by
  refine (no_false_loop_iff .plain (by unfold PassedOn; decide) (fun _ _ ↦ noVia_get)
    (by decide) (by decide)).mpr ?_
  have hurl : firstLineUrl .plain "GET http://h/ HTTP/1.1".toList = .ok ("h", none) := rfl
  refine (distinguished_iff hasLines_get hurl).mpr ?_
  rw [twoHops, forall_isPrefix_cons_iff, forall_isPrefix_cons_iff]
  refine ⟨fun _ ↦ ⟨by decide, by simp⟩, fun _ ↦ ⟨by decide, by decide⟩, ?_⟩
  intro mid hop hfront
  exact absurd (List.prefix_nil.mp hfront) (by simp)

/-- The id of the second node is a part of the first one's. -/
def nestedIds : List Hop :=
  [⟨.http, "edge-1", .new [asBytes "GET http://h/ HTTP/1.1\r\n\r\nbody"]⟩,
    ⟨.http, "edge", .new [asBytes "GET http://h/ HTTP/1.1\r\nVia: 1.1 edge-1\r\n\r\nbody"]⟩]

theorem nested_id_taken_for_loop :
    (nestedIds.map Hop.serverId).Nodup ∧ (∀ hop ∈ nestedIds, PlainId hop.serverId) ∧
      ¬asBytes "CONNECT" <+: requestLine (asBytes "GET http://h/ HTTP/1.1\r\n\r\nbody") ∧
      (∀ line headers, HasLines (asBytes "GET http://h/ HTTP/1.1\r\n\r\nbody") line headers →
        ∀ header ∈ headers, ¬isVia header) ∧
      (proxyPath .plain).Along (fun bytes hop ↦ hop.Receives bytes)
        (asBytes "GET http://h/ HTTP/1.1\r\n\r\nbody") nestedIds ∧
      ¬(proxyPath .plain).Along (fun _ hop ↦ (hop.handshake .plain).1 ≠ Io.other "Loop detected")
        (asBytes "GET http://h/ HTTP/1.1\r\n\r\nbody") nestedIds :=
  ⟨by decide, by decide, by decide, fun _ _ ↦ noVia_get,
    by decide, by decide⟩

end Rog
