import Rog.Listener.HttpFidelity

/-!
# The target of a request

The address that a handshake returns is that of the text which its first read gives to the
`url` crate: the part of the request target that is in it.
-/

namespace Rog

open Lib StateIo TcpRunStream

def UrlCrate.address (x : UrlCrate) (text : String) : Option RunAddr :=
  match x.parse text with
  | .error _ => none
  | .ok ipPort => do
      let host ← x.hostStr ipPort
      let port ← x.portOrKnownDefault ipPort
      return ⟨host, port, false⟩

/-- The target that a first line gives to the crate. -/
def lineTarget (fLine : List Char) : Option (List Char) :=
  match split [' '] fLine with
  | _ :: target :: _ => if target.head? = some '/' then none else some target
  | _ => none

/-- A CONNECT that cannot be answered, or a loop. -/
def Refused (serverId : String) (writeFails : Option IoError) (str fLine : List Char) : Prop :=
  if "CONNECT".toList <+: fLine then writeFails ≠ none
  else viaLoop serverId (split crlf str) = true

instance (serverId : String) (writeFails : Option IoError) (str fLine : List Char) :
    Decidable (Refused serverId writeFails str fLine) := by
  unfold Refused
  infer_instance

/-- The text of a first read whose handshake fails at most for what the crate makes of it. -/
def urlText (serverId : String) (data : Bytes) (writeFails : Option IoError) : Option String :=
  match headerAndBody data with
  | .error _ => none
  | .ok (str, _) => do
      let fLine ← (split crlf str).head?
      if Refused serverId writeFails str fLine then none
      else
        let target ← lineTarget fLine
        return requestUrl target

section Serve

variable {x : UrlCrate} {serverId : String} {data : Bytes} {writeFails : Option IoError}

theorem urlText_eq_some {text : String} : urlText serverId data writeFails = some text ↔
    ∃ str bodyBytes fLine target, headerAndBody data = .ok (str, bodyBytes) ∧
      (split crlf str).head? = some fLine ∧ ¬Refused serverId writeFails str fLine ∧
      lineTarget fLine = some target ∧ text = requestUrl target := by
  unfold urlText
  cases hheader : headerAndBody data with
  | error e => simp
  | ok p =>
      obtain ⟨str, bodyBytes⟩ := p
      cases hhead : (split crlf str).head? with
      | none => simp [hhead]
      | some fLine =>
          by_cases hrefused : Refused serverId writeFails str fLine
          · simp [hhead, hrefused]
          · cases htarget : lineTarget fLine <;> simp [hhead, hrefused, htarget, eq_comm]

theorem firstLineUrl_eq_ok {fLine : List Char} {url : x.Url} :
    firstLineUrl x fLine = .ok url ↔
      ∃ target, lineTarget fLine = some target ∧ x.parse (requestUrl target) = .ok url := by
  obtain ⟨parts, hparts⟩ : ∃ parts, split [' '] fLine = parts := ⟨_, rfl⟩
  simp only [firstLineUrl, lineTarget, hparts]
  cases parts with
  | nil => simp [Io.raise]
  | cons method rest =>
    cases rest with
    | nil => simp [Io.raise]
    | cons target version =>
      by_cases hslash : target.head? = some '/'
      · simp [hslash, Io.raise]
      · simp only [hslash, if_false, Option.some.injEq, exists_eq_left']
        cases x.parse (requestUrl target) <;> simp [Io.raise]

theorem HttpRequest.runAddr_eq_ok {req : HttpRequest x} {addr : RunAddr} :
    req.runAddr = .ok addr ↔ ∃ host port, x.hostStr req.ipPort = some host ∧
      x.portOrKnownDefault req.ipPort = some port ∧ addr = ⟨host, port, false⟩ := by
  unfold HttpRequest.runAddr
  cases x.hostStr req.ipPort <;> cases x.portOrKnownDefault req.ipPort <;>
    simp [bind, Except.bind, pure, Except.pure, Io.raise, eq_comm]

theorem UrlCrate.address_eq_some {text : String} {addr : RunAddr} :
    x.address text = some addr ↔ ∃ url, x.parse text = .ok url ∧ ∃ host port,
      x.hostStr url = some host ∧ x.portOrKnownDefault url = some port ∧
        addr = ⟨host, port, false⟩ := by
  unfold UrlCrate.address
  cases x.parse text with
  | error e => simp
  | ok url =>
      simp only [Except.ok.injEq, exists_eq_left']
      cases x.hostStr url <;> cases x.portOrKnownDefault url <;> simp [eq_comm]

theorem HttpRequest.exists_cache_iff (data : Bytes) (req : HttpRequest x) :
    (∃ cache, req.cache serverId data writeFails = .ok cache) ↔
      ¬Refused serverId writeFails req.str req.fLine := by
  by_cases hconnect : "CONNECT".toList <+: req.fLine
  · have hreq : req.IsConnect := hconnect
    simp only [cache, if_pos hreq, Refused, if_pos hconnect]
    cases writeFails <;> simp
  · have hreq : ¬req.IsConnect := hconnect
    simp only [cache, if_neg hreq, Refused, if_neg hconnect]
    by_cases hloop : viaLoop serverId (split crlf req.str) = true <;>
      simp [hloop, Io.other, Io.raise]

theorem serve_address_iff {addr : RunAddr} :
    (∃ cache, HttpRequest.serve x serverId data writeFails = .ok (addr, cache)) ↔
      ∃ text, urlText serverId data writeFails = some text ∧ x.address text = some addr := by
  simp only [HttpRequest.serve_eq_ok, urlText]
  cases hheader : headerAndBody data with
  | error e => simp [HttpRequest.parse, hheader, bind, Except.bind]
  | ok p =>
      obtain ⟨str, bodyBytes⟩ := p
      obtain ⟨fLine, rest, hlines⟩ := List.exists_cons_of_ne_nil (split_ne_nil crlf str)
      have hhead : (split crlf str).head? = some fLine := by rw [hlines, List.head?_cons]
      have hparse (req : HttpRequest x) : HttpRequest.parse x data = .ok req ↔
          ∃ url, firstLineUrl x fLine = .ok url ∧ req = ⟨str, bodyBytes, fLine, url⟩ := by
        simp only [HttpRequest.parse, hheader, bind, Except.bind, hhead]
        cases firstLineUrl x fLine <;> simp [pure, Except.pure, eq_comm]
      simp only [hparse, hhead, Option.bind_eq_bind, Option.bind_some]
      constructor
      · rintro ⟨cache, _, ⟨url, hurl, rfl⟩, hcache, haddr⟩
        obtain ⟨target, htarget, hparsed⟩ := firstLineUrl_eq_ok.mp hurl
        have hserved := (HttpRequest.exists_cache_iff data _).mp ⟨cache, hcache⟩
        refine ⟨requestUrl target, ?_, UrlCrate.address_eq_some.mpr ⟨url, hparsed, ?_⟩⟩
        · rw [if_neg hserved, htarget]
          rfl
        · exact HttpRequest.runAddr_eq_ok.mp haddr
      · rintro ⟨text, htext, haddr⟩
        by_cases hserved : Refused serverId writeFails str fLine
        · rw [if_pos hserved] at htext
          cases htext
        · rw [if_neg hserved] at htext
          obtain ⟨target, htarget, htext⟩ := Option.bind_eq_some_iff.mp htext
          obtain rfl := Option.some.inj htext
          obtain ⟨url, hparsed, hurl⟩ := UrlCrate.address_eq_some.mp haddr
          obtain ⟨cache, hcache⟩ :=
            (HttpRequest.exists_cache_iff data ⟨str, bodyBytes, fLine, url⟩).mpr hserved
          exact ⟨cache, _, ⟨url, firstLineUrl_eq_ok.mpr ⟨target, htarget, hparsed⟩, rfl⟩, hcache,
            HttpRequest.runAddr_eq_ok.mpr hurl⟩

end Serve

namespace TcpRunStream

/-- What the first read of a stream gives to the crate. -/
def urlText (serverId : String) (s : TcpRunStream) : Option String :=
  Rog.urlText serverId s.firstRead s.writeFails

end TcpRunStream

theorem handshake_address_iff {x : UrlCrate} {serverId : String} {node : HttpListener}
    {s : TcpRunStream} (hnode : node.TakesHttp s) {addr : RunAddr} :
    (∃ cache t, (node.handshake x serverId).runOn s = (.ok (addr, cache), t)) ↔
      ∃ text, s.urlText serverId = some text ∧ x.address text = some addr := by
  rw [TcpRunStream.urlText, ← serve_address_iff]
  constructor
  · rintro ⟨cache, t, hrun⟩
    exact ⟨cache, (HttpListener.handshake_eq_ok hnode hrun).2⟩
  · rintro ⟨cache, hserve⟩
    have hs : s.firstRead ≠ [] := by
      intro hnil
      rw [hnil] at hserve
      cases hserve
    obtain ⟨t, hrun, -⟩ := node.runOn_handshake x serverId hnode hs
    exact ⟨cache, t, hrun.trans (by rw [hserve])⟩

/-! ## Request heads -/

/-- A request head. Its first line has a method and a target in front of what is left of it. -/
structure RequestHead where
  method : Bytes
  target : Bytes
  rest : Bytes
  method_ok : 32 ∉ method ∧ 13 ∉ method
  target_ok : 32 ∉ target ∧ 13 ∉ target
  complete : cut headEnd (rest ++ headEnd) = some (rest, [])

namespace RequestHead

def bytes (r : RequestHead) : Bytes :=
  r.method ++ 32 :: (r.target ++ 32 :: (r.rest ++ headEnd))

/-- How much of the target a first read has. -/
def reached (r : RequestHead) (s : TcpRunStream) : ℕ :=
  s.firstRead.length - (r.method.length + 1)

/-- The part of the head that a first read has. -/
def header (r : RequestHead) (s : TcpRunStream) : Bytes := r.bytes.take s.firstRead.length

/-- The first read of `s` is refused, whatever the `url` crate makes of its target. -/
inductive Refuses (r : RequestHead) (serverId : String) (s : TcpRunStream) : Prop
  | noTarget (hread : s.firstRead.length ≤ r.method.length)
  | notUtf8 (hheader : ∀ str, utf8 str ≠ r.header s)
  | originForm (hslash : (r.target.take (r.reached s)).head? = some 47)
  | unanswered (hconnect : asBytes "CONNECT" <+: r.method) (hwrite : s.writeFails ≠ none)
  | loop {str : List Char} (hconnect : ¬asBytes "CONNECT" <+: r.method)
      (hheader : utf8 str = r.header s) (hvia : viaLoop serverId (split crlf str) = true)

end RequestHead

theorem requestLine_append (front more : Bytes) (h : 13 ∉ front) :
    requestLine (front ++ more) = front ++ requestLine more := by
  have hne : ∀ b ∈ front, b ≠ 13 := fun b hb ↦ ne_of_mem_of_not_mem hb h
  rw [requestLine, requestLine, lineEnd, cut_append_of_ne [10] hne]
  cases cut [13, 10] more with
  | none => rfl
  | some p => rfl

theorem exists_firstLine (str : List Char) : ∃ fLine, (split crlf str).head? = some fLine ∧
    utf8 fLine = requestLine (utf8 str) := by
  rw [split_eq (by decide), requestLine, cut_lineEnd_utf8]
  cases cut crlf str with
  | none => exact ⟨str, rfl, rfl⟩
  | some p => exact ⟨p.1, rfl, rfl⟩

theorem exists_cut_space {line : List Char} {word more : Bytes} (hword : 32 ∉ word)
    (h : utf8 line = word ++ 32 :: more) :
    ∃ before after, cut [' '] line = some (before, after) ∧ utf8 before = word ∧
      utf8 after = more := by
  have hcut := cut_utf8 (by decide : Ascii [' ']) (by decide) line
  have hfront : cut [32] (32 :: more) = some ([], more) :=
    cut_of_isPrefix (List.prefix_append [32] more)
  rw [h, (by decide : utf8 [' '] = [32]),
    cut_append_of_ne [] fun b hb ↦ ne_of_mem_of_not_mem hb hword, hfront] at hcut
  obtain ⟨⟨before, after⟩, hline, heq⟩ := Option.map_eq_some_iff.mp hcut.symm
  obtain ⟨hbefore, hafter⟩ := Prod.mk.inj heq
  exact ⟨before, after, hline, hbefore.trans (List.append_nil word), hafter⟩

theorem cut_space_eq_none {line : List Char} (h : 32 ∉ utf8 line) : cut [' '] line = none := by
  refine cut_eq_none_iff.mpr fun hspace ↦ h ?_
  obtain ⟨before, after, rfl⟩ := hspace
  rw [utf8_append, utf8_append]
  exact List.mem_append_left _ (List.mem_append_right _ (by decide))

/-- The target of a line is its second word, in whatever form that ends. -/
theorem exists_lineTarget {fLine : List Char} {method target more : Bytes} (hmethod : 32 ∉ method)
    (htarget : 32 ∉ target) (hmore : ∀ b ∈ more.head?, b = 32)
    (h : utf8 fLine = method ++ 32 :: (target ++ more)) :
    ∃ t, utf8 t = target ∧
      lineTarget fLine = if t.head? = some '/' then none else some t := by
  obtain ⟨m, after, hline, -, hafter⟩ := exists_cut_space hmethod h
  cases more with
  | nil =>
      rw [List.append_nil] at hafter
      have hnone : cut [' '] after = none := cut_space_eq_none (hafter ▸ htarget)
      refine ⟨after, hafter, ?_⟩
      rw [lineTarget, split_of_cut (by decide) hline, split_eq (by decide), hnone]
  | cons b more =>
      obtain rfl : b = 32 := hmore b rfl
      obtain ⟨t, rest, hrest, ht, -⟩ := exists_cut_space htarget hafter
      refine ⟨t, ht, ?_⟩
      rw [lineTarget, split_of_cut (by decide) hline, split_of_cut (by decide) hrest]

theorem head?_utf8_slash (t : List Char) : (utf8 t).head? = some 47 ↔ t.head? = some '/' := by
  rw [← List.singleton_prefix_iff_head?_eq_some, ← List.singleton_prefix_iff_head?_eq_some]
  exact utf8_prefix_iff (by decide : Ascii ['/'])

namespace TcpRunStream

theorem firstRead_eq_take {s : TcpRunStream} {bytes : Bytes} (h : s.unread = bytes) :
    s.firstRead = bytes.take s.firstRead.length := by
  rw [← h, s.unread_eq, List.take_left]

end TcpRunStream

namespace RequestHead

variable {r : RequestHead} {body : Bytes} {serverId : String} {s : TcpRunStream}

theorem exists_cut_bytes (r : RequestHead) :
    ∃ before, cut headEnd r.bytes = some (before, []) ∧ r.bytes = before ++ headEnd := by
  have hbytes : r.bytes = (r.method ++ 32 :: (r.target ++ [32])) ++ (r.rest ++ headEnd) := by
    simp [bytes]
  have hne : ∀ b ∈ r.method ++ 32 :: (r.target ++ [32]), b ≠ 13 := by
    intro b hb
    simp only [List.mem_append, List.mem_cons, List.not_mem_nil, or_false] at hb
    rcases hb with hb | rfl | hb | rfl
    · exact ne_of_mem_of_not_mem hb r.method_ok.2
    · decide
    · exact ne_of_mem_of_not_mem hb r.target_ok.2
    · decide
  have hcut : cut headEnd r.bytes =
      some (r.method ++ 32 :: (r.target ++ [32]) ++ r.rest, []) := by
    rw [hbytes, headEnd, cut_append_of_ne _ hne]
    exact congrArg _ r.complete
  exact ⟨_, hcut, eq_append_of_cut hcut⟩

/-- A first read that ends in the head has the text of what it has, one that does not has that of
the head. -/
theorem headerAndBody_iff (hs : s.unread = r.bytes ++ body) {str : List Char} :
    (∃ bodyBytes, headerAndBody s.firstRead = .ok (str, bodyBytes)) ↔ utf8 str = r.header s := by
  obtain ⟨before, hcut, hbytes⟩ := r.exists_cut_bytes
  obtain hlt | hle := Nat.lt_or_ge s.firstRead.length r.bytes.length
  · have hread : s.firstRead = r.header s := by
      have htake := firstRead_eq_take hs
      rwa [List.take_append_of_le_length hlt.le] at htake
    have hnone : cut headEnd s.firstRead = none := by
      cases hfirst : cut headEnd s.firstRead with
      | none => rfl
      | some p =>
          -- a head that ends here is the whole of it
          have hwhole := cut_append hfirst (r.bytes.drop s.firstRead.length)
          rw [hread, header, List.length_take_of_le hlt.le, List.take_append_drop, hcut] at hwhole
          obtain ⟨-, hnil⟩ := Prod.mk.inj (Option.some.inj hwhole)
          have hdrop := (List.append_eq_nil_iff.mp hnil.symm).2
          exact absurd (List.drop_eq_nil_iff.mp hdrop) (Nat.not_le_of_lt hlt)
    rw [headerAndBody, hnone, ← hread]
    constructor
    · rintro ⟨bodyBytes, h⟩
      obtain ⟨str', hstr, h⟩ := Io.bind_eq_ok h
      obtain ⟨rfl, -⟩ := Prod.mk.inj (Except.ok.inj h)
      exact headerStr_eq_ok.mp hstr
    · intro hstr
      exact ⟨none, by simp only [headerStr_eq_ok.mpr hstr, bind, Except.bind, pure, Except.pure]⟩
  · have hread : s.firstRead = r.bytes ++ body.take (s.firstRead.length - r.bytes.length) := by
      have htake := firstRead_eq_take hs
      rwa [List.take_append, List.take_of_length_le hle] at htake
    have hhead := cut_append hcut (body.take (s.firstRead.length - r.bytes.length))
    rw [← hread] at hhead
    rw [header, List.take_of_length_le hle, hbytes]
    constructor
    · rintro ⟨bodyBytes, h⟩
      exact ((headerAndBody_eq_ok hhead).mp h).1
    · exact fun hstr ↦ ⟨_, (headerAndBody_eq_ok hhead).mpr ⟨hstr, rfl⟩⟩

/-- The part of the header that is behind its method. -/
theorem exists_header_eq (hread : r.method.length < s.firstRead.length) :
    ∃ more, r.header s = r.method ++ 32 :: (r.target.take (r.reached s) ++ more) ∧
      ∀ b ∈ more.head?, b = 32 := by
  obtain ⟨n, hn⟩ := Nat.exists_eq_add_of_lt hread
  refine ⟨(32 :: (r.rest ++ headEnd)).take (n - r.target.length), ?_, ?_⟩
  · have hreached : r.reached s = n := by
      rw [reached, hn]
      omega
    rw [header, hreached, hn, bytes, Nat.add_assoc, List.take_length_add_append,
      List.take_succ_cons, List.take_append]
  · cases n - r.target.length with
    | zero => simp
    | succ n => simp

theorem exists_read_line (hread : r.method.length < s.firstRead.length) {str : List Char}
    (hstr : utf8 str = r.header s) : ∃ fLine t, (split crlf str).head? = some fLine ∧
      utf8 t = r.target.take (r.reached s) ∧
      lineTarget fLine = (if t.head? = some '/' then none else some t) ∧
      ("CONNECT".toList <+: fLine ↔ asBytes "CONNECT" <+: r.method) := by
  obtain ⟨fLine, hhead, hline⟩ := exists_firstLine str
  obtain ⟨more, hheader, hmore⟩ := exists_header_eq hread
  have htarget {b : UInt8} (hb : b ∉ r.target) : b ∉ r.target.take (r.reached s) :=
    fun h ↦ hb (List.mem_of_mem_take h)
  have hfront : 13 ∉ r.method ++ 32 :: r.target.take (r.reached s) := by
    simp [r.method_ok.2, htarget r.target_ok.2]
  have hafter : ∀ b ∈ (requestLine more).head?, b = 32 := by
    cases more with
    | nil => simp [requestLine, cut, lineEnd]
    | cons b more =>
        obtain rfl : b = 32 := hmore b rfl
        have hspace := requestLine_append [32] more (by decide)
        rw [List.singleton_append] at hspace
        simp [hspace]
  have hbytes : utf8 fLine =
      r.method ++ 32 :: (r.target.take (r.reached s) ++ requestLine more) := by
    have happend := requestLine_append _ more hfront
    rw [List.append_assoc, List.append_assoc] at happend
    rw [hline, hstr, hheader]
    exact happend
  obtain ⟨t, ht, hlineTarget⟩ :=
    exists_lineTarget r.method_ok.1 (htarget r.target_ok.1) hafter hbytes
  refine ⟨fLine, t, hhead, ht, hlineTarget, ?_⟩
  rw [← utf8_prefix_iff (by decide), hbytes, ← asBytes_eq_utf8]
  exact prefix_append_cons_iff (by decide) _

theorem lineTarget_eq_none (hread : s.firstRead.length ≤ r.method.length) {str fLine : List Char}
    (hstr : utf8 str = r.header s) (hhead : (split crlf str).head? = some fLine) :
    lineTarget fLine = none := by
  obtain ⟨fLine', hhead', hline⟩ := exists_firstLine str
  obtain rfl := Option.some.inj (hhead'.symm.trans hhead)
  have hheader : r.header s = r.method.take s.firstRead.length :=
    List.take_append_of_le_length hread
  have hmem {b : UInt8} (hb : b ∉ r.method) : b ∉ r.method.take s.firstRead.length :=
    fun h ↦ hb (List.mem_of_mem_take h)
  have happend := requestLine_append _ [] (hmem r.method_ok.2)
  rw [List.append_nil, ← hheader, ← hstr] at happend
  have hspace : 32 ∉ utf8 fLine' := by
    rw [hline, happend, hstr, hheader]
    simpa [requestLine, cut, lineEnd] using hmem r.method_ok.1
  rw [lineTarget, split_eq (by decide), cut_space_eq_none hspace]

/-- A first read gives to the crate what it has of the target. -/
theorem urlText_iff (hs : s.unread = r.bytes ++ body) {text : String} :
    s.urlText serverId = some text ↔ ¬r.Refuses serverId s ∧
      ∃ t, utf8 t = r.target.take (r.reached s) ∧ text = requestUrl t := by
  rw [TcpRunStream.urlText, urlText_eq_some]
  constructor
  · rintro ⟨str, bodyBytes, fLine, target, hheader, hhead, hserved, htarget, rfl⟩
    have hstr := (headerAndBody_iff hs).mp ⟨bodyBytes, hheader⟩
    obtain hread | hread := Nat.lt_or_ge r.method.length s.firstRead.length
    · obtain ⟨fLine', t, hhead', ht, hline, hconnect⟩ := exists_read_line hread hstr
      obtain rfl := Option.some.inj (hhead'.symm.trans hhead)
      rw [hline] at htarget
      split at htarget
      · cases htarget
      · rename_i hslash
        obtain rfl := Option.some.inj htarget
        refine ⟨fun hrefuses ↦ ?_, t, ht, rfl⟩
        cases hrefuses with
        | noTarget hshort => exact absurd hread (Nat.not_lt_of_le hshort)
        | notUtf8 hnot => exact hnot str hstr
        | originForm hslash' => exact hslash ((head?_utf8_slash t).mp (ht ▸ hslash'))
        | unanswered hmethod hwrite =>
            exact hserved (by rwa [Refused, if_pos (hconnect.mpr hmethod)])
        | loop hmethod hstr' hvia =>
            obtain rfl := utf8_injective (hstr'.trans hstr.symm)
            exact hserved (by rwa [Refused, if_neg (hconnect.not.mpr hmethod)])
    · rw [lineTarget_eq_none hread hstr hhead] at htarget
      cases htarget
  · rintro ⟨hserves, t, ht, rfl⟩
    obtain hread | hread := Nat.lt_or_ge r.method.length s.firstRead.length
    · obtain ⟨str, hstr⟩ : ∃ str, utf8 str = r.header s := by
        by_contra hnone
        exact hserves (.notUtf8 (not_exists.mp hnone))
      obtain ⟨bodyBytes, hheader⟩ := (headerAndBody_iff hs).mpr hstr
      obtain ⟨fLine, t', hhead, ht', hline, hconnect⟩ := exists_read_line hread hstr
      obtain rfl := utf8_injective (ht'.trans ht.symm)
      refine ⟨str, bodyBytes, fLine, t', hheader, hhead, fun hrefused ↦ ?_, ?_, rfl⟩
      · by_cases hmethod : asBytes "CONNECT" <+: r.method
        · rw [Refused, if_pos (hconnect.mpr hmethod)] at hrefused
          exact hserves (.unanswered hmethod hrefused)
        · rw [Refused, if_neg (hconnect.not.mpr hmethod)] at hrefused
          exact hserves (.loop hmethod hstr hrefused)
      · rw [hline, if_neg]
        exact fun hslash ↦ hserves (.originForm (ht ▸ (head?_utf8_slash t').mpr hslash))
    · exact absurd (.noTarget hread) hserves

theorem takesHttp {node : HttpListener} (hs : s.unread = r.bytes ++ body)
    (hnode : node = .htss5 → r.bytes.head? ≠ some 5) : node.TakesHttp s := by
  intro hhtss5 hfive
  have hfront : [5] <+: r.bytes ++ body := by
    rw [← List.singleton_prefix_iff_head?_eq_some, firstRead_eq_take hs] at hfive
    exact hfive.trans (List.take_prefix _ _)
  have hlength : [(5 : UInt8)].length ≤ r.bytes.length := by
    simp only [bytes, List.length_append, List.length_cons, List.length_nil]
    omega
  have hbytes := List.prefix_of_prefix_length_le hfront (List.prefix_append r.bytes body) hlength
  exact hnode hhtss5 (List.singleton_prefix_iff_head?_eq_some.mp hbytes)

end RequestHead

end Rog
