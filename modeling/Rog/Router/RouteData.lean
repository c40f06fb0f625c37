import Rog.Lib.Lines
import Rog.Proto
import Rog.Router.Matcher

/-!
# Data for the router

`router/data.rs`. What is read from files and from the net is given by the sources.
-/

namespace Rog

open Lib

structure RouteData where
  name : String
  url : Option String
  format : String
  data : Option String

def formatRegex : String := "regex"

def formatCidr : String := "cidr"

def formatLan : String := "lan"

structure Url where
  scheme : String
  path : String

/-- `status` is compared; `statusText` is what it is displayed as. -/
structure Response where
  status : ℕ
  statusText : String
  text : Except String String

/-- `Url::from_str`, the contents of the files, and `reqwest::get`, as the load of one entry finds
them. -/
structure DataSources where
  parseUrl : String → Except String Url
  openFile : String → Except String Bytes
  get : String → Except String Response

structure DataLoad where
  rdCfg : RouteData
  sources : DataSources

/-! ## Lines of the sources -/

/-- A line feed at the end is taken off, and a carriage return before it. -/
def stripLineEnd (line : List Char) : List Char :=
  if line.getLast? = some '\n' then
    if line.dropLast.getLast? = some '\r' then line.dropLast.dropLast else line.dropLast
  else line

def nonBlank (lines : List String) : List String := lines.filter fun line ↦ trim line ≠ ""

/-- The pieces of `split("\n")`. -/
def splitLines (text : String) : List String := (split ['\n'] text.toList).map String.ofList

/-- `str::lines`. -/
def strLines (text : String) : List String :=
  (splitInclusive '\n' text.toList).map fun line ↦ String.ofList (stripLineEnd line)

def readLine (line : Bytes) : Except String String :=
  match fromUtf8 line with
  | some line => .ok (String.ofList (stripLineEnd line.toList))
  | none => .error "stream did not contain valid UTF-8"

/-- `BufRead::lines`, up to its first error. -/
def readLines (contents : Bytes) : Except String (List String) :=
  (splitInclusive (UInt8.ofNat '\n'.toNat) contents).mapM readLine

namespace DataSources

variable (sources : DataSources)

def loadRouteDataFromFile (path : String) : Except String (List String) := do
  let contents ← sources.openFile path
  let lines ← readLines contents
  return nonBlank lines

def loadRouteDataFromUrl (urlStr : String) : Except String (List String) :=
  match sources.get urlStr with
  | .error e => .error ("failed to get URL '" ++ urlStr ++ "': " ++ e)
  | .ok resp =>
      if resp.status ≠ 200 then
        .error ("failed to fetch URL '" ++ urlStr ++ "', status code: " ++ resp.statusText)
      else
        match resp.text with
        | .error e => .error ("failed to read body from URL '" ++ urlStr ++ "': " ++ e)
        | .ok body => .ok (nonBlank (strLines body))

def loadDataFromSource (sourceUrl : String) : Except String (List String) :=
  match sources.parseUrl sourceUrl with
  | .error e => .error ("invalid URL '" ++ sourceUrl ++ "': " ++ e)
  | .ok parsedUrl =>
      if parsedUrl.scheme = "file" then
        match sources.loadRouteDataFromFile parsedUrl.path with
        | .error e => .error ("error loading from file '" ++ parsedUrl.path ++ "': " ++ e)
        | .ok lines => .ok lines
      else if parsedUrl.scheme = "http" ∨ parsedUrl.scheme = "https" then
        match sources.loadRouteDataFromUrl sourceUrl with
        | .error e => .error ("error loading from URL '" ++ sourceUrl ++ "': " ++ e)
        | .ok lines => .ok lines
      else .error ("unsupported URL scheme: " ++ parsedUrl.scheme)

/-- `rd.format` and `rd.lines`, unless the entry is passed over. -/
def routeLines (rdCfg : RouteData) : Option (String × List String) :=
  if rdCfg.format = formatLan then
    some (formatCidr, ["10.0.0.0/8", "172.16.0.0/12", "192.168.0.0/16", "127.0.0.0/8"])
  else
    match rdCfg.url, rdCfg.data with
    | some url, _ =>
        match sources.loadDataFromSource url with
        | .error _ => none
        | .ok lines => some (rdCfg.format, lines)
    | none, some data => some (rdCfg.format, nonBlank (splitLines data))
    | none, none => none

end DataSources

def getMatcherFactoryFn (c : MatcherCrates) (name : String) : Option (List String → Matcher) :=
  if name = formatCidr then some fun lines ↦ (cidrMatcherFactory c lines).matchHost
  else if name = formatRegex then some fun lines ↦ (regexMatcherFactory c lines).matchHost
  else none

def DataLoad.lines (load : DataLoad) : Option (String × List String) :=
  load.sources.routeLines load.rdCfg

/-- The body of the loop over the entries. -/
def insertRouteData (c : MatcherCrates) (dataMap : String → Option Matcher) (load : DataLoad) :
    String → Option Matcher :=
  match load.lines with
  | none => dataMap
  | some (format, lines) =>
      match getMatcherFactoryFn c format with
      | none => dataMap
      | some factory => Function.update dataMap load.rdCfg.name (some (factory lines))

/-- `dataCfg` has each entry with what is found when its turn comes. -/
def loadRouteData (c : MatcherCrates) (dataCfg : List DataLoad) : String → Option Matcher :=
  dataCfg.foldl (insertRouteData c) fun _ ↦ none

/-! ## What the matchers depend on -/

/-- The lines as a matcher sees them. -/
def trimmedLines (lines : List String) : Set String :=
  {trimmed | trimmed ≠ "" ∧ ∃ line ∈ lines, trim line = trimmed}

/-- The trimmed lines of a text that are not blank. -/
def nonBlankLines (text : String) : Set String := trimmedLines (splitLines text)

@[simp] theorem trimmedLines_nonBlank (lines : List String) :
    trimmedLines (nonBlank lines) = trimmedLines lines := by
  ext trimmed
  simp only [trimmedLines, nonBlank, Set.mem_ofPred_eq, List.mem_filter, decide_eq_true_eq]
  constructor
  · rintro ⟨hne, line, ⟨hline, -⟩, htrim⟩
    exact ⟨hne, line, hline, htrim⟩
  · rintro ⟨hne, line, hline, rfl⟩
    exact ⟨hne, line, ⟨hline, hne⟩, rfl⟩

theorem trimmedLines_cons_congr {line line' : String} {lines lines' : List String}
    (htrim : trim line = trim line') (hlines : trimmedLines lines = trimmedLines lines') :
    trimmedLines (line :: lines) = trimmedLines (line' :: lines') := by
  have hcons (line : String) (lines : List String) : trimmedLines (line :: lines) =
      {trimmed | trimmed ≠ "" ∧ trim line = trimmed} ∪ trimmedLines lines := by
    ext trimmed
    simp only [trimmedLines, Set.mem_union, Set.mem_ofPred_eq, List.exists_mem_cons_iff,
      and_or_left]
  rw [hcons, hcons, htrim, hlines]

theorem exists_trimmed_iff (lines : List String) (p : String → Prop) :
    (∃ line ∈ lines, trim line ≠ "" ∧ p (trim line)) ↔
      ∃ trimmed ∈ trimmedLines lines, p trimmed := by
  constructor
  · rintro ⟨line, hline, hne, hp⟩
    exact ⟨trim line, ⟨hne, line, hline, rfl⟩, hp⟩
  · rintro ⟨trimmed, ⟨hne, line, hline, rfl⟩, hp⟩
    exact ⟨line, hline, hne, hp⟩

/-- The factories do not see how the lines are written or ordered. -/
theorem getMatcherFactoryFn_congr {c : MatcherCrates} {name : String}
    {factory : List String → Matcher} (h : getMatcherFactoryFn c name = some factory)
    {lines lines' : List String} (hlines : trimmedLines lines = trimmedLines lines') :
    factory lines = factory lines' := by
  unfold getMatcherFactoryFn at h
  funext host
  rw [Bool.eq_iff_iff]
  split at h
  · obtain rfl := Option.some.inj h
    have hcidr (lines : List String) := exists_trimmed_iff lines fun line ↦
      ((CidrLine.new line : CidrLine c).matchLine host : Prop)
    rw [cidrMatcherFactory_matchHost_iff, cidrMatcherFactory_matchHost_iff, hcidr, hcidr, hlines]
  · split at h
    · obtain rfl := Option.some.inj h
      have hregex (lines : List String) := exists_trimmed_iff lines fun line ↦
        ((parseRegexLine line : RegexLine c).matchLine host : Prop)
      rw [regexMatcherFactory_matchHost_iff, regexMatcherFactory_matchHost_iff, hregex, hregex,
        hlines]
    · cases h

theorem getMatcherFactoryFn_isSome {c : MatcherCrates} {name : String}
    (h : name = formatCidr ∨ name = formatRegex) :
    ∃ factory, getMatcherFactoryFn c name = some factory := by
  rcases h with rfl | rfl <;> exact ⟨_, rfl⟩

/-! ## What the sources deliver -/

theorem trim_stripLineEnd (line : List Char) :
    trim (String.ofList (stripLineEnd line)) = trim (String.ofList line) := by
  have hconcat {xs : List Char} {a : Char} (h : xs.getLast? = some a) : xs = xs.dropLast ++ [a] :=
    (List.dropLast_append_getLast? a h).symm
  unfold stripLineEnd
  split
  · rename_i hlf
    have hline := trim_concat (c := '\n') (by decide) line.dropLast
    rw [← hconcat hlf] at hline
    rw [hline]
    split
    · rename_i hcr
      have hrest := trim_concat (c := '\r') (by decide) line.dropLast.dropLast
      rw [← hconcat hcr] at hrest
      rw [hrest]
    · rfl
  · rfl

theorem trimmedLines_strLines (text : String) :
    trimmedLines (strLines text) = nonBlankLines text := by
  ext trimmed
  simp only [nonBlankLines, trimmedLines, strLines, splitLines, Set.mem_ofPred_eq, List.mem_map,
    exists_exists_and_eq_and, trim_stripLineEnd]
  refine and_congr_right fun hne ↦ ?_
  have hnil : ¬trim (String.ofList []) = trimmed := by
    rintro rfl
    exact hne rfl
  exact exists_splitInclusive_iff hnil (fun piece ↦ by rw [trim_concat (by decide)]) text.toList

theorem readLines_asBytes (text : String) : readLines (asBytes text) = .ok (strLines text) := by
  have hread (line : List Char) :
      readLine (utf8 line) = .ok (String.ofList (stripLineEnd line)) := by
    simp only [readLine, ← asBytes_ofList, fromUtf8_asBytes, String.toList_ofList]
  rw [readLines, asBytes_eq_utf8, splitInclusive_utf8 (by decide), List.mapM_map]
  have hlines : (readLine ∘ utf8) = fun line ↦ pure (String.ofList (stripLineEnd line)) :=
    funext hread
  rw [hlines, List.mapM_pure]
  rfl

/-- A source of the entry, and that it delivers the text. -/
inductive Delivers (load : DataLoad) (text : String) : Prop where
  | data : load.rdCfg.url = none → load.rdCfg.data = some text → Delivers load text
  | file {url : String} {parsedUrl : Url} : load.rdCfg.url = some url →
      load.sources.parseUrl url = .ok parsedUrl → parsedUrl.scheme = "file" →
      load.sources.openFile parsedUrl.path = .ok (asBytes text) → Delivers load text
  | url {url : String} {parsedUrl : Url} {resp : Response} : load.rdCfg.url = some url →
      load.sources.parseUrl url = .ok parsedUrl →
      (parsedUrl.scheme = "http" ∨ parsedUrl.scheme = "https") →
      load.sources.get url = .ok resp → resp.status = 200 → resp.text = .ok text →
      Delivers load text

theorem DataLoad.lines_of_delivers {load : DataLoad} {text : String}
    (hlan : load.rdCfg.format ≠ formatLan) (h : Delivers load text) :
    ∃ lines, load.lines = some (load.rdCfg.format, lines) ∧
      trimmedLines lines = nonBlankLines text := by
  rw [DataLoad.lines, DataSources.routeLines, if_neg hlan]
  cases h with
  | data hurl hdata =>
      rw [hurl, hdata]
      exact ⟨_, rfl, trimmedLines_nonBlank _⟩
  | file hurl hparse hscheme hopen =>
      refine ⟨nonBlank (strLines text), ?_, ?_⟩
      · simp only [hurl, DataSources.loadDataFromSource, hparse, hscheme, if_true,
          DataSources.loadRouteDataFromFile, hopen, bind, Except.bind, readLines_asBytes]
        rfl
      · rw [trimmedLines_nonBlank, trimmedLines_strLines]
  | @url _ parsedUrl _ hurl hparse hscheme hget hstatus htext =>
      refine ⟨nonBlank (strLines text), ?_, ?_⟩
      · have hfile : ¬parsedUrl.scheme = "file" := by
          intro hfile
          rw [hfile] at hscheme
          exact absurd hscheme (by decide)
        simp only [hurl, DataSources.loadDataFromSource, hparse, if_neg hfile, if_pos hscheme,
          DataSources.loadRouteDataFromUrl, hget, hstatus, htext]
        rfl
      · rw [trimmedLines_nonBlank, trimmedLines_strLines]

/-! ## Texts with their lines -/

/-- The text consists of these lines: a line feed ends each, with or without a carriage return
before it, and may be missing after the last one. -/
inductive WrittenAs : List Char → List (List Char) → Prop where
  | last {line : List Char} : '\n' ∉ line → WrittenAs line [line]
  | lf {line rest : List Char} {lines : List (List Char)} : '\n' ∉ line → WrittenAs rest lines →
      WrittenAs (line ++ '\n' :: rest) (line :: lines)
  | crlf {line rest : List Char} {lines : List (List Char)} : '\n' ∉ line → WrittenAs rest lines →
      WrittenAs (line ++ '\r' :: '\n' :: rest) (line :: lines)

theorem nonBlankLines_of_writtenAs {text : List Char} {lines : List (List Char)}
    (h : WrittenAs text lines) :
    nonBlankLines (String.ofList text) = trimmedLines (lines.map String.ofList) := by
  rw [nonBlankLines, splitLines, String.toList_ofList]
  induction h with
  | last hline => rw [split_of_notMem hline]
  | lf hline _ ih =>
      rw [split_line hline]
      exact trimmedLines_cons_congr rfl ih
  | @crlf line rest _ hline _ ih =>
      -- the carriage return is the end of the piece, and is trimmed off with it
      have hpiece : '\n' ∉ line ++ ['\r'] := by
        rw [List.mem_append, List.mem_singleton]
        exact not_or.mpr ⟨hline, by decide⟩
      rw [List.append_cons, split_line hpiece]
      exact trimmedLines_cons_congr (trim_concat (by decide) line) ih

/-! ## One text from every source -/

section

variable {c : MatcherCrates} {load load' : DataLoad} {text text' : String}

theorem insertRouteData_of_delivers
    (hformat : load.rdCfg.format = formatCidr ∨ load.rdCfg.format = formatRegex)
    (h : Delivers load text) :
    ∃ factory lines, getMatcherFactoryFn c load.rdCfg.format = some factory ∧
      trimmedLines lines = nonBlankLines text ∧ ∀ dataMap, insertRouteData c dataMap load =
        Function.update dataMap load.rdCfg.name (some (factory lines)) := by
  have hlan : load.rdCfg.format ≠ formatLan := by
    intro hlan
    rw [hlan] at hformat
    exact absurd hformat (by decide)
  obtain ⟨factory, hfactory⟩ := getMatcherFactoryFn_isSome (c := c) hformat
  obtain ⟨lines, hlines, htrimmed⟩ := DataLoad.lines_of_delivers hlan h
  refine ⟨factory, lines, hfactory, htrimmed, fun dataMap ↦ ?_⟩
  simp only [insertRouteData, hlines, hfactory]

/-- An entry gives the matcher of the trimmed lines, whatever they come from and however they are
written. -/
theorem loadRouteData_same_lines
    (hformat : load.rdCfg.format = formatCidr ∨ load.rdCfg.format = formatRegex)
    (hformats : load'.rdCfg.format = load.rdCfg.format)
    (hname : load'.rdCfg.name = load.rdCfg.name) (h : Delivers load text)
    (h' : Delivers load' text') (hlines : nonBlankLines text = nonBlankLines text') :
    (∃ matcher, loadRouteData c [load] load.rdCfg.name = some matcher) ∧
      (∀ before after, loadRouteData c (before ++ load :: after) =
        loadRouteData c (before ++ load' :: after)) ∧
        ∀ lines, WrittenAs text.toList lines →
          nonBlankLines text = trimmedLines (lines.map String.ofList) := by
  obtain ⟨factory, lines, hfactory, htrimmed, hinsert⟩ :=
    insertRouteData_of_delivers (c := c) hformat h
  obtain ⟨factory', lines', hfactory', htrimmed', hinsert'⟩ :=
    insertRouteData_of_delivers (c := c) (by rwa [hformats]) h'
  rw [hformats] at hfactory'
  obtain rfl : factory = factory' := Option.some.inj (hfactory.symm.trans hfactory')
  have hmatcher : factory lines = factory lines' := by
    apply getMatcherFactoryFn_congr hfactory
    rw [htrimmed, htrimmed', hlines]
  refine ⟨⟨factory lines, ?_⟩, fun before after ↦ ?_, fun lines hlines ↦ ?_⟩
  · rw [loadRouteData, List.foldl_cons, List.foldl_nil, hinsert, Function.update_self]
  · rw [loadRouteData, loadRouteData, List.foldl_append, List.foldl_append, List.foldl_cons,
      List.foldl_cons, hinsert, hinsert', hname, hmatcher]
  · rw [← nonBlankLines_of_writtenAs hlines, String.ofList_toList]

end

/-- A file with an address in its second line. -/
def loopbackFile : DataSources where
  parseUrl _ := .ok ⟨"file", "/hosts"⟩
  openFile _ := .ok (asBytes "\n ::1")
  get _ := .error "unreachable"

/-- The address in a line with a carriage return. -/
theorem loadRouteData_same_lines_loopback :
    loadRouteData .single [⟨⟨"hosts", none, "cidr", some "::1\r\n"⟩, loopbackFile⟩] =
      loadRouteData .single [⟨⟨"hosts", some "file:///hosts", "cidr", none⟩, loopbackFile⟩] := by
  have hlines : nonBlankLines "::1\r\n" = nonBlankLines "\n ::1" := by
    have hpieces : splitLines "::1\r\n" = ["::1\r", ""] ∧ splitLines "\n ::1" = ["", " ::1"] := by
      decide
    have htrims : trim "::1\r" = "::1" ∧ trim " ::1" = "::1" ∧ trim "" = "" := by decide
    ext trimmed
    simp only [nonBlankLines, trimmedLines, hpieces.1, hpieces.2, Set.mem_ofPred_eq,
      List.exists_mem_cons_iff, htrims, List.not_mem_nil, false_and, exists_false, or_false]
    rw [or_comm]
  have hdata : Delivers ⟨⟨"hosts", none, "cidr", some "::1\r\n"⟩, loopbackFile⟩ "::1\r\n" :=
    .data rfl rfl
  have hfile : Delivers ⟨⟨"hosts", some "file:///hosts", "cidr", none⟩, loopbackFile⟩ "\n ::1" :=
    .file rfl rfl rfl rfl
  refine (loadRouteData_same_lines (.inl ?_) ?_ ?_ hdata hfile hlines).2.1 [] [] <;> rfl

end Rog
