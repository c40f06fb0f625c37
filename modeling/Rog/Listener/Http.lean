import Rog.Lib.Utf8
import Rog.Proto
import Rog.Stream.Tcp
import Rog.Util.Address

/-!
# The HTTP listener

`HttpRunAcceptor`. A text is given by its characters, and the `url` crate is a parameter.
-/

namespace Rog

open Lib StateIo TcpRunStream

/-- What the `url` crate makes of a text. -/
structure UrlCrate where
  Url : Type
  parse : String → Except String Url
  hostStr : Url → Option String
  portOrKnownDefault : Url → Option UInt16

/-- A crate for URLs of the form `http://host:port/path`. -/
def UrlCrate.plain : UrlCrate where
  Url := String × Option UInt16
  parse s :=
    match cut "://".toList s.toList with
    | none => .error "relative URL without a base"
    | some (_, rest) =>
        let authority := rest.takeWhile (· ∉ "/?#".toList)
        match rsplitOnce ':' authority with
        | some (host, []) => .ok (String.ofList host, none)
        | some (host, port) =>
            match parseUnsigned UInt16.size port with
            | some port => .ok (String.ofList host, some (UInt16.ofNat port))
            | none => .error "invalid port number"
        | none =>
            if authority.isEmpty then .error "empty host" else .ok (String.ofList authority, none)
  hostStr url := some url.1
  portOrKnownDefault url := some (url.2.getD 80)

theorem mem_delimiters {c : Char} : c ∈ "/?#".toList ↔ c = '/' ∨ c = '?' ∨ c = '#' := by
  simp

def crlf : List Char := ['\r', '\n']

/-- `b"\r\n\r\n"`. -/
def headEnd : Bytes := [13, 10, 13, 10]

/-- `String::from_utf8` of a header. -/
def headerStr (bytes : Bytes) : Io (List Char) :=
  match fromUtf8 bytes with
  | some s => .ok s.toList
  | none => Io.other (utf8Error bytes)

/-- `(header_str, body_bytes)`. -/
def headerAndBody (data : Bytes) : Io (List Char × Option Bytes) :=
  match cut headEnd data with
  | some (h, b) => do
      let s ← headerStr (h ++ headEnd)
      return (s, some b)
  | none => do
      let s ← headerStr data
      return (s, none)

/-- `line.to_lowercase().starts_with("via:")`. No character outside ASCII has a lower case that
begins like these four and goes on like them. -/
def isVia (line : List Char) : Bool := "via:".toList.isPrefixOf (line.map Char.toLower)

/-- The loop check finds this server in the lines of a header. -/
def viaLoop (serverId : String) (lines : List (List Char)) : Bool :=
  lines.any fun line ↦ isVia line && serverId.toList <:+: line

def viaLine (serverId : String) : List Char := "Via: 1.1 ".toList ++ serverId.toList

theorem viaLine_eq (serverId : String) :
    viaLine serverId = "Via: 1.1 ".toList ++ serverId.toList := rfl

/-- `dst`, for the second of the parts of the first line. -/
def requestUrl (target : List Char) : String :=
  String.ofList (if "://".toList <:+: target then target else "http://".toList ++ target)

/-- The part from the first line to its URL. -/
def firstLineUrl (x : UrlCrate) (fLine : List Char) : Io x.Url :=
  match split [' '] fLine with
  | _ :: target :: _ =>
      if target.head? = some '/' then Io.raise .invalidInput "origin form request not allowed"
      else
        match x.parse (requestUrl target) with
        | .ok ipPort => .ok ipPort
        | .error e => Io.raise .invalidData ("Invalid URL: " ++ e)
  | _ => Io.raise .invalidData ("invalid parts " ++ String.ofList fLine)

structure HttpRequest (x : UrlCrate) where
  str : List Char
  bodyBytes : Option Bytes
  fLine : List Char
  ipPort : x.Url

namespace HttpRequest

variable {x : UrlCrate}

def parse (x : UrlCrate) (data : Bytes) : Io (HttpRequest x) := do
  let (str, bodyBytes) ← headerAndBody data
  match (split crlf str).head? with
  | none => Io.raise .invalidData "Empty request data"
  | some fLine =>
      let ipPort ← firstLineUrl x fLine
      return ⟨str, bodyBytes, fLine, ipPort⟩

def IsConnect (req : HttpRequest x) : Prop := "CONNECT".toList <+: req.fLine

instance (req : HttpRequest x) : Decidable req.IsConnect :=
  inferInstanceAs (Decidable ("CONNECT".toList <+: req.fLine))

/-- `new_bytes`, if the header has the end of a line to stand behind. -/
def addVia (serverId : String) (req : HttpRequest x) : Option Bytes :=
  (cut crlf req.str).map fun (firstLine, rest) ↦
    asBytes (String.ofList (firstLine ++ crlf ++ viaLine serverId ++ crlf ++ rest)) ++
      req.bodyBytes.getD []

/-- The part that answers a CONNECT or cuts a loop, and the cache that it comes to. -/
def answer (serverId : String) (data : Bytes) (req : HttpRequest x) : TcpM (Option Bytes) :=
  if req.IsConnect then do
    write (asBytes "HTTP/1.1 200 Connection Established\r\n\r\n")
    return none
  else if viaLoop serverId (split crlf req.str) then ofIo (Io.other "Loop detected")
  else return some ((req.addVia serverId).getD data)

def runAddr (req : HttpRequest x) : Io RunAddr := do
  let addr ← match x.hostStr req.ipPort with
    | some host => .ok host
    | none => Io.raise .invalidData "URL has no host"
  let port ← match x.portOrKnownDefault req.ipPort with
    | some port => .ok port
    | none => Io.raise .invalidData "URL has no port"
  return ⟨addr, port, false⟩

end HttpRequest

def HttpRunAcceptor.handshake (x : UrlCrate) (serverId : String) :
    TcpM (RunAddr × Option Bytes) := do
  setInfo fun info ↦ { info with protocolName := "http" }
  let data ← read tcpIoBufferSize.toNat
  let req ← ofIo (HttpRequest.parse x data)
  let cache ← req.answer serverId data
  let addr ← ofIo req.runAddr
  return (addr, cache)

end Rog
