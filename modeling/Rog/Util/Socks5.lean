import Rog.Proto
import Rog.Stream.Tcp
import Rog.Util.Address
import Rog.Util.IpText

/-!
# SOCKS5 messages

`util/socks5`. The messages of a client are parsed in one way from a stream and from bytes; the
two parsers differ in where they read.
-/

namespace Rog

open StateIo

def noAuth : UInt8 := 0

def cmdConnect : UInt8 := 1

def cmdUdp : UInt8 := 3

/-! ## Parsers -/

/-- `StreamParser::read_exact`. -/
def StreamParser.readExact (len : ℕ) : TcpM Bytes := TcpRunStream.readExact len

structure BytesParser where
  data : Bytes
  cursor : ℕ

/-- `BytesParser::read_exact`. -/
def BytesParser.readExact (len : ℕ) : StateIo BytesParser Bytes := fun s ↦
  if s.data.length < s.cursor + len then (Io.raise .invalidInput "no enough data", s)
  else (.ok ((s.data.drop s.cursor).take len), { s with cursor := s.cursor + len })

section Parser

variable {σ : Type} (readExact : ℕ → StateIo σ Bytes)

def readU8 : StateIo σ UInt8 := do
  let buf ← readExact 1
  return buf.headD 0

def readU16 : StateIo σ UInt16 := do
  let buf ← readExact 2
  return fromBeBytes (buf.headD 0) (buf.tail.headD 0)

def readVec (len : ℕ) : StateIo σ Bytes := readExact len

end Parser

/-- What `parse_bytes` makes of a parser: the message, and how many bytes it took. -/
def parseBytes {M : Type} (parser : StateIo BytesParser M) (data : Bytes) : Io (M × ℕ) :=
  let (result, parser) := parser.runOn ⟨data, 0⟩
  result.map fun msg ↦ (msg, parser.cursor)

/-! ## Messages -/

structure ClientHello where
  version : UInt8
  methodNum : UInt8
  methods : Bytes
  deriving DecidableEq

namespace ClientHello

def parseInner {σ : Type} (readExact : ℕ → StateIo σ Bytes) : StateIo σ ClientHello := do
  let version ← readU8 readExact
  if version ≠ 5 then ofIo (Io.raise .invalidData "invalid socks version")
  else
    let methodNum ← readU8 readExact
    let methods ← readVec readExact methodNum.toNat
    return ⟨version, methodNum, methods⟩

def parse : TcpM ClientHello := parseInner StreamParser.readExact

def parseBytes (data : Bytes) : Io (ClientHello × ℕ) :=
  Rog.parseBytes (parseInner BytesParser.readExact) data

def contains (hello : ClientHello) (method : UInt8) : Bool := hello.methods.contains method

end ClientHello

structure ServerHello where
  version : UInt8
  method : UInt8

def ServerHello.toBytes (hello : ServerHello) : Bytes := [hello.version, hello.method]

structure Request where
  version : UInt8
  cmd : UInt8
  rsv : UInt8
  aTyp : UInt8
  dstAddr : Bytes
  dstPort : UInt8 × UInt8
  deriving DecidableEq

namespace Request

/-- The `a_len` of an address type, negative for those that are not known. -/
def aLen (aTyp : UInt8) : ℤ :=
  if aTyp = 1 then 4 else if aTyp = 4 then 16 else if aTyp = 3 then 0 else -1

/-- The `dst_addr` of a known address type. -/
def parseAddr {σ : Type} (readExact : ℕ → StateIo σ Bytes) (aTyp : UInt8) : StateIo σ Bytes :=
  if aLen aTyp ≠ 0 then readVec readExact (aLen aTyp).toNat
  else do
    let len ← readU8 readExact
    readVec readExact len.toNat

def parseInner {σ : Type} (readExact : ℕ → StateIo σ Bytes) : StateIo σ Request := do
  let version ← readU8 readExact
  if version ≠ 5 then ofIo (Io.other "invalid socks version")
  else
    let cmd ← readU8 readExact
    if cmd ≠ cmdConnect ∧ cmd ≠ cmdUdp then
      ofIo (Io.raise .invalidData "invalid socks cmd, only CONNECT and UDP ASSOCIATE supported")
    else
      let rsv ← readU8 readExact
      let aTyp ← readU8 readExact
      if aLen aTyp < 0 then ofIo (Io.raise .invalidData "invalid addr type")
      else
        let dstAddr ← parseAddr readExact aTyp
        let port ← readU16 readExact
        return ⟨version, cmd, rsv, aTyp, dstAddr, ((port / 256).toUInt8, port.toUInt8)⟩

def parse : TcpM Request := parseInner StreamParser.readExact

def parseBytes (data : Bytes) : Io (Request × ℕ) :=
  Rog.parseBytes (parseInner BytesParser.readExact) data

end Request

/-- `TryFrom<&Request>`. -/
def RunAddr.tryFromRequest (value : Request) : Io RunAddr := do
  let port := fromBeBytes value.dstPort.1 value.dstPort.2
  let addr ←
    if value.aTyp = 1 then
      match value.dstAddr with
      | [a, b, c, d] => .ok (Ipv4Addr.toString ⟨a, b, c, d⟩)
      | _ => Io.other "Not a ipv4"
    else if value.aTyp = 3 then
      match fromUtf8 value.dstAddr with
      | some domain => .ok domain
      | none => Io.other "Not a domain"
    else if value.aTyp = 4 then
      match value.dstAddr with
      | [a, b, c, d, e, f, g, h, i, j, k, l, m, n, o, p] =>
          .ok (Ipv6Addr.toString ⟨[fromBeBytes a b, fromBeBytes c d, fromBeBytes e f,
            fromBeBytes g h, fromBeBytes i j, fromBeBytes k l, fromBeBytes m n, fromBeBytes o p], rfl⟩)
      | _ => Io.other "Not a ipv6"
    else Io.other "a_type not found"
  return ⟨addr, port, value.cmd == cmdUdp⟩

end Rog
