import Rog.Listener.Http
import Rog.Listener.Socks5

/-!
# The combined listener

`Htss5RunAcceptor`. The first byte of a client tells SOCKS5 from HTTP.
-/

namespace Rog

open StateIo TcpRunStream

namespace Htss5RunAcceptor

/-- The branch for a client whose first read is `data`. -/
def socks5 (data : Bytes) : TcpM (RunAddr × Option Bytes) := do
  let (hello, _) ← ofIo (ClientHello.parseBytes data)
  hello.answer
  let data ← read tcpIoBufferSize.toNat
  let (req, readed) ← ofIo (Request.parseBytes data)
  let data := data.drop readed
  setInfo fun info ↦ { info with protocolName := "socks5" }
  let addr ← ofIo (RunAddr.tryFromRequest req)
  return (addr, if data.isEmpty then none else some data)

def http (x : UrlCrate) (serverId : String) (data : Bytes) : TcpM (RunAddr × Option Bytes) := do
  let req ← ofIo (HttpRequest.parse x data)
  let cache ← req.answer serverId data
  setInfo fun info ↦ { info with protocolName := "http" }
  let addr ← ofIo req.runAddr
  return (addr, cache)

def handshake (x : UrlCrate) (serverId : String) : TcpM (RunAddr × Option Bytes) := do
  let data ← read tcpIoBufferSize.toNat
  match data.head? with
  | none => ofIo (Io.raise .invalidInput "no enough data")
  | some head1 => if head1 = 5 then socks5 data else http x serverId data

end Htss5RunAcceptor

end Rog
