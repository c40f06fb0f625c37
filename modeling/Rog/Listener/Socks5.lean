import Rog.Util.Socks5

/-!
# The SOCKS5 listener
-/

namespace Rog

open StateIo TcpRunStream

/-- The check of the methods, and the answer to the first message. -/
def ClientHello.answer (hello : ClientHello) : TcpM Unit :=
  if hello.contains noAuth then write (ServerHello.toBytes ⟨hello.version, noAuth⟩)
  else ofIo (Io.raise .invalidInput "no available authentication found")

def SocksRunAcceptor.handshake : TcpM (RunAddr × Option Bytes) := do
  setInfo fun info ↦ { info with protocolName := "socks5" }
  let hello ← ClientHello.parse
  hello.answer
  let req ← Request.parse
  let addr ← ofIo (RunAddr.tryFromRequest req)
  return (addr, none)

end Rog
