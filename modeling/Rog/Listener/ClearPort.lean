import Rog.Listener.Destination

/-!
# The port in the first frame

The first frame of a pb_tcp connection has the password and the host as ciphertexts. Its port is
as the client wrote it, and is what the payloads are encrypted for or not.
-/

namespace Rog

open Lib SocketM

/-- What a handshake makes of its frame. -/
structure PbTcpSession where
  host : String
  port : UInt16
  encrypt : Bool
  deriving DecidableEq

namespace PbTcpRunAcceptor

variable {x : PbTcpCrates} {pw : String} {s s' : PbTcpServerRunStream} {req req' : StreamReq}
  {session session' : PbTcpSession}

/-- The first frame on the connection holds `req`, and is accepted. -/
def Accepts (x : PbTcpCrates) (pw : String) (s : PbTcpServerRunStream) (req : StreamReq)
    (session : PbTcpSession) : Prop :=
  ∃ rest ra cache t, (readMsg x.req).runOn s.half.source.reader = (.ok req, rest) ∧
    handshake x pw s = (.ok (ra, cache), t) ∧
      session = ⟨ra.addr, ra.port, t.half.source.encrypt⟩

end PbTcpRunAcceptor

namespace PbTcpServerRunStream

variable {x : PbTcpCrates} {pw : String}

theorem accept_eq_ok {req : StreamReq} {ra : RunAddr} {auth : String} {dstPort : UInt32}
    (h : accept x pw req = .ok (ra, auth, dstPort)) :
    ∃ enc, req.dstAddr = some enc ∧ x.crypto.decryptField enc pw = .ok ra.addr ∧
      req.dstPort = some dstPort ∧ ra.port = dstPort.toUInt16 := by
  obtain ⟨auth', hauth, h⟩ := Io.bind_eq_ok h
  cases hreqAddr : req.dstAddr with
  | none =>
      rw [hreqAddr] at h
      cases h
  | some enc =>
      rw [hreqAddr] at h
      obtain ⟨dstAddr, hdstAddr, h⟩ := Io.bind_eq_ok h
      cases hreqPort : req.dstPort with
      | none =>
          rw [hreqPort] at h
          cases h
      | some port =>
          rw [hreqPort] at h
          obtain ⟨hra, hrest⟩ := Prod.mk.inj (Except.ok.inj h)
          obtain ⟨-, rfl⟩ := Prod.mk.inj hrest
          subst hra
          exact ⟨enc, rfl, hdstAddr, rfl, rfl⟩

theorem handshake_of_readMsg (pw : String) {s : PbTcpServerRunStream} {req : StreamReq}
    {rest : Socket}
    (hread : (readMsg x.req).runOn s.half.source.reader = (.ok req, rest)) :
    (handshake x pw s).1 = (accept x pw req).map (fun (ra, auth, _) ↦ some (ra, auth)) ∧
      ∀ ra auth dstPort, accept x pw req = .ok (ra, auth, dstPort) →
        (handshake x pw s).2.half.source.encrypt = (dstPort != 443) := by
  have hrun : (acceptMsg x pw).runOn s.half.source.reader = (accept x pw req, rest) := by
    rw [acceptMsg, runOn_bind_ok hread, runOn_ofIo]
  refine ⟨by rw [handshake_fst, hrun], fun ra auth dstPort haccept ↦ ?_⟩
  rw [handshake, hrun, haccept]
  rfl

end PbTcpServerRunStream

namespace PbTcpRunAcceptor

variable {x : PbTcpCrates} {pw : String} {s s' : PbTcpServerRunStream} {req req' : StreamReq}
  {session session' : PbTcpSession}

theorem handshake_eq (x : PbTcpCrates) (pw : String) (s : PbTcpServerRunStream) :
    let t := s.setInfo fun x ↦ { x with protocolName := "pb_tcp" }
    handshake x pw s = (checkAuth pw (PbTcpServerRunStream.handshake x pw t).1,
      (PbTcpServerRunStream.handshake x pw t).2) := rfl

theorem Accepts.spec (h : Accepts x pw s req session) :
    ∃ enc dstPort, req.dstAddr = some enc ∧ x.crypto.decryptField enc pw = .ok session.host ∧
      req.dstPort = some dstPort ∧ session.port = dstPort.toUInt16 ∧
        session.encrypt = (dstPort != 443) := by
  obtain ⟨rest, ra, cache, t, hread, hhandshake, rfl⟩ := h
  have hinfo : (s.setInfo fun x ↦ { x with protocolName := "pb_tcp" }).half = s.half := rfl
  obtain ⟨u, hu⟩ : ∃ u, s.setInfo (fun x ↦ { x with protocolName := "pb_tcp" }) = u := ⟨_, rfl⟩
  rw [hu] at hinfo
  rw [← hinfo] at hread
  obtain ⟨hresult, hencrypt⟩ := PbTcpServerRunStream.handshake_of_readMsg pw hread
  rw [handshake_eq, hu] at hhandshake
  obtain ⟨hcheck, rfl⟩ := Prod.mk.inj hhandshake
  obtain ⟨hok, -⟩ := checkAuth_eq_ok hcheck
  rw [hresult] at hok
  cases haccept : PbTcpServerRunStream.accept x pw req with
  | error e =>
      rw [haccept] at hok
      cases hok
  | ok accepted =>
      obtain ⟨ra', auth, dstPort⟩ := accepted
      rw [haccept] at hok
      obtain ⟨rfl, rfl⟩ : ra' = ra ∧ auth = pw := by simpa [Except.map] using hok
      obtain ⟨enc, henc, hhost, hport, hra⟩ := PbTcpServerRunStream.accept_eq_ok haccept
      exact ⟨enc, dstPort, henc, hhost, hport, hra, hencrypt _ _ _ haccept⟩

/-- A frame with these ciphertexts is accepted, whatever its port and its payload are. -/
theorem accepts_frame (hx : x.RoundTrips) {authNonce addrNonce : Nonce} {host auth dstAddr : String}
    (hauth : x.crypto.encryptField authNonce pw pw = .ok auth)
    (hdstAddr : x.crypto.encryptField addrNonce host pw = .ok dstAddr) (payload : Option Bytes)
    (dstPort : UInt32)
    (hfits : FitsFrame (writeFrame x.req 0 ⟨auth, payload, some dstAddr, some dstPort⟩)) :
    Accepts x pw (.new [writeFrame x.req 0 ⟨auth, payload, some dstAddr, some dstPort⟩])
      ⟨auth, payload, some dstAddr, some dstPort⟩
      ⟨host, dstPort.toUInt16, dstPort != 443⟩ := by
  obtain ⟨req, hreq⟩ : ∃ req : StreamReq, req = ⟨auth, payload, some dstAddr, some dstPort⟩ :=
    ⟨_, rfl⟩
  rw [← hreq] at hfits ⊢
  have hflatten : [writeFrame x.req 0 req].flatten = writeFrame x.req 0 req ++ [] := by simp
  obtain ⟨rest, hread, -⟩ := readMsg_writeFrame hx.req hflatten hfits
  have haccept : PbTcpServerRunStream.accept x pw req =
      .ok (⟨host, dstPort.toUInt16, false⟩, pw, dstPort) := by
    simp only [PbTcpServerRunStream.accept, hreq, bind, Except.bind, hx.crypto.decryptField hauth,
      hx.crypto.decryptField hdstAddr]
    rfl
  obtain ⟨s, hs⟩ : ∃ s, (PbTcpServerRunStream.new [writeFrame x.req 0 req]).setInfo
      (fun x ↦ { x with protocolName := "pb_tcp" }) = s := ⟨_, rfl⟩
  have hreader : s.half.source.reader = [writeFrame x.req 0 req] := by
    rw [← hs]
    rfl
  obtain ⟨hresult, hencrypt⟩ :=
    PbTcpServerRunStream.handshake_of_readMsg pw (s := s) (by rw [hreader, hread])
  refine ⟨rest, ⟨host, dstPort.toUInt16, false⟩, none, _, hread, ?_,
    by rw [hencrypt _ _ _ haccept]⟩
  rw [handshake_eq, hs, hresult, haccept]
  simp [Except.map, checkAuth, bind, Except.bind, pure, Except.pure]

/-- Two frames with the ciphertexts of one client, who has the password, and with these payloads
and ports. -/
theorem exists_accepts (payload payload' : Option Bytes) (dstPort dstPort' : UInt32)
    (h : (payload.getD []).length + dstPort.toNat < 2 ^ 20)
    (h' : (payload'.getD []).length + dstPort'.toNat < 2 ^ 20) :
    ∃ s s' req req', Accepts .standard "p" s req ⟨"h", dstPort.toUInt16, dstPort != 443⟩ ∧
      Accepts .standard "p" s' req' ⟨"h", dstPort'.toUInt16, dstPort' != 443⟩ ∧
        req.auth = req'.auth ∧ req.dstAddr = req'.dstAddr ∧
          (req.payload = payload ∧ req'.payload = payload') ∧
            req.dstPort = some dstPort ∧ req'.dstPort = some dstPort' := by
  have hshort (text : String) (h : (asBytes text).length = 1) :
      ¬ChaCha20Poly1305.TooLong (asBytes text).length :=
    ChaCha20Poly1305.not_tooLong_iff.mpr (by omega)
  obtain ⟨auth, hauth, hauthLength⟩ := CryptoCrates.standard_encryptField helloRandom.authNonce "p"
    (hshort "p" rfl)
  obtain ⟨dstAddr, hdstAddr, hdstLength⟩ :=
    CryptoCrates.standard_encryptField helloRandom.addrNonce "p" (hshort "h" rfl)
  have hp : (asBytes "p").length = 1 := rfl
  have hh : (asBytes "h").length = 1 := rfl
  have hfits (payload : Option Bytes) (port : UInt32)
      (h : (payload.getD []).length + port.toNat < 2 ^ 20) :
      FitsFrame (writeFrame StreamReq.wire 0 ⟨auth, payload, some dstAddr, some port⟩) := by
    have hlength := StreamReq.length_encode_le ⟨auth, payload, some dstAddr, some port⟩
    simp only [Option.getD_some] at hlength
    rw [FitsFrame, length_writeFrame]
    omega
  exact ⟨_, _, _, _,
    accepts_frame PbTcpCrates.standard_roundTrips hauth hdstAddr payload dstPort
      (hfits payload dstPort h),
    accepts_frame PbTcpCrates.standard_roundTrips hauth hdstAddr payload' dstPort'
      (hfits payload' dstPort' h'),
    rfl, rfl, ⟨rfl, rfl⟩, rfl, rfl⟩

/-- What a frame with a port that exists says in clear. -/
def Clear (dstPort : UInt32) (session : PbTcpSession) : Prop :=
  session.port.toNat = dstPort.toNat ∧ (session.encrypt = true ↔ dstPort ≠ 443)

theorem Accepts.clear {dstPort : UInt32} (h : Accepts x pw s req session)
    (hdstPort : req.dstPort = some dstPort) (hlt : dstPort.toNat < 65536) :
    Clear dstPort session := by
  obtain ⟨enc, dstPort', -, -, hdstPort', hport, hencrypt⟩ := h.spec
  obtain rfl : dstPort' = dstPort := Option.some.inj (hdstPort'.symm.trans hdstPort)
  refine ⟨?_, by rw [hencrypt, bne_iff_ne]⟩
  rw [hport, UInt32.toNat_toUInt16]
  exact Nat.mod_eq_of_lt hlt

/-- Two accepted frames with the same ciphertexts give the same host. With ports that exist, the
rest of what they give is what these say, and no other byte of a frame has an influence on it. -/
theorem same_ciphertexts_host (h : Accepts x pw s req session)
    (h' : Accepts x pw s' req' session') (_hauth : req.auth = req'.auth)
    (hdstAddr : req.dstAddr = req'.dstAddr) :
    session.host = session'.host ∧ ∃ dstPort dstPort', req.dstPort = some dstPort ∧
      req'.dstPort = some dstPort' ∧ (dstPort.toNat < 65536 → dstPort'.toNat < 65536 →
        Clear dstPort session ∧ Clear dstPort' session' ∧
          (session = session' ↔ dstPort = dstPort')) := by
  obtain ⟨enc, dstPort, henc, hhost, hdstPort, hport, hencrypt⟩ := h.spec
  obtain ⟨enc', dstPort', henc', hhost', hdstPort', hport', hencrypt'⟩ := h'.spec
  obtain rfl : enc = enc' := Option.some.inj (henc.symm.trans (hdstAddr.trans henc'))
  have hsame : session.host = session'.host := Except.ok.inj (hhost.symm.trans hhost')
  refine ⟨hsame, dstPort, dstPort', hdstPort, hdstPort', fun hlt hlt' ↦ ?_⟩
  have hclear := h.clear hdstPort hlt
  have hclear' := h'.clear hdstPort' hlt'
  refine ⟨hclear, hclear', ?_, ?_⟩
  · rintro rfl
    exact UInt32.toNat_inj.mp (hclear.1.symm.trans hclear'.1)
  · rintro rfl
    obtain ⟨host, port, encrypt⟩ := session
    obtain ⟨host', port', encrypt'⟩ := session'
    exact congr (congrArg₂ PbTcpSession.mk hsame (hport.trans hport'.symm))
      (hencrypt.trans hencrypt'.symm)

/-- A payload that is put into the frame changes nothing. -/
theorem same_ciphertexts_host_payload :
    ∃ s s' req req' session session', Accepts .standard "p" s req session ∧
      Accepts .standard "p" s' req' session' ∧ req ≠ req' ∧ session = session' ∧
        Clear 443 session := by
  obtain ⟨s, s', req, req', h, h', hauth, hdstAddr, ⟨hpayload, hpayload'⟩, hdstPort, hdstPort'⟩ :=
    exists_accepts none (some [1]) 443 443 (by decide) (by decide)
  obtain ⟨-, port, port', hreqPort, hreqPort', hports⟩ :=
    same_ciphertexts_host h h' hauth hdstAddr
  obtain rfl : 443 = port := Option.some.inj (hdstPort.symm.trans hreqPort)
  obtain rfl : 443 = port' := Option.some.inj (hdstPort'.symm.trans hreqPort')
  obtain ⟨hclear, -, hsame⟩ := hports (by decide) (by decide)
  refine ⟨s, s', req, req', _, _, h, h', ?_, hsame.mpr rfl, hclear⟩
  rintro rfl
  exact nomatch hpayload.symm.trans hpayload'

/-- The port 80 of a frame is changed to 443. -/
theorem clear_port_switches_encryption : ¬∀ pw s s' req req' session session',
    Accepts .standard pw s req session → Accepts .standard pw s' req' session' →
      req.auth = req'.auth → req.dstAddr = req'.dstAddr → session = session' := by
  intro hall
  obtain ⟨s, s', req, req', h, h', hauth, hdstAddr, -⟩ :=
    exists_accepts none none 80 443 (by decide) (by decide)
  exact absurd (hall "p" s s' req req' _ _ h h' hauth hdstAddr) (by decide)

end PbTcpRunAcceptor

end Rog
