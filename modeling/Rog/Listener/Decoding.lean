import Rog.Listener.Handshake
import Rog.Udp.Tunnel

/-!
# Decoding of the messages of a peer

A receiver is strict about a message if it returns an error or values equal to the message's
fields. For each receiver, the messages that it is strict about.
-/

namespace Rog

open Lib SocketM

/-! ## Strict results -/

section Strict

variable {α β : Type}

/-- An error, or a value that agrees with the message; no panic. -/
def Strict (result : Io α) (agrees : α → Prop) : Prop :=
  match result with
  | .ok a => agrees a
  | .error (.err _) => True
  | .error .panic => False

theorem strict_ok {a : α} {agrees : α → Prop} : Strict (.ok a) agrees ↔ agrees a := Iff.rfl

theorem strict_map {x : Io α} {f : α → β} {agrees : β → Prop} :
    Strict (x.map f) agrees ↔ Strict x (agrees ∘ f) := by
  cases x with
  | ok a => exact Iff.rfl
  | error e => cases e <;> exact Iff.rfl

theorem strict_congr {x : Io α} {agrees agrees' : α → Prop} (h : ∀ a, agrees a ↔ agrees' a) :
    Strict x agrees ↔ Strict x agrees' := by
  cases x with
  | ok a => exact h a
  | error e => cases e <;> exact Iff.rfl

def NoPanic (result : Io α) : Prop := result ≠ .error .panic

theorem NoPanic.map {x : Io α} {f : α → β} (hx : NoPanic x) : NoPanic (x.map f) := by
  cases x with
  | ok a => simp [NoPanic, Except.map]
  | error e => simpa [NoPanic, Except.map] using hx

theorem NoPanic.bind {x : Io α} {f : α → Io β} (hx : NoPanic x) (hf : ∀ a, NoPanic (f a)) :
    NoPanic (x >>= f) := by
  cases x with
  | ok a => exact hf a
  | error e => simpa [NoPanic, Bind.bind, Except.bind] using hx

/-- Being strict goes through a computation that does not panic. -/
theorem strict_bind {x : Io α} {f : α → Io β} {agrees : β → Prop} (hx : NoPanic x) :
    Strict (x >>= f) agrees ↔ ∀ a, x = .ok a → Strict (f a) agrees := by
  cases x with
  | ok a => exact ⟨fun h b hb ↦ Except.ok.inj hb ▸ h, fun h ↦ h a rfl⟩
  | error e =>
      cases e with
      | err e => exact ⟨fun _ _ hb ↦ (by cases hb), fun _ ↦ trivial⟩
      | panic => exact absurd rfl hx

/-- So does a check that ends in an error. -/
theorem strict_ite_other {c : Prop} [Decidable c] {message : String} {x : Io α} {agrees : α → Prop} :
    Strict (if ¬c then Io.other message else x) agrees ↔ (c → Strict x agrees) := by
  by_cases hc : c
  · simp [hc]
  · rw [if_pos hc]
    exact ⟨fun _ h ↦ absurd h hc, fun _ ↦ trivial⟩

theorem noPanic_ok (a : α) : NoPanic (.ok a : Io α) := by simp [NoPanic]

theorem noPanic_raise (kind : ErrorKind) (message : String) : NoPanic (Io.raise kind message : Io α) := by
  simp [NoPanic, Io.raise]

theorem noPanic_mapErr (describe : String → String) (r : Except String α) :
    NoPanic (Io.mapErr describe r) := by
  cases r with
  | ok a => exact noPanic_ok a
  | error e => exact noPanic_raise .other (describe e)

theorem strict_self {x : Io α} (hx : NoPanic x) : Strict x fun a ↦ x = .ok a := by
  cases x with
  | ok a => rfl
  | error e =>
      cases e with
      | err e => trivial
      | panic => exact hx rfl

end Strict

namespace CryptoCrates

variable (x : CryptoCrates) (pw : String)

theorem noPanic_decryptBytes (combined : Bytes) : NoPanic (x.decryptBytes combined pw) := by
  unfold decryptBytes
  split
  · exact noPanic_raise _ _
  · exact noPanic_mapErr _ _

theorem noPanic_decryptField (ciphertext : String) : NoPanic (x.decryptField ciphertext pw) := by
  refine (noPanic_mapErr _ _).bind fun combined ↦ ?_
  refine (noPanic_decryptBytes x pw combined).bind fun plaintext ↦ ?_
  cases fromUtf8 plaintext with
  | some s => exact noPanic_ok s
  | none => exact noPanic_raise _ _

theorem noPanic_decryptOption (field : Option String) : NoPanic (x.decryptOption field pw) := by
  cases field with
  | some enc => exact (noPanic_decryptField x pw enc).map
  | none => exact noPanic_ok none

theorem noPanic_openPayload (encrypt : Bool) (payload : Bytes) :
    NoPanic (openPayload x pw encrypt payload) := by
  unfold openPayload
  split
  · exact noPanic_ok []
  · split
    · exact noPanic_decryptBytes x pw payload
    · exact noPanic_ok payload

theorem noPanic_decryptPayload (payload : Option Bytes) : NoPanic (x.decryptPayload payload pw) := by
  cases payload with
  | some enc => exact (noPanic_decryptBytes x pw enc).map
  | none => exact noPanic_ok none

end CryptoCrates

/-! ## Ports -/

def FitsPort (port : Option UInt32) : Prop := ∃ p, port = some p ∧ p.toNat < 65536

theorem fitsPort_some (p : UInt32) : FitsPort (some p) ↔ p.toNat < 65536 := by
  simp only [FitsPort, Option.some.injEq, exists_eq_left']

theorem not_fitsPort_none : ¬FitsPort none := by
  rintro ⟨p, hp, -⟩
  cases hp

/-- A port is not reduced exactly when it fits. -/
theorem eq_toUInt16_iff (p : UInt32) : p = p.toUInt16.toUInt32 ↔ FitsPort (some p) := by
  rw [fitsPort_some, ← UInt32.toNat_inj, UInt16.toNat_toUInt32, UInt32.toNat_toUInt16]
  omega

/-! ## Handshakes -/

/-- The destination and the password of a first message. -/
def StreamReq.Names (a : StreamReq) (ra : RunAddr) (auth : String) : Prop :=
  a.dstAddr = some ra.addr ∧ a.dstPort = some ra.port.toUInt32 ∧ ra.udp = false ∧ a.auth = auth

theorem GrpcServerRunStream.strict_accept (a : StreamReq) :
    Strict (accept a) (fun (ra, auth) ↦ a.Names ra auth) ↔
      a.dstAddr.isSome ∧ FitsPort a.dstPort := by
  obtain ⟨auth, payload, dstAddr, dstPort⟩ := a
  cases dstAddr with
  | none => simp [accept, unwrap, Strict, bind, Except.bind]
  | some addr =>
      cases dstPort with
      | none => simp [accept, unwrap, Strict, FitsPort, bind, Except.bind]
      | some port =>
          simp only [accept, StreamReq.Names, unwrap, Strict, bind, Except.bind, pure, Except.pure,
            true_and, and_true, Option.some.injEq, Option.isSome_some]
          exact eq_toUInt16_iff port

/-- The password and the address of a request decrypt. -/
def PbTcpServerRunStream.Opens (x : CryptoCrates) (pw : String) (req : StreamReq) : Prop :=
  (∃ auth, x.decryptField req.auth pw = .ok auth) ∧
    ∃ enc addr, req.dstAddr = some enc ∧ x.decryptField enc pw = .ok addr

def StreamReq.DecryptsTo (x : CryptoCrates) (pw : String) (req : StreamReq) (ra : RunAddr)
    (auth : String) : Prop :=
  x.decryptField req.auth pw = .ok auth ∧
    (∃ enc, req.dstAddr = some enc ∧ x.decryptField enc pw = .ok ra.addr) ∧
    req.dstPort = some ra.port.toUInt32 ∧ ra.udp = false

theorem PbTcpServerRunStream.strict_accept (x : PbTcpCrates) (pw : String) (req : StreamReq) :
    Strict (accept x pw req) (fun (ra, auth, _) ↦ req.DecryptsTo x.crypto pw ra auth) ↔
      (Opens x.crypto pw req → ∀ port, req.dstPort = some port → port.toNat < 65536) := by
  obtain ⟨auth, payload, dstAddr, dstPort⟩ := req
  rw [accept, strict_bind (x.crypto.noPanic_decryptField pw auth)]
  cases dstAddr with
  | none =>
      refine ⟨fun _ hopens ↦ ?_, fun _ _ _ ↦ trivial⟩
      obtain ⟨-, enc, addr, henc, -⟩ := hopens
      cases henc
  | some enc =>
      simp only [strict_bind (x.crypto.noPanic_decryptField pw enc)]
      cases dstPort with
      | none => exact ⟨fun _ _ _ hport ↦ (by cases hport), fun _ _ _ _ _ ↦ trivial⟩
      | some port =>
          constructor
          · rintro h ⟨⟨sent, hsent⟩, _, addr, ⟨⟩, haddr⟩ _ ⟨⟩
            have hagrees := h sent hsent addr haddr
            rw [← fitsPort_some, ← eq_toUInt16_iff]
            exact Option.some.inj hagrees.2.2.1
          · intro h sent hsent addr haddr
            have hfits := h ⟨⟨sent, hsent⟩, enc, addr, rfl, haddr⟩ port rfl
            rw [← fitsPort_some, ← eq_toUInt16_iff] at hfits
            exact ⟨hsent, ⟨enc, rfl, haddr⟩, congrArg some hfits, rfl⟩

/-! ## Packets -/

def UdpReq.Complete (r : UdpReq) : Prop :=
  r.dstAddr.isSome ∧ FitsPort r.dstPort ∧ r.srcAddr.isSome ∧ FitsPort r.srcPort ∧ r.payload.isSome

def UdpRes.Complete (r : UdpRes) : Prop :=
  r.dstAddr.isSome ∧ FitsPort r.dstPort ∧ r.srcAddr.isSome ∧ FitsPort r.srcPort

def AddrInfo.FitsPorts (info : AddrInfo) : Prop :=
  info.dstPort.toNat < 65536 ∧ info.srcPort.toNat < 65536

theorem AddrInfo.eq_ofMeta_toMeta_iff (info : AddrInfo) :
    info = .ofMeta info.toMeta ↔ info.FitsPorts := by
  obtain ⟨dstAddr, dstPort, srcAddr, srcPort⟩ := info
  simp only [ofMeta, toMeta, mk.injEq, true_and, FitsPorts, ← fitsPort_some, ← eq_toUInt16_iff]

theorem UdpReq.strict_tryInto (r : UdpReq) :
    Strict r.tryInto (fun result ↦ ∃ packet, result = .ok packet ∧ r = fromPacket packet r.auth) ↔
      r.Complete := by
  obtain ⟨auth, payload, dstAddr, dstPort, srcAddr, srcPort⟩ := r
  cases dstAddr <;> cases dstPort <;> cases srcAddr <;> cases srcPort <;> cases payload <;>
    simp only [tryInto, Rog.unwrap, bind, Except.bind, pure, Except.pure, Strict, Complete,
      Option.isSome_none, Option.isSome_some, Bool.false_eq_true, false_and, and_false, true_and,
      and_true, not_fitsPort_none]
  case some.some.some.some.some dstAddr dstPort srcAddr srcPort data =>
    simp only [Except.ok.injEq, exists_eq_left', fromPacket, mk.injEq, true_and, Option.some.injEq,
      ← eq_toUInt16_iff]

theorem UdpReq.strict_tryInto_auth (auth : String) (r : UdpReq) :
    Strict r.tryInto (fun result ↦
        ∃ packet, result = .ok packet ∧ { r with auth := auth } = fromPacket packet auth) ↔
      r.Complete := by
  rw [← r.strict_tryInto]
  refine strict_congr fun result ↦ exists_congr fun packet ↦ and_congr_right fun _ ↦ ?_
  obtain ⟨_, payload, dstAddr, dstPort, srcAddr, srcPort⟩ := r
  simp [fromPacket]

theorem UdpRes.strict_tryInto (r : UdpRes) :
    Strict r.tryInto (fun result ↦ ∃ packet, result = .ok packet ∧ tryFrom packet = .ok r) ↔
      r.Complete := by
  obtain ⟨payload, dstAddr, dstPort, srcAddr, srcPort⟩ := r
  cases dstAddr <;> cases dstPort <;> cases srcAddr <;> cases srcPort <;>
    simp only [tryInto, Rog.unwrap, bind, Except.bind, pure, Except.pure, Strict, Complete,
      Option.isSome_none, Option.isSome_some, Bool.false_eq_true, false_and, and_false, true_and,
      not_fitsPort_none]
  case some.some.some.some dstAddr dstPort srcAddr srcPort =>
    simp only [Except.ok.injEq, exists_eq_left', tryFrom, mk.injEq, true_and, Option.some.injEq,
      ← eq_toUInt16_iff]
    exact and_congr eq_comm eq_comm

theorem TryInto.strict_unwrap {x : TryInto} {agrees : UDPPacket → Prop} (hx : x ≠ .ok (.error ())) :
    Strict x.unwrap agrees ↔ Strict x fun result ↦ ∃ packet, result = .ok packet ∧ agrees packet := by
  match x with
  | .ok (.ok packet) => simp [unwrap, Strict, bind, Except.bind, pure, Except.pure]
  | .ok (.error ()) => exact absurd rfl hx
  | .error (.err e) => exact Iff.rfl
  | .error .panic => exact Iff.rfl

theorem TryInto.strict_orErr {x : TryInto} {agrees : UDPPacket → Prop} (message : String)
    (hx : x ≠ .ok (.error ())) :
    Strict (x.orErr message) agrees ↔
      Strict x fun result ↦ ∃ packet, result = .ok packet ∧ agrees packet := by
  match x with
  | .ok (.ok packet) => simp [orErr, Strict, bind, Except.bind, pure, Except.pure]
  | .ok (.error ()) => exact absurd rfl hx
  | .error (.err e) => exact Iff.rfl
  | .error .panic => exact Iff.rfl

theorem UdpReq.tryInto_ne (r : UdpReq) : r.tryInto ≠ .ok (.error ()) := by
  obtain ⟨auth, payload, dstAddr, dstPort, srcAddr, srcPort⟩ := r
  cases dstAddr <;> cases dstPort <;> cases srcAddr <;> cases srcPort <;> cases payload <;>
    simp [tryInto, Rog.unwrap, bind, Except.bind, pure, Except.pure]

theorem UdpRes.tryInto_ne (r : UdpRes) : r.tryInto ≠ .ok (.error ()) := by
  obtain ⟨payload, dstAddr, dstPort, srcAddr, srcPort⟩ := r
  cases dstAddr <;> cases dstPort <;> cases srcAddr <;> cases srcPort <;>
    simp [tryInto, Rog.unwrap, bind, Except.bind, pure, Except.pure]

/-- The reverse messages have all their addresses in one field, the absence of which is an
error. -/
theorem strict_addrInfo {x : TryInto} {info : Option AddrInfo} {data : Bytes} (message : String)
    (hsome : ∀ i, info = some i → x = .ok (.ok ⟨i.toMeta, data⟩))
    (hnone : info = none → x = .ok (.error ())) :
    Strict (x.orErr message)
        (fun packet ↦ info = some (.ofMeta packet.metadata) ∧ packet.data = data) ↔
      ∀ i, info = some i → i.FitsPorts := by
  cases info with
  | none => simp [hnone rfl, TryInto.orErr, Strict, bind, Except.bind, Io.other, Io.raise]
  | some i =>
      rw [hsome i rfl]
      simp only [TryInto.orErr, bind, Except.bind, pure, Except.pure, strict_ok, Option.some.injEq,
        and_true, forall_eq']
      exact i.eq_ofMeta_toMeta_iff

theorem RevUdpReq.strict_orErr (r : RevUdpReq) (message : String) :
    Strict (r.tryInto.orErr message) (fun packet ↦ r.addrInfo = some (.ofMeta packet.metadata) ∧
        packet.data = r.payload.getD []) ↔
      ∀ info, r.addrInfo = some info → info.FitsPorts :=
  strict_addrInfo message (fun i hi ↦ by rw [tryInto, hi]) (fun hi ↦ by rw [tryInto, hi])

theorem RevUdpRes.strict_orErr (r : RevUdpRes) (message : String) :
    Strict (r.tryInto.orErr message) (fun packet ↦ r.addrInfo = some (.ofMeta packet.metadata) ∧
        packet.data = r.payload) ↔
      ∀ info, r.addrInfo = some info → info.FitsPorts :=
  strict_addrInfo message (fun i hi ↦ by rw [tryInto, hi]) (fun hi ↦ by rw [tryInto, hi])

/-! ## UDP readers -/

theorem GrpcUdpServerReadHalf.strict_convert (auth : String) (r : UdpReq) :
    Strict (convert auth r) (fun packet ↦ r = .fromPacket packet r.auth) ↔
      (r.auth = auth → r.Complete) := by
  by_cases hauth : auth = r.auth
  · rw [convert, if_neg (not_not.mpr hauth), TryInto.strict_unwrap r.tryInto_ne, r.strict_tryInto]
    simp [hauth]
  · rw [convert, if_pos hauth]
    exact ⟨fun _ heq ↦ absurd heq.symm hauth, fun _ ↦ trivial⟩

theorem RevGrpcUdpServerReader.strict_convert (auth : String) (r : RevUdpReq) :
    Strict (convert auth r) (fun packet ↦ r.addrInfo = some (.ofMeta packet.metadata) ∧
        packet.data = r.payload.getD []) ↔
      (r.auth = auth → ∀ info, r.addrInfo = some info → info.FitsPorts) := by
  by_cases hauth : r.auth = auth
  · rw [convert, if_neg (not_not.mpr hauth), r.strict_orErr]
    simp [hauth]
  · rw [convert, if_pos hauth]
    exact ⟨fun _ heq ↦ absurd heq hauth, fun _ ↦ trivial⟩

/-- The request with its fields decrypted. -/
structure UdpReq.DecryptsTo (x : CryptoCrates) (pw : String) (req plain : UdpReq) : Prop where
  auth : x.decryptField req.auth pw = .ok plain.auth
  dstAddr : x.decryptOption req.dstAddr pw = .ok plain.dstAddr
  srcAddr : x.decryptOption req.srcAddr pw = .ok plain.srcAddr
  payload : x.decryptPayload req.payload pw = .ok plain.payload
  dstPort : plain.dstPort = req.dstPort
  srcPort : plain.srcPort = req.srcPort

theorem UdpReq.decryptsTo_iff {x : CryptoCrates} {pw auth : String} {req plain : UdpReq}
    {dstAddr srcAddr : Option String} {payload : Option Bytes}
    (hauth : x.decryptField req.auth pw = .ok auth)
    (hdst : x.decryptOption req.dstAddr pw = .ok dstAddr)
    (hsrc : x.decryptOption req.srcAddr pw = .ok srcAddr)
    (hpayload : x.decryptPayload req.payload pw = .ok payload) :
    req.DecryptsTo x pw plain ↔
      plain = ⟨auth, payload, dstAddr, req.dstPort, srcAddr, req.srcPort⟩ := by
  constructor
  · rintro ⟨hauth', hdst', hsrc', hpayload', hdstPort, hsrcPort⟩
    obtain rfl := Except.ok.inj (hauth'.symm.trans hauth)
    obtain rfl := Except.ok.inj (hdst'.symm.trans hdst)
    obtain rfl := Except.ok.inj (hsrc'.symm.trans hsrc)
    obtain rfl := Except.ok.inj (hpayload'.symm.trans hpayload)
    rw [← hdstPort, ← hsrcPort]
  · rintro rfl
    exact ⟨hauth, hdst, hsrc, hpayload, rfl, rfl⟩

structure UdpRes.DecryptsTo (x : CryptoCrates) (pw : String) (res plain : UdpRes) : Prop where
  dstAddr : x.decryptOption res.dstAddr pw = .ok plain.dstAddr
  srcAddr : x.decryptOption res.srcAddr pw = .ok plain.srcAddr
  payload : x.decryptBytes res.payload pw = .ok plain.payload
  dstPort : plain.dstPort = res.dstPort
  srcPort : plain.srcPort = res.srcPort

theorem UdpRes.decryptsTo_iff {x : CryptoCrates} {pw : String} {res plain : UdpRes}
    {dstAddr srcAddr : Option String} {payload : Bytes}
    (hdst : x.decryptOption res.dstAddr pw = .ok dstAddr)
    (hsrc : x.decryptOption res.srcAddr pw = .ok srcAddr)
    (hpayload : x.decryptBytes res.payload pw = .ok payload) :
    res.DecryptsTo x pw plain ↔ plain = ⟨payload, dstAddr, res.dstPort, srcAddr, res.srcPort⟩ := by
  constructor
  · rintro ⟨hdst', hsrc', hpayload', hdstPort, hsrcPort⟩
    obtain rfl := Except.ok.inj (hdst'.symm.trans hdst)
    obtain rfl := Except.ok.inj (hsrc'.symm.trans hsrc)
    obtain rfl := Except.ok.inj (hpayload'.symm.trans hpayload)
    rw [← hdstPort, ← hsrcPort]
  · rintro rfl
    exact ⟨hdst, hsrc, hpayload, rfl, rfl⟩

/-- A request whose password is wrong is refused before the rest of it is looked at. -/
theorem PbTcpUdpServerReader.strict_convert (x : CryptoCrates) (auth pw : String) (req : UdpReq) :
    Strict (convert x auth pw req)
        (fun packet ↦ ∃ plain, req.DecryptsTo x pw plain ∧ plain = .fromPacket packet auth) ↔
      ∀ plain, req.DecryptsTo x pw plain → plain.auth = auth → plain.Complete := by
  rw [convert, strict_bind (x.noPanic_decryptField pw req.auth)]
  simp only [strict_ite_other, strict_bind (x.noPanic_decryptOption pw _),
    strict_bind (x.noPanic_decryptPayload pw _), TryInto.strict_orErr _ (UdpReq.tryInto_ne _)]
  constructor
  · rintro h plain hplain rfl
    have hstrict := h plain.auth hplain.auth rfl plain.dstAddr hplain.dstAddr plain.srcAddr
      hplain.srcAddr plain.payload hplain.payload
    simp only [UdpReq.decryptsTo_iff hplain.auth hplain.dstAddr hplain.srcAddr hplain.payload,
      exists_eq_left] at hstrict
    have hcomplete := (UdpReq.strict_tryInto_auth plain.auth _).mp hstrict
    rwa [UdpReq.Complete, hplain.dstPort, hplain.srcPort]
  · rintro h _ hauth rfl dstAddr hdst srcAddr hsrc payload hpayload
    simp only [UdpReq.decryptsTo_iff hauth hdst hsrc hpayload, exists_eq_left, forall_eq] at h ⊢
    exact (UdpReq.strict_tryInto_auth _ _).mpr (h trivial)

theorem PbTcpUdpClientReader.strict_convert (x : CryptoCrates) (pw : String) (res : UdpRes) :
    Strict (convert x pw res)
        (fun packet ↦ ∃ plain, res.DecryptsTo x pw plain ∧ UdpRes.tryFrom packet = .ok plain) ↔
      ∀ plain, res.DecryptsTo x pw plain → plain.Complete := by
  rw [convert]
  simp only [strict_bind (x.noPanic_decryptOption pw _), strict_bind (x.noPanic_decryptBytes pw _),
    TryInto.strict_orErr _ (UdpRes.tryInto_ne _)]
  constructor
  · intro h plain hplain
    have hstrict := h plain.dstAddr hplain.dstAddr plain.srcAddr hplain.srcAddr plain.payload
      hplain.payload
    simp only [UdpRes.decryptsTo_iff hplain.dstAddr hplain.srcAddr hplain.payload,
      exists_eq_left] at hstrict
    have hcomplete := (UdpRes.strict_tryInto _).mp hstrict
    rwa [UdpRes.Complete, hplain.dstPort, hplain.srcPort]
  · intro h dstAddr hdst srcAddr hsrc payload hpayload
    simp only [UdpRes.decryptsTo_iff hdst hsrc hpayload, exists_eq_left, forall_eq] at h ⊢
    exact (UdpRes.strict_tryInto _).mpr h

/-! ## Messages on a connection -/

section Connection

variable {α β M : Type}

theorem NoPanic.runOn_bind {x : SocketM α} {f : α → SocketM β} {s : Socket}
    (hx : NoPanic (x.runOn s).1) (hf : ∀ a t, NoPanic ((f a).runOn t).1) :
    NoPanic ((x >>= f).runOn s).1 := by
  obtain ⟨result, t, hrun⟩ : ∃ result t, x.runOn s = (result, t) := ⟨_, _, rfl⟩
  rw [hrun] at hx
  cases result with
  | ok a =>
      rw [runOn_bind_ok hrun]
      exact hf a t
  | error e =>
      rw [runOn_bind_error hrun]
      simpa [NoPanic] using hx

theorem noPanic_readExact (n : ℕ) (s : Socket) : NoPanic ((readExact n).runOn s).1 := by
  simp only [readExact, runOn]
  split
  · exact noPanic_ok _
  · exact noPanic_raise _ _

theorem noPanic_readMsg (codec : Prost M) (s : Socket) : NoPanic ((readMsg codec).runOn s).1 := by
  refine NoPanic.runOn_bind ?_ fun data t ↦ noPanic_mapErr _ _
  refine (noPanic_readExact 16 s).runOn_bind fun header t ↦ ?_
  dsimp only
  split
  · exact noPanic_raise _ _
  · exact noPanic_readExact _ t

/-- What is made of the next message of a connection. -/
theorem strict_readMsg {codec : Prost M} {f : M → Io β} {s : Socket} {agrees : M → β → Prop} :
    Strict ((readMsg codec >>= fun msg ↦ ofIo (f msg)).runOn s).1
        (fun b ↦ ∃ msg t, (readMsg codec).runOn s = (.ok msg, t) ∧ agrees msg b) ↔
      ∀ msg t, (readMsg codec).runOn s = (.ok msg, t) → Strict (f msg) (agrees msg) := by
  obtain ⟨result, t, hrun⟩ : ∃ result t, (readMsg codec).runOn s = (result, t) := ⟨_, _, rfl⟩
  have hresult := noPanic_readMsg codec s
  rw [hrun] at hresult
  cases result with
  | ok msg =>
      rw [runOn_bind_ok hrun, runOn_ofIo]
      simp [hrun]
  | error e =>
      rw [runOn_bind_error hrun]
      cases e with
      | err e => simp [hrun, Strict]
      | panic => exact absurd rfl hresult

end Connection

/-- The bytes of a message are the bytes that a read returns and the bytes that it keeps. -/
theorem strict_read {σ : Type} {pull : σ → Io Bytes × σ} {cap : ℕ} {source : σ}
    (agrees : Bytes → Prop) :
    Strict (Reassembler.read pull cap (.new source)).1
        (fun data ↦ agrees (data ++ (Reassembler.read pull cap (.new source)).2.pending)) ↔
      Strict (pull source).1 agrees := by
  obtain ⟨result, s, hpull⟩ : ∃ result s, pull source = (result, s) := ⟨_, _, rfl⟩
  have hpos : ¬(Reassembler.new source : Reassembler σ UInt8).cachePos <
      (Reassembler.new source : Reassembler σ UInt8).cache.length := Nat.lt_irrefl 0
  rw [Reassembler.read, if_neg hpos, Reassembler.new, hpull]
  cases result with
  | error e => cases e <;> rfl
  | ok payload =>
      by_cases hempty : payload.isEmpty
      · obtain rfl := List.isEmpty_iff.mp hempty
        rfl
      · simp only [if_neg hempty, strict_ok, Reassembler.pending, List.drop_zero]
        split
        · rw [List.take_append_drop]
        · rw [List.append_nil, List.take_of_length_le (by omega)]

/-! ## Receivers -/

theorem GrpcServerRunStream.strict_handshake (s : GrpcServerRunStream) (a : StreamReq)
    (rest : Streaming StreamReq) :
    Strict (handshake (s.setSource (.ok a :: rest))).1
        (fun result ↦ ∃ ra auth, result = some (ra, auth) ∧ a.Names ra auth) ↔
      a.dstAddr.isSome ∧ FitsPort a.dstPort := by
  rw [← strict_accept]
  change Strict ((accept a).map some) _ ↔ _
  rw [strict_map]
  refine strict_congr fun (ra, auth) ↦ ?_
  simp

theorem PbTcpServerRunStream.strict_handshake (x : PbTcpCrates) (pw : String)
    (s : PbTcpServerRunStream) :
    Strict (handshake x pw s).1 (fun result ↦ ∃ req t,
        (readMsg x.req).runOn s.half.source.reader = (.ok req, t) ∧
          ∃ ra auth, result = some (ra, auth) ∧ req.DecryptsTo x.crypto pw ra auth) ↔
      ∀ req t, (readMsg x.req).runOn s.half.source.reader = (.ok req, t) →
        Opens x.crypto pw req → ∀ port, req.dstPort = some port → port.toNat < 65536 := by
  simp only [← strict_accept, ← strict_readMsg, handshake_fst, strict_map]
  refine strict_congr fun (ra, auth, _) ↦ ?_
  simp

theorem GrpcServerReadHalf.strict_read (cap : ℕ) (a : StreamReq) (rest : Streaming StreamReq) :
    Strict (read cap (.new (.ok a :: rest))).1
        (fun data ↦ a.payload = some (data ++ (read cap (.new (.ok a :: rest))).2.pending)) ↔
      a.payload.isSome := by
  refine (Rog.strict_read fun bytes ↦ a.payload = some bytes).trans ?_
  simp only [pullMessage]
  cases a.payload <;> simp [unwrap, Strict]

theorem PbTcpServerReadHalf.strict_read (x : PbTcpCrates) (cap : ℕ) (source : PbTcpReader) :
    Strict (read x cap (.new source)).1 (fun data ↦ ∃ req t,
      (readMsg x.req).runOn source.reader = (.ok req, t) ∧
        openPayload x.crypto source.pw source.encrypt (req.payload.getD []) =
          .ok (data ++ (read x cap (.new source)).2.pending)) := by
  refine (Rog.strict_read fun bytes ↦ ∃ req t, (readMsg x.req).runOn source.reader = (.ok req, t) ∧
    openPayload x.crypto source.pw source.encrypt (req.payload.getD []) = .ok bytes).mpr ?_
  exact strict_readMsg.mpr fun _ _ _ ↦ strict_self (x.crypto.noPanic_openPayload _ _ _)

theorem GrpcUdpServerReadHalf.strict_read (auth : String) (r : UdpReq) (rest : Streaming UdpReq) :
    Strict (read ⟨.ok r :: rest, auth⟩).1 (fun packet ↦ r = .fromPacket packet r.auth) ↔
      (r.auth = auth → r.Complete) :=
  strict_convert auth r

theorem GrpcUdpClientRunReader.strict_read (r : UdpRes) (rest : Streaming UdpRes) :
    Strict (read ⟨.ok r :: rest⟩).1 (fun packet ↦ UdpRes.tryFrom packet = .ok r) ↔ r.Complete :=
  (TryInto.strict_unwrap r.tryInto_ne).trans r.strict_tryInto

theorem RevGrpcUdpServerReader.strict_read (auth : String) (r : RevUdpReq)
    (rest : Streaming RevUdpReq) :
    Strict (read ⟨.ok r :: rest, auth⟩).1 (fun packet ↦
        r.addrInfo = some (.ofMeta packet.metadata) ∧ packet.data = r.payload.getD []) ↔
      (r.auth = auth → ∀ info, r.addrInfo = some info → info.FitsPorts) :=
  strict_convert auth r

theorem RevGrpcUdpClientReader.strict_read (r : RevUdpRes) (rest : Streaming RevUdpRes) :
    Strict (read ⟨.ok r :: rest⟩).1 (fun packet ↦
        r.addrInfo = some (.ofMeta packet.metadata) ∧ packet.data = r.payload) ↔
      ∀ info, r.addrInfo = some info → info.FitsPorts :=
  r.strict_orErr _

theorem PbTcpUdpServerReader.strict_read (x : PbTcpUdpCrates) (h : PbTcpUdpServerReader) :
    Strict (read x h).1 (fun packet ↦ ∃ req t, (readMsg x.req).runOn h.reader = (.ok req, t) ∧
        ∃ plain, req.DecryptsTo x.crypto h.pw plain ∧ plain = .fromPacket packet h.auth) ↔
      ∀ req t, (readMsg x.req).runOn h.reader = (.ok req, t) →
        ∀ plain, req.DecryptsTo x.crypto h.pw plain → plain.auth = h.auth → plain.Complete := by
  simp only [← strict_convert, ← strict_readMsg]
  rfl

theorem PbTcpUdpClientReader.strict_read (x : PbTcpUdpCrates) (h : PbTcpUdpClientReader) :
    Strict (read x h).1 (fun packet ↦ ∃ res t, (readMsg x.res).runOn h.reader = (.ok res, t) ∧
        ∃ plain, res.DecryptsTo x.crypto h.pw plain ∧ UdpRes.tryFrom packet = .ok plain) ↔
      ∀ res t, (readMsg x.res).runOn h.reader = (.ok res, t) →
        ∀ plain, res.DecryptsTo x.crypto h.pw plain → plain.Complete := by
  simp only [← strict_convert, ← strict_readMsg]
  rfl

/-! ## All receivers -/

/-- The messages that each receiver is strict about. -/
theorem strict_iff_complete (x : PbTcpCrates) (y : PbTcpUdpCrates) (pw : String) (cap : ℕ) :
    (∀ (s : GrpcServerRunStream) (a : StreamReq) (rest : Streaming StreamReq),
      Strict (GrpcServerRunStream.handshake (s.setSource (.ok a :: rest))).1
        (fun result ↦ ∃ ra auth, result = some (ra, auth) ∧ a.Names ra auth) ↔
      a.dstAddr.isSome ∧ FitsPort a.dstPort) ∧
    (∀ s, Strict (PbTcpServerRunStream.handshake x pw s).1 (fun result ↦ ∃ req t,
        (readMsg x.req).runOn s.half.source.reader = (.ok req, t) ∧
          ∃ ra auth, result = some (ra, auth) ∧ req.DecryptsTo x.crypto pw ra auth) ↔
      ∀ req t, (readMsg x.req).runOn s.half.source.reader = (.ok req, t) →
        PbTcpServerRunStream.Opens x.crypto pw req →
          ∀ port, req.dstPort = some port → port.toNat < 65536) ∧
    (∀ a rest, Strict (GrpcServerReadHalf.read cap (.new (.ok a :: rest))).1 (fun data ↦
        a.payload = some (data ++ (GrpcServerReadHalf.read cap (.new (.ok a :: rest))).2.pending)) ↔
      a.payload.isSome) ∧
    (∀ info a rest, Strict (GrpcServerRunStream.read cap ⟨.new (.ok a :: rest), info⟩).1 (fun data ↦
        a.payload = some (data ++
          (GrpcServerRunStream.read cap ⟨.new (.ok a :: rest), info⟩).2.half.pending)) ↔
      a.payload.isSome) ∧
    (∀ source, Strict (PbTcpServerReadHalf.read x cap (.new source)).1 (fun data ↦ ∃ req t,
      (readMsg x.req).runOn source.reader = (.ok req, t) ∧
        openPayload x.crypto source.pw source.encrypt (req.payload.getD []) =
          .ok (data ++ (PbTcpServerReadHalf.read x cap (.new source)).2.pending))) ∧
    (∀ info source, Strict (PbTcpServerRunStream.read x cap ⟨.new source, info⟩).1 (fun data ↦
      ∃ req t, (readMsg x.req).runOn source.reader = (.ok req, t) ∧
        openPayload x.crypto source.pw source.encrypt (req.payload.getD []) =
          .ok (data ++ (PbTcpServerRunStream.read x cap ⟨.new source, info⟩).2.half.pending))) ∧
    (∀ auth r rest, Strict (GrpcUdpServerReadHalf.read ⟨.ok r :: rest, auth⟩).1
        (fun packet ↦ r = .fromPacket packet r.auth) ↔ (r.auth = auth → r.Complete)) ∧
    (∀ r rest, Strict (GrpcUdpClientRunReader.read ⟨.ok r :: rest⟩).1
        (fun packet ↦ UdpRes.tryFrom packet = .ok r) ↔ r.Complete) ∧
    (∀ auth r rest, Strict (RevGrpcUdpServerReader.read ⟨.ok r :: rest, auth⟩).1 (fun packet ↦
        r.addrInfo = some (.ofMeta packet.metadata) ∧ packet.data = r.payload.getD []) ↔
      (r.auth = auth → ∀ info, r.addrInfo = some info → info.FitsPorts)) ∧
    (∀ r rest, Strict (RevGrpcUdpClientReader.read ⟨.ok r :: rest⟩).1 (fun packet ↦
        r.addrInfo = some (.ofMeta packet.metadata) ∧ packet.data = r.payload) ↔
      ∀ info, r.addrInfo = some info → info.FitsPorts) ∧
    (∀ h, Strict (PbTcpUdpServerReader.read y h).1 (fun packet ↦ ∃ req t,
        (readMsg y.req).runOn h.reader = (.ok req, t) ∧
          ∃ plain, req.DecryptsTo y.crypto h.pw plain ∧ plain = .fromPacket packet h.auth) ↔
      ∀ req t, (readMsg y.req).runOn h.reader = (.ok req, t) →
        ∀ plain, req.DecryptsTo y.crypto h.pw plain → plain.auth = h.auth → plain.Complete) ∧
    (∀ h, Strict (PbTcpUdpClientReader.read y h).1 (fun packet ↦ ∃ res t,
        (readMsg y.res).runOn h.reader = (.ok res, t) ∧
          ∃ plain, res.DecryptsTo y.crypto h.pw plain ∧ UdpRes.tryFrom packet = .ok plain) ↔
      ∀ res t, (readMsg y.res).runOn h.reader = (.ok res, t) →
        ∀ plain, res.DecryptsTo y.crypto h.pw plain → plain.Complete) :=
  ⟨GrpcServerRunStream.strict_handshake, PbTcpServerRunStream.strict_handshake x pw,
    GrpcServerReadHalf.strict_read cap, fun _ ↦ GrpcServerReadHalf.strict_read cap,
    PbTcpServerReadHalf.strict_read x cap, fun _ ↦ PbTcpServerReadHalf.strict_read x cap,
    GrpcUdpServerReadHalf.strict_read, GrpcUdpClientRunReader.strict_read,
    RevGrpcUdpServerReader.strict_read, RevGrpcUdpClientReader.strict_read,
    PbTcpUdpServerReader.strict_read y, PbTcpUdpClientReader.strict_read y⟩

/-- A port that does not fit is reduced, and an address that is missing ends in a panic. -/
theorem handshake_narrows_port :
    GrpcServerRunStream.handshake (.new [.ok ⟨"pw", none, some "internal", some 65616⟩]) =
        (.ok (some (⟨"internal", 80, false⟩, "pw")), .new []) ∧
      GrpcServerRunStream.handshake (.new [.ok ⟨"pw", none, none, some 80⟩]) =
        (.error .panic, .new []) ∧
      ¬∀ (s : GrpcServerRunStream) (a : StreamReq) (rest : Streaming StreamReq),
        Strict (GrpcServerRunStream.handshake (s.setSource (.ok a :: rest))).1
          fun result ↦ ∃ ra auth, result = some (ra, auth) ∧ a.Names ra auth := by
  refine ⟨rfl, rfl, fun h ↦ ?_⟩
  have hstrict := h (GrpcServerRunStream.new []) ⟨"pw", none, none, some 80⟩ []
  exact hstrict

end Rog
