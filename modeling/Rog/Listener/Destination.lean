import Rog.Listener.Handshake
import Rog.Listener.RevGrpc
import Rog.Reverse.System
import Rog.Stream.PbTcpSession

/-!
# The destination on its way through the transports

An endpoint is parsed by a connector, carried in a message, and rebuilt by the handshake of the
peer's listener: the address and the port are those that it was made from.
-/

namespace Rog

open Lib SocketM

/-! ## Forward transports -/

section Forward

variable {ra : RunAddr} {r : RunAddr × Option Bytes}

theorem GrpcRunConnector.connect_endpoint {pw : String} {resp : Except String (Streaming StreamRes)}
    {sent : Bool} {msgs : List StreamReq} {client : GrpcClientRunStream} (hra : ra.addr ≠ "")
    (h : connect (some pw) resp sent ra.endpoint = .ok (msgs, client)) :
    msgs = [⟨pw, none, some ra.addr, some ra.port.toUInt32⟩] := by
  obtain ⟨⟨host, port⟩, haddr, h⟩ := Io.bind_eq_ok h
  obtain ⟨rfl, rfl⟩ : ra.addr = host ∧ ra.port = port := by
    simpa [parseAddress_endpoint ra hra] using haddr
  obtain ⟨resp, -, h⟩ := Io.bind_eq_ok h
  obtain ⟨auth, hauth, h⟩ := Io.bind_eq_ok h
  obtain rfl : pw = auth := Except.ok.inj hauth
  cases sent with
  | false => cases h
  | true =>
      obtain ⟨hmsgs, -⟩ := Prod.mk.inj (Except.ok.inj h)
      exact hmsgs.symm

theorem GrpcRunListener.handshake_message {pw auth addr : String} {port : UInt16}
    {rest : Streaming StreamReq} {server : GrpcServerRunStream}
    (hserver : server.half.source = .ok ⟨pw, none, some addr, some port.toUInt32⟩ :: rest)
    (h : (handshake auth server).1 = .ok r) : r = (⟨addr, port, false⟩, none) := by
  have hport : port.toUInt32.toUInt16 = port := UInt16.toUInt16_toUInt32 port
  have haccept : GrpcServerRunStream.accept ⟨pw, none, some addr, some port.toUInt32⟩ =
      .ok (⟨addr, port, false⟩, pw) := by
    simp [GrpcServerRunStream.accept, unwrap, hport, bind, Except.bind, pure, Except.pure]
  obtain ⟨hresult, hcache⟩ := checkAuth_eq_ok h
  simp only [RunStream.setInfo, hserver, haccept, Except.map,
    Except.ok.injEq, Option.some.injEq, Prod.mk.injEq] at hresult
  exact Prod.ext hresult.1.symm hcache

theorem PbTcpRunAcceptor.handshake_fst (x : PbTcpCrates) (auth : String)
    (s : PbTcpServerRunStream) :
    (handshake x auth s).1 = checkAuth auth (PbTcpServerRunStream.handshake x auth s).1 := by
  obtain ⟨t, hhalf, hcheck⟩ : ∃ t : PbTcpServerRunStream, t.half = s.half ∧
      (handshake x auth s).1 = checkAuth auth (PbTcpServerRunStream.handshake x auth t).1 :=
    ⟨s.setInfo fun x ↦ { x with protocolName := "pb_tcp" }, rfl, rfl⟩
  rw [hcheck, PbTcpServerRunStream.handshake_fst, hhalf, ← PbTcpServerRunStream.handshake_fst]

theorem PbTcpRunAcceptor.handshake_eq_ok {x : PbTcpCrates} {auth : String}
    {s : PbTcpServerRunStream} (h : (handshake x auth s).1 = .ok r) :
    (PbTcpServerRunStream.handshake x auth s).1 = .ok (some (r.1, auth)) ∧ r.2 = none := by
  rw [handshake_fst] at h
  exact checkAuth_eq_ok h

theorem PbTcpRunAcceptor.handshake_connect {x : PbTcpCrates} {pw : String} {random : ConnectRandom}
    {incoming s t : Socket} {hello : List Bytes} {client : PbTcpClientRunStream} {more : Bytes}
    {connType : UInt8} (hx : x.RoundTrips) (hra : ra.addr ≠ "")
    (hconnect : PbTcpRunConnector.connect x pw random incoming ra.endpoint = .ok (hello, client))
    (hvec : ∀ bytes ∈ hello, FitsVec bytes) (hs : s.flatten = hello.flatten ++ more)
    (htype : readConnType.runOn s = (.ok connType, t))
    (h : (handshake x pw (.new t)).1 = .ok r) : r = (⟨ra.addr, ra.port, false⟩, none) := by
  have haddr := parseAddress_endpoint ra hra
  obtain ⟨hresult, hcache⟩ := handshake_eq_ok h
  by_cases hfits : ∀ frame ∈ hello, FitsFrame frame
  · obtain ⟨t', u, htype', -, hhandshake⟩ := Rog.handshake_connect hx haddr hconnect hfits hs
    obtain rfl : t' = t := (Prod.mk.inj (htype'.symm.trans htype)).2
    rw [hhandshake] at hresult
    obtain ⟨hr, -⟩ := Prod.mk.inj (Option.some.inj (Except.ok.inj hresult))
    exact Prod.ext hr.symm hcache
  · -- the message is refused, and the handshake fails
    obtain ⟨auth, dstAddr, -, -, rfl, -⟩ := connect_eq_ok haddr hconnect
    obtain ⟨t', htype', ht⟩ := readConnType_cons (s := s) (by simpa using hs)
    obtain rfl : t' = t := (Prod.mk.inj (htype'.symm.trans htype)).2
    obtain ⟨msg, hmsg⟩ : ∃ msg : StreamReq,
        msg = ⟨auth, none, some dstAddr, some ra.port.toUInt32⟩ := ⟨_, rfl⟩
    rw [← hmsg] at hfits hvec ht
    have hlarge : ¬FitsFrame (writeFrame x.req random.mask msg) := by
      intro hfit
      refine hfits fun frame hframe ↦ ?_
      obtain rfl | rfl : frame = [connTypeStream] ∨ frame = writeFrame x.req random.mask msg := by
        simpa using hframe
      · simp [FitsFrame]
      · exact hfit
    have hshort : (x.req.encode msg).length < 2 ^ 64 := by
      have hlength := hvec (writeFrame x.req random.mask msg) (by simp)
      rw [FitsVec, length_writeFrame] at hlength
      omega
    obtain ⟨u, hread⟩ := readMsg_large ht hshort hlarge
    have haccept := runOn_bind_error (f := fun req ↦ ofIo (PbTcpServerRunStream.accept x pw req)) hread
    rw [PbTcpServerRunStream.handshake_fst] at hresult
    have hreader : (PbTcpServerRunStream.new t').half.source.reader = t' := rfl
    rw [hreader, PbTcpServerRunStream.acceptMsg, haccept] at hresult
    cases hresult

end Forward

/-! ## The reverse transport -/

/-- The call was made with this text, and what it holds is what the text parses to. -/
def Call.Asked {ν μ : Type} (v : CallKind) (text : String) (x : Call ν μ) : Prop :=
  match x.pc with
  | .idle => False
  | .lookup addr | .insert addr _ => v.parse text = .ok addr
  | .send _ req => ∃ addr id, v.parse text = .ok addr ∧ req = v.request addr id
  | _ => True

section Call

variable {κ ν μ : Type} [DecidableEq κ] [DecidableEq μ] {v : CallKind} {c : κ}
  {s s' : RevGrpcState κ ν μ} {x x' : Call ν μ} {e : CallEvent}

theorem asked_of_call {cfg : Connector} {text : String}
    (h : callStep v c s x (.call cfg text) = some (s', x')) : x'.Asked v text := by
  cases hpc : x.pc <;> simp only [callStep, hpc, reduceCtorEq] at h
  cases hparse : v.parse text with
  | ok addr =>
      obtain ⟨-, rfl⟩ : s = s' ∧ _ = x' := by simpa [hparse] using h
      exact hparse
  | error e =>
      obtain ⟨-, rfl⟩ : s = s' ∧ _ = x' := by simpa [hparse] using h
      trivial

theorem Call.Asked.step {text : String} (hx : x.Asked v text)
    (h : callStep v c s x e = some (s', x')) : x'.Asked v text := by
  cases e with
  | call cfg text' =>
      cases hpc : x.pc <;> simp only [callStep, hpc, reduceCtorEq] at h
      simp [Asked, hpc] at hx
  | lookup =>
      cases hpc : x.pc <;> simp only [callStep, hpc, reduceCtorEq] at h
      case lookup addr =>
        have hparse : v.parse text = .ok addr := by simpa [Asked, hpc] using hx
        cases hm : s.managers x.cfg.name with
        | some m =>
            obtain ⟨-, rfl⟩ : s = s' ∧ _ = x' := by simpa [hm] using h
            exact hparse
        | none =>
            obtain ⟨-, rfl⟩ : s = s' ∧ _ = x' := by simpa [hm] using h
            trivial
  | insert connId =>
      cases hpc : x.pc <;> simp only [callStep, hpc, reduceCtorEq] at h
      case insert addr m =>
        have hparse : v.parse text = .ok addr := by simpa [Asked, hpc] using hx
        obtain ⟨-, rfl⟩ := Prod.mk.inj (Option.some.inj h)
        exact ⟨addr, connId, hparse, rfl⟩
  | sent =>
      cases hpc : x.pc <;> simp only [callStep, hpc, reduceCtorEq] at h
      split at h <;> cases h
      trivial
  | sendFailed =>
      cases hpc : x.pc <;> simp only [callStep, hpc, reduceCtorEq] at h
      split at h <;> cases h
      trivial
  | receive =>
      cases hpc : x.pc <;> cases hrx : s.oneshot (v.kind, c) <;>
        simp only [callStep, hpc, hrx, reduceCtorEq] at h
      all_goals
        cases h
        trivial
  | elapse =>
      cases hpc : x.pc <;> cases hrx : s.oneshot (v.kind, c) <;>
        simp only [callStep, hpc, hrx, reduceCtorEq] at h
      all_goals
        cases h
        trivial
  | dropRx =>
      cases hpc : x.pc <;> simp only [callStep, hpc, reduceCtorEq] at h
      cases h
      trivial
  | remove =>
      cases hpc : x.pc <;> cases hid : x.connId <;>
        simp only [callStep, hpc, hid, reduceCtorEq] at h
      case remove.some e connId =>
        cases h
        trivial
  | leave =>
      cases hpc : x.pc <;> simp only [callStep, hpc, reduceCtorEq] at h
      cases h
      trivial

end Call

namespace RevSystem

variable {κ ν μ : Type} [DecidableEq κ] [DecidableEq ν] [DecidableEq μ]
  {pwMap : String → Option (Option String)} {s t : RevSystem κ ν μ} {e : RevEvent κ ν μ} {c : κ}
  {cfg : Connector} {text : String}

theorem asked_step (hs : (s.call (.stream, c)).Asked .connect text)
    (h : (machine pwMap).step s e = some t) : (t.call (.stream, c)).Asked .connect text := by
  cases e with
  | call k c' e =>
      obtain ⟨⟨state, x⟩, hstep, rfl⟩ := Option.map_eq_some_iff.mp h
      by_cases hc : (Kind.stream, c) = (k, c')
      · obtain ⟨rfl, rfl⟩ := Prod.mk.inj hc
        simpa using hs.step hstep
      · simpa [hc] using hs
  | incoming k i e =>
      obtain ⟨⟨state, x⟩, -, rfl⟩ := Option.map_eq_some_iff.mp h
      exact hs
  | manager m e =>
      obtain ⟨⟨state, x⟩, -, rfl⟩ := Option.map_eq_some_iff.mp h
      exact hs

theorem asked_of_run {es : List (RevEvent κ ν μ)} (hcall : .call .stream c (.call cfg text) ∈ es)
    (h : (machine pwMap).run s es = some t) : (t.call (.stream, c)).Asked .connect text := by
  obtain ⟨as, bs, rfl⟩ := List.append_of_mem hcall
  obtain ⟨u, -, hrest⟩ := (machine pwMap).run_append_eq_some.mp h
  obtain ⟨u', hstep, hbs⟩ := (machine pwMap).run_cons_some hrest
  have hasked : (u'.call (.stream, c)).Asked .connect text := by
    obtain ⟨⟨state, x⟩, hcallStep, rfl⟩ := Option.map_eq_some_iff.mp hstep
    simpa using asked_of_call (v := .connect) (c := c) hcallStep
  exact Machine.run_preserves (I := fun s ↦ (s.call (.stream, c)).Asked .connect text)
    (P := fun _ _ ↦ True) (fun _ _ _ _ ↦ asked_step)
    (.of_forall (fun _ _ _ ↦ trivial) u') hasked hbs

theorem sent_of_run {es : List (RevEvent κ ν μ)} {ra : RunAddr} (hra : ra.addr ≠ "")
    (hcall : .call .stream c (.call cfg ra.endpoint) ∈ es)
    (h : (machine pwMap).run s es = some t) {u : RevSystem κ ν μ}
    (hsent : (machine pwMap).step t (.call .stream c .sent) = some u) :
    ∃ m req, (u.state.control m).sent = (t.state.control m).sent ++ [req] ∧
      req.addrInfo = some ⟨ra.addr, ra.port.toUInt32, "", 0⟩ ∧ req.udp = some 0 := by
  have hasked := asked_of_run hcall h
  obtain ⟨⟨state, x⟩, hstep, rfl⟩ := Option.map_eq_some_iff.mp hsent
  cases callStep_move hstep with
  | sent m req hpc hopen =>
      simp only [Call.Asked, hpc] at hasked
      obtain ⟨addr, id, hparse, rfl⟩ := hasked
      obtain rfl : some (ra.addr, ra.port) = addr := by
        simpa [CallKind.connect, parseAddress_endpoint ra hra, Except.map] using hparse
      refine ⟨m, CallKind.connect.request (some (ra.addr, ra.port)) id, ?_, rfl, rfl⟩
      simp [RevGrpcState.tell]

end RevSystem

/-- The stream that the peer's listener makes for a destination leads there. -/
theorem RevGrpcRunListener.handshake_managed {auth tag : String} {s t : RevListener}
    {req : ManagerRes} {addr : String} {port : UInt16} {res : Streaming RevStreamRes}
    (hinfo : req.addrInfo = some ⟨addr, port.toUInt32, "", 0⟩) (hpc : s.pc = .openStream req)
    (h : (RevListener.machine auth tag).step s (.streamOpened (.ok res)) = some t) :
    ∃ stream, t.pc = .sendStream stream ∧ handshake stream = .ok (⟨addr, port, false⟩, none) := by
  have hport : port.toUInt32.toUInt16 = port := UInt16.toUInt16_toUInt32 port
  simp only [RevListener.machine, RevListener.step, hpc, hinfo] at h
  obtain rfl := Option.some.inj h
  refine ⟨_, rfl, ?_⟩
  simp [handshake, managedStream, RunStream.setInfo, unwrap, hport, bind, Except.bind, pure,
    Except.pure]

/-! ## All transports -/

/-- Whenever the peer's handshake completes, it leads to the destination that the endpoint was
made of. -/
theorem destination_survives (ra : RunAddr) (hra : ra.addr ≠ "") :
    parseAddress ra.endpoint = .ok (ra.addr, ra.port) ∧
    (∀ pw resp sent msgs client rest (server : GrpcServerRunStream) r,
      GrpcRunConnector.connect (some pw) resp sent ra.endpoint = .ok (msgs, client) →
      server.half.source = msgs.map .ok ++ rest →
      (GrpcRunListener.handshake pw server).1 = .ok r →
        r = (⟨ra.addr, ra.port, false⟩, none)) ∧
    (∀ (x : PbTcpCrates) pw random incoming hello client more (s t : Socket) connType r,
      x.RoundTrips →
      PbTcpRunConnector.connect x pw random incoming ra.endpoint = .ok (hello, client) →
      (∀ bytes ∈ hello, FitsVec bytes) → s.flatten = hello.flatten ++ more →
      readConnType.runOn s = (.ok connType, t) →
      (PbTcpRunAcceptor.handshake x pw (.new t)).1 = .ok r →
        r = (⟨ra.addr, ra.port, false⟩, none)) ∧
    ∀ {κ ν μ : Type} [DecidableEq κ] [DecidableEq ν] [DecidableEq μ]
      (pwMap : String → Option (Option String)) (es : List (RevEvent κ ν μ)) (c : κ) cfg s s',
      .call .stream c (.call cfg ra.endpoint) ∈ es →
      (RevSystem.machine pwMap).run .new es = some s →
      (RevSystem.machine pwMap).step s (.call .stream c .sent) = some s' →
        ∃ m req, (s'.state.control m).sent = (s.state.control m).sent ++ [req] ∧
          ∀ auth tag (l l' : RevListener) res, l.pc = .reading →
            (RevListener.machine auth tag).run l
              [.next (some (.ok req)), .helloSent true, .streamOpened (.ok res)] = some l' →
              ∃ stream, l'.pc = .sendStream stream ∧
                RevGrpcRunListener.handshake stream = .ok (⟨ra.addr, ra.port, false⟩, none) := by
  refine ⟨parseAddress_endpoint ra hra, ?_, ?_, ?_⟩
  · intro pw resp sent msgs client rest server r hconnect hserver h
    obtain rfl := GrpcRunConnector.connect_endpoint hra hconnect
    exact GrpcRunListener.handshake_message hserver h
  · intro x pw random incoming hello client more s t connType r hx hconnect hvec hs htype h
    exact PbTcpRunAcceptor.handshake_connect hx hra hconnect hvec hs htype h
  · intro κ ν μ _ _ _ pwMap es c cfg s s' hcall hrun hsent
    obtain ⟨m, req, htold, hinfo, hudp⟩ := RevSystem.sent_of_run hra hcall hrun hsent
    refine ⟨m, req, htold, ?_⟩
    intro auth tag l l' res hpc hrun
    obtain ⟨l₁, hnext, hrun⟩ := Machine.run_cons_some _ hrun
    obtain ⟨l₂, hhello, hrun⟩ := Machine.run_cons_some _ hrun
    obtain ⟨l₃, hopened, hrun⟩ := Machine.run_cons_some _ hrun
    obtain rfl : l₃ = l' := by simpa using hrun
    have hnext : l.handleManageReq auth req = l₁ := by
      simpa [RevListener.machine, RevListener.step, hpc] using hnext
    simp only [RevListener.handleManageReq, hudp, if_true] at hnext
    subst hnext
    obtain rfl := Option.some.inj hhello
    exact RevGrpcRunListener.handshake_managed hinfo rfl hopened

/-- A call of `connect` to `::1:8443`, up to its send to the manager. -/
def connectRun : List (RevEvent Unit Unit Unit) :=
  [.manager () .accept, .manager () (.message (.ok (some ⟨"", "tag"⟩))), .manager () .register,
    .call .stream () (.call ⟨none, "tag", none, "rev_grpc", none⟩ "::1:8443"),
    .call .stream () .lookup, .call .stream () (.insert "a")]

/-- An IPv6 destination, through all three transports. -/
theorem destination_survives_ipv6 :
    parseAddress "::1:8443" = .ok ("::1", 8443) ∧
    (GrpcRunListener.handshake "p" (.new [.ok ⟨"p", none, some "::1", some 8443⟩])).1 =
      .ok (⟨"::1", 8443, false⟩, none) ∧
    (∃ hello client t,
      PbTcpRunConnector.connect .standard "p" helloRandom [] "::1:8443" = .ok (hello, client) ∧
      readConnType.runOn [hello.flatten] = (.ok connTypeStream, t) ∧
      (PbTcpRunAcceptor.handshake .standard "p" (.new t)).1 = .ok (⟨"::1", 8443, false⟩, none)) ∧
    ∃ stream : RevGrpcClientRunStream,
      RevGrpcRunListener.handshake stream = .ok (⟨"::1", 8443, false⟩, none) := by
  have hendpoint : (⟨"::1", 8443, true⟩ : RunAddr).endpoint = "::1:8443" := by decide
  obtain ⟨hparse, hgrpc, hpbTcp, hrev⟩ := destination_survives ⟨"::1", 8443, true⟩ (by decide)
  rw [hendpoint] at hparse hgrpc hpbTcp hrev
  refine ⟨hparse, ?_, ?_, ?_⟩
  · obtain ⟨msgs, client, hconnect, hmsgs⟩ : ∃ msgs client,
        GrpcRunConnector.connect (some "p") (.ok []) true "::1:8443" = .ok (msgs, client) ∧
          msgs = [⟨"p", none, some "::1", some 8443⟩] := by
      simp only [GrpcRunConnector.connect, hparse, bind, Except.bind]
      exact ⟨_, _, rfl, rfl⟩
    obtain ⟨r, hr⟩ : ∃ r, (GrpcRunListener.handshake "p"
      (.new [.ok ⟨"p", none, some "::1", some 8443⟩])).1 = .ok r := ⟨_, rfl⟩
    rw [hr, hgrpc "p" (.ok []) true msgs client [] _ r hconnect (by rw [hmsgs]; rfl) hr]
  · obtain ⟨hello, client, hconnect, hfits⟩ :=
      standard_connect "p" helloRandom [] hparse (by decide) (by decide)
    have hflatten : [hello.flatten].flatten = hello.flatten ++ [] := by simp
    obtain ⟨t, u, htype, -, hserver⟩ :=
      Rog.handshake_connect PbTcpCrates.standard_roundTrips hparse hconnect hfits hflatten
    obtain ⟨r, hhandshake⟩ : ∃ r,
        (PbTcpRunAcceptor.handshake .standard "p" (.new t)).1 = .ok r := by
      rw [PbTcpRunAcceptor.handshake_fst, hserver]
      exact ⟨_, rfl⟩
    have hvec : ∀ bytes ∈ hello, FitsVec bytes := fun bytes hbytes ↦ by
      have hframe := hfits bytes hbytes
      rw [FitsFrame] at hframe
      rw [FitsVec]
      omega
    obtain rfl := hpbTcp .standard "p" helloRandom [] hello client [] [hello.flatten] t _ r
      PbTcpCrates.standard_roundTrips hconnect hvec hflatten htype hhandshake
    exact ⟨hello, client, t, hconnect, htype, hhandshake⟩
  · have hrun : ((RevSystem.machine fun _ ↦ none).run .new
        (connectRun ++ [.call .stream () .sent])).map (fun s ↦ (s.state.control ()).sent) =
          some [⟨some ⟨"::1", 8443, "", 0⟩, some 0, some "a"⟩] := by
      decide
    obtain ⟨s', hs', htold⟩ := Option.map_eq_some_iff.mp hrun
    obtain ⟨s, hs, hsent⟩ := (Machine.run_append_eq_some _).mp hs'
    obtain ⟨t, hstep, hrest⟩ := Machine.run_cons_some _ hsent
    obtain rfl : t = s' := by simpa using hrest
    obtain ⟨m, req, hreq, hlistener⟩ := hrev (fun _ ↦ none) connectRun ()
      ⟨none, "tag", none, "rev_grpc", none⟩ s t (by simp [connectRun]) hs hstep
    rw [htold] at hreq
    obtain ⟨-, hlast⟩ := List.append_inj' ((List.nil_append _).trans hreq) rfl
    obtain rfl := List.singleton_inj.mp hlast
    obtain ⟨stream, -, hhandshake⟩ := hlistener "p" "tag" { RevListener.new with pc := .reading } _ []
      rfl rfl
    exact ⟨stream, hhandshake⟩

end Rog
