import Rog.Listener.Agreement
import Rog.Object.Start

/-!
# Replies to CONNECT

A client whose SOCKS5 handshake has succeeded is to get one reply, that tells whether its
destination could be reached. Three of the ways in which the task ends are without one.
-/

namespace Rog

open StateIo TcpRunStream

inductive SocksNode where
  | socks5
  | htss5 (x : UrlCrate) (serverId : String)

namespace SocksNode

def acceptor : SocksNode → RunAcceptor
  | socks5 => SocksRunAcceptor.acceptor
  | htss5 x serverId => Htss5RunAcceptor.acceptor x serverId

/-- The listener takes its branch for SOCKS5. -/
def TakesSocks5 (s : TcpRunStream) : SocksNode → Prop
  | socks5 => True
  | htss5 _ _ => s.firstRead.head? = some 5

end SocksNode

/-- Where a handshake leaves the stream. -/
structure TcpRunStream.Ready (t : TcpRunStream) : Prop where
  protocolName : t.info.protocolName = "socks5"
  writeFails : t.writeFails = none

section Ready

variable {s t : TcpRunStream} {addr : RunAddr} {cache : Option Bytes}

theorem SocksRunAcceptor.ready_of_handshake (h : handshake.runOn s = (.ok (addr, cache), t)) :
    t.Ready := by
  obtain ⟨_, s₁, hinfo, h⟩ := runOn_bind_eq_ok h
  obtain ⟨hello, s₂, hhello, h⟩ := runOn_bind_eq_ok h
  obtain ⟨_, s₃, hanswer, h⟩ := runOn_bind_eq_ok h
  obtain ⟨req, s₄, hreq, h⟩ := runOn_bind_eq_ok h
  obtain ⟨addr', s₅, haddr, h⟩ := runOn_bind_eq_ok h
  obtain ⟨-, rfl⟩ := Prod.mk.inj h
  obtain ⟨-, rfl⟩ := Prod.mk.inj haddr
  obtain ⟨-, rfl⟩ := Prod.mk.inj hinfo
  obtain ⟨-, hfails, rfl⟩ := ClientHello.answer_eq_ok hanswer
  obtain ⟨-, hsame', request, hne, hrest, -⟩ := Request.parse_eq_ok hreq
  have hs₂ : s₂.unread = request ++ s₄.unread := hrest
  obtain ⟨-, -, hsame⟩ := ClientHello.parse_eq_ok hhello (by simp [hs₂, hne])
  constructor
  · rw [hsame'.2.2]
    exact congrArg StreamInfo.protocolName hsame.2.2
  · exact hsame'.2.1.trans hfails

theorem Htss5RunAcceptor.ready_of_handshake {x : UrlCrate} {serverId : String}
    (hs : s.firstRead.head? = some 5)
    (h : (handshake x serverId).runOn s = (.ok (addr, cache), t)) : t.Ready := by
  have hne : s.firstRead ≠ [] := by
    intro hnil
    rw [hnil] at hs
    cases hs
  rw [handshake, runOn_bind_ok (runOn_read hne)] at h
  simp only [hs, if_true] at h
  obtain ⟨⟨hello, n⟩, s₁, hhello, h⟩ := runOn_bind_eq_ok h
  obtain ⟨_, s₂, hanswer, h⟩ := runOn_bind_eq_ok h
  obtain ⟨data, s₃, hread, h⟩ := runOn_bind_eq_ok h
  obtain ⟨⟨req, readed⟩, s₄, hreq, h⟩ := runOn_bind_eq_ok h
  obtain ⟨_, s₅, hinfo, h⟩ := runOn_bind_eq_ok h
  obtain ⟨addr', s₆, haddr, h⟩ := runOn_bind_eq_ok h
  obtain ⟨-, rfl⟩ := Prod.mk.inj h
  obtain ⟨-, rfl⟩ := Prod.mk.inj haddr
  obtain ⟨-, rfl⟩ := Prod.mk.inj hinfo
  obtain ⟨-, rfl⟩ := Prod.mk.inj hreq
  obtain ⟨-, hfails, rfl⟩ := ClientHello.answer_eq_ok hanswer
  exact ⟨rfl, (read_sameOutput hread).2.1.trans hfails⟩

end Ready

/-- A reply is written where a handshake has left the stream. -/
theorem SocksNode.runOn_postHandshake {t : TcpRunStream} (ht : t.Ready) (node : SocksNode)
    (error : Bool) (port : UInt16) : (node.acceptor.postHandshake error port).runOn t =
      (.ok (), { t with written := t.written ++ (Confirm.new error port).toBytes }) := by
  have hwrite := runOn_write_none ht.writeFails (Confirm.new error port).toBytes
  cases node with
  | socks5 => exact hwrite
  | htss5 x serverId => exact (if_neg (not_not.mpr ht.protocolName)).trans hwrite

/-! ## One reply -/

/-- One reply has been written since the handshake, with status 0 if and only if `connect` has
returned a stream. -/
def Replied (t : TcpRunStream) (u : TaskState) : Prop :=
  ∃ error, u.stream.written = t.written ++ (Confirm.new error 0).toBytes ∧
    ((Confirm.new error 0).status = 0 ↔ u.connected = some (.ok ()))

theorem not_replied {t : TcpRunStream} {u : TaskState} (h : u.stream.written = t.written) :
    ¬Replied t u := by
  rintro ⟨error, hwritten, -⟩
  rw [h] at hwritten
  exact absurd (List.append_right_eq_self.mp hwritten.symm) nofun

namespace Object

variable {node : SocksNode} {t : TcpRunStream} (ht : t.Ready) (env : TaskEnv) (addr : RunAddr)
  (payloadCache : Option Bytes) (connectorCache : String → Bool)

include ht

theorem serveConnector_replies_iff (clientName : String) : Replied t
    (serveConnector node.acceptor env clientName addr payloadCache ⟨t, connectorCache, none⟩).2 ↔
      env.connect clientName addr.endpoint ≠ .error .panic := by
  have hreply := node.runOn_postHandshake ht
  rcases hconnect : env.connect clientName addr.endpoint with (e | _) | v
  · have hrun : serveConnector node.acceptor env clientName addr payloadCache
        ⟨t, connectorCache, none⟩ = (.ended,
          ⟨{ t with written := t.written ++ (Confirm.new true 0).toBytes }, connectorCache,
            some (.error (.err e))⟩) := by
      simp [serveConnector, connect, TaskM.onStream, bind, StateT.bind, hconnect, hreply,
        TaskM.pure_apply]
    rw [hrun]
    exact iff_of_true ⟨true, rfl, iff_of_false (by decide) (by rintro ⟨⟩)⟩ (by rintro ⟨⟩)
  · have hrun : serveConnector node.acceptor env clientName addr payloadCache
        ⟨t, connectorCache, none⟩ = (.ended, ⟨t, connectorCache, some (.error .panic)⟩) := by
      simp [serveConnector, connect, bind, StateT.bind, hconnect, TaskM.pure_apply]
    rw [hrun]
    exact iff_of_false (not_replied rfl) (not_not.mpr rfl)
  · have hrun : serveConnector node.acceptor env clientName addr payloadCache
        ⟨t, connectorCache, none⟩ = (.relay addr payloadCache,
          ⟨{ t with written := t.written ++ (Confirm.new false 0).toBytes }, connectorCache,
            some (.ok ())⟩) := by
      simp [serveConnector, connect, TaskM.onStream, bind, StateT.bind, hconnect, hreply,
        TaskM.pure_apply]
    rw [hrun]
    exact iff_of_true ⟨false, rfl, iff_of_true rfl rfl⟩ (by rintro ⟨⟩)

theorem serve_replies_iff :
    Replied t (serve node.acceptor env addr payloadCache ⟨t, connectorCache, none⟩).2 ↔
      env.connector (env.route addr) ∧
        (connectorCache (env.route addr) ∨ env.create (env.route addr) = .ok ()) ∧
        env.connect (env.route addr) addr.endpoint ≠ .error .panic := by
  by_cases hname : env.connector (env.route addr)
  · obtain ⟨found, cache, hscope, hfound⟩ : ∃ found cache,
        cachedConnector env (env.route addr) ⟨t, connectorCache, none⟩ =
          (found, ⟨t, cache, none⟩) ∧
        (found ↔ connectorCache (env.route addr) ∨ env.create (env.route addr) = .ok ()) := by
      by_cases hcached : connectorCache (env.route addr)
      · exact ⟨true, connectorCache, if_pos hcached, iff_of_true rfl (.inl hcached)⟩
      · cases hcreate : env.create (env.route addr) with
        | ok v =>
            refine ⟨true, fun name ↦ name = env.route addr || connectorCache name, ?_,
              iff_of_true rfl (.inr rfl)⟩
            rw [cachedConnector, if_neg hcached, hcreate]
        | error e =>
            refine ⟨false, connectorCache, ?_, iff_of_false nofun ?_⟩
            · rw [cachedConnector, if_neg hcached, hcreate]
            · simp [hcached]
    rw [← hfound]
    cases found with
    | true =>
        have hserve : serve node.acceptor env addr payloadCache ⟨t, connectorCache, none⟩ =
            serveConnector node.acceptor env (env.route addr) addr payloadCache ⟨t, cache, none⟩ := by
          simp [serve, hname, bind, StateT.bind, hscope]
        rw [hserve, serveConnector_replies_iff ht env addr payloadCache cache]
        exact ⟨fun h ↦ ⟨hname, rfl, h⟩, fun h ↦ h.2.2⟩
    | false =>
        have hserve : serve node.acceptor env addr payloadCache ⟨t, connectorCache, none⟩ =
            (.ended, ⟨t, cache, none⟩) := by
          simp [serve, hname, bind, StateT.bind, hscope, TaskM.pure_apply]
        rw [hserve]
        exact iff_of_false (not_replied rfl) (fun h ↦ nomatch h.2.1)
  · have hserve : serve node.acceptor env addr payloadCache ⟨t, connectorCache, none⟩ =
        (.ended, ⟨t, connectorCache, none⟩) := by
      simp [serve, hname, TaskM.pure_apply]
    rw [hserve]
    exact iff_of_false (not_replied rfl) (fun h ↦ hname h.1)

end Object

theorem Object.task_eq_serve {node : SocksNode} {s t : TcpRunStream} {addr : RunAddr}
    {payloadCache : Option Bytes} {env : TaskEnv} {connectorCache : String → Bool}
    (h : node.acceptor.handshake.runOn s = (.ok (addr, payloadCache), t))
    (hconnect : addr.udp = false) : task node.acceptor env ⟨s, connectorCache, none⟩ =
      serve node.acceptor env addr payloadCache ⟨t, connectorCache, none⟩ := by
  simp [task, TaskM.onStream, bind, StateT.bind, h, hconnect]

/-- The task writes one truthful reply exactly where the configuration has the connector that the
router names, it is cached or can be created, and its `connect` does not panic. -/
theorem replied_once_iff {node : SocksNode} {s t : TcpRunStream} {addr : RunAddr}
    {payloadCache : Option Bytes} (hs : node.TakesSocks5 s)
    (h : node.acceptor.handshake.runOn s = (.ok (addr, payloadCache), t)) (hconnect : addr.udp = false)
    (env : TaskEnv) (connectorCache : String → Bool) :
    Replied t (Object.task node.acceptor env ⟨s, connectorCache, none⟩).2 ↔
      env.connector (env.route addr) ∧
        (connectorCache (env.route addr) ∨ env.create (env.route addr) = .ok ()) ∧
        env.connect (env.route addr) addr.endpoint ≠ .error .panic := by
  have ht : t.Ready := by
    cases node with
    | socks5 => exact SocksRunAcceptor.ready_of_handshake h
    | htss5 x serverId => exact Htss5RunAcceptor.ready_of_handshake hs h
  rw [Object.task_eq_serve h hconnect]
  exact Object.serve_replies_iff ht env addr payloadCache connectorCache

/-- All goes well with connectors of these names, but no destination can be reached. -/
def TaskEnv.unreachable (connector : String → Bool) : TaskEnv where
  route _ := "direct"
  connector := connector
  create _ := .ok ()
  connect _ _ := Io.raise .timedOut "unreachable"

theorem exists_handshake_politeClient : ∃ t,
    SocksNode.socks5.acceptor.handshake.runOn politeClient =
      (.ok (⟨"1.2.3.4", 80, false⟩, none), t) := by
  have hresult : (SocksRunAcceptor.handshake.runOn politeClient).1 =
      .ok (⟨"1.2.3.4", 80, false⟩, none) := by decide +kernel
  generalize politeClient = s at hresult ⊢
  obtain ⟨result, t, hrun⟩ : ∃ result t,
      SocksRunAcceptor.handshake.runOn s = (result, t) := ⟨_, _, rfl⟩
  rw [hrun] at hresult
  obtain rfl : result = .ok (⟨"1.2.3.4", 80, false⟩, none) := hresult
  exact ⟨t, hrun⟩

theorem replied_once_unreachable : ∃ t, Replied t (Object.task SocksNode.socks5.acceptor
    (.unreachable fun _ ↦ true) ⟨politeClient, fun _ ↦ false, none⟩).2 := by
  obtain ⟨t, h⟩ := exists_handshake_politeClient
  have hs : SocksNode.socks5.TakesSocks5 politeClient := trivial
  exact ⟨t, (replied_once_iff hs h rfl _ _).mpr ⟨rfl, .inr rfl, nofun⟩⟩

/-- The router names a connector that is not configured. -/
theorem unknown_connector_unanswered : ¬∀ (node : SocksNode) s t addr payloadCache env connectorCache,
    node.TakesSocks5 s → node.acceptor.handshake.runOn s = (.ok (addr, payloadCache), t) →
      addr.udp = false →
        Replied t (Object.task node.acceptor env ⟨s, connectorCache, none⟩).2 := by
  intro hall
  obtain ⟨t, h⟩ := exists_handshake_politeClient
  have hreplied := hall .socks5 _ t _ _ (.unreachable fun _ ↦ false) (fun _ ↦ false) trivial h rfl
  rw [Object.task_eq_serve h rfl, Object.serve_replies_iff (SocksRunAcceptor.ready_of_handshake h)]
    at hreplied
  exact nomatch hreplied.1

end Rog
