import Rog.Listener.Htss5

/-!
# Listeners of HTTP

What the HTTP listener and the HTTP branch of the combined listener have in common: both make
one read, and their result is a function of what it returns.
-/

namespace Rog

open Lib StateIo TcpRunStream

inductive HttpListener where
  | http
  | htss5
  deriving DecidableEq

def HttpListener.handshake (x : UrlCrate) (serverId : String) :
    HttpListener → TcpM (RunAddr × Option Bytes)
  | .http => HttpRunAcceptor.handshake x serverId
  | .htss5 => Htss5RunAcceptor.handshake x serverId

namespace TcpRunStream

def firstRead (s : TcpRunStream) : Bytes := (takeSome tcpIoBufferSize.toNat s.incoming).1

def afterFirstRead (s : TcpRunStream) : Socket := (takeSome tcpIoBufferSize.toNat s.incoming).2

theorem unread_eq (s : TcpRunStream) : s.unread = s.firstRead ++ s.afterFirstRead.flatten :=
  (takeSome_append _ s.incoming).symm

theorem runOn_read {s : TcpRunStream} (h : s.firstRead ≠ []) :
    (read tcpIoBufferSize.toNat).runOn s =
      (.ok s.firstRead, { s with incoming := s.afterFirstRead }) := by
  obtain ⟨b, bs, hdata⟩ := List.exists_cons_of_ne_nil h
  obtain ⟨data, incoming, hread⟩ : ∃ data incoming,
      takeSome tcpIoBufferSize.toNat s.incoming = (data, incoming) := ⟨_, _, rfl⟩
  have hfirst : s.firstRead = data := congrArg Prod.fst hread
  have hafter : s.afterFirstRead = incoming := congrArg Prod.snd hread
  rw [hfirst] at hdata
  simp only [runOn, TcpRunStream.read, hread, hfirst, hafter, hdata]

end TcpRunStream

/-! ## The result of a handshake -/

namespace HttpRequest

variable {x : UrlCrate}

/-- What `answer` returns on a stream the writes to which end like `writeFails`. -/
def cache (serverId : String) (data : Bytes) (writeFails : Option IoError) (req : HttpRequest x) :
    Io (Option Bytes) :=
  if req.IsConnect then
    match writeFails with
    | some e => .error (.err e)
    | none => .ok none
  else if viaLoop serverId (split crlf req.str) then Io.other "Loop detected"
  else .ok (some ((req.addVia serverId).getD data))

theorem runOn_answer (serverId : String) (data : Bytes) (req : HttpRequest x) (s : TcpRunStream) :
    ∃ t, (req.answer serverId data).runOn s = (req.cache serverId data s.writeFails, t) ∧
      t.incoming = s.incoming := by
  by_cases hconnect : req.IsConnect
  · simp only [answer, cache, if_pos hconnect]
    cases hfails : s.writeFails with
    | some e => exact ⟨s, runOn_bind_error (runOn_write_some hfails _), rfl⟩
    | none => exact ⟨_, runOn_bind_ok (runOn_write_none hfails _), rfl⟩
  · simp only [answer, cache, if_neg hconnect]
    split
    · exact ⟨s, rfl, rfl⟩
    · exact ⟨s, rfl, rfl⟩

def serve (x : UrlCrate) (serverId : String) (data : Bytes) (writeFails : Option IoError) :
    Io (RunAddr × Option Bytes) := do
  let req ← parse x data
  let cache ← req.cache serverId data writeFails
  let addr ← req.runAddr
  return (addr, cache)

end HttpRequest

section Run

variable (x : UrlCrate) (serverId : String) {s : TcpRunStream}

/-- The part of a handshake that follows its read; `k` is how it ends. -/
theorem runOn_serve (data : Bytes) (s : TcpRunStream)
    {k : HttpRequest x → Option Bytes → TcpM (RunAddr × Option Bytes)}
    (hk : ∀ req cache s, ∃ t, (k req cache).runOn s =
      (req.runAddr.map fun addr ↦ (addr, cache), t) ∧ t.incoming = s.incoming) :
    ∃ t, (do
        let req ← ofIo (HttpRequest.parse x data)
        let cache ← req.answer serverId data
        k req cache).runOn s = (HttpRequest.serve x serverId data s.writeFails, t) ∧
      t.incoming = s.incoming := by
  rw [HttpRequest.serve]
  cases hparse : HttpRequest.parse x data with
  | error e => exact ⟨s, runOn_bind_error (runOn_ofIo _ s), rfl⟩
  | ok req =>
      obtain ⟨t, hanswer, ht⟩ := req.runOn_answer serverId data s
      rw [runOn_bind_ok (runOn_ofIo _ s)]
      cases hcache : req.cache serverId data s.writeFails with
      | error e =>
          rw [hcache] at hanswer
          exact ⟨t, (runOn_bind_error hanswer).trans (by simp [hcache, bind, Except.bind]), ht⟩
      | ok cache =>
          rw [hcache] at hanswer
          obtain ⟨u, hu, hincoming⟩ := hk req cache t
          refine ⟨u, ((runOn_bind_ok hanswer).trans hu).trans ?_, hincoming.trans ht⟩
          cases haddr : req.runAddr <;>
            simp [hcache, haddr, bind, Except.bind, pure, Except.pure, Except.map]

theorem runOn_runAddr (req : HttpRequest x) (cache : Option Bytes) (s : TcpRunStream) :
    (do
        let addr ← ofIo req.runAddr
        return (addr, cache) : TcpM (RunAddr × Option Bytes)).runOn s =
      (req.runAddr.map fun addr ↦ (addr, cache), s) := by
  cases haddr : req.runAddr with
  | error e => exact runOn_bind_error (runOn_ofIo _ s)
  | ok addr => exact runOn_bind_ok (runOn_ofIo _ s)

def HttpListener.TakesHttp (node : HttpListener) (s : TcpRunStream) : Prop :=
  node = .htss5 → s.firstRead.head? ≠ some 5

theorem HttpListener.runOn_handshake (node : HttpListener) (hnode : node.TakesHttp s)
    (hs : s.firstRead ≠ []) :
    ∃ t, (node.handshake x serverId).runOn s =
        (HttpRequest.serve x serverId s.firstRead s.writeFails, t) ∧
      t.incoming = s.afterFirstRead := by
  cases node with
  | http =>
      have hinfo := runOn_setInfo (fun info ↦ { info with protocolName := "http" }) s
      have hread := runOn_read (s := { s with info := { s.info with protocolName := "http" } }) hs
      rw [handshake, HttpRunAcceptor.handshake, runOn_bind_ok hinfo, runOn_bind_ok hread]
      exact runOn_serve x serverId s.firstRead _ fun req cache s ↦ ⟨s, runOn_runAddr x req cache s, rfl⟩
  | htss5 =>
      rw [handshake, Htss5RunAcceptor.handshake, runOn_bind_ok (runOn_read hs)]
      obtain ⟨b, bs, hdata⟩ := List.exists_cons_of_ne_nil hs
      have hb : b ≠ 5 := by
        have hhead := hnode rfl
        simpa [hdata] using hhead
      simp only [hdata, List.head?_cons, if_neg hb]
      rw [← hdata]
      refine runOn_serve x serverId s.firstRead _ fun req cache s ↦ ?_
      have hinfo := runOn_setInfo (fun info ↦ { info with protocolName := "http" }) s
      exact ⟨_, (runOn_bind_ok hinfo).trans (runOn_runAddr x req cache _), rfl⟩

/-- A client that sends nothing is refused. -/
theorem HttpListener.handshake_eof (node : HttpListener) (hs : s.firstRead = []) :
    ∃ e t, (node.handshake x serverId).runOn s = (.error e, t) := by
  cases node with
  | http =>
      have hinfo := runOn_setInfo (fun info ↦ { info with protocolName := "http" }) s
      rw [handshake, HttpRunAcceptor.handshake, runOn_bind_ok hinfo]
      obtain ⟨result, t, hread⟩ : ∃ result t, (TcpRunStream.read tcpIoBufferSize.toNat).runOn
          { s with info := { s.info with protocolName := "http" } } = (result, t) := ⟨_, _, rfl⟩
      cases result with
      | error e => exact ⟨e, t, runOn_bind_error hread⟩
      | ok data =>
          obtain ⟨hdata, -⟩ := read_eq_ok hread
          obtain rfl : data = [] := hdata.trans hs
          exact ⟨_, t, (runOn_bind_ok hread).trans (runOn_bind_error (runOn_ofIo _ t))⟩
  | htss5 =>
      rw [handshake, Htss5RunAcceptor.handshake]
      obtain ⟨result, t, hread⟩ : ∃ result t,
          (TcpRunStream.read tcpIoBufferSize.toNat).runOn s = (result, t) := ⟨_, _, rfl⟩
      cases result with
      | error e => exact ⟨e, t, runOn_bind_error hread⟩
      | ok data =>
          obtain ⟨hdata, -⟩ := read_eq_ok hread
          obtain rfl : data = [] := hdata.trans hs
          exact ⟨_, t, runOn_bind_ok hread⟩

end Run

/-! ## Requests that are served -/

theorem HttpRequest.serve_eq_ok {x : UrlCrate} {serverId : String} {data : Bytes}
    {writeFails : Option IoError} {addr : RunAddr} {cache : Option Bytes} :
    serve x serverId data writeFails = .ok (addr, cache) ↔
      ∃ req, parse x data = .ok req ∧ req.cache serverId data writeFails = .ok cache ∧
        req.runAddr = .ok addr := by
  constructor
  · intro h
    obtain ⟨req, hparse, h⟩ := Io.bind_eq_ok h
    obtain ⟨cache', hcache, h⟩ := Io.bind_eq_ok h
    obtain ⟨addr', haddr, h⟩ := Io.bind_eq_ok h
    obtain ⟨rfl, rfl⟩ := Prod.mk.inj (Except.ok.inj h)
    exact ⟨req, hparse, hcache, haddr⟩
  · rintro ⟨req, hparse, hcache, haddr⟩
    simp [serve, hparse, hcache, haddr, bind, Except.bind, pure, Except.pure]

theorem HttpListener.handshake_eq_ok {x : UrlCrate} {serverId : String} {node : HttpListener}
    {s t : TcpRunStream} {addr : RunAddr} {cache : Option Bytes} (hnode : node.TakesHttp s)
    (h : (node.handshake x serverId).runOn s = (.ok (addr, cache), t)) :
    t.incoming = s.afterFirstRead ∧
      HttpRequest.serve x serverId s.firstRead s.writeFails = .ok (addr, cache) := by
  by_cases hs : s.firstRead = []
  · obtain ⟨e, u, hrun⟩ := node.handshake_eof x serverId hs
    rw [h] at hrun
    cases hrun
  · obtain ⟨u, hrun, hu⟩ := node.runOn_handshake x serverId hnode hs
    rw [h] at hrun
    obtain ⟨hresult, rfl⟩ := Prod.mk.inj hrun
    exact ⟨hu, hresult.symm⟩

/-! ## Parsed requests -/

theorem headerStr_eq_ok {bytes : Bytes} {str : List Char} :
    headerStr bytes = .ok str ↔ utf8 str = bytes := by
  constructor
  · intro h
    unfold headerStr at h
    split at h
    · rename_i s hs
      obtain rfl := Except.ok.inj h
      rw [← asBytes_eq_utf8, asBytes_of_fromUtf8 hs]
    · cases h
  · rintro rfl
    rw [headerStr, ← asBytes_ofList, fromUtf8_asBytes]
    simp

end Rog
