import Rog.Reverse.State

/-!
# Incoming calls of the reverse server

`RevGrpcServer::stream` and `udp`, with which the remote side hands over a connection, and
`manager`, over which it is told of the connections to make. The first two differ in their
table, in the texts of their statuses, in what they deliver and in what they answer when it
cannot be delivered; `IncomingKind` is all of that.
-/

namespace Rog

open Lib

/-- `tonic::Code`. -/
inductive Code where
  | ok
  | cancelled
  | unknown
  | invalidArgument
  | deadlineExceeded
  | notFound
  | alreadyExists
  | permissionDenied
  | resourceExhausted
  | failedPrecondition
  | aborted
  | outOfRange
  | unimplemented
  | internal
  | unavailable
  | dataLoss
  | unauthenticated
  deriving DecidableEq

structure Status where
  code : Code
  message : String
  deriving DecidableEq

/-- The fields of `RevStreamReq` and `RevUdpReq` that are read from a first message. -/
structure FirstMsg where
  auth : String
  connId : Option String
  deriving DecidableEq

/-- `in_stream.message()`. -/
abbrev Received (M : Type) := Except Status (Option M)

structure IncomingKind (κ ν : Type) where
  kind : Kind
  missingMessage : String
  missingConnId : String
  invalidAuth : String
  notFound : String
  delivered : ν → FirstMsg → PendingConn κ → Delivered ν
  /-- The answer when the waiting call has given up. -/
  undelivered : Except Status Unit

inductive IncomingPc where
  | idle
  /-- In `in_stream.message().await`. -/
  | first
  /-- Before the entry is removed from the table. -/
  | claim
  | check
  | deliver
  | answered (result : Except Status Unit)
  deriving DecidableEq

/-- An incoming call, with its local variables `first_msg` and `pending`. -/
structure Incoming (κ : Type) where
  firstMsg : Option FirstMsg
  pending : Option (PendingConn κ)
  pc : IncomingPc
  deriving DecidableEq

def Incoming.new {κ : Type} : Incoming κ := ⟨none, none, .idle⟩

inductive IncomingEvent where
  | accept
  | message (received : Received FirstMsg)
  | claim
  | check
  | deliver
  deriving DecidableEq

section IncomingStep

variable {κ ν μ : Type} [DecidableEq κ]

def incomingStep (v : IncomingKind κ ν) (i : ν) (s : RevGrpcState κ ν μ) (x : Incoming κ) :
    IncomingEvent → Option (RevGrpcState κ ν μ × Incoming κ)
  | .accept => match x.pc with
      | .idle => some (s, { x with pc := .first })
      | _ => none
  | .message received => match x.pc, received with
      | .first, .ok (some msg) =>
          if msg.connId.getD "" = "" then
            let e := ⟨.invalidArgument, v.missingConnId⟩
            some (s, { x with firstMsg := some msg, pc := .answered (.error e) })
          else some (s, { x with firstMsg := some msg, pc := .claim })
      | .first, .ok none =>
          some (s, { x with pc := .answered (.error ⟨.invalidArgument, v.missingMessage⟩) })
      | .first, .error e => some (s, { x with pc := .answered (.error e) })
      | _, _ => none
  | .claim => match x.pc, x.firstMsg with
      | .claim, some msg =>
          let connId := msg.connId.getD ""
          match s.pending (v.kind, connId) with
          | some p => some (s.take v.kind connId, { x with pending := some p, pc := .check })
          | none => some (s, { x with pc := .answered (.error ⟨.notFound, v.notFound⟩) })
      | _, _ => none
  | .check => match x.pc, x.firstMsg, x.pending with
      | .check, some msg, some p =>
          -- an entry that fails the check is dropped, not put back
          if ∃ pw, p.pw = some pw ∧ msg.auth ≠ pw then
            let e := ⟨.unauthenticated, v.invalidAuth⟩
            some (s.dropEntry v.kind p, { x with pc := .answered (.error e) })
          else some (s, { x with pc := .deliver })
      | _, _, _ => none
  | .deliver => match x.pc, x.firstMsg, x.pending with
      | .deliver, some msg, some p =>
          let (isSent, o) := (s.oneshot (v.kind, p.tx)).send (v.delivered i msg p)
          let result := if isSent then .ok () else v.undelivered
          some (s.setOneshot v.kind p.tx o, { x with pc := .answered result })
      | _, _, _ => none

def IncomingKind.stream : IncomingKind κ ν where
  kind := .stream
  missingMessage := "missing first stream message"
  missingConnId := "missing conn_id"
  invalidAuth := "invalid auth"
  notFound := "conn_id not found or expired"
  delivered i _ p := .stream i p.addr
  undelivered := .ok ()

def IncomingKind.udp : IncomingKind κ ν where
  kind := .udp
  missingMessage := "missing first udp message"
  missingConnId := "missing conn_id in udp"
  invalidAuth := "invalid udp auth"
  notFound := "udp conn_id not found or expired"
  delivered i msg _ := .udp i msg.auth
  undelivered := .error ⟨.internal, "failed to deliver udp pair to connector"⟩

def RevGrpcServer.stream (i : ν) (s : RevGrpcState κ ν μ) (x : Incoming κ) (e : IncomingEvent) :
    Option (RevGrpcState κ ν μ × Incoming κ) :=
  incomingStep .stream i s x e

def RevGrpcServer.udp (i : ν) (s : RevGrpcState κ ν μ) (x : Incoming κ) (e : IncomingEvent) :
    Option (RevGrpcState κ ν μ × Incoming κ) :=
  incomingStep .udp i s x e

/-- What a step of an incoming call can be, with its guards; the inversion of
`incomingStep`. -/
inductive IncomingMove (v : IncomingKind κ ν) (i : ν) (s : RevGrpcState κ ν μ) (x : Incoming κ) :
    IncomingEvent → RevGrpcState κ ν μ → Incoming κ → Prop where
  | accept (hpc : x.pc = .idle) : IncomingMove v i s x .accept s { x with pc := .first }
  | message (msg : FirstMsg) (id : String) (hpc : x.pc = .first) (hid : msg.connId = some id)
      (hne : id ≠ "") :
      IncomingMove v i s x (.message (.ok (some msg))) s
        { x with firstMsg := some msg, pc := .claim }
  | missingConnId (msg : FirstMsg) (e : Status) (hpc : x.pc = .first)
      (hid : ∀ id, msg.connId = some id → id = "") :
      IncomingMove v i s x (.message (.ok (some msg))) s
        { x with firstMsg := some msg, pc := .answered (.error e) }
  | noMessage (received : Received FirstMsg) (e : Status) (hpc : x.pc = .first) :
      IncomingMove v i s x (.message received) s { x with pc := .answered (.error e) }
  | claimed (msg : FirstMsg) (p : PendingConn κ) (hpc : x.pc = .claim)
      (hmsg : x.firstMsg = some msg) (hentry : s.pending (v.kind, msg.connId.getD "") = some p) :
      IncomingMove v i s x .claim (s.take v.kind (msg.connId.getD ""))
        { x with pending := some p, pc := .check }
  | notFound (msg : FirstMsg) (hpc : x.pc = .claim) (hmsg : x.firstMsg = some msg)
      (hentry : s.pending (v.kind, msg.connId.getD "") = none) :
      IncomingMove v i s x .claim s
        { x with pc := .answered (.error ⟨.notFound, v.notFound⟩) }
  | refused (msg : FirstMsg) (p : PendingConn κ) (pw : String) (hpc : x.pc = .check)
      (hmsg : x.firstMsg = some msg) (hpending : x.pending = some p) (hpw : p.pw = some pw)
      (hauth : msg.auth ≠ pw) :
      IncomingMove v i s x .check (s.dropEntry v.kind p)
        { x with pc := .answered (.error ⟨.unauthenticated, v.invalidAuth⟩) }
  | passed (msg : FirstMsg) (p : PendingConn κ) (hpc : x.pc = .check)
      (hmsg : x.firstMsg = some msg) (hpending : x.pending = some p)
      (hauth : ∀ pw, p.pw = some pw → msg.auth = pw) :
      IncomingMove v i s x .check s { x with pc := .deliver }
  | delivered (msg : FirstMsg) (p : PendingConn κ) (hpc : x.pc = .deliver)
      (hmsg : x.firstMsg = some msg) (hpending : x.pending = some p)
      (hempty : s.oneshot (v.kind, p.tx) = .empty) :
      IncomingMove v i s x .deliver (s.setOneshot v.kind p.tx (.sent (v.delivered i msg p)))
        { x with pc := .answered (.ok ()) }
  | undelivered (msg : FirstMsg) (p : PendingConn κ) (hpc : x.pc = .deliver)
      (hmsg : x.firstMsg = some msg) (hpending : x.pending = some p)
      (hrefused : s.oneshot (v.kind, p.tx) ≠ .empty) :
      IncomingMove v i s x .deliver s { x with pc := .answered v.undelivered }

theorem incomingStep_move {v : IncomingKind κ ν} {i : ν} {s s' : RevGrpcState κ ν μ}
    {x x' : Incoming κ} {e : IncomingEvent} (h : incomingStep v i s x e = some (s', x')) :
    IncomingMove v i s x e s' x' := by
  cases e with
  | accept =>
      cases hpc : x.pc with
      | idle =>
          obtain ⟨rfl, rfl⟩ : s = s' ∧ _ = x' := by simpa [incomingStep, hpc] using h
          exact .accept hpc
      | _ => simp [incomingStep, hpc] at h
  | message received =>
      cases hpc : x.pc with
      | first =>
          match received with
          | .ok (some msg) =>
              by_cases hid : msg.connId.getD "" = ""
              · obtain ⟨rfl, rfl⟩ : s = s' ∧ _ = x' := by simpa [incomingStep, hpc, hid] using h
                refine .missingConnId msg _ hpc ?_
                intro id hmsg
                simpa [hmsg] using hid
              · obtain ⟨rfl, rfl⟩ : s = s' ∧ _ = x' := by simpa [incomingStep, hpc, hid] using h
                cases hmsg : msg.connId with
                | none => simp [hmsg] at hid
                | some id => exact .message msg id hpc hmsg (by simpa [hmsg] using hid)
          | .ok none =>
              obtain ⟨rfl, rfl⟩ : s = s' ∧ _ = x' := by simpa [incomingStep, hpc] using h
              exact .noMessage _ _ hpc
          | .error e =>
              obtain ⟨rfl, rfl⟩ : s = s' ∧ _ = x' := by simpa [incomingStep, hpc] using h
              exact .noMessage _ _ hpc
      | _ => simp [incomingStep, hpc] at h
  | claim =>
      cases hpc : x.pc <;> cases hmsg : x.firstMsg <;>
        simp only [incomingStep, hpc, hmsg, reduceCtorEq] at h
      case claim.some msg =>
        cases hentry : s.pending (v.kind, msg.connId.getD "") with
        | some p =>
            obtain ⟨rfl, rfl⟩ : s.take v.kind (msg.connId.getD "") = s' ∧ _ = x' := by
              simpa [hentry] using h
            simpa [hmsg] using IncomingMove.claimed msg p hpc hmsg hentry
        | none =>
            obtain ⟨rfl, rfl⟩ : s = s' ∧ _ = x' := by simpa [hentry] using h
            simpa [hmsg] using IncomingMove.notFound msg hpc hmsg hentry
  | check =>
      cases hpc : x.pc <;> cases hmsg : x.firstMsg <;> cases hpending : x.pending <;>
        simp only [incomingStep, hpc, hmsg, hpending, reduceCtorEq] at h
      case check.some.some msg p =>
        by_cases hauth : ∃ pw, p.pw = some pw ∧ msg.auth ≠ pw
        · obtain ⟨rfl, rfl⟩ : s.dropEntry v.kind p = s' ∧ _ = x' := by simpa [hauth] using h
          obtain ⟨pw, hpw, hne⟩ := hauth
          simpa [hmsg, hpending] using IncomingMove.refused msg p pw hpc hmsg hpending hpw hne
        · obtain ⟨rfl, rfl⟩ : s = s' ∧ _ = x' := by simpa [hauth] using h
          have hpassed : ∀ pw, p.pw = some pw → msg.auth = pw := by
            intro pw hpw
            by_contra hne
            exact hauth ⟨pw, hpw, hne⟩
          simpa [hmsg, hpending] using IncomingMove.passed msg p hpc hmsg hpending hpassed
  | deliver =>
      cases hpc : x.pc <;> cases hmsg : x.firstMsg <;> cases hpending : x.pending <;>
        simp only [incomingStep, hpc, hmsg, hpending, reduceCtorEq] at h
      case deliver.some.some msg p =>
        by_cases hempty : s.oneshot (v.kind, p.tx) = .empty
        · obtain ⟨rfl, rfl⟩ : s.setOneshot v.kind p.tx (.sent (v.delivered i msg p)) = s' ∧
              _ = x' := by
            simpa [hempty, Oneshot.send] using h
          simpa [hmsg, hpending] using IncomingMove.delivered msg p hpc hmsg hpending hempty
        · have hsend := Oneshot.send_of_ne_empty hempty (v.delivered i msg p)
          obtain ⟨rfl, rfl⟩ : s = s' ∧ _ = x' := by
            simpa [hsend, RevGrpcState.setOneshot_self] using h
          simpa [hmsg, hpending] using IncomingMove.undelivered msg p hpc hmsg hpending hempty

end IncomingStep

end Rog
