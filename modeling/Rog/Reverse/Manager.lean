import Rog.Reverse.Incoming

/-!
# Manager sessions

`RevGrpcServer::manager`, with the task it spawns that waits for the end of the incoming
stream.
-/

namespace Rog

open Lib

/-- The fields of `ManagerReq` that the server reads. -/
structure ManagerReq where
  auth : String
  tag : String
  deriving DecidableEq

inductive SessionPc where
  | idle
  /-- In `in_stream.message().await`, for the first message. -/
  | first
  /-- Before `managers.entry(tag)`. -/
  | register
  /-- In the loop of the spawned task. -/
  | serving
  /-- Before `managers.remove(&tag)`. -/
  | cleanup
  | ended
  | rejected (e : Status)
  deriving DecidableEq

structure Session where
  firstMsg : Option ManagerReq
  pc : SessionPc
  deriving DecidableEq

def Session.new : Session := ⟨none, .idle⟩

inductive SessionEvent where
  | accept
  | message (received : Received ManagerReq)
  | register
  | cleanup
  /-- The response stream is dropped, and the receiver of the channel with it. -/
  | closeOut
  deriving DecidableEq

section SessionStep

variable {κ ν μ : Type} [DecidableEq μ]

/-- `pw_map.get(&tag).and_then(|p| p.as_ref())` is a password other than `auth`. -/
def wrongPassword (pwMap : String → Option (Option String)) (msg : ManagerReq) : Bool :=
  match (pwMap msg.tag).join with
  | some pw => msg.auth ≠ pw
  | none => false

def RevGrpcServer.manager (pwMap : String → Option (Option String)) (m : μ)
    (s : RevGrpcState κ ν μ) (x : Session) : SessionEvent → Option (RevGrpcState κ ν μ × Session)
  | .accept => match x.pc with
      | .idle => some (s, { x with pc := .first })
      | _ => none
  | .message received => match x.pc, received with
      | .first, .ok (some msg) =>
          if wrongPassword pwMap msg then
            some (s, ⟨some msg, .rejected ⟨.unauthenticated, "invalid auth"⟩⟩)
          else some (s, ⟨some msg, .register⟩)
      | .first, .ok none =>
          some (s, { x with pc := .rejected ⟨.invalidArgument, "missing first auth message"⟩ })
      | .first, .error e => some (s, { x with pc := .rejected e })
      | .serving, .ok (some _) => some (s, x)
      | .serving, _ => some (s, { x with pc := .cleanup })
      | _, _ => none
  | .register => match x.pc, x.firstMsg with
      | .register, some msg => match s.managers msg.tag with
          | some _ =>
              let e := ⟨.alreadyExists, s!"client with tag '{msg.tag}' is already connected"⟩
              some (s, { x with pc := .rejected e })
          | none => some (s.register msg.tag m, { x with pc := .serving })
      | _, _ => none
  | .cleanup => match x.pc, x.firstMsg with
      | .cleanup, some msg => some (s.unregister msg.tag, { x with pc := .ended })
      | _, _ => none
  | .closeOut => if (s.control m).isOpen then some (s.closeControl m, x) else none

/-- What a step of a session can be, with its guards; the inversion of `manager`. -/
inductive SessionMove (pwMap : String → Option (Option String)) (m : μ) (s : RevGrpcState κ ν μ)
    (x : Session) : SessionEvent → RevGrpcState κ ν μ → Session → Prop where
  | accept (hpc : x.pc = .idle) : SessionMove pwMap m s x .accept s { x with pc := .first }
  | refused (msg : ManagerReq) (e : Status) (hpc : x.pc = .first)
      (hauth : wrongPassword pwMap msg) :
      SessionMove pwMap m s x (.message (.ok (some msg))) s ⟨some msg, .rejected e⟩
  | passed (msg : ManagerReq) (hpc : x.pc = .first) (hauth : ¬wrongPassword pwMap msg) :
      SessionMove pwMap m s x (.message (.ok (some msg))) s ⟨some msg, .register⟩
  | noMessage (received : Received ManagerReq) (e : Status) (hpc : x.pc = .first) :
      SessionMove pwMap m s x (.message received) s { x with pc := .rejected e }
  | received (msg : ManagerReq) (hpc : x.pc = .serving) :
      SessionMove pwMap m s x (.message (.ok (some msg))) s x
  | endOfStream (received : Received ManagerReq) (hpc : x.pc = .serving) :
      SessionMove pwMap m s x (.message received) s { x with pc := .cleanup }
  | occupied (msg : ManagerReq) (other : μ) (e : Status) (hpc : x.pc = .register)
      (hmsg : x.firstMsg = some msg) (htag : s.managers msg.tag = some other) :
      SessionMove pwMap m s x .register s { x with pc := .rejected e }
  | register (msg : ManagerReq) (hpc : x.pc = .register) (hmsg : x.firstMsg = some msg)
      (htag : s.managers msg.tag = none) :
      SessionMove pwMap m s x .register (s.register msg.tag m) { x with pc := .serving }
  | cleanup (msg : ManagerReq) (hpc : x.pc = .cleanup) (hmsg : x.firstMsg = some msg) :
      SessionMove pwMap m s x .cleanup (s.unregister msg.tag) { x with pc := .ended }
  | closeOut (hopen : (s.control m).isOpen) :
      SessionMove pwMap m s x .closeOut (s.closeControl m) x

theorem RevGrpcServer.manager_move {pwMap : String → Option (Option String)} {m : μ}
    {s s' : RevGrpcState κ ν μ} {x x' : Session} {e : SessionEvent}
    (h : RevGrpcServer.manager pwMap m s x e = some (s', x')) :
    SessionMove pwMap m s x e s' x' := by
  cases e with
  | accept =>
      cases hpc : x.pc with
      | idle =>
          obtain ⟨rfl, rfl⟩ : s = s' ∧ _ = x' := by simpa [manager, hpc] using h
          exact .accept hpc
      | _ => simp [manager, hpc] at h
  | message received =>
      cases hpc : x.pc with
      | first =>
          match received with
          | .ok (some msg) =>
              by_cases hauth : wrongPassword pwMap msg
              · obtain ⟨rfl, rfl⟩ : s = s' ∧ _ = x' := by simpa [manager, hpc, hauth] using h
                exact .refused msg _ hpc hauth
              · obtain ⟨rfl, rfl⟩ : s = s' ∧ _ = x' := by simpa [manager, hpc, hauth] using h
                exact .passed msg hpc hauth
          | .ok none =>
              obtain ⟨rfl, rfl⟩ : s = s' ∧ _ = x' := by simpa [manager, hpc] using h
              exact .noMessage _ _ hpc
          | .error e =>
              obtain ⟨rfl, rfl⟩ : s = s' ∧ _ = x' := by simpa [manager, hpc] using h
              exact .noMessage _ _ hpc
      | serving =>
          match received with
          | .ok (some msg) =>
              obtain ⟨rfl, rfl⟩ : s = s' ∧ x = x' := by simpa [manager, hpc] using h
              exact .received msg hpc
          | .ok none =>
              obtain ⟨rfl, rfl⟩ : s = s' ∧ _ = x' := by simpa [manager, hpc] using h
              exact .endOfStream _ hpc
          | .error e =>
              obtain ⟨rfl, rfl⟩ : s = s' ∧ _ = x' := by simpa [manager, hpc] using h
              exact .endOfStream _ hpc
      | _ => simp [manager, hpc] at h
  | register =>
      cases hpc : x.pc <;> cases hmsg : x.firstMsg <;>
        simp only [manager, hpc, hmsg, reduceCtorEq] at h
      case register.some msg =>
        cases htag : s.managers msg.tag with
        | some other =>
            obtain ⟨rfl, rfl⟩ : s = s' ∧ _ = x' := by simpa [htag] using h
            simpa [hmsg] using SessionMove.occupied msg other _ hpc hmsg htag
        | none =>
            obtain ⟨rfl, rfl⟩ : s.register msg.tag m = s' ∧ _ = x' := by simpa [htag] using h
            simpa [hmsg] using SessionMove.register msg hpc hmsg htag
  | cleanup =>
      cases hpc : x.pc <;> cases hmsg : x.firstMsg <;>
        simp only [manager, hpc, hmsg, reduceCtorEq] at h
      case cleanup.some msg =>
        obtain ⟨rfl, rfl⟩ : s.unregister msg.tag = s' ∧ _ = x' := by simpa using h
        simpa [hmsg] using SessionMove.cleanup msg hpc hmsg
  | closeOut =>
      obtain ⟨hopen, rfl, rfl⟩ : (s.control m).isOpen ∧ s.closeControl m = s' ∧ x = x' := by
        simpa [manager] using h
      exact .closeOut hopen

/-- A session works on the managers only. -/
theorem SessionMove.frame {pwMap : String → Option (Option String)} {m : μ}
    {s s' : RevGrpcState κ ν μ} {x x' : Session} {e : SessionEvent}
    (h : SessionMove pwMap m s x e s' x') : s'.pending = s.pending ∧ s'.oneshot = s.oneshot := by
  cases h <;> exact ⟨rfl, rfl⟩

end SessionStep

end Rog
