import Rog.Lib.Reassembly
import Rog.Io

/-!
# Streams over messages

What the streams of all message transports have in common: they read through a reassembler
over their own source of messages, and `split` gives the read half a new one.
-/

namespace Rog

open Lib

structure StreamInfo where
  protocolName : String
  srcAddr : Option String
  srcPort : Option UInt16
  dstAddr : Option String
  dstPort : Option UInt16
  udp : Option Bool
  deriving DecidableEq

/-- `Default::default()`. -/
def StreamInfo.default : StreamInfo := ⟨"", none, none, none, none, none⟩

/-- `source` is what the reading methods pull their messages from. -/
structure RunStream (σ : Type) where
  half : Reassembler σ UInt8
  info : StreamInfo

namespace RunStream

variable {σ : Type}

def new (source : σ) : RunStream σ := ⟨.new source, .default⟩

def setInfo (f : StreamInfo → StreamInfo) (s : RunStream σ) : RunStream σ :=
  { s with info := f s.info }

def setSource (s : RunStream σ) (source : σ) : RunStream σ :=
  { s with half := { s.half with source := source } }

/-- The read half that `split` makes: the same source, and an empty cache. -/
def split (s : RunStream σ) : Reassembler σ UInt8 := .new s.half.source

def read (pull : σ → Io Bytes × σ) (cap : ℕ) (s : RunStream σ) : Io Bytes × RunStream σ :=
  let (result, half) := s.half.read pull cap
  (result, { s with half := half })

theorem readsFrom_half (pull : σ → Io Bytes × σ) :
    Reassembler.ReadsFrom pull (read pull) half :=
  fun _ _ ↦ ⟨rfl, rfl⟩

theorem reads_messages {pull : σ → Io Bytes × σ} {s : RunStream σ} {t : σ} {payloads : List Bytes}
    (hs : s.half = .new s.half.source) (h : Reassembler.Yields pull s.half.source payloads t)
    {caps : List ℕ} (hcaps : List.Forall₂ (fun payload cap ↦ payload.length ≤ cap) payloads caps) :
    ∃ u, Reassembler.reads (read pull) caps s = (payloads.map .ok, u) ∧ u.half = .new t := by
  obtain ⟨hresults, hhalf⟩ := (readsFrom_half pull).reads caps s
  rw [hs, Reassembler.reads_messages h hcaps] at hresults hhalf
  exact ⟨_, Prod.ext hresults rfl, hhalf⟩

theorem reassembles {pull : σ → Io Bytes × σ} {s : RunStream σ} {t : σ} {payloads : List Bytes}
    (hs : s.half = .new s.half.source) (h : Reassembler.Yields pull s.half.source payloads t)
    (ht : Reassembler.Ended pull t) :
    Reassembler.Reassembles (read pull) half s payloads.flatten := by
  have hremaining : s.half.Remaining pull payloads.flatten := by
    rw [hs]
    exact Reassembler.remaining_new h ht
  exact hremaining.reassembles.view (readsFrom_half pull)

end RunStream

end Rog
