import Rog.Stream.Grpc
import Rog.Stream.PbTcp

/-!
# Messages become byte streams

Every message transport, on either side, and in either form (the whole stream, or the read
half of a stream that has not been read from), returns the bytes of its payloads once each
and in order, whatever the sizes of the buffers.
-/

namespace Rog

open Lib Reassembler

/-- The bytes of `payloads` are what `stream` returns, whose reassembler is `buffer`, and what
its read half returns when it is split at once. -/
def ReadsAll {σ ρ : Type} (readHalf : ℕ → Reassembler σ UInt8 → Io Bytes × Reassembler σ UInt8)
    (readStream : ℕ → ρ → Io Bytes × ρ) (buffer split : ρ → Reassembler σ UInt8) (stream : ρ)
    (payloads : List Bytes) : Prop :=
  Reassembles readHalf id (split stream) payloads.flatten ∧
    Reassembles readStream buffer stream payloads.flatten

theorem readsAll_of_yields {σ : Type} {pull : σ → Io Bytes × σ} {source t : σ}
    {payloads : List Bytes} (h : Yields pull source payloads t) (ht : Ended pull t) :
    ReadsAll (Reassembler.read pull) (RunStream.read pull) RunStream.half RunStream.split
      (RunStream.new source) payloads := by
  constructor
  · exact (remaining_new h ht).reassembles
  · exact RunStream.reassembles rfl h ht

/-- The messages each have a payload, which is not empty. -/
def Carries {M : Type} (payloadOf : M → Io Bytes) (msgs : List M) (payloads : List Bytes) : Prop :=
  msgs.map payloadOf = payloads.map .ok ∧ ∀ payload ∈ payloads, payload ≠ []

theorem Carries.forall₂ {M : Type} {payloadOf : M → Io Bytes} {msgs : List M}
    {payloads : List Bytes} (h : Carries payloadOf msgs payloads) :
    List.Forall₂ (fun msg payload ↦ payloadOf msg = .ok payload ∧ payload ≠ []) msgs payloads := by
  obtain ⟨hmap, hne⟩ := h
  induction msgs generalizing payloads with
  | nil =>
      obtain rfl : payloads = [] := by simpa using hmap.symm
      exact .nil
  | cons msg msgs ih =>
      cases payloads with
      | nil => simp at hmap
      | cons payload payloads =>
          obtain ⟨hmsg, hmsgs⟩ := List.cons.inj hmap
          refine .cons ⟨hmsg, hne payload (by simp)⟩ (ih hmsgs ?_)
          intro p hp
          exact hne p (List.mem_cons_of_mem payload hp)

theorem readsAll_messages {M : Type} {payloadOf : M → Io Bytes} {msgs : List M}
    {payloads : List Bytes} (h : Carries payloadOf msgs payloads) :
    ReadsAll (Reassembler.read (pullMessage payloadOf)) (RunStream.read (pullMessage payloadOf))
      RunStream.half RunStream.split (RunStream.new (msgs.map .ok)) payloads :=
  readsAll_of_yields (yields_messages h.forall₂) ended_pullMessage

/-- The connection brings the frames of `msgs`, whatever their masks and however it is cut. -/
def Brings {M : Type} (codec : Prost M) (reader : Socket) (msgs : List (UInt64 × M)) : Prop :=
  (∀ msg ∈ msgs, FitsFrame (writeFrame codec msg.1 msg.2)) ∧
    reader.flatten = (msgs.map fun msg ↦ writeFrame codec msg.1 msg.2).flatten

theorem readsAll_frames {M : Type} {codec : Prost M} {payloadOf : M → Bytes} {x : CryptoCrates}
    (hcodec : codec.RoundTrips) {s : PbTcpReader} {msgs : List (UInt64 × M)} {payloads : List Bytes}
    (hpayloads : Carries (fun msg ↦ openPayload x s.pw s.encrypt (payloadOf msg.2)) msgs payloads)
    (hs : Brings codec s.reader msgs) :
    ReadsAll (Reassembler.read (pullPayload codec payloadOf x))
      (RunStream.read (pullPayload codec payloadOf x)) RunStream.half RunStream.split
      (RunStream.new s) payloads := by
  obtain ⟨t, hyields, ht⟩ := yields_frames hcodec hpayloads.forall₂ hs.1 hs.2
  exact readsAll_of_yields hyields (ended_pullPayload ht)

/-- All transports, both sides, both forms. -/
theorem reassembly {x : PbTcpCrates} (hreq : x.req.RoundTrips) (hres : x.res.RoundTrips)
    (payloads : List Bytes) :
    (∀ msgs, Carries (fun msg ↦ unwrap msg.payload) msgs payloads →
      ReadsAll GrpcServerReadHalf.read GrpcServerRunStream.read RunStream.half RunStream.split
        (RunStream.new (msgs.map .ok)) payloads) ∧
    (∀ msgs, Carries (fun msg ↦ .ok msg.payload) msgs payloads →
      ReadsAll GrpcClientReadHalf.read GrpcClientRunStream.read RunStream.half RunStream.split
        (RunStream.new (msgs.map .ok)) payloads) ∧
    (∀ msgs dstAddr dstPort, Carries (fun msg ↦ unwrap msg.payload) msgs payloads →
      ReadsAll RevGrpcServerReadHalf.read RevGrpcServerRunStream.read (fun s ↦ s.stream.half)
        RevGrpcServerRunStream.split (.new (msgs.map .ok) dstAddr dstPort) payloads) ∧
    (∀ msgs, Carries (fun msg ↦ .ok msg.payload) msgs payloads →
      ReadsAll RevGrpcClientReadHalf.read RevGrpcClientRunStream.read RunStream.half
        RunStream.split (RunStream.new (msgs.map .ok)) payloads) ∧
    (∀ (s : PbTcpReader) msgs,
      Carries (fun msg ↦ openPayload x.crypto s.pw s.encrypt (requestPayload msg.2)) msgs payloads →
      Brings x.req s.reader msgs →
      ReadsAll (PbTcpServerReadHalf.read x) (PbTcpServerRunStream.read x) RunStream.half
        (fun s ↦ (PbTcpServerRunStream.split s).1) (RunStream.new s) payloads) ∧
    (∀ (s : PbTcpReader) msgs,
      Carries (fun msg ↦ openPayload x.crypto s.pw s.encrypt msg.2.payload) msgs payloads →
      Brings x.res s.reader msgs →
      ReadsAll (PbTcpClientReadHalf.read x) (PbTcpClientRunStream.read x) RunStream.half
        (fun s ↦ (PbTcpClientRunStream.split s).1) (RunStream.new s) payloads) := by
  refine ⟨?_, ?_, ?_, ?_, ?_, ?_⟩
  · intro msgs h
    exact readsAll_messages h
  · intro msgs h
    exact readsAll_messages h
  · intro msgs dstAddr dstPort h
    have hview : ReadsFrom (pullMessage fun msg ↦ unwrap msg.payload) RevGrpcServerRunStream.read
        (fun s ↦ s.stream.half) := fun _ _ ↦ ⟨rfl, rfl⟩
    have hhalf := (readsAll_messages h).1
    exact ⟨hhalf, Reassembles.view hview hhalf⟩
  · intro msgs h
    exact readsAll_messages h
  · intro s msgs h hs
    exact readsAll_frames hreq h hs
  · intro s msgs h hs
    exact readsAll_frames hres h hs

def twoRequests : List StreamReq :=
  [{ StreamReq.default with payload := some [1, 2] }, { StreamReq.default with payload := some [3] }]

/-- The two requests in frames, on a connection that brings one byte at a time. -/
def twoFrames : PbTcpReader :=
  ⟨(twoRequests.flatMap (writeFrame StreamReq.wire 7)).map fun b ↦ [b], "", false⟩

theorem reassembly_twoRequests :
    ReadsAll GrpcServerReadHalf.read GrpcServerRunStream.read RunStream.half RunStream.split
        (RunStream.new (twoRequests.map .ok)) [[1, 2], [3]] ∧
      ReadsAll (PbTcpServerReadHalf.read .standard) (PbTcpServerRunStream.read .standard)
        RunStream.half (fun s ↦ (PbTcpServerRunStream.split s).1) (RunStream.new twoFrames)
        [[1, 2], [3]] := by
  have hall := reassembly PbTcpCrates.standard_roundTrips.req PbTcpCrates.standard_roundTrips.res
    [[1, 2], [3]]
  constructor
  · exact hall.1 twoRequests ⟨rfl, by simp⟩
  · apply hall.2.2.2.2.1 twoFrames [(7, twoRequests[0]), (7, twoRequests[1])]
    · exact ⟨rfl, by simp⟩
    · constructor
      · unfold FitsFrame
        decide
      · decide

end Rog
