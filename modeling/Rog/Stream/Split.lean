import Rog.Lib.LeftOver
import Rog.Stream.Reassembly

/-!
# Streams that are split after reads

`split` makes a read half with an empty cache, so what a read has left of a message is gone with
the stream.
-/

namespace Rog

open Lib Reassembler

/-- After reads of these sizes, the read half of the stream goes on at the first byte of the
payloads that was not returned. -/
def SplitKeeps {σ ρ : Type} (readHalf : ℕ → Reassembler σ UInt8 → Io Bytes × Reassembler σ UInt8)
    (readStream : ℕ → ρ → Io Bytes × ρ) (split : ρ → Reassembler σ UInt8) (stream : ρ)
    (payloads : List Bytes) (caps : List ℕ) : Prop :=
  Continues readHalf (split (reads readStream caps stream).2)
    (payloads.flatten.drop (delivered (reads readStream caps stream).1).length)

section Split

variable {σ ρ : Type} {pull : σ → Io Bytes × σ} {payloads : List Bytes} {s t : σ}

/-- All streams are split as the ones over their own source are. -/
theorem splitKeeps_of_readsFrom {readStream : ℕ → ρ → Io Bytes × ρ}
    {buffer split : ρ → Reassembler σ UInt8} {stream : ρ}
    (hview : ReadsFrom pull readStream buffer)
    (hsplit : ∀ r, split r = .new (buffer r).source) (hstream : buffer stream = .new s)
    (h : Yields pull s payloads t) (ht : Ended pull t) (caps : List ℕ) :
    SplitKeeps (Reassembler.read pull) readStream split stream payloads caps ↔
      leftOver payloads caps = [] := by
  obtain ⟨hresults, hbuffer⟩ := hview.reads caps stream
  rw [hstream] at hresults hbuffer
  rw [SplitKeeps, hsplit, hbuffer, hresults]
  exact continues_new_source_iff h ht caps

theorem splitKeeps_messages_iff {M : Type} {payloadOf : M → Io Bytes} {msgs : List M}
    (h : Carries payloadOf msgs payloads) (caps : List ℕ) :
    SplitKeeps (Reassembler.read (pullMessage payloadOf)) (RunStream.read (pullMessage payloadOf))
      RunStream.split (RunStream.new (msgs.map .ok)) payloads caps ↔
        leftOver payloads caps = [] :=
  splitKeeps_of_readsFrom (RunStream.readsFrom_half _) (fun _ ↦ rfl) rfl
    (yields_messages h.forall₂) ended_pullMessage caps

theorem splitKeeps_frames_iff {M : Type} {codec : Prost M} {payloadOf : M → Bytes}
    {x : CryptoCrates} (hcodec : codec.RoundTrips) {reader : PbTcpReader}
    {msgs : List (UInt64 × M)}
    (hpayloads : Carries
      (fun msg ↦ openPayload x reader.pw reader.encrypt (payloadOf msg.2)) msgs payloads)
    (hreader : Brings codec reader.reader msgs) (caps : List ℕ) :
    SplitKeeps (Reassembler.read (pullPayload codec payloadOf x))
      (RunStream.read (pullPayload codec payloadOf x)) RunStream.split (RunStream.new reader)
      payloads caps ↔ leftOver payloads caps = [] := by
  obtain ⟨u, hyields, hu⟩ := yields_frames hcodec hpayloads.forall₂ hreader.1 hreader.2
  exact splitKeeps_of_readsFrom (RunStream.readsFrom_half _) (fun _ ↦ rfl) rfl hyields
    (ended_pullPayload hu) caps

end Split

/-- The reads before the split end where a message ends: the last of their buffers that took from
a message had room for what was left of it. -/
theorem split_keeps_unread_iff {x : PbTcpCrates} (hreq : x.req.RoundTrips)
    (hres : x.res.RoundTrips) (payloads : List Bytes) (caps : List ℕ) :
    (∀ msgs, Carries (fun msg ↦ unwrap msg.payload) msgs payloads →
      (SplitKeeps GrpcServerReadHalf.read GrpcServerRunStream.read RunStream.split
        (RunStream.new (msgs.map .ok)) payloads caps ↔ leftOver payloads caps = [])) ∧
    (∀ msgs, Carries (fun msg ↦ .ok msg.payload) msgs payloads →
      (SplitKeeps GrpcClientReadHalf.read GrpcClientRunStream.read RunStream.split
        (RunStream.new (msgs.map .ok)) payloads caps ↔ leftOver payloads caps = [])) ∧
    (∀ msgs dstAddr dstPort, Carries (fun msg ↦ unwrap msg.payload) msgs payloads →
      (SplitKeeps RevGrpcServerReadHalf.read RevGrpcServerRunStream.read
        RevGrpcServerRunStream.split (.new (msgs.map .ok) dstAddr dstPort) payloads caps ↔
          leftOver payloads caps = [])) ∧
    (∀ msgs, Carries (fun msg ↦ .ok msg.payload) msgs payloads →
      (SplitKeeps RevGrpcClientReadHalf.read RevGrpcClientRunStream.read RunStream.split
        (RunStream.new (msgs.map .ok)) payloads caps ↔ leftOver payloads caps = [])) ∧
    (∀ (s : PbTcpReader) msgs,
      Carries (fun msg ↦ openPayload x.crypto s.pw s.encrypt (requestPayload msg.2)) msgs payloads →
      Brings x.req s.reader msgs →
      (SplitKeeps (PbTcpServerReadHalf.read x) (PbTcpServerRunStream.read x)
        (fun s ↦ (PbTcpServerRunStream.split s).1) (RunStream.new s) payloads caps ↔
          leftOver payloads caps = [])) ∧
    (∀ (s : PbTcpReader) msgs,
      Carries (fun msg ↦ openPayload x.crypto s.pw s.encrypt msg.2.payload) msgs payloads →
      Brings x.res s.reader msgs →
      (SplitKeeps (PbTcpClientReadHalf.read x) (PbTcpClientRunStream.read x)
        (fun s ↦ (PbTcpClientRunStream.split s).1) (RunStream.new s) payloads caps ↔
          leftOver payloads caps = [])) := by
  refine ⟨?_, ?_, ?_, ?_, ?_, ?_⟩
  · intro msgs h
    exact splitKeeps_messages_iff h caps
  · intro msgs h
    exact splitKeeps_messages_iff h caps
  · intro msgs dstAddr dstPort h
    have hview : ReadsFrom (pullMessage fun msg ↦ unwrap msg.payload) RevGrpcServerRunStream.read
        (fun s : RevGrpcServerRunStream ↦ s.stream.half) := fun _ _ ↦ ⟨rfl, rfl⟩
    exact splitKeeps_of_readsFrom hview (fun _ ↦ rfl) rfl (yields_messages h.forall₂)
      ended_pullMessage caps
  · intro msgs h
    exact splitKeeps_messages_iff h caps
  · intro s msgs h hs
    exact splitKeeps_frames_iff hreq h hs caps
  · intro s msgs h hs
    exact splitKeeps_frames_iff hres h hs caps

/-- One read that takes a whole message. -/
theorem split_keeps_unread_wholeMessage :
    SplitKeeps GrpcServerReadHalf.read GrpcServerRunStream.read RunStream.split
        (RunStream.new (twoRequests.map .ok)) [[1, 2], [3]] [2] ∧
      SplitKeeps (PbTcpServerReadHalf.read .standard) (PbTcpServerRunStream.read .standard)
        (fun s ↦ (PbTcpServerRunStream.split s).1) (RunStream.new twoFrames) [[1, 2], [3]] [2] := by
  have hall := split_keeps_unread_iff PbTcpCrates.standard_roundTrips.req
    PbTcpCrates.standard_roundTrips.res [[1, 2], [3]] [2]
  constructor
  · exact (hall.1 twoRequests ⟨rfl, by simp⟩).mpr rfl
  · refine (hall.2.2.2.2.1 twoFrames [(7, twoRequests[0]), (7, twoRequests[1])] ⟨rfl, by simp⟩
      ⟨?_, ?_⟩).mpr rfl
    · unfold FitsFrame
      decide
    · decide

/-- One read of the first byte of two: the read half goes on at the next message. -/
theorem split_loses_left_over : ¬∀ msgs payloads caps,
    Carries (fun msg : StreamReq ↦ unwrap msg.payload) msgs payloads →
      SplitKeeps GrpcServerReadHalf.read GrpcServerRunStream.read RunStream.split
        (RunStream.new (msgs.map .ok)) payloads caps := by
  intro h
  have hcarries : Carries (fun msg : StreamReq ↦ unwrap msg.payload) twoRequests [[1, 2], [3]] :=
    ⟨rfl, by simp⟩
  have hkept := (splitKeeps_messages_iff hcarries [1]).mp (h _ _ [1] hcarries)
  cases hkept

end Rog
