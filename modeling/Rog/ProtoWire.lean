import Rog.Proto
import Rog.Lib.Protobuf

/-!
# The messages on the wire

The messages of the pb_tcp transport in the protobuf wire format, as `rog.proto` lays them out. A
plain field with its default value is not written; an unknown field is skipped; the last of
several values of a field counts.
-/

namespace Rog

open Lib.Protobuf

def textField (bytes : Bytes) : Except String String :=
  match fromUtf8 bytes with
  | some s => .ok s
  | none => .error "invalid string value: data is not UTF-8 encoded"

@[simp] theorem textField_asBytes (s : String) : textField (asBytes s) = .ok s := by
  simp [textField, fromUtf8_asBytes]

def decodeMessage {M : Type} (merge : M → Field → Except String M) (default : M) (bytes : Bytes) :
    Except String M :=
  match decodeFields bytes with
  | some fields => fields.foldlM merge default
  | none => .error "failed to decode Protobuf message"

theorem decodeMessage_encodeFields {M : Type} (merge : M → Field → Except String M) (default : M)
    {fields : List Field} (hfields : ∀ f ∈ fields, f.Wf) (hfits : FitsVec (encodeFields fields)) :
    decodeMessage merge default (encodeFields fields) = fields.foldlM merge default := by
  have hlength : (encodeFields fields).length < 2 ^ 64 := by
    unfold FitsVec at hfits
    omega
  simp [decodeMessage, decodeFields_encodeFields hfields hlength]

theorem bytes_wf {number : ℕ} (hnumber : 1 ≤ number ∧ number < 2 ^ 29) (b : Bytes) :
    Field.Wf ⟨number, .bytes b⟩ :=
  ⟨hnumber, nofun⟩

theorem uint32_wf {number : ℕ} (hnumber : 1 ≤ number ∧ number < 2 ^ 29) (n : UInt32) :
    Field.Wf ⟨number, .int n.toNat⟩ := by
  refine ⟨hnumber, fun m hm ↦ ?_⟩
  obtain rfl := Value.int.inj hm
  exact n.toNat_lt.trans (by decide)

/-- The fields that stand for an option, or for a plain field. -/
theorem toList_wf {α : Type} (o : Option α) {field : α → Field} (h : ∀ a, (field a).Wf) :
    ∀ f ∈ o.toList.map field, f.Wf := by
  intro f hf
  obtain ⟨a, -, rfl⟩ := List.mem_map.mp hf
  exact h a

theorem plain_wf {p : Prop} [Decidable p] {field : Field} (h : field.Wf) :
    ∀ f ∈ (if p then [] else [field]), f.Wf := by
  intro f hf
  split at hf
  · cases hf
  · rwa [List.mem_singleton.mp hf]

theorem toUInt32_lt (port : UInt16) : port.toUInt32.toNat < 2 ^ 16 := by
  rw [UInt16.toNat_toUInt32]
  exact port.toNat_lt

theorem sum_toList_le {α : Type} (o : Option α) (room : α → ℕ) (default : α) :
    (o.toList.map room).sum ≤ room (o.getD default) := by
  cases o <;> simp

theorem sum_textField_le (number : ℕ) (s : String) :
    ((if s = "" then [] else [Lib.Protobuf.Field.mk number (.bytes (asBytes s))]).map
      fun f ↦ f.number * 8 + 4 + 2 * f.value.size).sum ≤
        number * 8 + 4 + 2 * (asBytes s).length := by
  split <;> simp [Value.size]

namespace StreamReq

def fields (m : StreamReq) : List Field :=
  (if m.auth = "" then [] else [⟨1, .bytes (asBytes m.auth)⟩]) ++
    (m.payload.toList.map fun payload ↦ ⟨2, .bytes payload⟩) ++
    (m.dstAddr.toList.map fun addr ↦ ⟨3, .bytes (asBytes addr)⟩) ++
    (m.dstPort.toList.map fun port ↦ ⟨4, .int port.toNat⟩)

def merge (m : StreamReq) (f : Field) : Except String StreamReq :=
  match f.number, f.value with
  | 1, .bytes b => do
      let auth ← textField b
      return { m with auth := auth }
  | 2, .bytes b => .ok { m with payload := some b }
  | 3, .bytes b => do
      let addr ← textField b
      return { m with dstAddr := some addr }
  | 4, .int n => .ok { m with dstPort := some (UInt32.ofNat n) }
  | 1, _ | 2, _ | 3, _ | 4, _ => .error "invalid wire type"
  | _, _ => .ok m

def wire : Prost StreamReq where
  encode m := encodeFields m.fields
  decode := decodeMessage merge default

theorem length_encode_le (m : StreamReq) :
    (wire.encode m).length ≤ 2 * ((asBytes m.auth).length + (m.payload.getD []).length +
      (asBytes (m.dstAddr.getD "")).length + (m.dstPort.getD 0).toNat) + 96 := by
  refine (length_encodeFields_le _).trans ?_
  have hauth := sum_textField_le 1 m.auth
  have hpayload := sum_toList_le m.payload (fun b ↦ 2 * 8 + 4 + 2 * b.length) []
  have hdstAddr := sum_toList_le m.dstAddr (fun s ↦ 3 * 8 + 4 + 2 * (asBytes s).length) ""
  have hdstPort := sum_toList_le m.dstPort (fun n ↦ 4 * 8 + 4 + 2 * n.toNat) 0
  simp only [fields, List.map_append, List.sum_append, List.map_map, Function.comp_def, Value.size]
  simp only [Value.size] at hauth
  omega

theorem fields_wf (m : StreamReq) : ∀ f ∈ m.fields, f.Wf := by
  simp only [fields, List.forall_mem_append]
  exact ⟨⟨⟨plain_wf (bytes_wf (by decide) _), toList_wf _ fun _ ↦ bytes_wf (by decide) _⟩,
    toList_wf _ fun _ ↦ bytes_wf (by decide) _⟩, toList_wf _ fun _ ↦ uint32_wf (by decide) _⟩

theorem wire_roundTrips : wire.RoundTrips := by
  intro m hfits
  refine (decodeMessage_encodeFields merge default m.fields_wf hfits).trans ?_
  obtain ⟨auth, payload, dstAddr, dstPort⟩ := m
  rw [fields]
  by_cases hauth : auth = "" <;> cases payload <;> cases dstAddr <;> cases dstPort <;>
    simp [hauth, merge, StreamReq.default, bind, Except.bind, pure, Except.pure]

end StreamReq

namespace StreamRes

def fields (m : StreamRes) : List Field :=
  if m.payload = [] then [] else [⟨1, .bytes m.payload⟩]

def merge (m : StreamRes) (f : Field) : Except String StreamRes :=
  match f.number, f.value with
  | 1, .bytes b => .ok { m with payload := b }
  | 1, _ => .error "invalid wire type"
  | _, _ => .ok m

def wire : Prost StreamRes where
  encode m := encodeFields m.fields
  decode := decodeMessage merge ⟨[]⟩

theorem fields_wf (m : StreamRes) : ∀ f ∈ m.fields, f.Wf :=
  plain_wf (bytes_wf (by decide) _)

theorem length_encode_le (m : StreamRes) : (wire.encode m).length ≤ 2 * m.payload.length + 12 := by
  refine (length_encodeFields_le _).trans ?_
  rw [fields]
  split
  · simp
  · simp [Value.size]
    omega

theorem wire_roundTrips : wire.RoundTrips := by
  intro m hfits
  refine (decodeMessage_encodeFields merge ⟨[]⟩ m.fields_wf hfits).trans ?_
  obtain ⟨payload⟩ := m
  rw [fields]
  by_cases hpayload : payload = [] <;>
    simp [hpayload, merge, bind, Except.bind, pure, Except.pure]

end StreamRes

namespace UdpReq

def default : UdpReq := ⟨"", none, none, none, none, none⟩

def fields (m : UdpReq) : List Field :=
  (if m.auth = "" then [] else [⟨1, .bytes (asBytes m.auth)⟩]) ++
    (m.payload.toList.map fun payload ↦ ⟨2, .bytes payload⟩) ++
    (m.dstAddr.toList.map fun addr ↦ ⟨3, .bytes (asBytes addr)⟩) ++
    (m.dstPort.toList.map fun port ↦ ⟨4, .int port.toNat⟩) ++
    (m.srcAddr.toList.map fun addr ↦ ⟨5, .bytes (asBytes addr)⟩) ++
    (m.srcPort.toList.map fun port ↦ ⟨6, .int port.toNat⟩)

def merge (m : UdpReq) (f : Field) : Except String UdpReq :=
  match f.number, f.value with
  | 1, .bytes b => do
      let auth ← textField b
      return { m with auth := auth }
  | 2, .bytes b => .ok { m with payload := some b }
  | 3, .bytes b => do
      let addr ← textField b
      return { m with dstAddr := some addr }
  | 4, .int n => .ok { m with dstPort := some (UInt32.ofNat n) }
  | 5, .bytes b => do
      let addr ← textField b
      return { m with srcAddr := some addr }
  | 6, .int n => .ok { m with srcPort := some (UInt32.ofNat n) }
  | 1, _ | 2, _ | 3, _ | 4, _ | 5, _ | 6, _ => .error "invalid wire type"
  | _, _ => .ok m

def wire : Prost UdpReq where
  encode m := encodeFields m.fields
  decode := decodeMessage merge default

theorem length_encode_le (m : UdpReq) :
    (wire.encode m).length ≤ 2 * ((asBytes m.auth).length + (m.payload.getD []).length +
      (asBytes (m.dstAddr.getD "")).length + (m.dstPort.getD 0).toNat +
      (asBytes (m.srcAddr.getD "")).length + (m.srcPort.getD 0).toNat) + 192 := by
  refine (length_encodeFields_le _).trans ?_
  have hauth := sum_textField_le 1 m.auth
  have hpayload := sum_toList_le m.payload (fun b ↦ 2 * 8 + 4 + 2 * b.length) []
  have hdstAddr := sum_toList_le m.dstAddr (fun s ↦ 3 * 8 + 4 + 2 * (asBytes s).length) ""
  have hdstPort := sum_toList_le m.dstPort (fun n ↦ 4 * 8 + 4 + 2 * n.toNat) 0
  have hsrcAddr := sum_toList_le m.srcAddr (fun s ↦ 5 * 8 + 4 + 2 * (asBytes s).length) ""
  have hsrcPort := sum_toList_le m.srcPort (fun n ↦ 6 * 8 + 4 + 2 * n.toNat) 0
  simp only [fields, List.map_append, List.sum_append, List.map_map, Function.comp_def, Value.size]
  simp only [Value.size] at hauth
  omega

theorem fields_wf (m : UdpReq) : ∀ f ∈ m.fields, f.Wf := by
  simp only [fields, List.forall_mem_append]
  exact ⟨⟨⟨⟨⟨plain_wf (bytes_wf (by decide) _), toList_wf _ fun _ ↦ bytes_wf (by decide) _⟩,
    toList_wf _ fun _ ↦ bytes_wf (by decide) _⟩, toList_wf _ fun _ ↦ uint32_wf (by decide) _⟩,
    toList_wf _ fun _ ↦ bytes_wf (by decide) _⟩, toList_wf _ fun _ ↦ uint32_wf (by decide) _⟩

theorem wire_roundTrips : wire.RoundTrips := by
  intro m hfits
  refine (decodeMessage_encodeFields merge default m.fields_wf hfits).trans ?_
  obtain ⟨auth, payload, dstAddr, dstPort, srcAddr, srcPort⟩ := m
  simp only [fields, List.foldlM_append]
  by_cases hauth : auth = "" <;> cases payload <;> cases dstAddr <;> cases dstPort <;>
    cases srcAddr <;> cases srcPort <;>
    simp [hauth, merge, default, bind, Except.bind, pure, Except.pure]

end UdpReq

namespace UdpRes

def default : UdpRes := ⟨[], none, none, none, none⟩

def fields (m : UdpRes) : List Field :=
  (if m.payload = [] then [] else [⟨1, .bytes m.payload⟩]) ++
    (m.dstAddr.toList.map fun addr ↦ ⟨2, .bytes (asBytes addr)⟩) ++
    (m.dstPort.toList.map fun port ↦ ⟨3, .int port.toNat⟩) ++
    (m.srcAddr.toList.map fun addr ↦ ⟨4, .bytes (asBytes addr)⟩) ++
    (m.srcPort.toList.map fun port ↦ ⟨5, .int port.toNat⟩)

def merge (m : UdpRes) (f : Field) : Except String UdpRes :=
  match f.number, f.value with
  | 1, .bytes b => .ok { m with payload := b }
  | 2, .bytes b => do
      let addr ← textField b
      return { m with dstAddr := some addr }
  | 3, .int n => .ok { m with dstPort := some (UInt32.ofNat n) }
  | 4, .bytes b => do
      let addr ← textField b
      return { m with srcAddr := some addr }
  | 5, .int n => .ok { m with srcPort := some (UInt32.ofNat n) }
  | 1, _ | 2, _ | 3, _ | 4, _ | 5, _ => .error "invalid wire type"
  | _, _ => .ok m

def wire : Prost UdpRes where
  encode m := encodeFields m.fields
  decode := decodeMessage merge default

theorem fields_wf (m : UdpRes) : ∀ f ∈ m.fields, f.Wf := by
  simp only [fields, List.forall_mem_append]
  exact ⟨⟨⟨⟨plain_wf (bytes_wf (by decide) _), toList_wf _ fun _ ↦ bytes_wf (by decide) _⟩,
    toList_wf _ fun _ ↦ uint32_wf (by decide) _⟩, toList_wf _ fun _ ↦ bytes_wf (by decide) _⟩,
    toList_wf _ fun _ ↦ uint32_wf (by decide) _⟩

theorem wire_roundTrips : wire.RoundTrips := by
  intro m hfits
  refine (decodeMessage_encodeFields merge default m.fields_wf hfits).trans ?_
  obtain ⟨payload, dstAddr, dstPort, srcAddr, srcPort⟩ := m
  simp only [fields, List.foldlM_append]
  by_cases hpayload : payload = [] <;> cases dstAddr <;> cases dstPort <;> cases srcAddr <;>
    cases srcPort <;>
    simp [hpayload, merge, default, bind, Except.bind, pure, Except.pure]

end UdpRes

end Rog
