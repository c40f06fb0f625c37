import Rog.Lib.InOrder
import Rog.ProtoWire
import Rog.Util.TcpFrame

/-!
# Connections that are cut

A connection can end anywhere in the bytes of a frame. What was read of a frame that is not whole
is given up, and every read from then on fails.
-/

namespace Rog

open Lib SocketM

/-- How many of the frames are whole in their first `n` bytes. -/
def wholeFrames : List Bytes → ℕ → ℕ
  | [], _ => 0
  | frame :: frames, n =>
      if frame.length ≤ n then wholeFrames frames (n - frame.length) + 1 else 0

theorem exists_part {frames : List Bytes} {bytes : Bytes} (h : bytes <+: frames.flatten) :
    ∃ part, bytes = (frames.take (wholeFrames frames bytes.length)).flatten ++ part ∧
      (part = [] ∨ ∃ frame ∈ frames, part <+: frame ∧ part ≠ frame) := by
  induction frames generalizing bytes with
  | nil =>
      refine ⟨[], ?_, .inl rfl⟩
      simpa using h
  | cons frame frames ih =>
      rw [List.flatten_cons] at h
      by_cases hwhole : frame.length ≤ bytes.length
      · have hframe : frame <+: bytes :=
          List.prefix_of_prefix_length_le (List.prefix_append frame _) h hwhole
        obtain ⟨later, rfl⟩ := hframe
        obtain ⟨part, hpart, hlast⟩ := ih ((List.prefix_append_right_inj frame).mp h)
        refine ⟨part, ?_, hlast.imp_right fun ⟨f, hf, hrest⟩ ↦
          ⟨f, List.mem_cons_of_mem _ hf, hrest⟩⟩
        have hcount : wholeFrames (frame :: frames) (frame ++ later).length =
            wholeFrames frames later.length + 1 := by
          simp [wholeFrames]
        rw [hcount, List.take_succ_cons, List.flatten_cons, List.append_assoc, ← hpart]
      · refine ⟨bytes, by simp [wholeFrames, hwhole], .inr ⟨frame, by simp, ?_, ?_⟩⟩
        · exact List.prefix_of_prefix_length_le h (List.prefix_append frame _) (by omega)
        · rintro rfl
          exact hwhole le_rfl

section Cut

variable {M : Type} {x : Prost M} {s : Socket}

/-- What is left of a frame when the connection is cut in it. -/
def PartOfFrame (x : Prost M) (part : Bytes) : Prop :=
  part = [] ∨ ∃ r msg, FitsFrame (writeFrame x r msg) ∧ part <+: writeFrame x r msg ∧
    part ≠ writeFrame x r msg

/-- The header of a frame that may be cut after it. -/
theorem readFrame_of_prefix {r : UInt64} {msg : M} (hs : s.flatten <+: writeFrame x r msg)
    (h16 : 16 ≤ s.flatten.length) (hvec : (x.encode msg).length < 2 ^ 64) :
    ∃ t : Socket, s.flatten.length = 16 + t.flatten.length ∧ readFrame.runOn s =
      (if 16 * 1024 * 1024 < (x.encode msg).length then ofIo (Io.other "frame too large")
        else readExact (x.encode msg).length).runOn t := by
  have hlen : (UInt64.ofNat (x.encode msg).length).toNat = (x.encode msg).length := by
    rw [UInt64.toNat_ofNat']
    exact Nat.mod_eq_of_lt hvec
  obtain ⟨header, hheader⟩ : ∃ header, header = bigEndian 8 r.toNat ++
      bigEndian 8 (UInt64.ofNat (x.encode msg).length - r).toNat := ⟨_, rfl⟩
  have hlength : header.length = 16 := by simp [hheader]
  have hframe : writeFrame x r msg = header ++ x.encode msg := by
    simp [writeFrame, hheader]
  rw [hframe] at hs
  obtain ⟨part, hpart⟩ : header <+: s.flatten :=
    List.prefix_of_prefix_length_le (List.prefix_append header _) hs (by omega)
  obtain ⟨t, hread, ht⟩ := readExact_append hpart.symm
  rw [hlength] at hread
  refine ⟨t, by rw [← hpart, List.length_append, hlength, ht], ?_⟩
  simp only [readFrame]
  rw [runOn_bind_ok hread]
  simp only [hheader, List.take_left' (length_bigEndian 8 _),
    List.drop_left' (length_bigEndian 8 _), header_roundTrip, mask_roundTrip, hlen]

theorem readFrame_cut {r : UInt64} {msg : M} (hs : s.flatten <+: writeFrame x r msg)
    (hcut : s.flatten ≠ writeFrame x r msg) (hfits : FitsFrame (writeFrame x r msg)) :
    readFrame.runOn s = (Io.raise .unexpectedEof "early eof", []) := by
  by_cases hshort : s.flatten.length < 16
  · exact runOn_bind_error (readExact_eof hshort)
  · rw [FitsFrame, length_writeFrame] at hfits
    have hlength : s.flatten.length < (writeFrame x r msg).length := by
      refine lt_of_le_of_ne hs.length_le fun h ↦ hcut (hs.eq_of_length h)
    rw [length_writeFrame] at hlength
    obtain ⟨t, ht, hread⟩ := readFrame_of_prefix hs (by omega) (by omega)
    rw [hread, if_neg (by omega)]
    exact readExact_eof (by omega)

theorem readMsg_part (hs : PartOfFrame x s.flatten) :
    (readMsg x).runOn s = (Io.raise .unexpectedEof "early eof", []) := by
  rcases hs with hnil | ⟨r, msg, hfits, hpart, hcut⟩
  · exact readMsg_eof x hnil
  · exact runOn_bind_error (readFrame_cut hpart hcut hfits)

theorem PartOfFrame.of_mem {sent : List (UInt64 × M)}
    (hfits : ∀ p ∈ sent, FitsFrame (writeFrame x p.1 p.2)) {part : Bytes}
    (h : part = [] ∨ ∃ frame ∈ sent.map (fun p ↦ writeFrame x p.1 p.2),
      part <+: frame ∧ part ≠ frame) : PartOfFrame x part := by
  rcases h with h | ⟨frame, hframe, hpart⟩
  · exact .inl h
  · obtain ⟨p, hmem, rfl⟩ := List.mem_map.mp hframe
    exact .inr ⟨p.1, p.2, hfits p hmem, hpart⟩

/-- However the bytes of a connection come in segments and wherever it is cut, the messages whose
frames are whole are read, in order, and every read after them fails. -/
theorem reads_of_cut (hx : x.RoundTrips) {sent : List (UInt64 × M)}
    (hfits : ∀ p ∈ sent, FitsFrame (writeFrame x p.1 p.2))
    (hs : s.flatten <+: (sent.map fun p ↦ writeFrame x p.1 p.2).flatten) (n : ℕ) :
    (results (readMsg x).runOn n s).1 =
      let whole := wholeFrames (sent.map fun p ↦ writeFrame x p.1 p.2) s.flatten.length
      ((sent.take whole).take n).map (fun p ↦ .ok p.2) ++
        List.replicate (n - (sent.take whole).length) (Io.raise .unexpectedEof "early eof") := by
  obtain ⟨whole, hwhole⟩ : ∃ whole, whole =
      wholeFrames (sent.map fun p ↦ writeFrame x p.1 p.2) s.flatten.length := ⟨_, rfl⟩
  obtain ⟨part, hpart, hlast⟩ := exists_part hs
  rw [← hwhole, ← List.map_take] at hpart
  let Holds (sent : List (UInt64 × M)) (t : Socket) : Prop :=
    (∀ p ∈ sent, FitsFrame (writeFrame x p.1 p.2)) ∧ ∃ part, PartOfFrame x part ∧
      t.flatten = (sent.map fun p ↦ writeFrame x p.1 p.2).flatten ++ part
  have hop : ∀ p sent (t : Socket), Holds (p :: sent) t →
      ∃ u, (readMsg x).runOn t = (.ok p.2, u) ∧ Holds sent u := by
    rintro p sent t ⟨hfits, part, hcut, ht⟩
    rw [List.map_cons, List.flatten_cons, List.append_assoc] at ht
    obtain ⟨u, hread, hu⟩ := readMsg_writeFrame hx ht (hfits p (by simp))
    exact ⟨u, hread, fun q hq ↦ hfits q (List.mem_cons_of_mem p hq), part, hcut, hu⟩
  have hstop : ∀ t : Socket, Holds [] t → ∃ b u, (readMsg x).runOn t = (b, u) ∧
      b = Io.raise .unexpectedEof "early eof" ∧ Holds [] u := by
    rintro t ⟨-, part, hcut, ht⟩
    have ht : t.flatten = part := ht
    exact ⟨_, [], readMsg_part (ht ▸ hcut), rfl, by simp, [], .inl rfl, rfl⟩
  have hholds : Holds (sent.take whole) s :=
    ⟨fun p hp ↦ hfits p (List.mem_of_mem_take hp), part, .of_mem hfits hlast, hpart⟩
  obtain ⟨stops, hresults, hlength, hstops⟩ := results_until Holds hop hstop hholds n
  rw [hresults, ← hwhole, List.eq_replicate_iff.mpr ⟨hlength, hstops⟩]

/-! ## What is read before a failure -/

/-- A part of a frame, of whatever length. -/
def Unfinished (x : Prost M) (part : Bytes) : Prop :=
  part = [] ∨ ∃ r msg, FitsVec (x.encode msg) ∧ part <+: writeFrame x r msg ∧
    part ≠ writeFrame x r msg

/-- No more has come in than the frames of `sent` and a part of one that follows. -/
def Conveys (x : Prost M) (sent : List (UInt64 × M)) (s : Socket) : Prop :=
  (∀ p ∈ sent, FitsVec (x.encode p.2)) ∧ ∃ part, Unfinished x part ∧
    s.flatten <+: (sent.map fun p ↦ writeFrame x p.1 p.2).flatten ++ part

theorem readMsg_unfinished {r : UInt64} {msg : M} (hvec : FitsVec (x.encode msg))
    (hs : s.flatten <+: writeFrame x r msg) (hcut : s.flatten ≠ writeFrame x r msg) :
    ∃ e t, (readMsg x).runOn s = (.error e, t) := by
  have hvec : (x.encode msg).length < 2 ^ 64 := hvec.trans (by norm_num)
  by_cases hfits : FitsFrame (writeFrame x r msg)
  · exact ⟨_, _, runOn_bind_error (readFrame_cut hs hcut hfits)⟩
  · by_cases hshort : s.flatten.length < 16
    · exact ⟨_, _, runOn_bind_error (runOn_bind_error (readExact_eof hshort))⟩
    · rw [FitsFrame, length_writeFrame] at hfits
      obtain ⟨t, -, hread⟩ := readFrame_of_prefix hs (by omega) hvec
      rw [if_pos (by omega), runOn_ofIo] at hread
      exact ⟨_, _, runOn_bind_error hread⟩

/-- A read fails as long as its frame has not come in. -/
theorem readMsg_cut (hx : x.RoundTrips) {r : UInt64} {msg : M} {more : Bytes}
    (hvec : FitsVec (x.encode msg)) (hs : s.flatten <+: writeFrame x r msg ++ more) :
    (∃ e t, (readMsg x).runOn s = (.error e, t)) ∨
      ∃ t, (readMsg x).runOn s = (.ok msg, t) ∧ t.flatten <+: more := by
  by_cases hwhole : (writeFrame x r msg).length ≤ s.flatten.length
  · obtain ⟨later, hlater⟩ : writeFrame x r msg <+: s.flatten :=
      List.prefix_of_prefix_length_le (List.prefix_append _ _) hs hwhole
    by_cases hfits : FitsFrame (writeFrame x r msg)
    · obtain ⟨t, hread, ht⟩ := readMsg_writeFrame hx hlater.symm hfits
      rw [← hlater] at hs
      exact .inr ⟨t, hread, ht ▸ (List.prefix_append_right_inj _).mp hs⟩
    · obtain ⟨t, hread⟩ := readMsg_large hlater.symm (hvec.trans (by norm_num)) hfits
      exact .inl ⟨_, t, hread⟩
  · refine .inl (readMsg_unfinished hvec ?_ fun h ↦ hwhole (by rw [h]))
    exact List.prefix_of_prefix_length_le hs (List.prefix_append _ _) (by omega)

/-- Before a read fails, the messages come out one after the other. -/
theorem feeds_conveys (hx : x.RoundTrips) : Feeds (readMsg x).runOn
    fun msgs s ↦ ∃ sent : List (UInt64 × M), sent.map Prod.snd = msgs ∧ Conveys x sent s := by
  rintro msgs s ⟨sent, rfl, hvec, part, hpart, hs⟩
  cases sent with
  | nil =>
      have hs : s.flatten <+: part := hs
      rcases hpart with rfl | ⟨r, msg, hmsg, hprefix, hcut⟩
      · exact .inl ⟨_, _, readMsg_eof x (List.prefix_nil.mp hs)⟩
      · refine .inl (readMsg_unfinished hmsg (hs.trans hprefix) fun h ↦ hcut ?_)
        exact hprefix.eq_of_length_le (by rw [← h]; exact hs.length_le)
  | cons p sent =>
      rw [List.map_cons, List.flatten_cons, List.append_assoc] at hs
      refine (readMsg_cut hx (hvec p (by simp)) hs).imp_right fun ⟨t, hread, ht⟩ ↦ ?_
      exact ⟨p.2, sent.map Prod.snd, t, rfl, hread, sent, rfl,
        fun q hq ↦ hvec q (List.mem_cons_of_mem p hq), part, hpart, ht⟩

/-- What has come in of the frames that `write` calls have written. -/
theorem conveys_of_writes {γ β : Type} {write : γ → Io Bytes} {received : γ → β}
    {convert : M → Io β} (hwrite : ∀ c frame, write c = .ok frame → ∃ mask msg,
      frame = writeFrame x mask msg ∧ convert msg = .ok (received c))
    {calls : List γ} {frames : List Bytes} (hwrites : calls.mapM write = .ok frames)
    (hvec : ∀ frame ∈ frames, FitsVec frame) {part : Bytes} (hpart : Unfinished x part)
    (hs : s.flatten <+: frames.flatten ++ part) :
    ∃ msgs, List.Forall₂ (fun msg b ↦ convert msg = .ok b) msgs (calls.map received) ∧
      ∃ sent : List (UInt64 × M), sent.map Prod.snd = msgs ∧ Conveys x sent s := by
  obtain ⟨sent, rfl, hsent⟩ : ∃ sent : List (UInt64 × M),
      frames = sent.map (fun p ↦ writeFrame x p.1 p.2) ∧
        List.Forall₂ (fun msg b ↦ convert msg = .ok b) (sent.map Prod.snd)
          (calls.map received) := by
    have hcalls := forall₂_of_mapM hwrites
    clear hwrites hvec hs
    induction hcalls with
    | nil => exact ⟨[], rfl, .nil⟩
    | cons hcall _ ih =>
        obtain ⟨mask, msg, rfl, hmsg⟩ := hwrite _ _ hcall
        obtain ⟨sent, rfl, hsent⟩ := ih
        exact ⟨(mask, msg) :: sent, rfl, .cons hmsg hsent⟩
  refine ⟨_, hsent, sent, rfl, fun p hp ↦ ?_, part, hpart, hs⟩
  have hframe : FitsVec (writeFrame x p.1 p.2) := hvec _ (List.mem_map_of_mem hp)
  rw [FitsVec, length_writeFrame] at hframe
  exact (Nat.le_add_left _ _).trans_lt hframe

end Cut

theorem readConnType_eq_ok {s t : Socket} {connType : UInt8}
    (h : readConnType.runOn s = (.ok connType, t)) : s.flatten = connType :: t.flatten := by
  cases hbytes : s.flatten with
  | nil =>
      have hread := runOn_bind_error (f := fun buf : Bytes ↦ pure (buf.headD 0))
        (readExact_eof (s := s) (n := 1) (by simp [hbytes]))
      cases (Prod.mk.inj (hread.symm.trans h)).1
  | cons b more =>
      obtain ⟨u, hread, hu⟩ := readConnType_cons hbytes
      obtain ⟨hok, rfl⟩ := Prod.mk.inj (hread.symm.trans h)
      rw [Except.ok.inj hok, hu]

def emptyReq : UdpReq := ⟨"", none, none, none, none, none⟩

/-- Two messages are sent, and the connection is cut in the second one. -/
def cutConnection : Socket :=
  [writeFrame UdpReq.wire 7 emptyReq, (writeFrame UdpReq.wire 9 emptyReq).take 5]

theorem reads_of_cut_emptyReq : (results (readMsg UdpReq.wire).runOn 3 cutConnection).1 =
    [.ok emptyReq, Io.raise .unexpectedEof "early eof", Io.raise .unexpectedEof "early eof"] := by
  have hfits : ∀ p ∈ [((7 : UInt64), emptyReq), (9, emptyReq)],
      FitsFrame (writeFrame UdpReq.wire p.1 p.2) := by
    intro p hp
    rw [FitsFrame, length_writeFrame]
    rcases List.mem_pair.mp hp with rfl | rfl <;> decide
  have hs : cutConnection.flatten <+:
      ([((7 : UInt64), emptyReq), (9, emptyReq)].map fun p ↦
        writeFrame UdpReq.wire p.1 p.2).flatten := by
    decide
  exact reads_of_cut UdpReq.wire_roundTrips hfits hs 3

end Rog
