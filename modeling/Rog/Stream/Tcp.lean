import Rog.Stream.Stream

/-!
# The streams of clients

`stream/tcp.rs`, with the default `read_exact` of `RunStream`. What a client sends is given in
the segments in which it arrives, and what is written to it is kept.
-/

namespace Rog

open Lib StateIo

/-- `readFails` and `writeFails` are the errors of the connection, if it has any: a read meets
the first when nothing is left to read, a write always meets the second. -/
structure TcpRunStream where
  incoming : Socket
  readFails : Option IoError
  written : Bytes
  writeFails : Option IoError
  info : StreamInfo

abbrev TcpM := StateIo TcpRunStream

namespace TcpRunStream

def new (incoming : Socket) : TcpRunStream := ⟨incoming, none, [], none, .default⟩

def setInfo (f : StreamInfo → StreamInfo) : TcpM Unit := fun s ↦
  (.ok (), { s with info := f s.info })

/-- `read` into a buffer of `cap` bytes: the bytes that it puts there. -/
def read (cap : ℕ) : TcpM Bytes := fun s ↦
  let (data, incoming) := takeSome cap s.incoming
  match data, s.readFails with
  | [], some e => (.error (.err e), { s with incoming := incoming })
  | data, _ => (.ok data, { s with incoming := incoming })

/-- The loop of `read_exact` with `len` bytes to go; each turn reads at least one of them. -/
def readLoop : ℕ → ℕ → TcpM Bytes
  | 0, _ => pure []
  | fuel + 1, len =>
      if len = 0 then pure []
      else do
        let data ← read len
        if data.isEmpty then pure []
        else
          let more ← readLoop fuel (len - data.length)
          return data ++ more

/-- `read_exact` into a buffer of `len` zeros: what the buffer then holds. -/
def readExact (len : ℕ) : TcpM Bytes := do
  let data ← readLoop len len
  if data.isEmpty then ofIo (Io.raise .unexpectedEof "early eof")
  else return data ++ List.replicate (len - data.length) 0

def write (buf : Bytes) : TcpM Unit := fun s ↦
  match s.writeFails with
  | some e => (.error (.err e), s)
  | none => (.ok (), { s with written := s.written ++ buf })

/-- All that the client has sent and that has not been read. -/
def unread (s : TcpRunStream) : Bytes := s.incoming.flatten

section Spec

variable {s t : TcpRunStream}

theorem runOn_setInfo (f : StreamInfo → StreamInfo) (s : TcpRunStream) :
    (setInfo f).runOn s = (.ok (), { s with info := f s.info }) := rfl

theorem read_eq_ok {cap : ℕ} {data : Bytes} (h : (read cap).runOn s = (.ok data, t)) :
    data = (takeSome cap s.incoming).1 ∧ t = { s with incoming := (takeSome cap s.incoming).2 } := by
  have hread : read cap s = (.ok data, t) := h
  unfold read at hread
  dsimp only at hread
  split at hread
  · cases hread
  · obtain ⟨hdata, rfl⟩ := Prod.mk.inj hread
    exact ⟨(Except.ok.inj hdata).symm, rfl⟩

theorem read_append {cap : ℕ} {data : Bytes} (h : (read cap).runOn s = (.ok data, t)) :
    s.unread = data ++ t.unread := by
  obtain ⟨rfl, rfl⟩ := read_eq_ok h
  exact (takeSome_append cap s.incoming).symm

theorem runOn_write_none (h : s.writeFails = none) (buf : Bytes) :
    (write buf).runOn s = (.ok (), { s with written := s.written ++ buf }) := by
  simp [write, runOn, h]

theorem runOn_write_some {e : IoError} (h : s.writeFails = some e) (buf : Bytes) :
    (write buf).runOn s = (.error (.err e), s) := by
  simp [write, runOn, h]

theorem read_length {cap : ℕ} {data : Bytes} (h : (read cap).runOn s = (.ok data, t)) :
    data.length ≤ cap := by
  obtain ⟨rfl, -⟩ := read_eq_ok h
  exact length_takeSome cap s.incoming

theorem read_nil {cap : ℕ} (hcap : 0 < cap) (h : (read cap).runOn s = (.ok [], t)) :
    t.unread = [] := by
  have happend := read_append h
  obtain ⟨hdata, -⟩ := read_eq_ok h
  rw [List.nil_append] at happend
  rw [← happend]
  exact (takeSome_eq_nil_iff hcap s.incoming).mp hdata.symm

/-- What a stream keeps when it is read. -/
def SameOutput (s t : TcpRunStream) : Prop :=
  t.written = s.written ∧ t.writeFails = s.writeFails ∧ t.info = s.info

theorem SameOutput.trans {u : TcpRunStream} (h : SameOutput s t) (h' : SameOutput t u) :
    SameOutput s u :=
  ⟨h'.1.trans h.1, h'.2.1.trans h.2.1, h'.2.2.trans h.2.2⟩

theorem read_sameOutput {cap : ℕ} {data : Bytes} (h : (read cap).runOn s = (.ok data, t)) :
    SameOutput s t := by
  obtain ⟨-, rfl⟩ := read_eq_ok h
  exact ⟨rfl, rfl, rfl⟩

/-- The loop stops short only at the end of the stream. -/
theorem readLoop_eq_ok {fuel len : ℕ} {data : Bytes} (hfuel : len ≤ fuel)
    (h : (readLoop fuel len).runOn s = (.ok data, t)) :
    s.unread = data ++ t.unread ∧ data.length ≤ len ∧ (data.length = len ∨ t.unread = []) ∧
      SameOutput s t := by
  induction fuel generalizing s len data with
  | zero =>
      obtain ⟨hdata, rfl⟩ := Prod.mk.inj h
      obtain rfl := Except.ok.inj hdata
      obtain rfl := Nat.le_zero.mp hfuel
      exact ⟨rfl, Nat.le_refl 0, .inl rfl, rfl, rfl, rfl⟩
  | succ fuel ih =>
      rw [readLoop] at h
      by_cases hlen : len = 0
      · rw [if_pos hlen] at h
        obtain ⟨hdata, rfl⟩ := Prod.mk.inj h
        obtain rfl := Except.ok.inj hdata
        exact ⟨rfl, Nat.zero_le len, .inl hlen.symm, rfl, rfl, rfl⟩
      · rw [if_neg hlen] at h
        obtain ⟨first, u, hread, h⟩ := runOn_bind_eq_ok h
        cases first with
        | nil =>
            obtain ⟨hdata, rfl⟩ := Prod.mk.inj h
            obtain rfl := Except.ok.inj hdata
            exact ⟨read_append hread, Nat.zero_le len,
              .inr (read_nil (Nat.pos_of_ne_zero hlen) hread), read_sameOutput hread⟩
        | cons b bs =>
            obtain ⟨more, v, hmore, h⟩ := runOn_bind_eq_ok h
            obtain ⟨hdata, rfl⟩ := Prod.mk.inj h
            obtain rfl := Except.ok.inj hdata
            have hfirst := read_length hread
            have hpos : 0 < (b :: bs).length := Nat.succ_pos bs.length
            obtain ⟨happend, hle, hend, hsame⟩ := ih (by omega) hmore
            refine ⟨?_, ?_, ?_, (read_sameOutput hread).trans hsame⟩
            · rw [read_append hread, happend, List.append_assoc]
            · rw [List.length_append]
              omega
            · rcases hend with hend | hend
              · left
                rw [List.length_append]
                omega
              · exact .inr hend

/-- What `read_exact` returns: the next bytes, and zeros for those that are missing at the end of
the stream. -/
theorem readExact_eq_ok {len : ℕ} {buf : Bytes} (h : (readExact len).runOn s = (.ok buf, t)) :
    ∃ data, data ≠ [] ∧ s.unread = data ++ t.unread ∧
      buf = data ++ List.replicate (len - data.length) 0 ∧ data.length ≤ len ∧
        (data.length = len ∨ t.unread = []) ∧ SameOutput s t := by
  obtain ⟨data, u, hloop, h⟩ := runOn_bind_eq_ok h
  obtain ⟨happend, hle, hend, hsame⟩ := readLoop_eq_ok (Nat.le_refl len) hloop
  cases data with
  | nil => cases h
  | cons b bs =>
      obtain ⟨hbuf, rfl⟩ := Prod.mk.inj h
      exact ⟨b :: bs, List.cons_ne_nil b bs, happend, (Except.ok.inj hbuf).symm, hle, hend, hsame⟩

theorem read_of_unread {cap : ℕ} (hcap : 0 < cap) (hs : s.unread ≠ []) :
    ∃ data u, data ≠ [] ∧ (read cap).runOn s = (.ok data, u) := by
  obtain ⟨data, rest, htake⟩ : ∃ data rest, takeSome cap s.incoming = (data, rest) := ⟨_, _, rfl⟩
  have hne : data ≠ [] := by
    intro hnil
    exact hs ((takeSome_eq_nil_iff hcap s.incoming).mp (by rw [htake, hnil]))
  obtain ⟨b, bs, rfl⟩ := List.exists_cons_of_ne_nil hne
  exact ⟨b :: bs, { s with incoming := rest }, hne, by simp only [read, runOn, htake]⟩

/-- Bytes that are there are read, however they are segmented. -/
theorem readLoop_append {fuel : ℕ} {data more : Bytes} (hfuel : data.length ≤ fuel)
    (hs : s.unread = data ++ more) :
    ∃ t, (readLoop fuel data.length).runOn s = (.ok data, t) ∧ t.unread = more ∧
      SameOutput s t := by
  induction fuel generalizing s data with
  | zero =>
      obtain rfl := List.length_eq_zero_iff.mp (Nat.le_zero.mp hfuel)
      exact ⟨s, rfl, hs, rfl, rfl, rfl⟩
  | succ fuel ih =>
      by_cases hdata : data = []
      · subst hdata
        exact ⟨s, rfl, hs, rfl, rfl, rfl⟩
      · have hpos : 0 < data.length := List.length_pos_iff.mpr hdata
        obtain ⟨first, u, hne, hread⟩ := read_of_unread hpos (s := s) (by simp [hs, hdata])
        have happend := read_append hread
        have hfirstPrefix : first <+: s.unread := ⟨u.unread, happend.symm⟩
        have hdataPrefix : data <+: s.unread := ⟨more, hs.symm⟩
        obtain ⟨rest, rfl⟩ :=
          List.prefix_of_prefix_length_le hfirstPrefix hdataPrefix (read_length hread)
        have hu : u.unread = rest ++ more := by
          rw [hs, List.append_assoc] at happend
          exact (List.append_cancel_left happend).symm
        have hfirst : 0 < first.length := List.length_pos_iff.mpr hne
        have hlength : (first ++ rest).length - first.length = rest.length := by simp
        have hrest : rest.length ≤ fuel := by
          rw [List.length_append] at hfuel
          omega
        obtain ⟨t, hloop, ht, hsame⟩ := ih hrest hu
        refine ⟨t, ?_, ht, (read_sameOutput hread).trans hsame⟩
        have hempty : ¬first.isEmpty = true := by simpa using hne
        rw [readLoop, if_neg (by omega), runOn_bind_ok hread, if_neg hempty, hlength,
          runOn_bind_ok hloop]
        rfl

theorem readExact_append {data more : Bytes} (hdata : data ≠ []) (hs : s.unread = data ++ more) :
    ∃ t, (readExact data.length).runOn s = (.ok data, t) ∧ t.unread = more ∧ SameOutput s t := by
  obtain ⟨t, hloop, ht, hsame⟩ := readLoop_append (Nat.le_refl _) hs
  refine ⟨t, ?_, ht, hsame⟩
  have hempty : ¬data.isEmpty = true := by simpa using hdata
  rw [readExact, runOn_bind_ok hloop, if_neg hempty, Nat.sub_self]
  simp [runOn_pure]

end Spec

end TcpRunStream

end Rog
