import Rog.Util.Socks5

/-!
# The format of SOCKS5 messages

A parser succeeds with a message if and only if the message is well formed and its pieces are
what the reads of the parser return, one after the other.
-/

namespace Rog

open StateIo

section Reads

variable {σ : Type} (readExact : ℕ → StateIo σ Bytes)

/-- The reads of the given pieces, from `s` to `t`. -/
inductive ReadAll : σ → List Bytes → σ → Prop
  | nil (s : σ) : ReadAll s [] s
  | cons {s u t : σ} {piece : Bytes} {pieces : List Bytes}
      (hread : (readExact piece.length).runOn s = (.ok piece, u)) (hrest : ReadAll u pieces t) :
      ReadAll s (piece :: pieces) t

def Fills : Prop :=
  ∀ n s buf t, (readExact n).runOn s = (.ok buf, t) → buf.length = n

variable {readExact}

theorem readAll_cons_iff {s t : σ} {piece : Bytes} {pieces : List Bytes} :
    ReadAll readExact s (piece :: pieces) t ↔
      ∃ u, (readExact piece.length).runOn s = (.ok piece, u) ∧ ReadAll readExact u pieces t := by
  refine ⟨fun h ↦ ?_, fun ⟨u, hread, hrest⟩ ↦ .cons hread hrest⟩
  cases h with
  | cons hread hrest => exact ⟨_, hread, hrest⟩

theorem readAll_nil_iff {s t : σ} : ReadAll readExact s [] t ↔ s = t := by
  refine ⟨fun h ↦ ?_, fun h ↦ h ▸ .nil s⟩
  cases h with
  | nil => rfl

theorem readAll_append_iff {s t : σ} {pieces more : List Bytes} :
    ReadAll readExact s (pieces ++ more) t ↔
      ∃ u, ReadAll readExact s pieces u ∧ ReadAll readExact u more t := by
  induction pieces generalizing s with
  | nil => simp [readAll_nil_iff]
  | cons piece pieces ih =>
      simp only [List.cons_append, readAll_cons_iff, ih]
      constructor
      · rintro ⟨u, hread, v, hpieces, hmore⟩
        exact ⟨v, ⟨u, hread, hpieces⟩, hmore⟩
      · rintro ⟨v, ⟨u, hread, hpieces⟩, hmore⟩
        exact ⟨u, hread, v, hpieces, hmore⟩

variable (hfills : Fills readExact)

include hfills

theorem readU8_eq_ok {s t : σ} {v : UInt8} :
    (readU8 readExact).runOn s = (.ok v, t) ↔ (readExact 1).runOn s = (.ok [v], t) := by
  constructor
  · intro h
    obtain ⟨buf, u, hread, h⟩ := runOn_bind_eq_ok h
    obtain ⟨hv, rfl⟩ := Prod.mk.inj h
    obtain ⟨b, rfl⟩ := List.length_eq_one_iff.mp (hfills 1 s buf u hread)
    obtain rfl := Except.ok.inj hv
    exact hread
  · intro h
    rw [readU8, runOn_bind_ok h]
    rfl

theorem readU16_eq_ok {s t : σ} {port : UInt16} :
    (readU16 readExact).runOn s = (.ok port, t) ↔
      ∃ high low, port = fromBeBytes high low ∧ (readExact 2).runOn s = (.ok [high, low], t) := by
  constructor
  · intro h
    obtain ⟨buf, u, hread, h⟩ := runOn_bind_eq_ok h
    obtain ⟨hport, rfl⟩ := Prod.mk.inj h
    obtain ⟨high, low, rfl⟩ := List.length_eq_two.mp (hfills 2 s buf u hread)
    exact ⟨high, low, (Except.ok.inj hport).symm, hread⟩
  · rintro ⟨high, low, rfl, h⟩
    rw [readU16, runOn_bind_ok h]
    rfl

end Reads

theorem toBeBytes_fromBeBytes (high low : UInt8) :
    ((fromBeBytes high low / 256).toUInt8, (fromBeBytes high low).toUInt8) = (high, low) := by
  have hhigh := high.toNat_lt
  have hlow := low.toNat_lt
  refine Prod.ext ?_ ?_
  · rw [← UInt8.toNat_inj]
    simp [fromBeBytes]
    omega
  · rw [← UInt8.toNat_inj]
    simp [fromBeBytes]

/-! ## The first message -/

namespace ClientHello

structure WellFormed (hello : ClientHello) : Prop where
  version : hello.version = 5
  methods : hello.methods.length = hello.methodNum.toNat

def pieces (hello : ClientHello) : List Bytes :=
  [[hello.version], [hello.methodNum], hello.methods]

variable {σ : Type} {readExact : ℕ → StateIo σ Bytes} {s t : σ} {hello : ClientHello}

theorem parseInner_eq_ok_iff (hfills : Fills readExact) :
    (parseInner readExact).runOn s = (.ok hello, t) ↔
      hello.WellFormed ∧ ReadAll readExact s hello.pieces t := by
  constructor
  · intro h
    obtain ⟨version, u₁, hversion, h⟩ := runOn_bind_eq_ok h
    by_cases hfive : version = 5
    · rw [if_neg (not_not.mpr hfive)] at h
      obtain ⟨methodNum, u₂, hnum, h⟩ := runOn_bind_eq_ok h
      obtain ⟨methods, u₃, hmethods, h⟩ := runOn_bind_eq_ok h
      obtain ⟨hhello, rfl⟩ := Prod.mk.inj h
      obtain rfl := Except.ok.inj hhello
      have hlength := hfills _ _ _ _ hmethods
      refine ⟨⟨hfive, hlength⟩, .cons ((readU8_eq_ok hfills).mp hversion)
        (.cons ((readU8_eq_ok hfills).mp hnum) (.cons ?_ (.nil _)))⟩
      rw [hlength]
      exact hmethods
    · rw [if_pos hfive] at h
      cases h
  · rintro ⟨⟨hfive, hlength⟩, hread⟩
    obtain ⟨version, methodNum, methods⟩ := hello
    obtain ⟨u₁, hversion, hread⟩ := readAll_cons_iff.mp hread
    obtain ⟨u₂, hnum, hread⟩ := readAll_cons_iff.mp hread
    obtain ⟨u₃, hmethods, hread⟩ := readAll_cons_iff.mp hread
    obtain rfl := readAll_nil_iff.mp hread
    have hvec : (readVec readExact methodNum.toNat).runOn u₂ = (.ok methods, u₃) := by
      rw [← hlength]
      exact hmethods
    rw [parseInner, runOn_bind_ok ((readU8_eq_ok hfills).mpr hversion), if_neg (not_not.mpr hfive),
      runOn_bind_ok ((readU8_eq_ok hfills).mpr hnum), runOn_bind_ok hvec]
    rfl

end ClientHello

/-! ## The request -/

namespace Request

/-- An address of a known type, with the length of that type. -/
def FitsType (aTyp : UInt8) (dstAddr : Bytes) : Prop :=
  aTyp = 1 ∧ dstAddr.length = 4 ∨ aTyp = 4 ∧ dstAddr.length = 16 ∨
    aTyp = 3 ∧ dstAddr.length < 256

/-- The bytes of an address, with the length in front of a name. -/
def addrPieces (aTyp : UInt8) (dstAddr : Bytes) : List Bytes :=
  if aTyp = 3 then [[UInt8.ofNat dstAddr.length], dstAddr] else [dstAddr]

structure WellFormed (req : Request) : Prop where
  version : req.version = 5
  cmd : req.cmd = cmdConnect ∨ req.cmd = cmdUdp
  dstAddr : FitsType req.aTyp req.dstAddr

def pieces (req : Request) : List Bytes :=
  [req.version] :: [req.cmd] :: [req.rsv] :: [req.aTyp] ::
    (addrPieces req.aTyp req.dstAddr ++ [[req.dstPort.1, req.dstPort.2]])

variable {σ : Type} {readExact : ℕ → StateIo σ Bytes} {s t : σ} {req : Request}

theorem aLen_cases (aTyp : UInt8) : aTyp = 1 ∧ aLen aTyp = 4 ∨ aTyp = 4 ∧ aLen aTyp = 16 ∨
    aTyp = 3 ∧ aLen aTyp = 0 ∨ aLen aTyp = -1 := by
  unfold aLen
  split
  · exact .inl ⟨‹_›, rfl⟩
  · split
    · exact .inr (.inl ⟨‹_›, rfl⟩)
    · split
      · exact .inr (.inr (.inl ⟨‹_›, rfl⟩))
      · exact .inr (.inr (.inr rfl))

theorem FitsType.aLen_nonneg {aTyp : UInt8} {dstAddr : Bytes} (h : FitsType aTyp dstAddr) :
    ¬aLen aTyp < 0 := by
  rcases h with ⟨rfl, -⟩ | ⟨rfl, -⟩ | ⟨rfl, -⟩ <;> decide

theorem parseAddr_eq_ok_iff (hfills : Fills readExact) {aTyp : UInt8} {dstAddr : Bytes}
    (htype : ¬aLen aTyp < 0) :
    (parseAddr readExact aTyp).runOn s = (.ok dstAddr, t) ↔
      FitsType aTyp dstAddr ∧ ReadAll readExact s (addrPieces aTyp dstAddr) t := by
  have hsingle (n : ℕ) (hn : 0 < n) (haTyp : aTyp ≠ 3) (hlen : aLen aTyp = n)
      (hfits : FitsType aTyp dstAddr ↔ dstAddr.length = n) :
      (parseAddr readExact aTyp).runOn s = (.ok dstAddr, t) ↔
        FitsType aTyp dstAddr ∧ ReadAll readExact s (addrPieces aTyp dstAddr) t := by
    have hne : aLen aTyp ≠ 0 := by omega
    have hread : parseAddr readExact aTyp = readExact n := by
      rw [parseAddr, if_pos hne, hlen]
      rfl
    simp only [hread, addrPieces, if_neg haTyp, hfits, readAll_cons_iff, readAll_nil_iff,
      exists_eq_right]
    refine ⟨fun h ↦ ?_, fun ⟨hlength, h⟩ ↦ hlength ▸ h⟩
    have hlength := hfills _ _ _ _ h
    exact ⟨hlength, by rw [hlength]; exact h⟩
  rcases aLen_cases aTyp with ⟨rfl, hlen⟩ | ⟨rfl, hlen⟩ | ⟨rfl, hlen⟩ | hlen
  · exact hsingle 4 (by decide) (by decide) hlen (by simp [FitsType])
  · exact hsingle 16 (by decide) (by decide) hlen (by simp [FitsType])
  · have hzero : ¬aLen 3 ≠ 0 := not_not.mpr hlen
    simp only [parseAddr, if_neg hzero, addrPieces, if_true, readAll_cons_iff, readAll_nil_iff,
      exists_eq_right]
    constructor
    · intro h
      obtain ⟨len, u, hlenRead, h⟩ := runOn_bind_eq_ok h
      have hlength : dstAddr.length = len.toNat := hfills _ _ _ _ h
      have hlt := len.toNat_lt
      refine ⟨.inr (.inr ⟨rfl, by omega⟩), u, ?_, ?_⟩
      · rw [hlength, UInt8.ofNat_toNat]
        exact (readU8_eq_ok hfills).mp hlenRead
      · rw [hlength]
        exact h
    · rintro ⟨hfits, u, hlenRead, h⟩
      have hlt : dstAddr.length < 256 := by simpa [FitsType] using hfits
      rw [runOn_bind_ok ((readU8_eq_ok hfills).mpr hlenRead), UInt8.toNat_ofNat',
        Nat.mod_eq_of_lt hlt]
      exact h
  · omega

theorem parseInner_eq_ok_iff (hfills : Fills readExact) :
    (parseInner readExact).runOn s = (.ok req, t) ↔
      req.WellFormed ∧ ReadAll readExact s req.pieces t := by
  constructor
  · intro h
    obtain ⟨version, u₁, hversion, h⟩ := runOn_bind_eq_ok h
    by_cases hfive : version = 5
    case neg => rw [if_pos hfive] at h; cases h
    rw [if_neg (not_not.mpr hfive)] at h
    obtain ⟨cmd, u₂, hcmd, h⟩ := runOn_bind_eq_ok h
    by_cases hknown : cmd ≠ cmdConnect ∧ cmd ≠ cmdUdp
    case pos => rw [if_pos hknown] at h; cases h
    rw [if_neg hknown] at h
    obtain ⟨rsv, u₃, hrsv, h⟩ := runOn_bind_eq_ok h
    obtain ⟨aTyp, u₄, haTyp, h⟩ := runOn_bind_eq_ok h
    by_cases htype : aLen aTyp < 0
    case pos => rw [if_pos htype] at h; cases h
    rw [if_neg htype] at h
    obtain ⟨dstAddr, u₅, haddr, h⟩ := runOn_bind_eq_ok h
    obtain ⟨port, u₆, hport, h⟩ := runOn_bind_eq_ok h
    obtain ⟨hreq, rfl⟩ := Prod.mk.inj h
    obtain rfl := Except.ok.inj hreq
    obtain ⟨hfits, haddrPieces⟩ := (parseAddr_eq_ok_iff hfills htype).mp haddr
    obtain ⟨high, low, rfl, hbytes⟩ := (readU16_eq_ok hfills).mp hport
    rw [toBeBytes_fromBeBytes]
    refine ⟨⟨hfive, ?_, hfits⟩, .cons ((readU8_eq_ok hfills).mp hversion)
      (.cons ((readU8_eq_ok hfills).mp hcmd) (.cons ((readU8_eq_ok hfills).mp hrsv)
        (.cons ((readU8_eq_ok hfills).mp haTyp) (readAll_append_iff.mpr
          ⟨_, haddrPieces, .cons hbytes (.nil _)⟩))))⟩
    simpa only [ne_eq, ← not_or, not_not] using hknown
  · rintro ⟨⟨hfive, hknown, hfits⟩, hread⟩
    obtain ⟨version, cmd, rsv, aTyp, dstAddr, high, low⟩ := req
    obtain ⟨u₁, hversion, hread⟩ := readAll_cons_iff.mp hread
    obtain ⟨u₂, hcmd, hread⟩ := readAll_cons_iff.mp hread
    obtain ⟨u₃, hrsv, hread⟩ := readAll_cons_iff.mp hread
    obtain ⟨u₄, haTyp, hread⟩ := readAll_cons_iff.mp hread
    obtain ⟨u₅, haddr, hread⟩ := readAll_append_iff.mp hread
    obtain ⟨u₆, hport, hread⟩ := readAll_cons_iff.mp hread
    obtain rfl := readAll_nil_iff.mp hread
    have hunknown : ¬(cmd ≠ cmdConnect ∧ cmd ≠ cmdUdp) := by
      simpa only [ne_eq, ← not_or, not_not] using hknown
    rw [parseInner, runOn_bind_ok ((readU8_eq_ok hfills).mpr hversion), if_neg (not_not.mpr hfive),
      runOn_bind_ok ((readU8_eq_ok hfills).mpr hcmd), if_neg hunknown,
      runOn_bind_ok ((readU8_eq_ok hfills).mpr hrsv),
      runOn_bind_ok ((readU8_eq_ok hfills).mpr haTyp), if_neg hfits.aLen_nonneg,
      runOn_bind_ok ((parseAddr_eq_ok_iff hfills hfits.aLen_nonneg).mpr ⟨hfits, haddr⟩),
      runOn_bind_ok ((readU16_eq_ok hfills).mpr ⟨high, low, rfl, hport⟩), toBeBytes_fromBeBytes]
    rfl

end Request

/-! ## Parsers of bytes -/

namespace BytesParser

theorem readExact_eq_ok {p q : BytesParser} {n : ℕ} {buf : Bytes} :
    (readExact n).runOn p = (.ok buf, q) ↔ p.cursor + n ≤ p.data.length ∧
      buf = (p.data.drop p.cursor).take n ∧ q = { p with cursor := p.cursor + n } := by
  by_cases hshort : p.data.length < p.cursor + n
  · simp only [readExact, runOn, if_pos hshort, Io.raise, Prod.mk.injEq, reduceCtorEq, false_and,
      false_iff, not_and]
    omega
  · simp only [readExact, runOn, if_neg hshort, Prod.mk.injEq, Except.ok.injEq,
      Nat.le_of_not_lt hshort, true_and, eq_comm]

theorem fills : Fills readExact := by
  intro n p buf q h
  obtain ⟨hlength, rfl, -⟩ := readExact_eq_ok.mp h
  rw [List.length_take, List.length_drop]
  omega

theorem readAll_iff {p q : BytesParser} (hp : p.cursor ≤ p.data.length) {pieces : List Bytes} :
    ReadAll readExact p pieces q ↔ pieces.flatten <+: p.data.drop p.cursor ∧
      q = { p with cursor := p.cursor + pieces.flatten.length } := by
  induction pieces generalizing p with
  | nil => simp [readAll_nil_iff, eq_comm]
  | cons piece pieces ih =>
      rw [readAll_cons_iff]
      constructor
      · rintro ⟨u, hread, hrest⟩
        obtain ⟨hlength, hpiece, rfl⟩ := readExact_eq_ok.mp hread
        obtain ⟨hfront, rfl⟩ := (ih hlength).mp hrest
        refine ⟨?_, ?_⟩
        · have hsplit := List.take_append_drop piece.length (p.data.drop p.cursor)
          rw [← hpiece, List.drop_drop] at hsplit
          rw [← hsplit, List.flatten_cons]
          exact (List.prefix_append_right_inj piece).mpr hfront
        · simp [Nat.add_assoc]
      · rintro ⟨⟨more, hmore⟩, rfl⟩
        rw [List.flatten_cons, List.append_assoc] at hmore
        have hlength := congrArg List.length hmore
        rw [List.length_append, List.length_drop] at hlength
        refine ⟨{ p with cursor := p.cursor + piece.length }, readExact_eq_ok.mpr ⟨?_, ?_, rfl⟩, ?_⟩
        · omega
        · rw [← hmore, List.take_left]
        · refine (ih ?_).mpr ⟨⟨more, ?_⟩, ?_⟩
          · dsimp only
            omega
          · dsimp only
            rw [← List.drop_drop, ← hmore, List.drop_left]
          · simp [Nat.add_assoc]

end BytesParser

theorem parseBytes_eq_ok_iff {M : Type} {parser : StateIo BytesParser M} {WellFormed : Prop}
    {pieces : List Bytes} {msg : M} {data : Bytes} {n : ℕ}
    (h : ∀ t, parser.runOn ⟨data, 0⟩ = (.ok msg, t) ↔
      WellFormed ∧ ReadAll BytesParser.readExact ⟨data, 0⟩ pieces t) :
    parseBytes parser data = .ok (msg, n) ↔
      WellFormed ∧ pieces.flatten <+: data ∧ n = pieces.flatten.length := by
  have hread (t : BytesParser) : parser.runOn ⟨data, 0⟩ = (.ok msg, t) ↔
      WellFormed ∧ pieces.flatten <+: data ∧ t = ⟨data, pieces.flatten.length⟩ := by
    rw [h, BytesParser.readAll_iff (Nat.zero_le data.length)]
    simp
  obtain ⟨result, u, hrun⟩ : ∃ result u, parser.runOn ⟨data, 0⟩ = (result, u) := ⟨_, _, rfl⟩
  rw [parseBytes, hrun]
  constructor
  · intro heq
    cases result with
    | error e => cases heq
    | ok other =>
        obtain ⟨rfl, rfl⟩ := Prod.mk.inj (Except.ok.inj heq)
        obtain ⟨hformed, hfront, rfl⟩ := (hread u).mp hrun
        exact ⟨hformed, hfront, rfl⟩
  · rintro ⟨hformed, hfront, rfl⟩
    have hmsg := (hread _).mpr ⟨hformed, hfront, rfl⟩
    rw [hrun] at hmsg
    obtain ⟨rfl, rfl⟩ := Prod.mk.inj hmsg
    rfl

def ClientHello.bytes (hello : ClientHello) : Bytes := hello.pieces.flatten

def Request.bytes (req : Request) : Bytes := req.pieces.flatten

theorem ClientHello.parseBytes_eq_ok_iff {hello : ClientHello} {data : Bytes} {n : ℕ} :
    parseBytes data = .ok (hello, n) ↔
      hello.WellFormed ∧ hello.bytes <+: data ∧ n = hello.bytes.length :=
  Rog.parseBytes_eq_ok_iff fun _ ↦ parseInner_eq_ok_iff BytesParser.fills

theorem Request.parseBytes_eq_ok_iff {req : Request} {data : Bytes} {n : ℕ} :
    parseBytes data = .ok (req, n) ↔
      req.WellFormed ∧ req.bytes <+: data ∧ n = req.bytes.length :=
  Rog.parseBytes_eq_ok_iff fun _ ↦ parseInner_eq_ok_iff BytesParser.fills

/-! ## Parsers of streams -/

namespace StreamParser

theorem fills : Fills readExact := by
  intro n s buf t h
  obtain ⟨data, -, -, rfl, hle, -, -⟩ := TcpRunStream.readExact_eq_ok h
  rw [List.length_append, List.length_replicate]
  omega

/-- The bytes of the pieces are those of the stream, but for zeros in the last piece where the
stream has ended. -/
theorem readAll_stream {s t : TcpRunStream} {pieces : List Bytes} {last : Bytes}
    (h : ReadAll readExact s (pieces ++ [last]) t) :
    TcpRunStream.SameOutput s t ∧ ∃ data, data ≠ [] ∧ data.length ≤ last.length ∧
      s.unread = pieces.flatten ++ data ++ t.unread ∧
        last = data ++ List.replicate (last.length - data.length) 0 ∧
          (data = last ∨ t.unread = []) := by
  induction pieces generalizing s with
  | nil =>
      obtain ⟨u, hread, hrest⟩ := readAll_cons_iff.mp h
      obtain rfl := readAll_nil_iff.mp hrest
      obtain ⟨data, hne, happend, hbuf, hle, hend, hsame⟩ := TcpRunStream.readExact_eq_ok hread
      refine ⟨hsame, data, hne, hle, by simpa using happend, hbuf, hend.imp_left fun hlength ↦ ?_⟩
      rw [hlength, Nat.sub_self] at hbuf
      simpa using hbuf.symm
  | cons piece pieces ih =>
      obtain ⟨u, hread, hrest⟩ := readAll_cons_iff.mp h
      obtain ⟨hsame', data, hne, hle, happend, hlast, hend⟩ := ih hrest
      obtain ⟨first, -, hfirst, hbuf, hlengthLe, hfull, hsame⟩ := TcpRunStream.readExact_eq_ok hread
      have hunread : u.unread ≠ [] := by
        rw [happend]
        simp [hne]
      have hlength : first.length = piece.length := hfull.resolve_right hunread
      rw [hlength, Nat.sub_self, List.replicate_zero, List.append_nil] at hbuf
      refine ⟨hsame.trans hsame', data, hne, hle, ?_, hlast, hend⟩
      rw [hfirst, ← hbuf, happend]
      simp

/-- Well-formed messages are read from a stream that begins with them. -/
theorem readAll_of_append {s : TcpRunStream} {pieces : List Bytes} {more : Bytes}
    (hne : ∀ piece ∈ pieces, piece ≠ []) (hs : s.unread = pieces.flatten ++ more) :
    ∃ t, ReadAll readExact s pieces t ∧ t.unread = more ∧ TcpRunStream.SameOutput s t := by
  induction pieces generalizing s with
  | nil => exact ⟨s, .nil s, hs, rfl, rfl, rfl⟩
  | cons piece pieces ih =>
      rw [List.flatten_cons, List.append_assoc] at hs
      obtain ⟨u, hread, hu, hsame⟩ := TcpRunStream.readExact_append (hne piece (by simp)) hs
      obtain ⟨t, hrest, ht, hsame'⟩ :=
        ih (fun other hother ↦ hne other (List.mem_cons_of_mem piece hother)) hu
      exact ⟨t, .cons hread hrest, ht, hsame.trans hsame'⟩

end StreamParser

end Rog
