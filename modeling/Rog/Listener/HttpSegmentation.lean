import Mathlib.Data.List.Chain
import Mathlib.Data.List.TakeWhile
import Rog.Listener.HttpTarget

/-!
# Segmentation of HTTP requests

A request that arrives in other segments can give another part of its target to the `url` crate,
which can be one with another address.
-/

namespace Rog

open Lib StateIo TcpRunStream

/-- Handshakes that succeed on both streams return the same address. -/
def Agree (x : UrlCrate) (serverId : String) (node : HttpListener) (s₁ s₂ : TcpRunStream) : Prop :=
  ∀ addr₁ cache₁ t₁ addr₂ cache₂ t₂,
    (node.handshake x serverId).runOn s₁ = (.ok (addr₁, cache₁), t₁) →
      (node.handshake x serverId).runOn s₂ = (.ok (addr₂, cache₂), t₂) → addr₁ = addr₂

section Agree

variable {x : UrlCrate} {serverId : String} {node : HttpListener} {s₁ s₂ : TcpRunStream}

theorem agree_iff (h₁ : node.TakesHttp s₁) (h₂ : node.TakesHttp s₂) :
    Agree x serverId node s₁ s₂ ↔ ∀ text₁ text₂, s₁.urlText serverId = some text₁ →
      s₂.urlText serverId = some text₂ → ∀ addr₁ addr₂, x.address text₁ = some addr₁ →
        x.address text₂ = some addr₂ → addr₁ = addr₂ := by
  constructor
  · intro h text₁ text₂ htext₁ htext₂ addr₁ addr₂ haddr₁ haddr₂
    obtain ⟨cache₁, t₁, hrun₁⟩ := (handshake_address_iff h₁).mpr ⟨text₁, htext₁, haddr₁⟩
    obtain ⟨cache₂, t₂, hrun₂⟩ := (handshake_address_iff h₂).mpr ⟨text₂, htext₂, haddr₂⟩
    exact h addr₁ cache₁ t₁ addr₂ cache₂ t₂ hrun₁ hrun₂
  · intro h addr₁ cache₁ t₁ addr₂ cache₂ t₂ hrun₁ hrun₂
    obtain ⟨text₁, htext₁, haddr₁⟩ := (handshake_address_iff h₁).mp ⟨cache₁, t₁, hrun₁⟩
    obtain ⟨text₂, htext₂, haddr₂⟩ := (handshake_address_iff h₂).mp ⟨cache₂, t₂, hrun₂⟩
    exact h text₁ text₂ htext₁ htext₂ addr₁ addr₂ haddr₁ haddr₂

end Agree

/-! ## Authorities -/

/-- The characters of a host, with its port and what names a user. -/
def IsAuthority (auth : List Char) : Prop := auth ≠ [] ∧ ∀ c ∈ auth, ' ' < c ∧ c ∉ "/?#\\".toList

/-- The address of a URL is that of its authority, whatever path, query and fragment follow. -/
def UrlCrate.StopsAtPath (x : UrlCrate) : Prop :=
  ∀ {scheme auth : List Char} {delimiter : Char} (rest : List Char), IsAuthority auth →
    delimiter ∈ "/?#".toList →
      x.address (String.ofList (scheme ++ "://".toList ++ auth ++ delimiter :: rest)) =
        x.address (String.ofList (scheme ++ "://".toList ++ auth))

/-- The first `n` bytes of a target have all of it, or at least its authority. -/
inductive AuthorityWithin (n : ℕ) (target : Bytes) : Prop
  | whole (hn : target.length ≤ n)
  | absolute {scheme auth : List Char} {delimiter : Char} {more : Bytes} (hauth : IsAuthority auth)
      (hdelimiter : delimiter ∈ "/?#".toList)
      (htarget : target = utf8 (scheme ++ "://".toList ++ auth ++ [delimiter]) ++ more)
      (hn : (utf8 (scheme ++ "://".toList ++ auth)).length ≤ n)
  | bare {auth : List Char} {delimiter : Char} {more : Bytes} (hauth : IsAuthority auth)
      (hdelimiter : delimiter ∈ "/?#".toList) (hscheme : ¬utf8 "://".toList <:+: target)
      (htarget : target = utf8 (auth ++ [delimiter]) ++ more) (hn : (utf8 auth).length ≤ n)

/-- The crate refuses one of two texts, or finds the same address in both. -/
def UrlCrate.SameAddress (x : UrlCrate) (text₁ text₂ : String) : Prop :=
  ∀ addr₁ addr₂, x.address text₁ = some addr₁ → x.address text₂ = some addr₂ → addr₁ = addr₂

section Authority

variable {x : UrlCrate} {t t₁ t₂ front scheme auth : List Char} {delimiter : Char}
  {target more : Bytes} {n k k₁ k₂ : ℕ}

theorem ascii_delimiter (h : delimiter ∈ "/?#".toList) : Ascii [delimiter] := by
  obtain rfl | rfl | rfl := mem_delimiters.mp h <;> decide

/-- A text that is cut behind `front` ends there or goes on with the next character. -/
theorem exists_of_take (hdelimiter : delimiter ∈ "/?#".toList) (hk : (utf8 front).length ≤ k)
    (ht : utf8 t = (utf8 (front ++ [delimiter]) ++ more).take k) :
    t = front ∨ ∃ rest, t = front ++ delimiter :: rest := by
  have hbyte := utf8_of_ascii (ascii_delimiter hdelimiter)
  obtain ⟨j, rfl⟩ := Nat.exists_eq_add_of_le hk
  rw [utf8_append, List.append_assoc, List.take_length_add_append] at ht
  obtain ⟨rest, rfl, hrest⟩ := exists_append_of_utf8 ht
  cases j with
  | zero =>
      have hnil : rest = [] := utf8_injective hrest
      exact .inl (by rw [hnil, List.append_nil])
  | succ j =>
      have hfront : utf8 rest = utf8 [delimiter] ++ more.take j := by
        rw [hrest, hbyte]
        rfl
      obtain ⟨rest', rfl, -⟩ := exists_append_of_utf8 hfront
      exact .inr ⟨rest', rfl⟩

theorem address_absolute (hx : x.StopsAtPath) (hauth : IsAuthority auth)
    (hdelimiter : delimiter ∈ "/?#".toList)
    (hk : (utf8 (scheme ++ "://".toList ++ auth)).length ≤ k)
    (ht : utf8 t = (utf8 (scheme ++ "://".toList ++ auth ++ [delimiter]) ++ more).take k) :
    x.address (requestUrl t) = x.address (String.ofList (scheme ++ "://".toList ++ auth)) := by
  have hurl (rest : List Char) : requestUrl (scheme ++ "://".toList ++ auth ++ rest) =
      String.ofList (scheme ++ "://".toList ++ auth ++ rest) :=
    congrArg String.ofList (if_pos ⟨scheme, auth ++ rest, by simp⟩)
  obtain rfl | ⟨rest, rfl⟩ := exists_of_take hdelimiter hk ht
  · have hnil := hurl []
    rw [List.append_nil] at hnil
    rw [hnil]
  · rw [hurl, hx rest hauth hdelimiter]

theorem address_bare (hx : x.StopsAtPath) (hauth : IsAuthority auth)
    (hdelimiter : delimiter ∈ "/?#".toList) (hk : (utf8 auth).length ≤ k)
    (hscheme : ¬utf8 "://".toList <:+: utf8 (auth ++ [delimiter]) ++ more)
    (ht : utf8 t = (utf8 (auth ++ [delimiter]) ++ more).take k) :
    x.address (requestUrl t) = x.address (String.ofList ("http://".toList ++ auth)) := by
  have hnone : ¬"://".toList <:+: t := by
    rintro ⟨before, after, rfl⟩
    refine hscheme (List.IsInfix.trans ⟨utf8 before, utf8 after, ?_⟩ (List.take_prefix k _).isInfix)
    rw [← ht, utf8_append, utf8_append]
  have hurl : requestUrl t = String.ofList ("http".toList ++ "://".toList ++ t) :=
    congrArg String.ofList (if_neg hnone)
  rw [hurl]
  obtain rfl | ⟨rest, rfl⟩ := exists_of_take hdelimiter hk ht
  · rfl
  · rw [← List.append_assoc]
    exact hx rest hauth hdelimiter

/-- Texts that have the authority have its address. -/
theorem AuthorityWithin.address_eq (hx : x.StopsAtPath) (h : AuthorityWithin n target)
    (hk₁ : n ≤ k₁) (hk₂ : n ≤ k₂) (ht₁ : utf8 t₁ = target.take k₁)
    (ht₂ : utf8 t₂ = target.take k₂) : x.address (requestUrl t₁) = x.address (requestUrl t₂) := by
  cases h with
  | whole hn =>
      rw [List.take_of_length_le (hn.trans hk₁)] at ht₁
      rw [List.take_of_length_le (hn.trans hk₂)] at ht₂
      rw [utf8_injective (ht₁.trans ht₂.symm)]
  | absolute hauth hdelimiter htarget hn =>
      subst htarget
      rw [address_absolute hx hauth hdelimiter (hn.trans hk₁) ht₁,
        address_absolute hx hauth hdelimiter (hn.trans hk₂) ht₂]
  | bare hauth hdelimiter hscheme htarget hn =>
      subst htarget
      rw [address_bare hx hauth hdelimiter (hn.trans hk₁) hscheme ht₁,
        address_bare hx hauth hdelimiter (hn.trans hk₂) hscheme ht₂]

end Authority

/-! ## Names -/

/-- A host name in lower case, the labels of which begin with letters, and which encodes no other
characters. -/
structure IsName (name : List Char) : Prop where
  ne_nil : name ≠ []
  head : ∀ c ∈ name.head?, c.isLower
  chars : ∀ c ∈ name, c.isLower ∨ c.isDigit ∨ c = '-' ∨ c = '.'
  labels : name.IsChain fun a b ↦ a = '.' → b.isLower
  plain : ¬"xn--".toList <:+: name

def IsPort (digits : List Char) : Prop := ∀ c ∈ digits, c.isDigit

/-- The port of an `http` URL. -/
def urlPort (digits : List Char) : Option ℕ :=
  if digits = [] then some 80 else parseUnsigned UInt16.size digits

/-- The crate keeps a host name, and reads the port that follows it. -/
structure UrlCrate.TakesNames (x : UrlCrate) : Prop where
  empty : x.address "http://" = none
  name {name : List Char} (hname : IsName name) :
    x.address (String.ofList ("http://".toList ++ name)) = some ⟨String.ofList name, 80, false⟩
  port {name digits : List Char} (hname : IsName name) (hport : IsPort digits) :
    x.address (String.ofList ("http://".toList ++ (name ++ ':' :: digits))) =
      (urlPort digits).map fun port ↦ ⟨String.ofList name, UInt16.ofNat port, false⟩

/-- What `n` bytes of a name and a port have of the port. -/
def cutPort (name digits : List Char) (n : ℕ) : Option ℕ :=
  urlPort (digits.take (n - (name.length + 1)))

/-- One of two cuts has nothing of the name or too large a port, or they have the same of the name
and the same port. -/
def SameCut (name digits : List Char) (n₁ n₂ : ℕ) : Prop :=
  min n₁ n₂ = 0 ∨ cutPort name digits n₁ = none ∨ cutPort name digits n₂ = none ∨
    min n₁ name.length = min n₂ name.length ∧ cutPort name digits n₁ = cutPort name digits n₂

section Name

variable {x : UrlCrate} {name digits : List Char} {n n₁ n₂ : ℕ}

theorem IsName.take (h : IsName name) (hn : 0 < n) : IsName (name.take n) where
  ne_nil := by
    rw [Ne, List.take_eq_nil_iff]
    exact not_or.mpr ⟨hn.ne', h.ne_nil⟩
  head := by
    rw [List.head?_take, if_neg hn.ne']
    exact h.head
  chars c hc := h.chars c (List.mem_of_mem_take hc)
  labels := h.labels.take n
  plain hplain := h.plain (hplain.trans (List.take_prefix n name).isInfix)

theorem ascii_endpoint (hname : IsName name) (hport : IsPort digits) :
    ∀ c ∈ name ++ ':' :: digits, c.toNat < 128 ∧ c ∉ "/?#".toList := by
  have hdelimiter {c : Char} (h : c ∈ "/?#".toList) : ¬c.isLower ∧ ¬c.isDigit := by
    obtain rfl | rfl | rfl := mem_delimiters.mp h <;> decide
  have hdigit {c : Char} (h : c.isDigit) : c.toNat < 128 ∧ c ∉ "/?#".toList := by
    have hle := (Char.isDigit_iff_toNat.mp h).2
    exact ⟨Nat.lt_of_le_of_lt hle (by decide), fun hmem ↦ (hdelimiter hmem).2 h⟩
  intro c hc
  simp only [List.mem_append, List.mem_cons] at hc
  obtain hc | rfl | hc := hc
  · obtain hlower | hc | rfl | rfl := hname.chars c hc
    · have hle : c.toNat ≤ 'z'.toNat := by
        change (decide (c.val ≥ 'a'.val) && decide (c.val ≤ 'z'.val)) = true at hlower
        rw [Bool.and_eq_true, decide_eq_true_eq, decide_eq_true_eq] at hlower
        exact UInt32.le_iff_toNat_le.mp hlower.2
      exact ⟨Nat.lt_of_le_of_lt hle (by decide), fun hmem ↦ (hdelimiter hmem).1 hlower⟩
    · exact hdigit hc
    · decide
    · decide
  · decide
  · exact hdigit (hport c hc)

theorem urlPort_lt {port : ℕ} (h : urlPort digits = some port) : port < UInt16.size := by
  unfold urlPort at h
  split at h
  · obtain rfl := Option.some.inj h
    decide
  · exact parseUnsigned_lt h

theorem address_cut (hx : x.TakesNames) (hname : IsName name) (hport : IsPort digits) (hn : 0 < n) :
    x.address (requestUrl ((name ++ ':' :: digits).take n)) = (cutPort name digits n).map
      fun port ↦ ⟨String.ofList (name.take n), UInt16.ofNat port, false⟩ := by
  have hscheme : ¬"://".toList <:+: (name ++ ':' :: digits).take n := fun hoccurs ↦
    (ascii_endpoint hname hport _ (List.mem_of_mem_take
      (hoccurs.subset (by decide : '/' ∈ "://".toList)))).2 (by decide)
  have hurl : requestUrl ((name ++ ':' :: digits).take n) =
      String.ofList ("http://".toList ++ (name ++ ':' :: digits).take n) :=
    congrArg String.ofList (if_neg hscheme)
  rw [hurl, cutPort]
  obtain hlt | hle := Nat.lt_or_ge name.length n
  · obtain ⟨j, rfl⟩ := Nat.exists_eq_add_of_lt hlt
    have hcut : name.length + (j + 1) - (name.length + 1) = j := by omega
    rw [Nat.add_assoc, List.take_length_add_append, List.take_succ_cons,
      hx.port hname fun c hc ↦ hport c (List.mem_of_mem_take hc), hcut,
      List.take_of_length_le (Nat.le_add_right name.length (j + 1))]
  · rw [List.take_append_of_le_length hle, Nat.sub_eq_zero_of_le (by omega), List.take_zero,
      hx.name (hname.take hn)]
    rfl

theorem sameAddress_cut_iff (hx : x.TakesNames) (hname : IsName name) (hport : IsPort digits) :
    x.SameAddress (requestUrl ((name ++ ':' :: digits).take n₁))
      (requestUrl ((name ++ ':' :: digits).take n₂)) ↔ SameCut name digits n₁ n₂ := by
  have hzero : x.address (requestUrl []) = none := hx.empty
  unfold UrlCrate.SameAddress SameCut
  obtain rfl | hn₁ := Nat.eq_zero_or_pos n₁
  · simp [hzero]
  obtain rfl | hn₂ := Nat.eq_zero_or_pos n₂
  · simp [hzero]
  rw [address_cut hx hname hport hn₁, address_cut hx hname hport hn₂, ← List.take_eq_take_iff]
  cases hport₁ : cutPort name digits n₁ with
  | none => simp
  | some port₁ =>
      cases hport₂ : cutPort name digits n₂ with
      | none => simp
      | some port₂ =>
          have hports : UInt16.ofNat port₁ = UInt16.ofNat port₂ ↔ port₁ = port₂ := by
            rw [← UInt16.toNat_inj, UInt16.toNat_ofNat_of_lt' (urlPort_lt hport₁),
              UInt16.toNat_ofNat_of_lt' (urlPort_lt hport₂)]
          have hpos : min n₁ n₂ ≠ 0 := by omega
          simp [hpos, String.ofList_inj, hports]

end Name

/-! ## The condition -/

section Condition

variable {x : UrlCrate} {serverId : String} {node : HttpListener} {r : RequestHead} {body : Bytes}
  {s₁ s₂ : TcpRunStream}

theorem agree_iff_sameAddress (hs₁ : s₁.unread = r.bytes ++ body)
    (hs₂ : s₂.unread = r.bytes ++ body) (hnode : node = .htss5 → r.bytes.head? ≠ some 5) :
    Agree x serverId node s₁ s₂ ↔ r.Refuses serverId s₁ ∨ r.Refuses serverId s₂ ∨
      ∀ t₁ t₂, utf8 t₁ = r.target.take (r.reached s₁) → utf8 t₂ = r.target.take (r.reached s₂) →
        x.SameAddress (requestUrl t₁) (requestUrl t₂) := by
  rw [agree_iff (RequestHead.takesHttp hs₁ hnode) (RequestHead.takesHttp hs₂ hnode)]
  constructor
  · intro h
    by_cases hrefuses₁ : r.Refuses serverId s₁
    · exact .inl hrefuses₁
    by_cases hrefuses₂ : r.Refuses serverId s₂
    · exact .inr (.inl hrefuses₂)
    refine .inr (.inr fun t₁ t₂ ht₁ ht₂ ↦ ?_)
    exact h _ _ ((RequestHead.urlText_iff hs₁).mpr ⟨hrefuses₁, t₁, ht₁, rfl⟩)
      ((RequestHead.urlText_iff hs₂).mpr ⟨hrefuses₂, t₂, ht₂, rfl⟩)
  · intro h text₁ text₂ htext₁ htext₂
    obtain ⟨hserves₁, t₁, ht₁, rfl⟩ := (RequestHead.urlText_iff hs₁).mp htext₁
    obtain ⟨hserves₂, t₂, ht₂, rfl⟩ := (RequestHead.urlText_iff hs₂).mp htext₂
    obtain hrefuses | hrefuses | hsame := h
    · exact absurd hrefuses hserves₁
    · exact absurd hrefuses hserves₂
    · exact hsame t₁ t₂ ht₁ ht₂

end Condition

/-- Two segmentations of one stream that begins with a request head agree if and only if one of the
first reads is refused, both have the authority of the target, or the crate refuses what one of them
has of it or finds the same address in both. For a name with a port this can be read off the
bytes. -/
theorem same_address_iff (x : UrlCrate) (hx : x.StopsAtPath) (serverId : String)
    (node : HttpListener) (r : RequestHead) {body : Bytes} {s₁ s₂ : TcpRunStream}
    (hs₁ : s₁.unread = r.bytes ++ body) (hs₂ : s₂.unread = r.bytes ++ body)
    (hnode : node = .htss5 → r.bytes.head? ≠ some 5) :
    (Agree x serverId node s₁ s₂ ↔
      r.Refuses serverId s₁ ∨ r.Refuses serverId s₂ ∨
        AuthorityWithin (min (r.reached s₁) (r.reached s₂)) r.target ∨
          ∀ t₁ t₂, utf8 t₁ = r.target.take (r.reached s₁) →
            utf8 t₂ = r.target.take (r.reached s₂) →
              x.SameAddress (requestUrl t₁) (requestUrl t₂)) ∧
    (x.TakesNames → ∀ name digits, IsName name → IsPort digits →
      r.target = utf8 (name ++ ':' :: digits) →
        (Agree x serverId node s₁ s₂ ↔ r.Refuses serverId s₁ ∨ r.Refuses serverId s₂ ∨
          SameCut name digits (r.reached s₁) (r.reached s₂))) := by
  refine ⟨(agree_iff_sameAddress hs₁ hs₂ hnode).trans ?_,
    fun hnames name digits hname hport htarget ↦ ?_⟩
  · refine or_congr_right (or_congr_right ⟨.inr, fun h ↦ ?_⟩)
    obtain hwithin | hsame := h
    · intro t₁ t₂ ht₁ ht₂ addr₁ addr₂ haddr₁ haddr₂
      have haddr := hwithin.address_eq hx (Nat.min_le_left _ _) (Nat.min_le_right _ _) ht₁ ht₂
      rw [haddr₁, haddr₂] at haddr
      exact Option.some.inj haddr
    · exact hsame
  · have hascii : Ascii (name ++ ':' :: digits) := fun c hc ↦ (ascii_endpoint hname hport c hc).1
    rw [agree_iff_sameAddress hs₁ hs₂ hnode, ← sameAddress_cut_iff hnames hname hport]
    refine or_congr_right (or_congr_right ?_)
    simp only [htarget, take_utf8_of_ascii hascii]
    refine ⟨fun h ↦ h _ _ rfl rfl, fun h t₁ t₂ ht₁ ht₂ ↦ ?_⟩
    rwa [utf8_injective ht₁, utf8_injective ht₂]

/-- `UrlCrate.plain` looks at nothing behind the first delimiter. -/
theorem UrlCrate.plain_stopsAtPath : UrlCrate.plain.StopsAtPath := by
  intro scheme auth delimiter rest _ hdelimiter
  obtain ⟨before, after, hcut⟩ : ∃ before after,
      cut "://".toList (scheme ++ "://".toList ++ auth) = some (before, after) := by
    cases hcut : cut "://".toList (scheme ++ "://".toList ++ auth) with
    | none => exact absurd ⟨scheme, auth, rfl⟩ (cut_eq_none_iff.mp hcut)
    | some p => exact ⟨p.1, p.2, rfl⟩
  have htake : (after ++ delimiter :: rest).takeWhile (· ∉ "/?#".toList) =
      after.takeWhile (· ∉ "/?#".toList) := by
    have hstop : ¬decide (delimiter ∉ "/?#".toList) = true := fun h ↦
      of_decide_eq_true h hdelimiter
    rw [List.takeWhile_append,
      List.takeWhile_cons_of_neg (p := fun c ↦ decide (c ∉ "/?#".toList)) hstop]
    split
    · rename_i hlength
      rw [List.append_nil]
      exact ((List.takeWhile_prefix _).eq_of_length hlength).symm
    · rfl
  simp only [address, plain, String.toList_ofList, cut_append hcut, hcut, htake]

theorem UrlCrate.plain_takesNames : UrlCrate.plain.TakesNames := by
  have hcut (authority : List Char) : cut "://".toList ("http://".toList ++ authority) =
      some ("http".toList, authority) :=
    cut_replace (by decide : cut "://".toList "http://".toList = some ("http".toList, [])) authority
  have htake {authority : List Char} (h : ∀ c ∈ authority, c ∉ "/?#".toList) :
      authority.takeWhile (· ∉ "/?#".toList) = authority :=
    List.takeWhile_eq_self_iff.mpr fun c hc ↦ decide_eq_true (h c hc)
  refine ⟨rfl, fun {name} hname ↦ ?_, fun {name digits} hname hport ↦ ?_⟩
  · have hchars : ∀ c ∈ name, c ∉ "/?#".toList := fun c hc ↦
      (ascii_endpoint hname (by simp [IsPort] : IsPort []) c (List.mem_append_left _ hc)).2
    have hcolon : ':' ∉ name := fun hmem ↦ absurd (hname.chars ':' hmem) (by decide)
    simp only [address, plain, String.toList_ofList, hcut, htake hchars, rsplitOnce_eq_none hcolon]
    simp [hname.ne_nil]
  · have hchars : ∀ c ∈ name ++ ':' :: digits, c ∉ "/?#".toList := fun c hc ↦
      (ascii_endpoint hname hport c hc).2
    have hcolon : ':' ∉ digits := fun hmem ↦ by cases hport ':' hmem
    simp only [address, plain, String.toList_ofList, hcut, htake hchars, rsplitOnce_append hcolon]
    cases digits with
    | nil => rfl
    | cons digit digits =>
        simp only [urlPort, List.cons_ne_nil, if_false]
        cases parseUnsigned UInt16.size (digit :: digits) <;> rfl

def getHead : RequestHead where
  method := asBytes "GET"
  target := asBytes "http://h:8080/abc"
  rest := asBytes "HTTP/1.1"
  method_ok := by decide
  target_ok := by decide
  complete := by decide

def wholeGet : TcpRunStream := .new [asBytes "GET http://h:8080/abc HTTP/1.1\r\n\r\n"]

def cutPath : TcpRunStream :=
  .new [asBytes "GET http://h:8080/a", asBytes "bc HTTP/1.1\r\n\r\n"]

def connectHead : RequestHead where
  method := asBytes "CONNECT"
  target := asBytes "example.com:80"
  rest := asBytes "HTTP/1.1"
  method_ok := by decide
  target_ok := by decide
  complete := by decide

def wholePort : TcpRunStream := .new [asBytes "CONNECT example.com:80 HTTP/1.1\r\n\r\n"]

def cutBeforePort : TcpRunStream :=
  .new [asBytes "CONNECT example.com", asBytes ":80 HTTP/1.1\r\n\r\n"]

theorem isName_example : IsName "example.com".toList where
  ne_nil := by decide
  head := by simp
  chars := by simp
  labels := by simp
  plain := cut_eq_none_iff.mp (by decide : cut "xn--".toList "example.com".toList = none)

/-- Segments that are cut in the path do no harm, nor do those that are cut before a port that is
the default one. -/
theorem same_address_cutPath : Agree .plain "id" .htss5 wholeGet cutPath ∧
    Agree .plain "id" .http wholePort cutBeforePort := by
  constructor
  · have hpath := (same_address_iff .plain UrlCrate.plain_stopsAtPath "id" .htss5 getHead
      (by decide : wholeGet.unread = getHead.bytes ++ [])
      (by decide : cutPath.unread = getHead.bytes ++ []) fun _ ↦ by decide).1
    have htarget : getHead.target =
        utf8 ("http".toList ++ "://".toList ++ "h:8080".toList ++ ['/']) ++ asBytes "abc" := by
      decide
    have hauth : IsAuthority "h:8080".toList := by simp [IsAuthority]
    exact hpath.mpr (.inr (.inr (.inl (.absolute hauth (by decide) htarget (by decide)))))
  · have hdigits : IsPort "80".toList := by simp [IsPort]
    have hport := (same_address_iff .plain UrlCrate.plain_stopsAtPath "id" .http connectHead
      (by decide : wholePort.unread = connectHead.bytes ++ [])
      (by decide : cutBeforePort.unread = connectHead.bytes ++ []) fun h ↦ by cases h).2
      UrlCrate.plain_takesNames "example.com".toList "80".toList isName_example hdigits (by decide)
    have hsame : SameCut "example.com".toList "80".toList 14 11 := by
      unfold SameCut
      decide
    exact hport.mpr (.inr (.inr hsame))

def wholeConnect : TcpRunStream := .new [asBytes "CONNECT example.com:443 HTTP/1.1\r\n\r\n"]

def cutConnect : TcpRunStream :=
  .new [asBytes "CONNECT example.co", asBytes "m:443 HTTP/1.1\r\n\r\n"]

/-- A name that is cut is routed as the name that is left of it. -/
theorem cut_name_is_routed :
    wholeConnect.unread = cutConnect.unread ∧ (cut headEnd wholeConnect.unread).isSome ∧
      ((HttpListener.http.handshake .plain "id").runOn wholeConnect).1 =
        .ok (⟨"example.com", 443, false⟩, none) ∧
      ((HttpListener.http.handshake .plain "id").runOn cutConnect).1 =
        .ok (⟨"example.co", 80, false⟩, none) ∧
      ¬Agree .plain "id" .http wholeConnect cutConnect := by
  have hwhole : ((HttpListener.http.handshake .plain "id").runOn wholeConnect).1 =
      .ok (⟨"example.com", 443, false⟩, none) := by decide
  have hcut : ((HttpListener.http.handshake .plain "id").runOn cutConnect).1 =
      .ok (⟨"example.co", 80, false⟩, none) := by decide
  refine ⟨by decide, by decide, hwhole, hcut, fun h ↦ ?_⟩
  have haddr := h _ _ _ _ _ _ (Prod.ext hwhole rfl) (Prod.ext hcut rfl)
  exact absurd haddr (by decide)

end Rog
