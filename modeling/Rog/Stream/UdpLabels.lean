import Rog.Stream.Udp

/-!
# Labels of UDP replies

A reply is labelled with the name that was looked up last and had its address. A packet that goes
to the address without a lookup does not change the label, and one that is looked up changes it
even if it is not sent: what a reply is called is right as long as neither happens for another name.
-/

namespace Rog

open Lib StateIo

/-- The name that a client has used, where an address has its canonical text. -/
def UDPMeta.destination (m : UDPMeta) : String :=
  match IpAddr.parse m.dstAddr with
  | some ip => ip.toString
  | none => m.dstAddr

theorem UDPMeta.destination_of_domain {m : UDPMeta} (h : IpAddr.parse m.dstAddr = none) :
    m.destination = m.dstAddr := by
  rw [destination, h]

namespace UdpResolveState

/-- The key tells the name from the port, with any colons that stand in the name. -/
theorem cacheKey_inj {dstAddr dstAddr' : String} {dstPort dstPort' : UInt16}
    (h : cacheKey dstAddr dstPort = cacheKey dstAddr' dstPort') :
    dstAddr = dstAddr' ∧ dstPort = dstPort' := by
  have hsplit (a : String) (p : UInt16) :
      rsplitOnce ':' (cacheKey a p).toList = some (a.toList, p.toNat.repr.toList) := by
    have hcolon : ':' ∉ p.toNat.repr.toList := fun hmem ↦ by cases isDigit_of_mem_repr hmem
    rw [show cacheKey a p = RunAddr.endpoint ⟨a, p, false⟩ from rfl, toList_endpoint,
      rsplitOnce_append hcolon]
  have hpair := hsplit dstAddr dstPort
  rw [h, hsplit dstAddr' dstPort'] at hpair
  obtain ⟨haddr, hport⟩ := Prod.mk.inj (Option.some.inj hpair)
  refine ⟨(String.toList_inj.mp haddr).symm, ?_⟩
  have hvalue := parseUnsigned_repr dstPort.toNat_lt
  rw [← hport, parseUnsigned_repr dstPort'.toNat_lt] at hvalue
  exact (UInt16.toNat_inj.mp (Option.some.inj hvalue)).symm

/-- The cached address of a text that is an address is that address, and a cached name has left
its address with a name. -/
structure Consistent (s : UdpResolveState) : Prop where
  literal : ∀ dstAddr dstPort x ip, s.domainToIp (cacheKey dstAddr dstPort) = some x →
    IpAddr.parse dstAddr = some ip → x = ⟨ip, dstPort⟩
  named : ∀ dstAddr dstPort x, s.domainToIp (cacheKey dstAddr dstPort) = some x →
    IpAddr.parse dstAddr = none → s.ipToDomain x ≠ none

theorem consistent_new : Consistent new :=
  ⟨fun _ _ _ _ h ↦ (by cases h), fun _ _ _ h ↦ (by cases h)⟩

/-- The packet goes to `x`, and no name has to be looked up for it. -/
def Reuses (s : UdpResolveState) (m : UDPMeta) (x : SocketAddr) : Prop :=
  s.domainToIp (cacheKey m.dstAddr m.dstPort) = some x ∨
    s.domainToIp (cacheKey m.dstAddr m.dstPort) = none ∧
      ∃ ip, IpAddr.parse m.dstAddr = some ip ∧ x = ⟨ip, m.dstPort⟩

/-- The name of the packet is looked up, and `x` is chosen from the answer. -/
def LooksUp (s : UdpResolveState) (m : UDPMeta) (answers : UdpAnswers) (x : SocketAddr) : Prop :=
  s.domainToIp (cacheKey m.dstAddr m.dstPort) = none ∧ IpAddr.parse m.dstAddr = none ∧
    lookup answers m.dstAddr m.dstPort = .ok x

variable {s : UdpResolveState} {m : UDPMeta} {answers : UdpAnswers} {x : SocketAddr}

theorem Reuses.unique {y : SocketAddr} (h : s.Reuses m x) (h' : s.Reuses m y) : x = y := by
  rcases h with h | ⟨h, ip, hip, rfl⟩ <;> rcases h' with h' | ⟨h', ip', hip', rfl⟩
  · exact Option.some.inj (h.symm.trans h')
  · rw [h] at h'
    cases h'
  · rw [h] at h'
    cases h'
  · rw [Option.some.inj (hip.symm.trans hip')]

theorem Reuses.not_looksUp {y : SocketAddr} (h : s.Reuses m x) : ¬s.LooksUp m answers y := by
  rintro ⟨hnone, hdomain, -⟩
  rcases h with h | ⟨-, ip, hip, -⟩
  · rw [hnone] at h
    cases h
  · rw [hdomain] at hip
    cases hip

theorem LooksUp.unique {y : SocketAddr} (h : s.LooksUp m answers x) (h' : s.LooksUp m answers y) :
    x = y :=
  Except.ok.inj (h.2.2.symm.trans h'.2.2)

theorem Consistent.insert_literal (hs : s.Consistent) {ip : IpAddr}
    (hip : IpAddr.parse m.dstAddr = some ip) :
    Consistent ⟨Function.update s.domainToIp (cacheKey m.dstAddr m.dstPort) (some ⟨ip, m.dstPort⟩),
      s.ipToDomain⟩ := by
  constructor
  · intro dstAddr dstPort x ip' hx hip'
    dsimp only at hx
    by_cases hkey : cacheKey dstAddr dstPort = cacheKey m.dstAddr m.dstPort
    · obtain ⟨rfl, rfl⟩ := cacheKey_inj hkey
      rw [Function.update_self] at hx
      rw [← Option.some.inj hx, Option.some.inj (hip.symm.trans hip')]
    · rw [Function.update_of_ne hkey] at hx
      exact hs.literal _ _ _ _ hx hip'
  · intro dstAddr dstPort x hx hdomain
    dsimp only at hx ⊢
    have hkey : cacheKey dstAddr dstPort ≠ cacheKey m.dstAddr m.dstPort := by
      intro hkey
      rw [(cacheKey_inj hkey).1, hip] at hdomain
      cases hdomain
    rw [Function.update_of_ne hkey] at hx
    exact hs.named _ _ _ hx hdomain

theorem Consistent.insert_domain (hs : s.Consistent) (hdomain : IpAddr.parse m.dstAddr = none)
    (x : SocketAddr) :
    Consistent ⟨Function.update s.domainToIp (cacheKey m.dstAddr m.dstPort) (some x),
      Function.update s.ipToDomain x (some m.dstAddr)⟩ := by
  constructor
  · intro dstAddr dstPort y ip hy hip
    dsimp only at hy
    have hkey : cacheKey dstAddr dstPort ≠ cacheKey m.dstAddr m.dstPort := by
      intro hkey
      rw [(cacheKey_inj hkey).1, hdomain] at hip
      cases hip
    rw [Function.update_of_ne hkey] at hy
    exact hs.literal _ _ _ _ hy hip
  · intro dstAddr dstPort y hy hname
    dsimp only at hy ⊢
    by_cases hxy : y = x
    · rw [hxy, Function.update_self]
      exact Option.some_ne_none _
    · rw [Function.update_of_ne hxy]
      have hkey : cacheKey dstAddr dstPort ≠ cacheKey m.dstAddr m.dstPort := by
        intro hkey
        rw [hkey, Function.update_self] at hy
        exact hxy (Option.some.inj hy).symm
      rw [Function.update_of_ne hkey] at hy
      exact hs.named _ _ _ hy hname

/-- Resolving keeps the names if none was looked up, and gives the address the new name otherwise. -/
theorem resolveDstAddr_cases (hs : s.Consistent) (answers : UdpAnswers) (m : UDPMeta) :
    ∃ result t, (resolveDstAddr answers m.dstAddr m.dstPort).runOn s = (result, t) ∧
      t.Consistent ∧
        ((∃ x, result = .ok x ∧ s.Reuses m x ∧ t.ipToDomain = s.ipToDomain) ∨
          (∃ x, result = .ok x ∧ s.LooksUp m answers x ∧
            t.ipToDomain = Function.update s.ipToDomain x (some m.dstAddr)) ∨
          ∃ e, result = .error e ∧ t = s ∧ (∀ x, ¬s.Reuses m x) ∧ ∀ x, ¬s.LooksUp m answers x) := by
  simp only [resolveDstAddr, runOn]
  cases hcached : s.domainToIp (cacheKey m.dstAddr m.dstPort) with
  | some x => exact ⟨_, _, rfl, hs, .inl ⟨x, rfl, .inl hcached, rfl⟩⟩
  | none =>
      cases hparse : IpAddr.parse m.dstAddr with
      | some ip =>
          have hlookup : lookup answers m.dstAddr m.dstPort = .ok ⟨ip, m.dstPort⟩ := by
            rw [lookup, hparse]
          simp only [hlookup]
          exact ⟨_, _, rfl, hs.insert_literal hparse,
            .inl ⟨_, rfl, .inr ⟨hcached, ip, hparse, rfl⟩, rfl⟩⟩
      | none =>
          cases hlookup : lookup answers m.dstAddr m.dstPort with
          | ok x =>
              exact ⟨_, _, rfl, hs.insert_domain hparse x,
                .inr (.inl ⟨x, rfl, ⟨hcached, hparse, hlookup⟩, rfl⟩)⟩
          | error e =>
              refine ⟨_, _, rfl, hs, .inr (.inr ⟨e, rfl, rfl, fun x hx ↦ ?_, fun x hx ↦ ?_⟩)⟩
              · rcases hx with hx | ⟨-, ip, hip, -⟩
                · rw [hcached] at hx
                  cases hx
                · rw [hparse] at hip
                  cases hip
              · have hx := hx.2.2
                rw [hlookup] at hx
                cases hx

theorem Reuses.dstAddrStr_eq_iff (h : s.Reuses m x) (hs : s.Consistent) :
    s.dstAddrStr x = m.destination ↔ ∀ domain, s.ipToDomain x = some domain →
      domain = m.destination := by
  rw [dstAddrStr]
  cases hdomain : s.ipToDomain x with
  | some domain => simp
  | none =>
      simp only [reduceCtorEq, false_implies, implies_true, iff_true]
      cases hparse : IpAddr.parse m.dstAddr with
      | none =>
          rcases h with h | ⟨-, ip, hip, -⟩
          · exact absurd hdomain (hs.named _ _ _ h hparse)
          · rw [hparse] at hip
            cases hip
      | some ip =>
          have hx : x = ⟨ip, m.dstPort⟩ := by
            rcases h with h | ⟨-, ip', hip, rfl⟩
            · exact hs.literal _ _ _ _ h hparse
            · rw [Option.some.inj (hparse.symm.trans hip)]
          rw [hx, UDPMeta.destination, hparse]

end UdpResolveState

namespace UdpRunStream

def lastSent (s : UdpRunStream) (x : SocketAddr) : Option UDPPacket :=
  (s.sent.filter fun entry ↦ entry.2 = x).getLast?.map Prod.fst

/-- A reply from an address that something was sent to is read, and has the port of the address and
the name that the last packet sent there was for. -/
def Labelled (s : UdpRunStream) : Prop :=
  ∀ x packet, s.lastSent x = some packet → ∀ data, ∃ reply,
    ((read (.ok (data, x))).runOn s).1 = .ok reply ∧
      reply.metadata.dstPort = x.port ∧ reply.metadata.dstAddr = packet.metadata.destination

/-- A write after which the labels are right if they were right before it. -/
structure KeepsLabels (s : UdpRunStream) (w : UdpWrite) : Prop where
  /-- The client's address can be read back, if there is a packet to reply to. -/
  srcAddr : w.2.sendTo = .ok () →
    (∃ x, s.resolveState.Reuses w.1.metadata x ∨ s.resolveState.LooksUp w.1.metadata w.2 x) →
      (SocketAddr.parse s.srcAddr).isSome
  /-- A packet that is sent without a lookup does not go to an address with another name. -/
  reused : w.2.sendTo = .ok () → ∀ x, s.resolveState.Reuses w.1.metadata x → ∀ domain,
    s.resolveState.ipToDomain x = some domain → domain = w.1.metadata.destination
  /-- A name is not looked up for a packet that is not sent, where another one was sent. -/
  unsent : w.2.sendTo ≠ .ok () → ∀ x, s.resolveState.LooksUp w.1.metadata w.2 x → ∀ packet,
    s.lastSent x = some packet → w.1.metadata.destination = packet.metadata.destination

variable {s t : UdpRunStream} {w : UdpWrite}

theorem labelled_iff : s.Labelled ↔ ∀ x packet, s.lastSent x = some packet →
    (SocketAddr.parse s.srcAddr).isSome ∧
      s.resolveState.dstAddrStr x = packet.metadata.destination := by
  have hread (x : SocketAddr) (packet : UDPPacket) : (∀ data, ∃ reply,
      ((read (.ok (data, x))).runOn s).1 = .ok reply ∧
        reply.metadata.dstPort = x.port ∧ reply.metadata.dstAddr = packet.metadata.destination) ↔
      (SocketAddr.parse s.srcAddr).isSome ∧
        s.resolveState.dstAddrStr x = packet.metadata.destination := by
    cases hsrc : SocketAddr.parse s.srcAddr with
    | none => simp [read, runOn, hsrc, bind, Except.bind]
    | some src => simp [read, runOn, hsrc, bind, Except.bind, pure, Except.pure]
  simp only [Labelled, hread]

theorem lastSent_append (packet : UDPPacket) (x y : SocketAddr)
    (hsent : t.sent = s.sent ++ [(packet, x)]) :
    t.lastSent y = if x = y then some packet else s.lastSent y := by
  rw [lastSent, hsent, List.filter_append]
  by_cases hxy : x = y
  · simp [hxy]
  · simp [hxy, lastSent]

/-- The packet of a write is sent to `x`, or the write has failed. -/
def Sends (s : UdpRunStream) (w : UdpWrite) (x : SocketAddr) (t : UdpRunStream) : Prop :=
  w.2.sendTo = .ok () ∧ t.sent = s.sent ++ [(w.1, x)] ∨ w.2.sendTo ≠ .ok () ∧ t.sent = s.sent

theorem step_cases (hs : s.resolveState.Consistent) (h : udpWrites.step s w = some t) :
    t.resolveState.Consistent ∧ t.srcAddr = s.srcAddr ∧
      ((∃ x, s.resolveState.Reuses w.1.metadata x ∧ s.Sends w x t ∧
          t.resolveState.ipToDomain = s.resolveState.ipToDomain) ∨
        (∃ x, s.resolveState.LooksUp w.1.metadata w.2 x ∧ s.Sends w x t ∧
          t.resolveState.ipToDomain =
            Function.update s.resolveState.ipToDomain x (some w.1.metadata.dstAddr)) ∨
        t = s ∧ (∀ x, ¬s.resolveState.Reuses w.1.metadata x) ∧
          ∀ x, ¬s.resolveState.LooksUp w.1.metadata w.2 x) := by
  obtain ⟨packet, answers⟩ := w
  obtain ⟨result, r, hresolve, hr, hcases⟩ :=
    UdpResolveState.resolveDstAddr_cases hs answers packet.metadata
  have ht : t = (write answers packet s).2 := (Option.some.inj h).symm
  have hsent (x : SocketAddr) (hx : result = .ok x) :
      t.resolveState = r ∧ t.srcAddr = s.srcAddr ∧ s.Sends (packet, answers) x t := by
    cases hsend : answers.sendTo with
    | ok _ =>
        simp only [write, hresolve, hx, hsend] at ht
        subst ht
        exact ⟨rfl, rfl, .inl ⟨hsend, rfl⟩⟩
    | error e =>
        simp only [write, hresolve, hx, hsend] at ht
        subst ht
        exact ⟨rfl, rfl, .inr ⟨by simp [hsend], rfl⟩⟩
  rcases hcases with ⟨x, hx, hreuses, hnames⟩ | ⟨x, hx, hlooksUp, hnames⟩ | ⟨e, he, rfl, hnone⟩
  · obtain ⟨rfl, hsrc, hsends⟩ := hsent x hx
    exact ⟨hr, hsrc, .inl ⟨x, hreuses, hsends, hnames⟩⟩
  · obtain ⟨rfl, hsrc, hsends⟩ := hsent x hx
    exact ⟨hr, hsrc, .inr (.inl ⟨x, hlooksUp, hsends, hnames⟩)⟩
  · simp only [write, hresolve, he] at ht
    subst ht
    exact ⟨hr, rfl, .inr (.inr ⟨rfl, hnone⟩)⟩

section Labels

variable {x : SocketAddr} (hlabelled : s.Labelled) (hsrc : t.srcAddr = s.srcAddr)
  (hnames : ∀ y, y ≠ x → t.resolveState.dstAddrStr y = s.resolveState.dstAddrStr y)

include hlabelled hsrc hnames

theorem labelled_iff_of_sent {packet : UDPPacket} (hsent : t.sent = s.sent ++ [(packet, x)]) :
    t.Labelled ↔ (SocketAddr.parse s.srcAddr).isSome ∧
      t.resolveState.dstAddrStr x = packet.metadata.destination := by
  rw [labelled_iff, hsrc]
  constructor
  · intro h
    exact h x packet (by rw [lastSent_append packet x x hsent, if_pos rfl])
  · intro hx y other hlast
    rw [lastSent_append packet x y hsent] at hlast
    by_cases hxy : x = y
    · rw [if_pos hxy] at hlast
      rw [← hxy, ← Option.some.inj hlast]
      exact hx
    · rw [if_neg hxy] at hlast
      rw [hnames y (Ne.symm hxy)]
      exact labelled_iff.mp hlabelled y other hlast

theorem labelled_iff_of_not_sent (hsent : t.sent = s.sent) : t.Labelled ↔
    ∀ packet, s.lastSent x = some packet →
      t.resolveState.dstAddrStr x = packet.metadata.destination := by
  have hlast (y : SocketAddr) : t.lastSent y = s.lastSent y := by rw [lastSent, hsent, lastSent]
  simp only [labelled_iff, hsrc, hlast]
  constructor
  · exact fun h packet hpacket ↦ (h x packet hpacket).2
  · intro hx y packet hpacket
    obtain ⟨hparse, hlabel⟩ := labelled_iff.mp hlabelled y packet hpacket
    refine ⟨hparse, ?_⟩
    by_cases hxy : y = x
    · subst hxy
      exact hx packet hpacket
    · rw [hnames y hxy]
      exact hlabel

end Labels

theorem labelled_step_iff (hs : s.resolveState.Consistent) (hlabelled : s.Labelled)
    (h : udpWrites.step s w = some t) :
    t.resolveState.Consistent ∧ (t.Labelled ↔ s.KeepsLabels w) := by
  obtain ⟨ht, hsrc, hcases⟩ := step_cases hs h
  refine ⟨ht, ?_⟩
  rcases hcases with ⟨x, hreuses, hsends, hnames⟩ | ⟨x, hlooksUp, hsends, hnames⟩ |
    ⟨rfl, hreuses, hlooksUp⟩
  · have hsame (y : SocketAddr) :
        t.resolveState.dstAddrStr y = s.resolveState.dstAddrStr y := by
      rw [UdpResolveState.dstAddrStr, hnames, UdpResolveState.dstAddrStr]
    rcases hsends with ⟨hsend, hsent⟩ | ⟨hsend, hsent⟩
    · rw [labelled_iff_of_sent hlabelled hsrc (fun y _ ↦ hsame y) hsent, hsame,
        hreuses.dstAddrStr_eq_iff hs]
      constructor
      · rintro ⟨hparse, hname⟩
        refine ⟨fun _ _ ↦ hparse, fun _ y hy ↦ ?_, fun hfails ↦ absurd hsend hfails⟩
        rw [hy.unique hreuses]
        exact hname
      · exact fun hkeeps ↦ ⟨hkeeps.srcAddr hsend ⟨x, .inl hreuses⟩, hkeeps.reused hsend x hreuses⟩
    · rw [labelled_iff_of_not_sent (x := x) hlabelled hsrc (fun y _ ↦ hsame y) hsent, hsame]
      refine iff_of_true (fun packet hpacket ↦ (labelled_iff.mp hlabelled x packet hpacket).2) ?_
      exact ⟨fun hok ↦ absurd hok hsend, fun hok ↦ absurd hok hsend,
        fun _ y hy ↦ absurd hy hreuses.not_looksUp⟩
  · have hother (y : SocketAddr) (hy : y ≠ x) :
        t.resolveState.dstAddrStr y = s.resolveState.dstAddrStr y := by
      rw [UdpResolveState.dstAddrStr, hnames, Function.update_of_ne hy, UdpResolveState.dstAddrStr]
    have hlabel : t.resolveState.dstAddrStr x = w.1.metadata.destination := by
      rw [UdpResolveState.dstAddrStr, hnames, Function.update_self,
        UDPMeta.destination_of_domain hlooksUp.2.1]
    rcases hsends with ⟨hsend, hsent⟩ | ⟨hsend, hsent⟩
    · rw [labelled_iff_of_sent hlabelled hsrc hother hsent]
      constructor
      · rintro ⟨hparse, -⟩
        exact ⟨fun _ _ ↦ hparse, fun _ y hy ↦ absurd hlooksUp hy.not_looksUp,
          fun hfails ↦ absurd hsend hfails⟩
      · exact fun hkeeps ↦ ⟨hkeeps.srcAddr hsend ⟨x, .inr hlooksUp⟩, hlabel⟩
    · rw [labelled_iff_of_not_sent hlabelled hsrc hother hsent, hlabel]
      constructor
      · intro hlast
        refine ⟨fun hok ↦ absurd hok hsend, fun hok ↦ absurd hok hsend, fun _ y hy ↦ ?_⟩
        rw [hy.unique hlooksUp]
        exact hlast
      · exact fun hkeeps ↦ hkeeps.unsent hsend x hlooksUp
  · refine iff_of_true hlabelled ⟨fun _ ⟨x, hx⟩ ↦ ?_, fun _ x hx ↦ absurd hx (hreuses x),
      fun _ x hx ↦ absurd hx (hlooksUp x)⟩
    rcases hx with hx | hx
    · exact absurd hx (hreuses x)
    · exact absurd hx (hlooksUp x)

end UdpRunStream

theorem udpWrites_run (s : UdpRunStream) (writes : List UdpWrite) :
    ∃ t, udpWrites.run s writes = some t := by
  induction writes generalizing s with
  | nil => exact ⟨s, rfl⟩
  | cons w writes ih => exact ih _

/-- In every state of a run of writes the replies have the names that the client has used last if
and only if each write keeps the labels right. -/
theorem udp_labels_right_iff (srcAddr : String) (writes : List UdpWrite) :
    (∀ before s, before <+: writes → udpWrites.run (.newPair srcAddr) before = some s →
        s.Labelled) ↔
      udpWrites.Along UdpRunStream.KeepsLabels (.newPair srcAddr) writes := by
  obtain ⟨t, hrun⟩ := udpWrites_run (.newPair srcAddr) writes
  refine Machine.along_iff_forall_isPrefix (E := fun _ _ ↦ True)
    (I := fun s ↦ s.resolveState.Consistent)
    (fun s w t _ hs hlabelled h ↦ UdpRunStream.labelled_step_iff hs hlabelled h)
    (.of_forall (fun _ _ _ ↦ trivial) _) UdpResolveState.consistent_new ?_ hrun
  intro x packet hlast
  cases hlast

/-- A packet for a name that has the address 5.6.7.8, as the system answers. -/
def queryFor (name : String) : UdpWrite :=
  (⟨⟨name, 53, "1.2.3.4", 5000⟩, [7]⟩,
    ⟨.ok ⟨.v4 ⟨0, 0, 0, 0⟩, 40000⟩, .ok [⟨.v4 ⟨5, 6, 7, 8⟩, 53⟩], .ok ()⟩)

/-- Two names of one address are used in turn. -/
theorem shared_address_mislabelled :
    ∃ s, udpWrites.run (.newPair "1.2.3.4:5000") [queryFor "a", queryFor "b", queryFor "a"] = some s ∧
      (s.lastSent ⟨.v4 ⟨5, 6, 7, 8⟩, 53⟩).map (fun packet ↦ packet.metadata.destination) = some "a" ∧
      ((UdpRunStream.read (.ok ([9], ⟨.v4 ⟨5, 6, 7, 8⟩, 53⟩))).runOn s).1 =
        .ok ⟨⟨"b", 53, "1.2.3.4", 5000⟩, [9]⟩ ∧ ¬s.Labelled := by
  refine ⟨_, rfl, by decide, rfl, fun h ↦ ?_⟩
  obtain ⟨-, hlabel⟩ := UdpRunStream.labelled_iff.mp h ⟨.v4 ⟨5, 6, 7, 8⟩, 53⟩ (queryFor "a").1
    (by decide)
  revert hlabel
  decide

end Rog
