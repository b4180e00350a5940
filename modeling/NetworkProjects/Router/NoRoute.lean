import NetworkProjects.Router.NextHop

/-!
# Addresses without a route

`FillAndSendPkt` uses the result of `LongestPrefixMatch` without looking at it, for three kinds of
addresses: the destination of a datagram, the sender of an ARP request, and the gateway that an ARP
request is sent for. `sr_verify_routing_table` looks at the interfaces of the routes only, so each
of the three can be without a route.

`Routable` asks for the routes that are used in a step, in the state before it. What waits on the
queue got there behind such a lookup (`QueueRouted`), so a flush or a sweep needs no more.
-/

namespace NetworkProjects.Router

open NetworkProjects.Lib

/-- `sr_verify_routing_table` (`sr_main.c`). -/
def srVerifyRoutingTable (sr : SrConfig) : Nat :=
  if sr.ifList.isEmpty || sr.routingTable.isEmpty then 999
  else
    sr.routingTable.countP fun rtWalker =>
      !sr.ifList.any fun ifWalker => ifWalker.name == rtWalker.interface

/-- Every route of an accepted table goes through an interface the router has. -/
theorem interface_of_verified {sr : SrConfig} (h : srVerifyRoutingTable sr = 0) :
    ∀ rt ∈ sr.routingTable, ∃ i, srGetInterface sr rt.interface = some i := by
  intro rt hrt
  unfold srVerifyRoutingTable at h
  split at h
  · cases h
  · have hany := List.countP_eq_zero.mp h rt hrt
    simp only [Bool.not_eq_true', Bool.not_eq_false] at hany
    obtain ⟨i, hi, hname⟩ := List.any_eq_true.mp hany
    exact Option.isSome_iff_exists.mp (List.find?_isSome.mpr ⟨i, hi, hname⟩)

/-- The fault is no null route and no null interface. -/
def Fault.Harmless (e : Fault) : Prop := e ≠ .nullRoute ∧ e ≠ .nullInterface

/-- The address has a route. -/
def HasRoute (sr : SrConfig) (addr : InAddr) : Prop := ∃ rt, longestPrefixMatch sr addr = some rt

/-- The routes and the interface that a step uses exist: the frame comes in on an interface of the
router; a datagram to be forwarded has a route, and so has its gateway unless that is in the cache;
and the sender of an ARP request for the receiving interface has one. -/
def Routable (sr : SrConfig) (s : SrState) : SrInput → Prop
  | .frame interface packet _ _ =>
      (∃ i, srGetInterface sr interface = some i) ∧
      (∀ p, forwardedFrame sr packet = some p →
        ∃ rt, longestPrefixMatch sr (ipDst (ipHeader (forwardEdits p))) = some rt ∧
          (srArpcacheLookup s.cache rt.gw = none → HasRoute sr rt.gw)) ∧
      ((∃ mac, Teaches sr (arSip packet) mac (.received interface packet)) →
        arpOpcode packet = arpOpRequest → HasRoute sr (arSip packet))
  | .timeout _ _ => True

/-- Requests are for IPs with a route, and their packets name interfaces of the router. -/
structure QueueRouted (sr : SrConfig) (c : SrArpcache) : Prop where
  addrs : AddrsOk c
  gateway : ∀ r ∈ c.requests, HasRoute sr r.ip
  packet : ∀ r ∈ c.requests, ∀ p ∈ r.packets, (∃ i, srGetInterface sr p.iface = some i) ∧
    (sizeofIpHdr ≤ p.buf.length → nextHop sr (ipDst p.buf) = some r.ip)

section Safety

variable {sr : SrConfig} {s : SrState}

/-- An ARP packet for an address with a route. -/
theorem fillAndSendPktWith_arp_safe (hverified : srVerifyRoutingTable sr = 0)
    (handle : SrState → Nat → Except Fault SrState) (packet : Bytes) {dip : InAddr}
    (hroute : HasRoute sr dip) :
    Ends (fun s' => s'.cache = s.cache) Fault.Harmless
      (fillAndSendPktWith handle sr s packet dip .arp) := by
  obtain ⟨rt, hrt⟩ := hroute
  obtain ⟨i, hi⟩ := interface_of_verified hverified rt (longestPrefixMatch_eq_some hrt).1
  unfold fillAndSendPktWith
  simp only [hrt, hi, or_true, if_true]
  split
  · exact ⟨by simp, by simp⟩
  · next hnone _ => cases hnone
  · next dhost j hd hj =>
    cases hj
    rw [srSendPacket_ethFrame hi]
    rfl

/-- A request can be sent for. -/
theorem sendArpRequest_safe (hverified : srVerifyRoutingTable sr = 0) {r : SrArpreq}
    (hgateway : HasRoute sr r.ip)
    (hpacket : ∀ p ∈ r.packets, ∃ i, srGetInterface sr p.iface = some i) :
    Ends (fun s' => s'.cache = s.cache) Fault.Harmless (sendArpRequest sr s r) := by
  unfold sendArpRequest
  split
  · exact ⟨by simp, by simp⟩
  · next packet rest hpackets =>
    obtain ⟨i, hi⟩ := hpacket packet (by simp [hpackets])
    simp only [hi]
    exact fillAndSendPktWith_arp_safe (s := s.emit _) hverified _ _ hgateway

/-- Fewer requests, or the same ones sent again. -/
theorem QueueRouted.of_subset {c c' : SrArpcache} (h : QueueRouted sr c) (haddrs : AddrsOk c')
    (hreqs : ∀ r ∈ c'.requests, ∃ r₀ ∈ c.requests, r.ip = r₀.ip ∧ r.packets = r₀.packets) :
    QueueRouted sr c' where
  addrs := haddrs
  gateway := by
    intro r hr
    obtain ⟨r₀, hr₀, hip, -⟩ := hreqs r hr
    rw [hip]
    exact h.gateway r₀ hr₀
  packet := by
    intro r hr
    obtain ⟨r₀, hr₀, hip, hpackets⟩ := hreqs r hr
    rw [hip, hpackets]
    exact h.packet r₀ hr₀

theorem srArpreqHandle_safe (hverified : srVerifyRoutingTable sr = 0)
    (h : QueueRouted sr s.cache) (addr : Nat) :
    Ends (fun s' => QueueRouted sr s'.cache ∧ s'.cache.entries = s.cache.entries) Fault.Harmless
      (srArpreqHandle sr s addr) := by
  cases hhandle : srArpreqHandle sr s addr with
  | ok s' =>
      refine ⟨h.of_subset (h.addrs.handle hhandle) ?_,
        (srArpreqHandle_sublist h.addrs hhandle).1⟩
      exact srArpreqHandle_forall h.addrs (fun r hr _ => ⟨r, hr, rfl, rfl⟩)
        (fun r hr _ _ => ⟨r, hr, rfl, rfl⟩) (fun r hr _ _ => ⟨r, hr, rfl, rfl⟩) hhandle
  | error e =>
      -- either the pointer is not in the queue, or the fault is one of `sendArpRequest`
      show e.Harmless
      unfold srArpreqHandle at hhandle
      split at hhandle
      · cases hhandle
        exact ⟨by simp, by simp⟩
      · next r hr =>
        have hmem : r ∈ s.cache.requests := List.mem_of_find?_eq_some hr
        split at hhandle
        · split at hhandle
          · cases hhandle
          · have hsend := sendArpRequest_safe (s := s) hverified (h.gateway r hmem)
              fun p hp => (h.packet r hmem p hp).1
            split at hhandle
            · next e' he' =>
              cases hhandle
              exact hsend.error he'
            · cases hhandle
        · cases hhandle

/-- Queueing a datagram behind its lookup. -/
theorem QueueRouted.queue {c : SrArpcache} (hverified : srVerifyRoutingTable sr = 0)
    (h : QueueRouted sr c) {d : Bytes} {dip : InAddr} {rt : SrRt}
    (hrt : longestPrefixMatch sr dip = some rt) (hown : sizeofIpHdr ≤ d.length → dip = ipDst d)
    (hgateway : HasRoute sr rt.gw) :
    QueueRouted sr (srArpcacheQueuereq c rt.gw d rt.interface).1 where
  addrs := h.addrs.queue _ _ _
  gateway := by
    rcases srArpcacheQueuereq_split h.addrs rt.gw d rt.interface with
      ⟨before, r, after, hsplit, hip, heq⟩ | ⟨-, heq⟩
    · rw [heq]
      intro x hx
      rcases mem_split.mp hx with rfl | hx
      · exact hip ▸ hgateway
      · apply h.gateway x
        rw [hsplit]
        exact mem_split.mpr (.inr hx)
    · rw [heq]
      intro x hx
      rcases List.mem_cons.mp hx with rfl | hx
      · exact hgateway
      · exact h.gateway x hx
  packet := by
    intro r hr p hp
    rcases mem_packets_of_queuereq h.addrs hr hp with ⟨rfl, hip⟩ | ⟨r₀, hr₀, hip, hp⟩
    · refine ⟨interface_of_verified hverified rt (longestPrefixMatch_eq_some hrt).1, ?_⟩
      intro hlong
      rw [← hown hlong, nextHop, hrt, hip]
      rfl
    · rw [← hip]
      exact h.packet r₀ hr₀ p hp

/-- A datagram with a route, whose gateway has one if it is not in the cache. -/
theorem fillAndSendPkt_safe (hverified : srVerifyRoutingTable sr = 0)
    (h : QueueRouted sr s.cache) {d : Bytes} {dip : InAddr} {rt : SrRt}
    (hrt : longestPrefixMatch sr dip = some rt) (hown : sizeofIpHdr ≤ d.length → dip = ipDst d)
    (hgateway : srArpcacheLookup s.cache rt.gw = none → HasRoute sr rt.gw) :
    Ends (fun s' => QueueRouted sr s'.cache ∧ s'.cache.entries = s.cache.entries) Fault.Harmless
      (fillAndSendPkt sr s d dip .ip) := by
  obtain ⟨i, hi⟩ := interface_of_verified hverified rt (longestPrefixMatch_eq_some hrt).1
  unfold fillAndSendPkt fillAndSendPktWith
  cases he : srArpcacheLookup s.cache rt.gw with
  | some e =>
      simp only [hrt, he, hi, Option.isSome_some, true_or, if_true, reduceCtorEq, false_and,
        if_false, Option.map_some]
      rw [srSendPacket_ethFrame hi]
      exact ⟨h, rfl⟩
  | none =>
      simp only [hrt, he, Option.isSome_none, Bool.false_eq_true, reduceCtorEq, or_self, if_false]
      have hqueued := h.queue hverified hrt hown (hgateway he)
      apply (srArpreqHandle_safe (s := s.withCache _) hverified hqueued _).imp
      rintro s' ⟨hrouted, hentries⟩
      exact ⟨hrouted, by rw [hentries, SrState.withCache_cache, srArpcacheQueuereq_entries]⟩

/-- Flushing the packets of a request. -/
theorem srArpreqSendPackets_safe (hverified : srVerifyRoutingTable sr = 0) {g : InAddr}
    (hgateway : HasRoute sr g) :
    ∀ {ps : List SrPacket} {s : SrState}, QueueRouted sr s.cache →
      (∀ p ∈ ps, sizeofIpHdr ≤ p.buf.length → nextHop sr (ipDst p.buf) = some g) →
      Ends (fun s' => QueueRouted sr s'.cache) Fault.Harmless (srArpreqSendPackets sr s ps)
  | [], _, h, _ => h
  | cur :: next, s, h, hhop => by
      unfold srArpreqSendPackets
      split
      · exact ⟨by simp, by simp⟩
      · next hlen =>
        obtain ⟨rt, hrt, hgw⟩ := nextHop_eq_some (hhop cur (by simp) (Nat.le_of_not_lt hlen))
        have hfirst := fillAndSendPkt_safe hverified h hrt (fun _ => rfl) fun _ => hgw ▸ hgateway
        cases hfill : fillAndSendPkt sr s cur.buf (ipDst cur.buf) .ip with
        | error e => exact hfirst.error hfill
        | ok s₁ =>
            exact srArpreqSendPackets_safe hverified hgateway (hfirst.ok hfill).1
              fun p hp => hhop p (by simp [hp])

/-- The sender of an ARP frame enters the cache. A request that waited for it has a gateway with a
route. -/
theorem learnMapping_safe (hverified : srVerifyRoutingTable sr = 0) (h : QueueRouted sr s.cache)
    (mac : EtherAddr) (ip : InAddr) :
    Ends (fun s' => QueueRouted sr s'.cache) Fault.Harmless (learnMapping sr s mac ip) := by
  have hrest : QueueRouted sr (srArpcacheInsert s.cache mac ip s.clock).1 :=
    h.of_subset (h.addrs.insert mac ip s.clock)
      fun r hr => ⟨r, srArpcacheInsert_subset r hr, rfl, rfl⟩
  cases hins : (srArpcacheInsert s.cache mac ip s.clock).2 with
  | none =>
      rw [learnMapping_none hins]
      exact hrest
  | some req =>
      have hreq : req ∈ s.cache.requests :=
        List.mem_of_find?_eq_some (p := fun r => r.ip == ip) (by exact hins)
      rw [learnMapping_some hins]
      exact srArpreqSendPackets_safe hverified (h.gateway req hreq) hrest
        fun p hp => (h.packet req hreq p hp).2

theorem handleArp_safe (hverified : srVerifyRoutingTable sr = 0) (h : QueueRouted sr s.cache)
    {interface : String} {packet : Bytes} (hif : ∃ i, srGetInterface sr interface = some i)
    (htype : ethertype packet = SrEthertype.arp.value)
    (hsender : (∃ mac, Teaches sr (arSip packet) mac (.received interface packet)) →
      arpOpcode packet = arpOpRequest → HasRoute sr (arSip packet)) :
    Ends (fun s' => QueueRouted sr s'.cache) Fault.Harmless
      (handleArp sr s interface packet) := by
  obtain ⟨recIf, hrec⟩ := hif
  unfold handleArp
  split
  · exact h
  · next hlen =>
    simp only [hrec]
    split
    · exact h
    · next htip =>
      have hteach : Teaches sr (arSip packet) (arSha packet) (.received interface packet) :=
        ⟨by omega, htype, rfl, rfl, recIf, hrec, by simpa using Eq.symm (not_not.mp htip)⟩
      have hanswer : ∀ s₁ : SrState, QueueRouted sr s₁.cache →
          Ends (fun s' => QueueRouted sr s'.cache) Fault.Harmless
            (if arpOpcode packet = arpOpRequest then handleArpRequst sr s₁ packet recIf
              else .ok s₁) := by
        intro s₁ hs₁
        split
        · next hop =>
          apply (fillAndSendPktWith_arp_safe hverified _ _ (hsender ⟨_, hteach⟩ hop)).imp
          intro s' hcache
          rw [hcache]
          exact hs₁
        · exact hs₁
      cases srArpcacheLookup s.cache (arSip packet) with
      | some e => exact hanswer s h
      | none =>
          have hlearn := learnMapping_safe hverified h (arSha packet) (arSip packet)
          simp only
          split
          · next e he => exact hlearn.error he
          · next s₁ hs₁ => exact hanswer s₁ (hlearn.ok hs₁)

theorem srSendPacket_queueRouted (h : QueueRouted sr s.cache) (sender : SrSender) (buf : Bytes)
    (iface : String) : QueueRouted sr (srSendPacket sr s sender buf iface).cache := by
  rcases srSendPacket_cases sr s sender buf iface with hsend | ⟨-, hsend⟩ <;> rw [hsend] <;> exact h

theorem handleIp_safe (hverified : srVerifyRoutingTable sr = 0) (h : QueueRouted sr s.cache)
    {interface : String} {packet : Bytes} (hif : ∃ i, srGetInterface sr interface = some i)
    (hlen : ¬ packet.length < sizeofEthernetHdr)
    (htype : ethertype packet ≠ SrEthertype.arp.value)
    (hforward : ∀ p, forwardedFrame sr packet = some p →
      ∃ rt, longestPrefixMatch sr (ipDst (ipHeader (forwardEdits p))) = some rt ∧
        (srArpcacheLookup s.cache rt.gw = none → HasRoute sr rt.gw)) :
    Ends (fun s' => QueueRouted sr s'.cache) Fault.Harmless (handleIp sr s interface packet) := by
  obtain ⟨recIf, hrec⟩ := hif
  unfold handleIp
  split
  · exact h
  · next p hgate =>
    split
    · have hanswer : ∀ s', AnswersOn sr interface s s' → QueueRouted sr s'.cache := by
        rintro s' ⟨sender, buf, -, rfl⟩
        exact srSendPacket_queueRouted h sender buf interface
      split
      · exact (srSendEchoReply_ends ⟨by simp, by simp⟩ sr s p interface).imp hanswer
      · exact (srSendPortUnreachable_ends (by simp [hrec]) s p).imp hanswer
    · next hmatch =>
      have hp : 34 ≤ p.length := by
        rw [ipGate_length hgate]
        exact (ipGate_eq_some hgate).1
      obtain ⟨rt, hrt, hgateway⟩ :=
        hforward p (by simp [forwardedFrame, hlen, htype, hgate, hmatch])
      have hown : sizeofIpHdr ≤ (fwdIpPkt p s.mem.beyond).length →
          ipDst (ipHeader (forwardEdits p)) = ipDst (fwdIpPkt p s.mem.beyond) := by
        intro hlong
        rw [length_fwdIpPkt] at hlong
        exact (ipDst_fwdIpPkt hp hlong).symm
      exact (fillAndSendPkt_safe (s := s.emit _) hverified h hrt hown hgateway).imp fun _ hs => hs.1

/-- **A step that finds the routes it needs** never uses a null route or a null interface. -/
theorem srStep_safe (hverified : srVerifyRoutingTable sr = 0) (h : QueueRouted sr s.cache)
    {i : SrInput} (hroutable : Routable sr s i) :
    Ends (fun s' => QueueRouted sr s'.cache) Fault.Harmless (srStep sr s i) := by
  cases i with
  | timeout now mem =>
      have hbegun : QueueRouted sr (s.begun (.timeout now mem)).cache :=
        ⟨h.addrs.begun _, by simpa using h.gateway, by simpa using h.packet⟩
      show Ends _ _ (srArpcacheSweepreqs sr (s.begun (.timeout now mem)))
      rw [srArpcacheSweepreqs_eq hbegun.addrs.nodup]
      refine ends_run (P := fun t : SrState => QueueRouted sr t.cache) ?_ hbegun
      intro t addr ht
      exact (srArpreqHandle_safe hverified ht addr).imp fun _ hs => hs.1
  | frame interface packet now mem =>
      obtain ⟨hif, hforward, hsender⟩ := hroutable
      show Ends _ _ (srHandlepacket sr (s.tick (.frame interface packet now mem)) interface packet)
      unfold srHandlepacket
      simp only
      split
      · exact h
      · next hlen =>
        split
        · next htype =>
          exact handleArp_safe (s := (s.tick (.frame interface packet now mem)).emit _) hverified h
            hif htype hsender
        · next htype =>
          exact handleIp_safe (s := (s.tick (.frame interface packet now mem)).emit _) hverified h
            hif hlen htype hforward

end Safety

/-! ## Every run -/

/-- **No null route and no null interface is used** in a run of a router with a verified table
whose steps all find the routes they need. -/
theorem no_nullRoute {sr : SrConfig} (hverified : srVerifyRoutingTable sr = 0)
    {inputs : List SrInput}
    (hroutable : Along (srStep sr) srInit (fun _ s i => Routable sr s i) inputs) :
    srRun sr inputs ≠ .error .nullRoute ∧ srRun sr inputs ≠ .error .nullInterface := by
  have hinit : QueueRouted sr srInit.cache :=
    ⟨addrsOk_init, by simp [srInit, srArpcacheInit], by simp [srInit, srArpcacheInit]⟩
  have hends : Ends (fun s => QueueRouted sr s.cache) Fault.Harmless (srRun sr inputs) :=
    ends_run_along (R := fun s : SrState => QueueRouted sr s.cache) hinit
      (fun _ _ _ _ hs hi => srStep_safe hverified hs hi) hroutable
  constructor
  · intro hfault
    rw [hfault] at hends
    exact hends.1 rfl
  · intro hfault
    rw [hfault] at hends
    exact hends.2 rfl

/-- `Routable`, computed. -/
def routableCheck (sr : SrConfig) (s : SrState) : SrInput → Bool
  | .frame interface packet _ _ =>
      (srGetInterface sr interface).isSome &&
      (match forwardedFrame sr packet with
        | none => true
        | some p =>
            (longestPrefixMatch sr (ipDst (ipHeader (forwardEdits p)))).any fun rt =>
              (srArpcacheLookup s.cache rt.gw).isSome || (longestPrefixMatch sr rt.gw).isSome) &&
      (arpOpcode packet != arpOpRequest || (longestPrefixMatch sr (arSip packet)).isSome)
  | .timeout _ _ => true

theorem routable_of_check {sr : SrConfig} {s : SrState} {i : SrInput}
    (h : routableCheck sr s i = true) : Routable sr s i := by
  cases i with
  | timeout now mem => trivial
  | frame interface packet now mem =>
      simp only [routableCheck, Bool.and_eq_true] at h
      obtain ⟨⟨hif, hforward⟩, hsender⟩ := h
      refine ⟨Option.isSome_iff_exists.mp hif, ?_, ?_⟩
      · intro p hp
        rw [hp] at hforward
        obtain ⟨rt, hrt, hgw⟩ := (Option.any_eq_true _ _).mp hforward
        refine ⟨rt, hrt, fun habsent => ?_⟩
        rw [habsent] at hgw
        exact Option.isSome_iff_exists.mp (by simpa using hgw)
      · intro _ hop
        rw [hop] at hsender
        exact Option.isSome_iff_exists.mp (by simpa using hsender)

theorem no_nullRoute_queueAndFlush :
    srVerifyRoutingTable rtableConfig = 0 ∧
      srRun rtableConfig queueAndFlush ≠ .error .nullRoute ∧
      srRun rtableConfig queueAndFlush ≠ .error .nullInterface := by
  have hroutable : Along (srStep rtableConfig) srInit
      (fun _ s i => routableCheck rtableConfig s i = true) queueAndFlush :=
    along_of_check (by decide +kernel)
  have hverified : srVerifyRoutingTable rtableConfig = 0 := by decide
  exact ⟨hverified, no_nullRoute hverified
    (hroutable.imp fun _ _ _ _ _ h => routable_of_check h)⟩

/-- The table in `rtable` has no default route: a datagram for `8.8.8.8` crashes the router. -/
theorem nullRoute_rtable :
    ¬ ∀ sr inputs, srVerifyRoutingTable sr = 0 →
      srRun sr inputs ≠ .error .nullRoute ∧ srRun sr inputs ≠ .error .nullInterface := by
  intro h
  have hfault : srRun rtableConfig [.frame "eth3" (clientFrame 64 (dotted 8 8 8 8)) 5 srInit.mem]
      = .error .nullRoute := eq_error_of_check (by decide +kernel)
  exact (h rtableConfig _ (by decide)).1 hfault

end NetworkProjects.Router
