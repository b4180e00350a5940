import NetworkProjects.Router.NoRoute

/-!
# A request without a packet

`sr_arpcache_queuereq` makes a request for any IP that has none, and then appends the packet
unless it is empty. `ForwardToNextHop` takes the length of the packet from `ip_len`, which nobody
has looked at, so a request can be left with no packet, and `send_arp_request` reads
`req->packets->iface`.

`QueuesNothing` is the one way this happens. A step that is not of that kind keeps `QueueWaits`
and does not end in that read; a step of that kind always loses one of the two.
-/

namespace NetworkProjects.Router

open NetworkProjects.Lib

/-- Every request on the queue has a packet. -/
structure QueueWaits (c : SrArpcache) : Prop where
  addrs : AddrsOk c
  packets : ∀ r ∈ c.requests, r.packets ≠ []

/-- The step forwards a datagram of no bytes, to a gateway that is neither in the cache nor asked
for already. -/
def QueuesNothing (sr : SrConfig) (s : SrState) : SrInput → Prop
  | .frame _ packet _ _ =>
      ∃ p rt, forwardedFrame sr packet = some p ∧ ipLen (ipHeader p) = 0 ∧
        longestPrefixMatch sr (ipDst (ipHeader (forwardEdits p))) = some rt ∧
        srArpcacheLookup s.cache rt.gw = none ∧ ∀ r ∈ s.cache.requests, r.ip ≠ rt.gw
  | .timeout _ _ => False

/-! ## What keeps the packets

Every way to queue puts a packet on the request, unless the packet is empty. -/

section Keep

variable {sr : SrConfig} {s : SrState}

/-- An ARP packet leaves the cache alone. -/
theorem fillAndSendPktWith_arp_ends (handle : SrState → Nat → Except Fault SrState)
    (packet : Bytes) (dip : InAddr) :
    Ends (fun s' => s'.cache = s.cache) (· ≠ .nullPackets)
      (fillAndSendPktWith handle sr s packet dip .arp) := by
  cases h : fillAndSendPktWith handle sr s packet dip .arp with
  | ok s' =>
      obtain ⟨iface, frame, rfl⟩ := fillAndSendPktWith_arp_cases h
      rfl
  | error e =>
      show e ≠ .nullPackets
      unfold fillAndSendPktWith at h
      split at h
      · cases h; simp
      · simp only [or_true, if_true] at h
        split at h <;> cases h <;> simp

/-- A request with a packet can be sent for. -/
theorem sendArpRequest_waits {r : SrArpreq} (hr : r.packets ≠ []) :
    Ends (fun s' => s'.cache = s.cache) (· ≠ .nullPackets) (sendArpRequest sr s r) := by
  unfold sendArpRequest
  split
  · next hnil => exact absurd hnil hr
  · next packet rest _ =>
    split
    · simp [Ends]
    · exact fillAndSendPktWith_arp_ends (s := s.emit _) _ _ _

theorem srArpreqHandle_waits (h : QueueWaits s.cache) (addr : Nat) :
    Ends (fun s' => QueueWaits s'.cache) (· ≠ .nullPackets) (srArpreqHandle sr s addr) := by
  cases hhandle : srArpreqHandle sr s addr with
  | ok s' =>
      refine ⟨h.addrs.handle hhandle, ?_⟩
      exact srArpreqHandle_forall h.addrs (fun r hr _ => h.packets r hr)
        (fun r hr _ _ => h.packets r hr) (fun r hr _ _ => h.packets r hr) hhandle
  | error e =>
      show e ≠ .nullPackets
      unfold srArpreqHandle at hhandle
      split at hhandle
      · cases hhandle; simp
      next r hr =>
      have hmem : r ∈ s.cache.requests := List.mem_of_find?_eq_some hr
      have hsend : Ends (fun s' => s'.cache = s.cache) (· ≠ .nullPackets) (sendArpRequest sr s r) :=
        sendArpRequest_waits (h.packets r hmem)
      split at hhandle
      · split at hhandle
        · cases hhandle
        · split at hhandle
          · next e' he' =>
            cases hhandle
            exact hsend.error he'
          · cases hhandle
      · cases hhandle

/-- Queueing keeps a packet on every request if there is a packet, or a request to put it on. -/
theorem QueueWaits.queue {c : SrArpcache} (h : QueueWaits c) {ip : InAddr} {packet : Bytes}
    (hp : packet ≠ [] ∨ ∃ r ∈ c.requests, r.ip = ip) (iface : String) :
    QueueWaits (srArpcacheQueuereq c ip packet iface).1 where
  addrs := h.addrs.queue _ _ _
  packets := by
    rcases srArpcacheQueuereq_split h.addrs ip packet iface with
      ⟨before, r, after, hsplit, -, heq⟩ | ⟨hnew, heq⟩
    · rw [heq]
      intro x hx
      have hold := h.packets
      rw [hsplit] at hold
      rcases mem_split.mp hx with rfl | hx
      · simpa using fun _ => hold r (by simp)
      · exact hold x (mem_split.mpr (.inr hx))
    · have hpacket : packet ≠ [] :=
        hp.resolve_right (by rintro ⟨r, hr, hip⟩; exact hnew r hr hip)
      rw [heq]
      intro x hx
      rcases List.mem_cons.mp hx with rfl | hx
      · simpa [queuedPackets] using hpacket
      · exact h.packets x hx

theorem fillAndSendPkt_waits (h : QueueWaits s.cache) {d : Bytes} {dip : InAddr}
    (hd : d = [] → ∀ rt, longestPrefixMatch sr dip = some rt →
      srArpcacheLookup s.cache rt.gw = none → ∃ r ∈ s.cache.requests, r.ip = rt.gw) :
    Ends (fun s' => QueueWaits s'.cache) (· ≠ .nullPackets) (fillAndSendPkt sr s d dip .ip) := by
  unfold fillAndSendPkt fillAndSendPktWith
  split
  · simp [Ends]
  next rt hrt =>
  cases he : srArpcacheLookup s.cache rt.gw with
  | some e =>
      simp only [Option.isSome_some, true_or, if_true, reduceCtorEq, false_and, if_false,
        Option.map_some]
      split
      · next hnone => cases hnone
      · simp [Ends]
      · next dhost i hd hi =>
        rw [srSendPacket_ethFrame hi]
        exact h
  | none =>
      simp only [Option.isSome_none, Bool.false_eq_true, reduceCtorEq, or_self, if_false]
      apply srArpreqHandle_waits (s := s.withCache _)
      apply h.queue
      by_cases hnil : d = []
      · exact .inr (hd hnil rt hrt he)
      · exact .inl hnil

/-- A flush queues no packet below twenty bytes. -/
theorem srArpreqSendPackets_waits :
    ∀ {ps : List SrPacket} {s : SrState}, QueueWaits s.cache →
      Ends (fun s' => QueueWaits s'.cache) (· ≠ .nullPackets) (srArpreqSendPackets sr s ps)
  | [], _, h => h
  | cur :: next, s, h => by
      unfold srArpreqSendPackets
      split
      · simp [Ends]
      next hlen =>
      have hfirst : Ends (fun s' => QueueWaits s'.cache) (· ≠ .nullPackets)
          (fillAndSendPkt sr s cur.buf (ipDst cur.buf) .ip) :=
        fillAndSendPkt_waits h (by intro hnil; simp [hnil, sizeofIpHdr] at hlen)
      cases hfill : fillAndSendPkt sr s cur.buf (ipDst cur.buf) .ip with
      | error e => exact hfirst.error hfill
      | ok s₁ => exact srArpreqSendPackets_waits (hfirst.ok hfill)

theorem learnMapping_waits (sr : SrConfig) (h : QueueWaits s.cache) (mac : EtherAddr)
    (ip : InAddr) :
    Ends (fun s' => QueueWaits s'.cache) (· ≠ .nullPackets) (learnMapping sr s mac ip) := by
  have hrest : QueueWaits (srArpcacheInsert s.cache mac ip s.clock).1 :=
    ⟨h.addrs.insert mac ip s.clock, fun r hr => h.packets r (srArpcacheInsert_subset r hr)⟩
  cases hins : (srArpcacheInsert s.cache mac ip s.clock).2 with
  | none =>
      rw [learnMapping_none hins]
      exact hrest
  | some req =>
      rw [learnMapping_some hins]
      exact srArpreqSendPackets_waits hrest

theorem handleArp_waits (h : QueueWaits s.cache) (interface : String) (packet : Bytes) :
    Ends (fun s' => QueueWaits s'.cache) (· ≠ .nullPackets)
      (handleArp sr s interface packet) := by
  unfold handleArp
  split
  · exact h
  split
  · simp [Ends]
  next recIf hrec =>
  split
  · exact h
  -- the answer to a request touches no queue
  have hanswer : ∀ s₁ : SrState, QueueWaits s₁.cache →
      Ends (fun s' => QueueWaits s'.cache) (· ≠ .nullPackets)
        (if arpOpcode packet = arpOpRequest then handleArpRequst sr s₁ packet recIf
          else .ok s₁) := by
    intro s₁ hs₁
    split
    · apply (fillAndSendPktWith_arp_ends _ _ _).imp
      intro s' hcache
      rw [hcache]
      exact hs₁
    · exact hs₁
  cases srArpcacheLookup s.cache (arSip packet) with
  | some e => exact hanswer s h
  | none =>
      have hlearn := learnMapping_waits sr h (arSha packet) (arSip packet)
      simp only
      split
      · next e he => exact hlearn.error he
      · next s₁ hs₁ => exact hanswer s₁ (hlearn.ok hs₁)

theorem srSendPacket_waits (h : QueueWaits s.cache) (sender : SrSender) (buf : Bytes)
    (iface : String) : QueueWaits (srSendPacket sr s sender buf iface).cache := by
  rcases srSendPacket_cases sr s sender buf iface with hsend | ⟨-, hsend⟩ <;> rw [hsend] <;> exact h

theorem handleIp_waits (h : QueueWaits s.cache) (interface : String) {packet : Bytes}
    (hlen : ¬ packet.length < sizeofEthernetHdr)
    (htype : ethertype packet ≠ SrEthertype.arp.value)
    (hforward : ¬ ∃ p rt, forwardedFrame sr packet = some p ∧ ipLen (ipHeader p) = 0 ∧
      longestPrefixMatch sr (ipDst (ipHeader (forwardEdits p))) = some rt ∧
      srArpcacheLookup s.cache rt.gw = none ∧ ∀ r ∈ s.cache.requests, r.ip ≠ rt.gw) :
    Ends (fun s' => QueueWaits s'.cache) (· ≠ .nullPackets)
      (handleIp sr s interface packet) := by
  unfold handleIp
  split
  · exact h
  next p hgate =>
  split
  · have hanswer : ∀ s', AnswersOn sr interface s s' → QueueWaits s'.cache := by
      rintro s' ⟨sender, buf, -, rfl⟩
      exact srSendPacket_waits h sender buf interface
    split
    · exact (srSendEchoReply_ends (by simp) sr s p interface).imp hanswer
    · exact (srSendPortUnreachable_ends (by simp) s p).imp hanswer
  · next hmatch =>
    apply fillAndSendPkt_waits (s := s.emit _) h
    intro hnil rt hrt habsent
    -- only an empty datagram makes a request with no packets
    have hempty : ipLen (ipHeader p) = 0 := by
      rw [← length_fwdIpPkt p s.mem.beyond, hnil, List.length_nil]
    have hfwd : forwardedFrame sr packet = some p := by
      simp [forwardedFrame, hlen, htype, hgate, hmatch]
    by_contra hnew
    push Not at hnew
    exact hforward ⟨p, rt, hfwd, hempty, hrt, habsent, hnew⟩

/-- **A step that queues something** keeps a packet on every request, and does not look for a first
packet where there is none. -/
theorem srStep_waits (h : QueueWaits s.cache) {i : SrInput} (hi : ¬ QueuesNothing sr s i) :
    Ends (fun s' => QueueWaits s'.cache) (· ≠ .nullPackets) (srStep sr s i) := by
  cases i with
  | timeout now mem =>
      have hbegun : QueueWaits (s.begun (.timeout now mem)).cache :=
        ⟨h.addrs.begun _, by simpa using h.packets⟩
      show Ends _ _ (srArpcacheSweepreqs sr (s.begun (.timeout now mem)))
      rw [srArpcacheSweepreqs_eq hbegun.addrs.nodup]
      exact ends_run (P := fun t : SrState => QueueWaits t.cache)
        (fun t addr ht => srArpreqHandle_waits ht addr) hbegun
  | frame interface packet now mem =>
      show Ends _ _ (srHandlepacket sr (s.tick (.frame interface packet now mem)) interface packet)
      unfold srHandlepacket
      simp only
      split
      · exact h
      next hlen =>
      split
      · exact handleArp_waits (s := (s.tick (.frame interface packet now mem)).emit _) h _ _
      · next htype =>
        exact handleIp_waits (s := (s.tick (.frame interface packet now mem)).emit _) h _ hlen
          htype hi

end Keep

/-! ## What loses them

An empty datagram makes a request with nothing on it, and the first time it is sent for, its first
packet is read through a null pointer. -/

section Lose

variable {sr : SrConfig} {s : SrState}

/-- A frame that is forwarded is handed to `ForwardToNextHop`. -/
theorem srHandlepacket_forwarded {interface : String} {packet p : Bytes}
    (h : forwardedFrame sr packet = some p) :
    srHandlepacket sr s interface packet
      = forwardToNextHop sr (s.emit (.received interface packet)) p := by
  obtain ⟨htype, hgate, hmatch⟩ := forwardedFrame_eq_some h
  have hlen : ¬ packet.length < sizeofEthernetHdr := by
    have := (ipGate_eq_some hgate).1
    simp only [sizeofEthernetHdr]
    omega
  simp [srHandlepacket, handleIp, hlen, htype, hgate, hmatch]

/-- A datagram whose gateway is not in the cache is queued. -/
theorem fillAndSendPkt_absent {d : Bytes} {dip : InAddr} {rt : SrRt}
    (hrt : longestPrefixMatch sr dip = some rt)
    (habsent : srArpcacheLookup s.cache rt.gw = none) :
    fillAndSendPkt sr s d dip .ip =
      srArpreqHandle sr (s.withCache (srArpcacheQueuereq s.cache rt.gw d rt.interface).1)
        (srArpcacheQueuereq s.cache rt.gw d rt.interface).2 := by
  simp [fillAndSendPkt, fillAndSendPktWith, hrt, habsent]

/-- A new request at the head of the queue that has no packet: either it is due, and its first
packet is read, or it stays. -/
theorem srArpreqHandle_empty (sr : SrConfig) (s : SrState) (c : SrArpcache) (ip : InAddr) :
    srArpreqHandle sr (s.withCache ⟨c.entries, ⟨c.brk, ip, 0, 0, []⟩ :: c.requests, c.brk + 1⟩)
        c.brk
      = if 1 < s.clock then .error .nullPackets
        else .ok (s.withCache ⟨c.entries, ⟨c.brk, ip, 0, 0, []⟩ :: c.requests, c.brk + 1⟩) := by
  simp [srArpreqHandle, derefReq, sendArpRequest]

/-- What becomes of an empty datagram whose gateway nobody has asked for. -/
theorem forwardToNextHop_empty (haddrs : AddrsOk s.cache) {p : Bytes} {rt : SrRt}
    (hempty : ipLen (ipHeader p) = 0)
    (hrt : longestPrefixMatch sr (ipDst (ipHeader (forwardEdits p))) = some rt)
    (habsent : srArpcacheLookup s.cache rt.gw = none)
    (hnew : ∀ r ∈ s.cache.requests, r.ip ≠ rt.gw) :
    ¬ Ends (fun s' => ∀ r ∈ s'.cache.requests, r.packets ≠ []) (· ≠ .nullPackets)
      (forwardToNextHop sr s p) := by
  have hnil : fwdIpPkt p s.mem.beyond = [] := by
    rw [← List.length_eq_zero_iff, length_fwdIpPkt, hempty]
  have hqueue : srArpcacheQueuereq s.cache rt.gw [] rt.interface
      = (⟨s.cache.entries, ⟨s.cache.brk, rt.gw, 0, 0, []⟩ :: s.cache.requests,
          s.cache.brk + 1⟩, s.cache.brk) := by
    rcases srArpcacheQueuereq_split haddrs rt.gw [] rt.interface with
      ⟨before, r, after, hsplit, hip, -⟩ | ⟨-, heq⟩
    · exact absurd hip (hnew r (by simp [hsplit]))
    · exact heq
  unfold forwardToNextHop
  simp only [hnil]
  rw [fillAndSendPkt_absent (s := s.emit (.forwarded [])) hrt habsent, SrState.emit_cache, hqueue]
  show ¬ Ends _ _ (srArpreqHandle sr ((s.emit (.forwarded [])).withCache _) s.cache.brk)
  have hhandle := srArpreqHandle_empty sr (s.emit (.forwarded [])) s.cache rt.gw
  rw [hhandle]
  split
  · simp [Ends]
  · intro hends
    exact hends ⟨s.cache.brk, rt.gw, 0, 0, []⟩ (by simp) rfl

/-- A step that queues nothing leaves a request without a packet, or reads its first packet. -/
theorem srStep_queuesNothing (haddrs : AddrsOk s.cache) {i : SrInput}
    (hi : QueuesNothing sr s i) :
    ¬ Ends (fun s' => ∀ r ∈ s'.cache.requests, r.packets ≠ []) (· ≠ .nullPackets)
      (srStep sr s i) := by
  cases i with
  | timeout now mem => exact hi.elim
  | frame interface packet now mem =>
      obtain ⟨p, rt, hfwd, hempty, hrt, habsent, hnew⟩ := hi
      show ¬ Ends _ _
        (srHandlepacket sr (s.tick (.frame interface packet now mem)) interface packet)
      rw [srHandlepacket_forwarded hfwd]
      exact forwardToNextHop_empty (s := (s.tick (.frame interface packet now mem)).emit _) haddrs
        hempty hrt habsent hnew

end Lose

/-! ## Every run -/

/-- **When every pending request has a packet.** Every state that a run reaches has a packet on
each request, and the run does not stop at the read of a missing one, if and only if no step of
the run queues nothing. -/
theorem queueWaits_iff (sr : SrConfig) (inputs : List SrInput) :
    (∀ past later, inputs = past ++ later →
      Ends (fun s => ∀ r ∈ s.cache.requests, r.packets ≠ []) (· ≠ .nullPackets)
        (srRun sr past)) ↔
      Along (srStep sr) srInit (fun _ s i => ¬ QueuesNothing sr s i) inputs := by
  constructor
  · intro h past i later hsplit s hs hi
    have hstep := h (past ++ [i]) later (by simp [hsplit])
    have haddrs : AddrsOk s.cache :=
      (srRun_queueRule (P := fun _ => True) trivial (fun _ _ _ => trivial)
        (fun _ _ _ _ _ _ _ => trivial) hs).1
    have hone : srRun sr (past ++ [i]) = srStep sr s i := by
      unfold srRun run
      rw [List.foldlM_append]
      show (srRun sr past >>= _) = _
      rw [show srRun sr past = .ok s from hs]
      cases hi : srStep sr s i <;> simp [bind, Except.bind, pure, Except.pure, hi]
    rw [hone] at hstep
    exact srStep_queuesNothing haddrs hi hstep
  · rintro h past later rfl
    have hinit : QueueWaits srInit.cache := ⟨addrsOk_init, by simp [srInit, srArpcacheInit]⟩
    have hpast : Along (srStep sr) srInit (fun _ s i => ¬ QueuesNothing sr s i) past := by
      intro before x after hsplit
      exact h before x (after ++ later) (by simp [hsplit])
    have hends : Ends (fun s => QueueWaits s.cache) (· ≠ .nullPackets) (srRun sr past) :=
      ends_run_along (R := fun s : SrState => QueueWaits s.cache) hinit
        (fun _ _ _ _ hs hi => srStep_waits hs hi) hpast
    exact hends.imp fun s hs => hs.packets

/-- A bare header whose `ip_len` is zero. -/
def emptyFrame : Bytes :=
  let frame := store (clientFrame 64 (dotted 192 168 2 2)) 16 [0, 0]
  let frame := store frame 24 [0, 0]
  store frame 24 (bytes16 (cksum (slice frame 14 20)))

/-- It makes the router ask for the gateway on behalf of nobody. -/
theorem queueWaits_emptyFrame :
    ¬ ∀ sr inputs, Ends (fun s => ∀ r ∈ s.cache.requests, r.packets ≠ []) (· ≠ .nullPackets)
      (srRun sr inputs) := by
  intro h
  have hfault : srRun rtableConfig [.frame "eth3" emptyFrame 5 srInit.mem]
      = .error .nullPackets := eq_error_of_check (by decide +kernel)
  exact (h rtableConfig _).error hfault rfl

end NetworkProjects.Router
