import NetworkProjects.Router.QueueMoves
import NetworkProjects.Router.Accounting
import NetworkProjects.Lib.Batches

/-!
# In which order datagrams leave for one next hop

For each gateway the router is a buffer that is emptied in batches: a datagram goes out at once if
the gateway is in the cache, and then nothing waits for it; else it is put in front of the packets
of the gateway's request; and an ARP frame from the gateway sends the whole list, newest first.
`hopRun` says so for every run, with the steps of the router as the steps of the buffer.

A datagram belongs to the gateway of the route that `FillAndSendPkt` looks up for it. That is the
route of its own destination address, except for a copy that is too short to hold one.
-/

namespace NetworkProjects.Router

open NetworkProjects.Lib

variable {sr : SrConfig} {s₀ s s' : SrState} {i : SrInput} {g : InAddr}

/-! ## Datagrams and their next hop

What arrives for a gateway is read off the input, and what is sent to it off the history, so neither
depends on how the router keeps its queue. -/

/-- The gateway of an address. -/
def nextHop (sr : SrConfig) (addr : InAddr) : Option InAddr :=
  (longestPrefixMatch sr addr).map SrRt.gw

/-- The next hop of the datagram that a frame makes the router forward. -/
def forwardedHop (sr : SrConfig) : SrInput → Option InAddr
  | .frame _ packet _ _ =>
      (forwardedFrame sr packet).bind fun p => nextHop sr (ipDst (ipHeader (forwardEdits p)))
  | .timeout _ _ => none

/-- The datagram for `g` that arrives. -/
def arrivalFor (sr : SrConfig) (g : InAddr) : SrInput → Option Bytes
  | .frame interface packet now mem =>
      if forwardedHop sr (.frame interface packet now mem) = some g then
        (forwardedFrame sr packet).map fun p => fwdIpPkt p mem.beyond
      else none
  | .timeout _ _ => none

/-- The datagrams for `g` that are transmitted in the step from `s` to `s'`: the one that has just
arrived goes to its own next hop, those that have waited to that of their destination. -/
def sentTo (sr : SrConfig) (g : InAddr) (s : SrState) (i : SrInput) (s' : SrState) : List Bytes :=
  (sentOut (s'.history.drop s.history.length)).filter fun d =>
    ((forwardedHop sr i).or (nextHop sr (ipDst d))) = some g

/-- What arrives for `g` and what is sent to it, step by step. -/
def hopTrace (sr : SrConfig) (g : InAddr) :
    SrState → List SrInput → List (Option Bytes × List Bytes)
  | _, [] => []
  | s, i :: is =>
      match srStep sr s i with
      | .error _ => []
      | .ok s' => (arrivalFor sr g i, sentTo sr g s i s') :: hopTrace sr g s' is

/-- The datagrams that wait for `g`, newest first. -/
def waitingFor (g : InAddr) (requests : List SrArpreq) : List Bytes :=
  (requests.filter fun r => r.ip = g).flatMap SrArpreq.datagrams

/-! ## The waiting list of one next hop

Requests are for different gateways, so the list of a gateway is the packets of one request. A
function that handles another request leaves it alone. -/

theorem waitingFor_append (xs ys : List SrArpreq) :
    waitingFor g (xs ++ ys) = waitingFor g xs ++ waitingFor g ys := by
  simp [waitingFor]

theorem waitingFor_cons (r : SrArpreq) (rs : List SrArpreq) :
    waitingFor g (r :: rs) = (if r.ip = g then r.datagrams else []) ++ waitingFor g rs := by
  unfold waitingFor
  by_cases h : r.ip = g <;> simp [h]

/-- Nobody waits for an IP without a request. -/
theorem waitingFor_eq_nil {rs : List SrArpreq} (h : ∀ r ∈ rs, r.ip ≠ g) : waitingFor g rs = [] := by
  unfold waitingFor
  rw [List.filter_eq_nil_iff.mpr (by simpa using h)]
  rfl

/-- The waiting list of a request's own IP is its packets: no other request has that IP. -/
theorem waitingFor_split {before after : List SrArpreq} {r : SrArpreq}
    (hnd : ((before ++ r :: after).map SrArpreq.ip).Nodup) :
    waitingFor r.ip before = [] ∧ waitingFor r.ip after = [] := by
  rw [List.map_append, List.map_cons, List.nodup_middle, List.nodup_cons] at hnd
  have hne : ∀ x ∈ before ++ after, x.ip ≠ r.ip := by
    intro x hx heq
    apply hnd.1
    rw [← List.map_append, ← heq]
    exact List.mem_map_of_mem hx
  exact ⟨waitingFor_eq_nil fun x hx => hne x (by simp [hx]),
    waitingFor_eq_nil fun x hx => hne x (by simp [hx])⟩

/-- Handling a request leaves every waiting list as it is, unless the request is given up. -/
theorem srArpreqHandle_waitingFor {addr : Nat} (haddrs : AddrsOk s.cache)
    (hkeys : KeysOk s.cache) (h : srArpreqHandle sr s addr = .ok s') :
    sentOut s'.history = sentOut s.history ∧
    ∃ r ∈ s.cache.requests, r.addr = addr ∧
      ∀ g, waitingFor g s'.cache.requests = waitingFor g s.cache.requests ∨
        (r.ip = g ∧ r.sent + 1 < s.clock ∧ 5 ≤ r.timesSent ∧
          waitingFor g s'.cache.requests = []) := by
  obtain ⟨before, r, after, hsplit, rfl⟩ := exists_split_of_srArpreqHandle h
  have hr : r ∈ s.cache.requests := by simp [hsplit]
  have hnd := hkeys.request_unique
  rw [hsplit] at hnd
  rcases srArpreqHandle_cases hsplit haddrs.nodup h with
    ⟨-, rfl⟩ | ⟨hdue, hfive, rfl⟩ | ⟨-, -, iface, frame, rfl⟩
  · exact ⟨rfl, r, hr, rfl, fun g => .inl rfl⟩
  · refine ⟨by simp [sentOut, SrEvent.sent], r, hr, rfl, ?_⟩
    intro g
    by_cases hip : r.ip = g
    · obtain ⟨hbefore, hafter⟩ := waitingFor_split hnd
      refine .inr ⟨hip, hdue, hfive, ?_⟩
      subst hip
      simp [waitingFor_append, hbefore, hafter]
    · refine .inl ?_
      simp [hsplit, waitingFor_append, waitingFor_cons, hip]
  · refine ⟨by simp [sentOut, SrEvent.sent], r, hr, rfl, ?_⟩
    intro g
    refine .inl ?_
    simp [hsplit, waitingFor_append, waitingFor_cons, SrArpreq.datagrams]

/-- A queued packet is put in front of those that wait for the same IP. -/
theorem srArpcacheQueuereq_waitingFor {c : SrArpcache} (haddrs : AddrsOk c) (hkeys : KeysOk c)
    (ip : InAddr) (packet : Bytes) (iface : String) :
    (∀ g, waitingFor g (srArpcacheQueuereq c ip packet iface).1.requests
      = (if ip = g then (queuedPackets packet iface).map SrPacket.buf else [])
        ++ waitingFor g c.requests) ∧
    ∀ r ∈ (srArpcacheQueuereq c ip packet iface).1.requests,
      r.addr = (srArpcacheQueuereq c ip packet iface).2 → r.ip = ip ∧
        ((∃ r₀ ∈ c.requests, r₀.ip = ip ∧ r.sent = r₀.sent ∧ r.timesSent = r₀.timesSent) ∨
          r.timesSent = 0) := by
  have haddrs' := haddrs.queue ip packet iface
  -- the packet goes in front, of its own request or of none
  rcases srArpcacheQueuereq_split haddrs ip packet iface with
    ⟨before, r, after, hsplit, rfl, heq⟩ | ⟨hnew, heq⟩
  · have hnd := hkeys.request_unique
    rw [hsplit] at hnd
    obtain ⟨hbefore, hafter⟩ := waitingFor_split hnd
    rw [heq] at haddrs' ⊢
    refine ⟨?_, ?_⟩
    · intro g
      by_cases hip : r.ip = g
      · subst hip
        simp [hsplit, waitingFor_append, waitingFor_cons, hbefore, hafter, SrArpreq.datagrams]
      · simp [hsplit, waitingFor_append, waitingFor_cons, hip]
    · intro x hx haddr
      obtain ⟨hb, ha⟩ := addr_ne_of_split haddrs'.nodup
      rcases List.mem_append.mp hx with hx | hx
      · exact absurd haddr (hb x hx)
      · rcases List.mem_cons.mp hx with rfl | hx
        · exact ⟨rfl, .inl ⟨r, by simp [hsplit], rfl, rfl, rfl⟩⟩
        · exact absurd haddr (ha x hx)
  · rw [heq] at haddrs' ⊢
    refine ⟨fun g => by simp [waitingFor_cons, SrArpreq.datagrams], ?_⟩
    intro x hx haddr
    rcases List.mem_cons.mp hx with rfl | hx
    · exact ⟨rfl, .inr rfl⟩
    · exact absurd haddr (Nat.ne_of_lt (haddrs.lt_brk x hx))

/-- `FillAndSendPkt` transmits a datagram at once if its gateway is in the cache. If not, the
datagram is put in front of those that wait for the gateway, unless it is empty, and all of them
are discarded if their request is given up. -/
theorem fillAndSendPkt_waitingFor {d : Bytes} {dip : InAddr} (haddrs : AddrsOk s.cache)
    (hkeys : KeysOk s.cache) (h : fillAndSendPkt sr s d dip .ip = .ok s') :
    ∃ hop, nextHop sr dip = some hop ∧
      ((waitingFor hop s.cache.requests = [] ∧ s'.cache = s.cache ∧
          sentOut s'.history = sentOut s.history ++ [d]) ∨
        (sentOut s'.history = sentOut s.history ∧
          (∀ g, g ≠ hop → waitingFor g s'.cache.requests = waitingFor g s.cache.requests) ∧
          (waitingFor hop s'.cache.requests = waitingFor hop s.cache.requests ∨
            waitingFor hop s'.cache.requests = d :: waitingFor hop s.cache.requests ∨
            waitingFor hop s'.cache.requests = []))) := by
  obtain ⟨rt, hrt, hcases⟩ := fillAndSendPkt_ip_cases h
  refine ⟨rt.gw, by rw [nextHop, hrt]; rfl, ?_⟩
  rcases hcases with ⟨e, j, he, -, rfl⟩ | ⟨habsent, hhandle⟩
  · -- an entry: nothing can be waiting for the hop
    refine .inl ⟨?_, rfl, by simp [sentOut, SrEvent.sent, ipHeader_ethFrame]⟩
    obtain ⟨k, rfl, hvalid, hip⟩ := srArpcacheLookup_eq_some he
    apply waitingFor_eq_nil
    rw [← hip]
    exact hkeys.exclusive k hvalid
  · have hkeys' := hkeys.queuereq haddrs habsent d rt.interface
    obtain ⟨hwait, hptr⟩ := srArpcacheQueuereq_waitingFor haddrs hkeys rt.gw d rt.interface
    obtain ⟨hsent, r, hr, haddr, hcases⟩ :=
      srArpreqHandle_waitingFor (s := s.withCache _) (haddrs.queue _ _ _) hkeys' hhandle
    obtain ⟨hip, -⟩ := hptr r hr haddr
    refine .inr ⟨hsent, ?_, ?_⟩
    · intro g hg
      rcases hcases g with hsame | ⟨hrg, -⟩
      · rw [hsame, SrState.withCache_cache, hwait g, if_neg hg.symm, List.nil_append]
      · exact absurd (hrg.symm.trans hip) hg
    · rcases hcases rt.gw with hsame | ⟨-, -, -, hnil⟩
      · rw [hsame, SrState.withCache_cache, hwait rt.gw, if_pos rfl]
        unfold queuedPackets
        split
        · exact .inr (.inl rfl)
        · exact .inl rfl
      · exact .inr (.inr hnil)

/-! ## Flushing a request

A flush hands each packet to `FillAndSendPkt` again. If the gateway has got an entry, each is sent.
If the cache was full, each is queued on a new request, and the list comes out reversed. -/

theorem srArpcacheLookup_congr {c c' : SrArpcache} (h : c'.entries = c.entries) (ip : InAddr) :
    srArpcacheLookup c' ip = srArpcacheLookup c ip := by
  unfold srArpcacheLookup
  rw [h]

theorem nextHop_eq_some {addr : InAddr} (h : nextHop sr addr = some g) :
    ∃ rt, longestPrefixMatch sr addr = some rt ∧ rt.gw = g := Option.map_eq_some_iff.mp h

/-- The packet is transmitted to `mac`, on the interface of its route. -/
def SentTo (sr : SrConfig) (mac : EtherAddr) (p : SrPacket) (e : SrEvent) : Prop :=
  ∃ rt i, longestPrefixMatch sr (ipDst p.buf) = some rt ∧
    srGetInterface sr rt.interface = some i ∧
    e = .transmitted (.fillAndSendPkt .ip) rt.interface (ethFrame mac i.addr .ip p.buf)

/-- A gateway in the cache gets all packets of the request, each once and to its address. -/
theorem srArpreqSendPackets_sent {e : SrArpentry} {ps : List SrPacket}
    (hhop : ∀ p ∈ ps, sizeofIpHdr ≤ p.buf.length → nextHop sr (ipDst p.buf) = some g)
    (he : srArpcacheLookup s.cache g = some e) (h : srArpreqSendPackets sr s ps = .ok s') :
    ∃ es, s' = { s with history := s.history ++ es } ∧ List.Forall₂ (SentTo sr e.mac) ps es := by
  induction ps generalizing s with
  | nil =>
      cases h
      exact ⟨[], by simp, .nil⟩
  | cons cur next ih =>
      obtain ⟨hlen, s₁, hs₁, h⟩ := srArpreqSendPackets_cons.mp h
      obtain ⟨rt, hrt, rfl⟩ := nextHop_eq_some (hhop cur (by simp) hlen)
      obtain ⟨rt', hrt', ⟨e', i, he', hi, rfl⟩ | ⟨hnone, -⟩⟩ := fillAndSendPkt_ip_cases hs₁
      · rw [hrt] at hrt'
        cases hrt'
        rw [he] at he'
        cases he'
        obtain ⟨es, rfl, hall⟩ := ih (fun p hp => hhop p (by simp [hp])) (by exact he) h
        exact ⟨_ :: es, by simp [SrState.emit], .cons ⟨rt, i, hrt, hi, rfl⟩ hall⟩
      · rw [hrt] at hrt'
        cases hrt'
        rw [he] at hnone
        cases hnone

theorem sentOut_of_sentTo {mac : EtherAddr} {ps : List SrPacket} {es : List SrEvent}
    (h : List.Forall₂ (SentTo sr mac) ps es) : sentOut es = ps.map SrPacket.buf := by
  induction h with
  | nil => rfl
  | cons hfirst _ ih =>
      obtain ⟨rt, i, -, -, rfl⟩ := hfirst
      rw [← List.singleton_append, sentOut_append, ih]
      simp [sentOut, SrEvent.sent, ipHeader_ethFrame]

/-- The request cannot be given up at `now`. -/
def Settled (now : Nat) (r : SrArpreq) : Prop := r.timesSent = 0 ∨ ¬ r.sent + 1 < now

/-- What a flush without an entry for `g` starts from, and keeps. -/
structure Requeueing (g : InAddr) (s : SrState) : Prop where
  addrs : AddrsOk s.cache
  keys : KeysOk s.cache
  absent : srArpcacheLookup s.cache g = none
  settled : ∀ r ∈ s.cache.requests, r.ip = g → Settled s.clock r

/-- A packet of the request goes back to the queue. -/
theorem Requeueing.fill {d : Bytes} (h : Requeueing g s) (hlen : sizeofIpHdr ≤ d.length)
    (hhop : nextHop sr (ipDst d) = some g) (hfill : fillAndSendPkt sr s d (ipDst d) .ip = .ok s') :
    Requeueing g s' ∧ sentOut s'.history = sentOut s.history ∧
      (∀ g', g' ≠ g → waitingFor g' s'.cache.requests = waitingFor g' s.cache.requests) ∧
      waitingFor g s'.cache.requests = d :: waitingFor g s.cache.requests := by
  obtain ⟨rt, hrt, rfl⟩ := nextHop_eq_some hhop
  obtain ⟨rt', hrt', ⟨e, j, he, -, rfl⟩ | ⟨-, hhandle⟩⟩ := fillAndSendPkt_ip_cases hfill
  · rw [hrt] at hrt'
    cases hrt'
    rw [h.absent] at he
    cases he
  · rw [hrt] at hrt'
    cases hrt'
    have haddrs := h.addrs.queue rt.gw d rt.interface
    have hkeys := h.keys.queuereq h.addrs h.absent d rt.interface
    obtain ⟨hwait, hptr⟩ := srArpcacheQueuereq_waitingFor h.addrs h.keys rt.gw d rt.interface
    have hd : d ≠ [] := List.ne_nil_of_length_pos (Nat.lt_of_lt_of_le (by decide) hlen)
    -- the handler runs at once on the request: one that is settled it leaves alone
    have hsettled : ∀ r ∈ (srArpcacheQueuereq s.cache rt.gw d rt.interface).1.requests,
        r.ip = rt.gw → Settled s.clock r := by
      intro r hr hip
      rcases mem_srArpcacheQueuereq h.addrs hd hr with ⟨-, hr⟩ | ⟨-, ⟨r₀, hr₀, hip₀, rfl⟩ | rfl⟩
      · exact h.settled r hr hip
      · exact h.settled r₀ hr₀ hip₀
      · exact .inl rfl
    obtain ⟨hsent, r, hr, haddr, hcases⟩ :=
      srArpreqHandle_waitingFor (s := s.withCache _) haddrs hkeys hhandle
    have hip := (hptr r hr haddr).1
    obtain ⟨hentries, -, hclock, -⟩ := srArpreqHandle_sublist (s := s.withCache _) haddrs hhandle
    rw [SrState.withCache_cache, srArpcacheQueuereq_entries] at hentries
    refine ⟨⟨haddrs.handle (s := s.withCache _) hhandle,
      hkeys.handle (s := s.withCache _) haddrs hhandle, ?_, ?_⟩, hsent, ?_, ?_⟩
    · rw [srArpcacheLookup_congr hentries]
      exact h.absent
    · rw [hclock]
      refine srArpreqHandle_forall (s := s.withCache _) haddrs (fun x hx _ => hsettled x hx)
        (fun x hx _ _ => hsettled x hx) ?_ hhandle
      intro x hx _ _ _
      exact .inr (Nat.not_lt.mpr (Nat.le_succ _))
    · intro g' hg'
      rcases hcases g' with hsame | ⟨hrg, -⟩
      · rw [hsame, SrState.withCache_cache, hwait g', if_neg hg'.symm, List.nil_append]
      · exact absurd (hrg.symm.trans hip) hg'
    · rcases hcases rt.gw with hsame | ⟨-, hdue, hfive, -⟩
      · rw [hsame, SrState.withCache_cache, hwait rt.gw, if_pos rfl, queuedPackets,
          if_pos (by simpa using hd)]
        rfl
      · -- it has just been sent, or never
        rcases hsettled r hr hip with hzero | hnot
        · omega
        · exact absurd hdue hnot

/-- Without an entry for the gateway all packets of the request go back, in reverse. -/
theorem srArpreqSendPackets_requeue :
    ∀ {ps : List SrPacket} {s : SrState},
      (∀ p ∈ ps, sizeofIpHdr ≤ p.buf.length → nextHop sr (ipDst p.buf) = some g) →
      Requeueing g s → srArpreqSendPackets sr s ps = .ok s' →
      sentOut s'.history = sentOut s.history ∧
        (∀ g', g' ≠ g → waitingFor g' s'.cache.requests = waitingFor g' s.cache.requests) ∧
        waitingFor g s'.cache.requests
          = (ps.map SrPacket.buf).reverse ++ waitingFor g s.cache.requests
  | [], s, _, _, h => by
      cases h
      simp
  | cur :: next, s, hhop, hreq, h => by
      obtain ⟨hlong, s₁, hs₁, h⟩ := srArpreqSendPackets_cons.mp h
      obtain ⟨hreq₁, hsent₁, hother₁, hself₁⟩ := hreq.fill hlong (hhop cur (by simp) hlong) hs₁
      obtain ⟨hsent, hother, hself⟩ :=
        srArpreqSendPackets_requeue (fun p hp => hhop p (by simp [hp])) hreq₁ h
      refine ⟨hsent.trans hsent₁, ?_, ?_⟩
      · intro g' hg'
        rw [hother g' hg', hother₁ g' hg']
      · rw [hself, hself₁]
        simp

/-! ## One step

A step is one move of the buffer: a datagram is held or passes, a list is flushed, turned round, or
dropped. The cases are those of the dispatch. -/

/-- Keys are unique, and long packets wait for the gateway of their own destination. -/
structure HopsOk (sr : SrConfig) (c : SrArpcache) : Prop where
  keys : KeysOk c
  routed : ∀ r ∈ c.requests, ∀ p ∈ r.packets, sizeofIpHdr ≤ p.buf.length →
    nextHop sr (ipDst p.buf) = some r.ip

/-- What an ARP frame from `ip` does: the datagrams that waited for `ip` go out, or back to the
queue in reverse, or nothing changes. -/
structure Answered (sr : SrConfig) (ip : InAddr) (s s' : SrState) (batch : List Bytes) : Prop where
  sent : sentOut s'.history = sentOut s.history ++ batch
  hop : ∀ d ∈ batch, nextHop sr (ipDst d) = some ip
  other : ∀ g, g ≠ ip → waitingFor g s'.cache.requests = waitingFor g s.cache.requests
  self : (batch = waitingFor ip s.cache.requests ∧ waitingFor ip s'.cache.requests = []) ∨
    (batch = [] ∧
      (waitingFor ip s'.cache.requests = (waitingFor ip s.cache.requests).reverse ∨
        waitingFor ip s'.cache.requests = waitingFor ip s.cache.requests))

/-- A flush that ends well has read a destination address in every packet. -/
theorem length_of_srArpreqSendPackets :
    ∀ {ps : List SrPacket} {s : SrState}, srArpreqSendPackets sr s ps = .ok s' →
      ∀ p ∈ ps, sizeofIpHdr ≤ p.buf.length
  | [], _, _ => by simp
  | cur :: next, s, h => by
      obtain ⟨hlong, s₁, -, h⟩ := srArpreqSendPackets_cons.mp h
      intro p hp
      rcases List.mem_cons.mp hp with rfl | hp
      · exact hlong
      · exact length_of_srArpreqSendPackets h p hp

theorem learnMapping_answered {mac : EtherAddr} {ip : InAddr} (haddrs : AddrsOk s.cache)
    (hok : HopsOk sr s.cache) (habsent : srArpcacheLookup s.cache ip = none)
    (h : learnMapping sr s mac ip = .ok s') : ∃ batch, Answered sr ip s s' batch := by
  rcases srArpcacheInsert_cases s.cache mac ip s.clock with
    ⟨before, r, after, hsplit, rfl, hreqs, hsome⟩ | ⟨hno, hreqs, hnone⟩
  · rw [learnMapping_some hsome] at h
    have hnd := hok.keys.request_unique
    rw [hsplit] at hnd
    obtain ⟨hbefore, hafter⟩ := waitingFor_split hnd
    have hself : waitingFor r.ip s.cache.requests = r.packets.map SrPacket.buf := by
      rw [hsplit, waitingFor_append, waitingFor_cons, hbefore, hafter, if_pos rfl]
      simp [SrArpreq.datagrams]
    have hrest : ∀ g, waitingFor g (srArpcacheInsert s.cache mac r.ip s.clock).1.requests
        = if g = r.ip then [] else waitingFor g s.cache.requests := by
      intro g
      rw [hreqs, hsplit]
      split
      · next hg => rw [hg, waitingFor_append, hbefore, hafter, List.append_nil]
      · next hg =>
        rw [waitingFor_append, waitingFor_append, waitingFor_cons, if_neg (Ne.symm hg),
          List.nil_append]
    have hhop : ∀ p ∈ r.packets, sizeofIpHdr ≤ p.buf.length →
        nextHop sr (ipDst p.buf) = some r.ip := hok.routed r (by simp [hsplit])
    cases hlookup : srArpcacheLookup (srArpcacheInsert s.cache mac r.ip s.clock).1 r.ip with
    | some e =>
        have hlong := length_of_srArpreqSendPackets h
        obtain ⟨es, rfl, hall⟩ := srArpreqSendPackets_sent hhop (by exact hlookup) h
        refine ⟨r.packets.map SrPacket.buf, ?_, ?_, ?_, ?_⟩
        · rw [sentOut_append, sentOut_of_sentTo hall]
          simp [sentOut, SrEvent.sent]
        · intro d hd
          obtain ⟨p, hp, rfl⟩ := List.mem_map.mp hd
          exact hhop p hp (hlong p hp)
        · intro g hg
          exact (hrest g).trans (if_neg hg)
        · exact .inl ⟨hself.symm, (hrest r.ip).trans (if_pos rfl)⟩
    | none =>
        have hreq : Requeueing r.ip ((s.withCache
            (srArpcacheInsert s.cache mac r.ip s.clock).1).emit (.answered r)) := by
          refine ⟨haddrs.insert _ _ _, hok.keys.insert habsent _ _, hlookup, ?_⟩
          -- the only request for the IP has left
          intro x hx hip
          exact absurd hip (hok.keys.ip_ne_of_split hsplit x (hreqs ▸ hx))
        obtain ⟨hsent, hother, hback⟩ := srArpreqSendPackets_requeue hhop hreq h
        refine ⟨[], ?_, by simp, ?_, ?_⟩
        · rw [hsent]
          simp [sentOut, SrEvent.sent]
        · intro g hg
          rw [hother g hg, SrState.emit_cache, SrState.withCache_cache, hrest, if_neg hg]
        · refine .inr ⟨rfl, .inl ?_⟩
          rw [hback, SrState.emit_cache, SrState.withCache_cache, hrest, if_pos rfl, hself,
            List.append_nil]
  · rw [learnMapping_none hnone] at h
    cases h
    refine ⟨[], by simp, by simp, ?_, ?_⟩
    · intro g _
      rw [SrState.withCache_cache, hreqs]
    · exact .inr ⟨rfl, .inr (by rw [SrState.withCache_cache, hreqs])⟩

theorem handleArp_answered {interface : String} {packet : Bytes} (haddrs : AddrsOk s.cache)
    (hok : HopsOk sr s.cache) (h : handleArp sr s interface packet = .ok s') :
    ∃ ip batch, Answered sr ip s s' batch := by
  have hnothing : Answered sr 0 s s [] :=
    ⟨by simp, by simp, fun _ _ => rfl, .inr ⟨rfl, .inr rfl⟩⟩
  obtain rfl | ⟨recIf, s₁, -, hlearn, hanswer⟩ := handleArp_cases h
  · exact ⟨0, [], hnothing⟩
  have hlearned : ∃ ip batch, Answered sr ip s s₁ batch := by
    obtain rfl | ⟨habsent, hlearn⟩ := hlearn
    · exact ⟨0, [], hnothing⟩
    · exact ⟨_, learnMapping_answered haddrs hok habsent hlearn⟩
  obtain rfl | hanswer := hanswer
  · exact hlearned
  · obtain ⟨iface, dhost, shost, rfl⟩ := fillAndSendPktWith_arp_frame hanswer
    obtain ⟨ip, batch, hbatch⟩ := hlearned
    refine ⟨ip, batch, ?_, hbatch.hop, hbatch.other, hbatch.self⟩
    rw [← hbatch.sent]
    simp [sentOut, SrEvent.sent]

/-- What is sent in a step, from what has been sent before and after it. -/
theorem sentTo_eq {batch : List Bytes} (hgrows : s.history <+: s'.history)
    (hsent : sentOut s'.history = sentOut s.history ++ batch) :
    sentTo sr g s i s' = batch.filter fun d =>
      ((forwardedHop sr i).or (nextHop sr (ipDst d))) = some g := by
  obtain ⟨es, hes⟩ := hgrows
  rw [← hes, sentOut_append] at hsent
  rw [sentTo, ← hes, List.drop_left, List.append_cancel_left hsent]

/-- A frame that forwards nothing does what an ARP frame does, or less. -/
theorem bufferStep_of_answered {ip : InAddr} {batch : List Bytes}
    (hgrows : s.history <+: s'.history) (hhop : forwardedHop sr i = none)
    (harrival : arrivalFor sr g i = none) (h : Answered sr ip s s' batch) :
    BufferStep (waitingFor g s.cache.requests) (arrivalFor sr g i) (sentTo sr g s i s')
      (waitingFor g s'.cache.requests) := by
  rw [sentTo_eq hgrows h.sent, hhop, harrival]
  by_cases hg : g = ip
  · subst hg
    have hall : (batch.filter fun d => ((none : Option InAddr).or (nextHop sr (ipDst d))) = some g)
        = batch := by
      apply List.filter_eq_self.mpr
      intro d hd
      rw [h.hop d hd]
      simp
    rw [hall]
    -- sent and gone, sent and queued again, or untouched
    rcases h.self with ⟨hbatch, hempty⟩ | ⟨hbatch, hback | hsame⟩
    · rw [hbatch, hempty]
      exact .flush
    · rw [hbatch, hback]
      exact .requeue
    · rw [hbatch, hsame]
      exact .keep none
  · have hnone : (batch.filter fun d => ((none : Option InAddr).or (nextHop sr (ipDst d))) = some g)
        = [] := by
      apply List.filter_eq_nil_iff.mpr
      intro d hd
      rw [h.hop d hd]
      simpa using Ne.symm hg
    rw [hnone, h.other g hg]
    exact .keep none

/-- The sweep sends no datagram, and discards a waiting list as a whole. -/
theorem run_srArpreqHandle_waitingFor {addrs : List Nat} (haddrs : AddrsOk s.cache)
    (hkeys : KeysOk s.cache) (h : run (srArpreqHandle sr) s addrs = .ok s') :
    sentOut s'.history = sentOut s.history ∧
      ∀ g, waitingFor g s'.cache.requests = waitingFor g s.cache.requests ∨
        waitingFor g s'.cache.requests = [] := by
  have key := run_induction (P := fun _ t => (AddrsOk t.cache ∧ KeysOk t.cache) ∧
    sentOut t.history = sentOut s.history ∧
      ∀ g, waitingFor g t.cache.requests = waitingFor g s.cache.requests ∨
        waitingFor g t.cache.requests = []) ⟨⟨haddrs, hkeys⟩, rfl, fun g => .inl rfl⟩ ?_ h
  · exact key.2
  · rintro _ addr t t' _ ⟨⟨haddrs, hkeys⟩, hsent, hwait⟩ hstep
    obtain ⟨hsent', r, -, -, hcases⟩ := srArpreqHandle_waitingFor haddrs hkeys hstep
    refine ⟨⟨haddrs.handle hstep, hkeys.handle haddrs hstep⟩, hsent'.trans hsent, ?_⟩
    intro g
    rcases hcases g with hsame | ⟨-, -, -, hempty⟩
    · rw [hsame]
      exact hwait g
    · exact .inr hempty

/-- Forwarding a datagram. -/
theorem bufferStep_of_forward {d : Bytes} {dip : InAddr} (haddrs : AddrsOk s₀.cache)
    (hkeys : KeysOk s₀.cache) (hreqs : s₀.cache.requests = s.cache.requests)
    (hsent : sentOut s₀.history = sentOut s.history) (hgrows : s.history <+: s'.history)
    (hhop : forwardedHop sr i = nextHop sr dip)
    (harrival : arrivalFor sr g i = if nextHop sr dip = some g then some d else none)
    (h : fillAndSendPkt sr s₀ d dip .ip = .ok s') :
    BufferStep (waitingFor g s.cache.requests) (arrivalFor sr g i) (sentTo sr g s i s')
      (waitingFor g s'.cache.requests) := by
  obtain ⟨hop, hnext, ⟨hempty, hcache, hout⟩ | ⟨hout, hother, hself⟩⟩ :=
    fillAndSendPkt_waitingFor haddrs hkeys h
  · rw [hsent] at hout
    rw [sentTo_eq hgrows hout, hhop, harrival, hnext, hcache, hreqs]
    rw [hreqs] at hempty
    by_cases hg : hop = g
    · subst hg
      simp only [Option.some_or, if_true, hempty]
      exact .direct d
    · simp only [Option.some_or, Option.some.injEq, hg, if_false]
      exact .keep none
  · rw [hsent] at hout
    have hnothing : sentTo sr g s i s' = [] := by
      have hnone : sentOut s'.history = sentOut s.history ++ [] := by simpa using hout
      rw [sentTo_eq hgrows hnone]
      rfl
    rw [hnothing, harrival, hnext]
    rw [hreqs] at hother hself
    by_cases hg : hop = g
    · subst hg
      simp only [if_true]
      -- an empty datagram is not queued, and a request past its limit takes the queue with it
      rcases hself with hsame | hqueued | hempty
      · rw [hsame]
        exact .keep _
      · rw [hqueued]
        exact .hold d
      · rw [hempty]
        exact .drop _
    · rw [hother g (Ne.symm hg), if_neg (by simpa using hg)]
      exact .keep none

/-- Nothing is sent and nothing changes on the queue. -/
theorem Answered.of_same (hsent : sentOut s'.history = sentOut s.history)
    (hreqs : s'.cache.requests = s.cache.requests) : Answered sr 0 s s' [] where
  sent := by rw [hsent, List.append_nil]
  hop := by simp
  other := fun _ _ => by rw [hreqs]
  self := .inr ⟨rfl, .inr (by rw [hreqs])⟩

/-- Frames the router answers itself are no datagrams of others. -/
theorem srSendPacket_same {sender : SrSender} (hsender : sender ≠ .fillAndSendPkt .ip) (buf : Bytes)
    (iface : String) : sentOut (srSendPacket sr s sender buf iface).history = sentOut s.history ∧
      (srSendPacket sr s sender buf iface).cache = s.cache := by
  rcases srSendPacket_cases sr s sender buf iface with h | ⟨-, h⟩
  · rw [h]
    exact ⟨rfl, rfl⟩
  · rw [h]
    refine ⟨?_, rfl⟩
    have hquiet : SrEvent.Quiet (.transmitted sender iface buf) := hsender
    have hnone : SrEvent.sent (.transmitted sender iface buf) = [] :=
      (hquiet.unrecorded _ (by simp)).2.1
    rw [SrState.emit_history, sentOut_append]
    simp [sentOut, hnone]

/-- The IP branch forwards the frame, or answers it, or drops it. -/
theorem bufferStep_of_handleIp {interface : String} {packet : Bytes} {now : Nat} {mem : Memory}
    (haddrs : AddrsOk s.cache) (hkeys : KeysOk s.cache) (hgrows : s.history <+: s'.history)
    (hlen : ¬ packet.length < sizeofEthernetHdr)
    (htype : ethertype packet ≠ SrEthertype.arp.value)
    (h : handleIp sr ((s.tick (.frame interface packet now mem)).emit
      (.received interface packet)) interface packet = .ok s') :
    BufferStep (waitingFor g s.cache.requests)
      (arrivalFor sr g (.frame interface packet now mem))
      (sentTo sr g s (.frame interface packet now mem) s')
      (waitingFor g s'.cache.requests) := by
  -- all that is not forwarded leaves every queue as it is
  have hanswer : forwardedFrame sr packet = none →
      sentOut s'.history = sentOut (s.history ++ [.received interface packet]) →
      s'.cache = s.cache → BufferStep (waitingFor g s.cache.requests)
        (arrivalFor sr g (.frame interface packet now mem))
        (sentTo sr g s (.frame interface packet now mem) s')
        (waitingFor g s'.cache.requests) := by
    intro hnone hsent hcache
    refine bufferStep_of_answered hgrows (by simp [forwardedHop, hnone])
      (by simp [arrivalFor, hnone]) (.of_same ?_ (by rw [hcache]))
    rw [hsent]
    simp [sentOut, SrEvent.sent]
  rcases handleIp_cases h with ⟨hgate, rfl⟩ | ⟨p, hgate, ⟨hmatch, hanswered⟩ | ⟨hmatch, hforward⟩⟩
  · exact hanswer (by simp [forwardedFrame, hlen, htype, hgate]) rfl rfl
  · have hnone : forwardedFrame sr packet = none := by
      simp [forwardedFrame, hlen, htype, hgate, hmatch]
    obtain ⟨sender, buf, hmade, rfl⟩ := hanswered
    obtain ⟨hsent, hcache⟩ := srSendPacket_same hmade.sender_ne buf interface
    exact hanswer hnone hsent hcache
  · have hfwd : forwardedFrame sr packet = some p := by
      simp [forwardedFrame, hlen, htype, hgate, hmatch]
    refine bufferStep_of_forward (by exact haddrs) (by exact hkeys) (by rfl) ?_ hgrows ?_ ?_
      hforward
    · simp [sentOut, SrEvent.sent]
    · simp [forwardedHop, hfwd]
    · simp [arrivalFor, forwardedHop, hfwd]
      rfl

/-- **One step of the router is one step of the buffer of each next hop.** -/
theorem hopStep (haddrs : AddrsOk s.cache) (hok : HopsOk sr s.cache)
    (hstep : srStep sr s i = .ok s') (g : InAddr) :
    BufferStep (waitingFor g s.cache.requests) (arrivalFor sr g i) (sentTo sr g s i s')
      (waitingFor g s'.cache.requests) := by
  have hgrows : s.history <+: s'.history := by
    obtain ⟨es, hes, -⟩ := s.begun_history i
    exact List.IsPrefix.trans ⟨es, hes.symm⟩ (srStep_queueMoves haddrs hstep).history_grows
  cases i with
  | timeout now mem =>
      -- a sweep forwards nothing: the queue for `g` stays as it is or is given up as a whole
      have hsweep : srArpcacheSweepreqs sr (s.begun (.timeout now mem)) = .ok s' := hstep
      have haddrs' := haddrs.begun (.timeout now mem)
      rw [srArpcacheSweepreqs_eq haddrs'.nodup] at hsweep
      obtain ⟨hsent, hwait⟩ :=
        run_srArpreqHandle_waitingFor haddrs' (hok.keys.begun (.timeout now mem)) hsweep
      have hnothing : sentTo sr g s (.timeout now mem) s' = [] := by
        have hexpired : sentOut (expiredEvents now s.cache.entries) = [] := by
          apply List.flatMap_eq_nil_iff.mpr
          intro e he
          obtain ⟨j, -, rfl⟩ := List.mem_map.mp he
          rfl
        have hout : sentOut s'.history = sentOut s.history ++ [] := by
          rw [hsent, ← hexpired, ← sentOut_append]
          rfl
        rw [sentTo_eq hgrows hout]
        rfl
      rw [hnothing]
      rcases hwait g with hsame | hempty
      · rw [hsame, SrState.begun_requests]
        exact .keep _
      · rw [hempty]
        exact .drop _
  | frame interface packet now mem =>
      -- only an IP datagram for somebody else is an arrival; a short frame and an ARP frame are not
      have hframe : srHandlepacket sr (s.tick (.frame interface packet now mem)) interface packet
        = .ok s' := hstep
      unfold srHandlepacket at hframe
      simp only at hframe
      split at hframe
      · next hshort =>
        cases hframe
        have hnone : forwardedFrame sr packet = none := by simp [forwardedFrame, hshort]
        refine bufferStep_of_answered hgrows (by simp [forwardedHop, hnone])
          (by simp [arrivalFor, hnone]) (.of_same ?_ rfl)
        simp [sentOut, SrEvent.sent]
      · next hlen =>
        split at hframe
        · next htype =>
          have hnone : forwardedFrame sr packet = none := by simp [forwardedFrame, hlen, htype]
          obtain ⟨ip, batch, hbatch⟩ := handleArp_answered
            (s := (s.tick (.frame interface packet now mem)).emit _) haddrs hok hframe
          refine bufferStep_of_answered hgrows (by simp [forwardedHop, hnone])
            (by simp [arrivalFor, hnone]) ⟨?_, hbatch.hop, hbatch.other, hbatch.self⟩
          rw [hbatch.sent]
          simp [sentOut, SrEvent.sent]
        · next htype =>
          exact bufferStep_of_handleIp haddrs hok.keys hgrows hlen htype hframe

/-! ## Every run

The steps are put together, and the general theorem on buffers gives the order. -/

theorem HopsOk.queueMove (haddrs : AddrsOk s.cache) (h : HopsOk sr s.cache)
    (hmove : QueueMove sr s₀ i s s') : HopsOk sr s'.cache := by
  refine ⟨h.keys.queueMove haddrs hmove, ?_⟩
  cases hmove with
  | receive => exact h.routed
  | forward => exact h.routed
  | transmit => exact h.routed
  | @enqueue _ dip rt packet route own absent known =>
      intro r hr p hp hlong
      rcases mem_packets_of_queuereq haddrs hr hp with ⟨rfl, hip⟩ | ⟨r₀, hr₀, hip, hp⟩
      · rw [← own hlong, nextHop, route, hip]
        rfl
      · rw [← hip]
        exact h.routed r₀ hr₀ p hp hlong
  | @ask _ before after r hsplit =>
      have hrouted := h.routed
      rw [hsplit] at hrouted
      intro x hx
      rcases mem_split.mp hx with rfl | hx
      · exact hrouted r (by simp)
      · exact hrouted x (mem_split.mpr (.inr hx))
  | @giveUp _ before after r hsplit =>
      intro x hx
      apply h.routed x
      rw [hsplit]
      exact mem_split.mpr (.inr hx)
  | learn => exact fun r hr => h.routed r (srArpcacheInsert_subset r hr)
  | answer => exact fun r hr => h.routed r (srArpcacheInsert_subset r hr)

theorem hopsOk_of_srRun {inputs : List SrInput} (hrun : srRun sr inputs = .ok s) :
    AddrsOk s.cache ∧ HopsOk sr s.cache := by
  refine srRun_queueRule (P := fun s => HopsOk sr s.cache) ?_ ?_ ?_ hrun
  · exact ⟨(repInv_init sr).toKeysOk, by simp [srInit, srArpcacheInit]⟩
  · intro s i h
    exact ⟨h.keys.begun i, by simpa using h.routed⟩
  · intro s₀ i s s' haddrs h hmove
    exact h.queueMove haddrs hmove

/-- **From any reachable state on, the router is a buffer for each next hop**, emptied in
batches. -/
theorem hopRun_from {past later : List SrInput} {t : SrState} (hs : srRun sr past = .ok s)
    (h : run (srStep sr) s later = .ok t) (g : InAddr) :
    BufferRun (waitingFor g s.cache.requests) (hopTrace sr g s later)
      (waitingFor g t.cache.requests) := by
  induction later generalizing past s with
  | nil =>
      rw [run_nil] at h
      cases h
      exact .nil
  | cons i later ih =>
      obtain ⟨s₁, hs₁, hrest⟩ := run_cons.mp h
      obtain ⟨haddrs, hok⟩ := hopsOk_of_srRun hs
      simp only [hopTrace, hs₁]
      exact .cons (hopStep haddrs hok hs₁ g) (ih (run_snoc.mpr ⟨s, hs, hs₁⟩) hrest)

theorem hopRun {inputs : List SrInput} (hrun : srRun sr inputs = .ok s) (g : InAddr) :
    BufferRun [] (hopTrace sr g srInit inputs) (waitingFor g s.cache.requests) := by
  have hinit : srRun sr [] = .ok srInit := rfl
  exact hopRun_from hinit hrun g

/-- **Per-next-hop order.** In every run, the datagrams for one next hop are transmitted step by
step in the order in which they were received; in what order those leave that are transmitted in
the same step is left open by that, and is the order of the list they waited on. -/
theorem nextHop_order {inputs : List SrInput} {t : SrState} (hrun : srRun sr inputs = .ok t)
    (g : InAddr) :
    BufferRun [] (hopTrace sr g srInit inputs) (waitingFor g t.cache.requests) ∧
    ∃ sorted, List.Forall₂ List.Perm ((hopTrace sr g srInit inputs).map Prod.snd) sorted ∧
      sorted.flatten.Sublist (arrivals (hopTrace sr g srInit inputs)) :=
  ⟨hopRun hrun g, buffer_order (hopRun hrun g)⟩

theorem nextHop_order_queueAndFlush : ∃ t, srRun rtableConfig queueAndFlush = .ok t ∧
    (departures (hopTrace rtableConfig (dotted 192 168 2 2) srInit queueAndFlush)).length = 2 ∧
    BufferRun [] (hopTrace rtableConfig (dotted 192 168 2 2) srInit queueAndFlush)
      (waitingFor (dotted 192 168 2 2) t.cache.requests) ∧
    ∃ sorted, List.Forall₂ List.Perm
        ((hopTrace rtableConfig (dotted 192 168 2 2) srInit queueAndFlush).map Prod.snd) sorted ∧
      sorted.flatten.Sublist
        (arrivals (hopTrace rtableConfig (dotted 192 168 2 2) srInit queueAndFlush)) := by
  obtain ⟨t, hrun, -⟩ : ∃ t, srRun rtableConfig queueAndFlush = .ok t ∧
      (!t.history.isEmpty) = true := exists_ok_of_check (by decide +kernel)
  exact ⟨t, hrun, by decide +kernel, nextHop_order hrun _⟩

/-- Two datagrams wait for the server, and then it answers. -/
def twoWaiting : List SrInput :=
  [.frame "eth3" (clientFrame 64 (dotted 192 168 2 2)) 5 srInit.mem,
    .frame "eth3" (clientFrame 32 (dotted 192 168 2 2)) 5 srInit.mem,
    .frame "eth1" serverArpReply 6 srInit.mem]

/-- The one that was received last is transmitted first. -/
theorem not_inOrder_twoWaiting :
    ¬ ∀ sr inputs t g, srRun sr inputs = .ok t →
      (departures (hopTrace sr g srInit inputs)).Sublist
        (arrivals (hopTrace sr g srInit inputs)) := by
  intro h
  obtain ⟨t, hrun, -⟩ : ∃ t, srRun rtableConfig twoWaiting = .ok t ∧
      (!t.history.isEmpty) = true := exists_ok_of_check (by decide +kernel)
  have hsub := h rtableConfig twoWaiting t (dotted 192 168 2 2) hrun
  exact absurd hsub (by decide +kernel)

end NetworkProjects.Router
