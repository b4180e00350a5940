import NetworkProjects.Router.CacheInvariant

/-!
# What happens to the request queue, whatever is received

`Move` follows the datagrams of a step from hand to hand, which takes datagrams of at least
twenty bytes. The life of a request does not depend on what waits for it: `QueueMove sr` lists
everything that can happen to the queue and to the history, for any frame, and
`srStep_queueMoves` shows that a step of the router is a sequence of such moves. The relation
knows the input of the step and the state `s₀` its moves begin in: a frame is received first, and
what it teaches is learned at once.

Handling a request is two moves here, `ask` and `giveUp`, or none. A frame is transmitted with
its `Origin`: there are four kinds.
-/

namespace NetworkProjects.Router

open NetworkProjects.Lib

/-! ## Where frames come from

A frame is transmitted for one of four reasons, and each reason leaves something in the history or
the state that later proofs can use. -/

/-- `FillAndSendPkt` may be working on the datagram: `ForwardToNextHop` has handed it over, or
it waited on a request that was answered. -/
def Known (past : List SrEvent) (d : Bytes) : Prop :=
  .forwarded d ∈ past ∨ ∃ req, .answered req ∈ past ∧ ∃ p ∈ req.packets, p.buf = d

/-- What the call sites of `sr_send_packet` can hand to it. -/
inductive Origin (past : List SrEvent) : SrSender → Bytes → Prop
  | datagram {dhost shost : EtherAddr} {d : Bytes} (known : Known past d) :
      Origin past (.fillAndSendPkt .ip) (ethFrame dhost shost .ip d)
  | arp {dhost shost : EtherAddr} {payload : Bytes} :
      Origin past (.fillAndSendPkt .arp) (ethFrame dhost shost .arp payload)
  | echoReply {packet : Bytes} {heap : Nat → UInt8}
      (long : sizeofEthernetHdr + sizeofIpHdr + sizeofIcmpHdr ≤ packet.length) :
      Origin past .echoReply (echoReplyFrame packet heap)
  | portUnreachable {packet : Bytes} {i : SrIf} {mem : Memory} :
      Origin past .portUnreachable (portUnreachableFrame packet i mem)

theorem Answer.origin {s : SrState} {sender : SrSender} {buf : Bytes} (h : Answer s sender buf)
    {past : List SrEvent} : Origin past sender buf := by
  cases h with
  | echoReply long => exact .echoReply long
  | portUnreachable => exact .portUnreachable

/-! ## Moves -/

/-- The request has been sent once more. -/
def SrArpreq.resent (r : SrArpreq) (now : Nat) : SrArpreq :=
  { r with sent := now, timesSent := r.timesSent + 1 }

@[simp] theorem SrArpreq.resent_addr (r : SrArpreq) (now : Nat) : (r.resent now).addr = r.addr :=
  rfl
@[simp] theorem SrArpreq.resent_ip (r : SrArpreq) (now : Nat) : (r.resent now).ip = r.ip := rfl
@[simp] theorem SrArpreq.resent_sent (r : SrArpreq) (now : Nat) : (r.resent now).sent = now := rfl
@[simp] theorem SrArpreq.resent_timesSent (r : SrArpreq) (now : Nat) :
    (r.resent now).timesSent = r.timesSent + 1 := rfl
@[simp] theorem SrArpreq.resent_packets (r : SrArpreq) (now : Nat) :
    (r.resent now).packets = r.packets := rfl

/-- The state with other requests on the queue. -/
def SrState.withRequests (s : SrState) (requests : List SrArpreq) : SrState :=
  s.withCache { s.cache with requests := requests }

@[simp] theorem SrState.withRequests_requests (s : SrState) (rs : List SrArpreq) :
    (s.withRequests rs).cache.requests = rs := rfl
@[simp] theorem SrState.withRequests_entries (s : SrState) (rs : List SrArpreq) :
    (s.withRequests rs).cache.entries = s.cache.entries := rfl
@[simp] theorem SrState.withRequests_brk (s : SrState) (rs : List SrArpreq) :
    (s.withRequests rs).cache.brk = s.cache.brk := rfl
@[simp] theorem SrState.withRequests_clock (s : SrState) (rs : List SrArpreq) :
    (s.withRequests rs).clock = s.clock := rfl
@[simp] theorem SrState.withRequests_history (s : SrState) (rs : List SrArpreq) :
    (s.withRequests rs).history = s.history := rfl

/-- One move of the step that takes `i`. -/
inductive QueueMove (sr : SrConfig) (s₀ : SrState) (i : SrInput) : SrState → SrState → Prop
  | receive {interface : String} {packet : Bytes} {now : Nat} {mem : Memory}
      (input : i = .frame interface packet now mem) :
      QueueMove sr s₀ i s₀ (s₀.emit (.received interface packet))
  | forward {s : SrState} (d : Bytes) : QueueMove sr s₀ i s (s.emit (.forwarded d))
  | transmit {s : SrState} {sender : SrSender} {interface : String} {frame : Bytes}
      (origin : Origin s.history sender frame) :
      QueueMove sr s₀ i s (s.emit (.transmitted sender interface frame))
  /-- A datagram is queued for the gateway of the route that was looked up. -/
  | enqueue {s : SrState} {dip : InAddr} {rt : SrRt} {packet : Bytes}
      (route : longestPrefixMatch sr dip = some rt)
      (own : sizeofIpHdr ≤ packet.length → dip = ipDst packet)
      (absent : srArpcacheLookup s.cache rt.gw = none) (known : Known s.history packet) :
      QueueMove sr s₀ i s
        (s.withCache (srArpcacheQueuereq s.cache rt.gw packet rt.interface).1)
  /-- `send_arp_request` is called for a request and counted. -/
  | ask {s : SrState} {before after : List SrArpreq} {r : SrArpreq}
      (split : s.cache.requests = before ++ r :: after) (due : r.sent + 1 < s.clock)
      (below : r.timesSent < 5) (waiting : r.packets ≠ []) :
      QueueMove sr s₀ i s ((s.withRequests (before ++ r.resent s.clock :: after)).emit
        (.arpRequested r.addr s.clock))
  /-- A request has been sent five times and is destroyed. -/
  | giveUp {s : SrState} {before after : List SrArpreq} {r : SrArpreq}
      (split : s.cache.requests = before ++ r :: after) (due : r.sent + 1 < s.clock)
      (limit : 5 ≤ r.timesSent) :
      QueueMove sr s₀ i s ((s.withRequests (before ++ after)).emit (.destroyed r))
  /-- The sender of the ARP frame just received enters the cache; nobody waited for it. -/
  | learn {interface : String} {packet : Bytes} {now : Nat} {mem : Memory} {ip : InAddr}
      {mac : EtherAddr} (input : i = .frame interface packet now mem)
      (teaches : Teaches sr ip mac (.received interface packet))
      (absent : srArpcacheLookup s₀.cache ip = none)
      (unawaited : (srArpcacheInsert s₀.cache mac ip s₀.clock).2 = none) :
      QueueMove sr s₀ i (s₀.emit (.received interface packet))
        ((s₀.emit (.received interface packet)).withCache
          (srArpcacheInsert s₀.cache mac ip s₀.clock).1)
  /-- The same, and the request that waited for it leaves the queue. -/
  | answer {interface : String} {packet : Bytes} {now : Nat} {mem : Memory} {ip : InAddr}
      {mac : EtherAddr} {req : SrArpreq} (input : i = .frame interface packet now mem)
      (teaches : Teaches sr ip mac (.received interface packet))
      (absent : srArpcacheLookup s₀.cache ip = none)
      (awaited : (srArpcacheInsert s₀.cache mac ip s₀.clock).2 = some req) :
      QueueMove sr s₀ i (s₀.emit (.received interface packet))
        (((s₀.emit (.received interface packet)).withCache
          (srArpcacheInsert s₀.cache mac ip s₀.clock).1).emit (.answered req))

/-- Any number of moves. -/
abbrev QueueMoves (sr : SrConfig) (s₀ : SrState) (i : SrInput) :=
  Relation.ReflTransGen (QueueMove sr s₀ i)

/-! ## The code's functions as moves

One lemma for each function, on any frame. A request that is not due gives no move at all. -/

section Functions

variable {sr : SrConfig} {s₀ s s' : SrState} {i : SrInput}

theorem srSendPacket_queueMoves {sender : SrSender} {buf : Bytes} (iface : String)
    (horigin : Origin s.history sender buf) :
    QueueMoves sr s₀ i s (srSendPacket sr s sender buf iface) := by
  rcases srSendPacket_cases sr s sender buf iface with h | ⟨-, h⟩
  · rw [h]
  · rw [h]
    exact .single (.transmit horigin)

/-- An ARP packet is transmitted in a frame of its own type. -/
theorem fillAndSendPktWith_arp_frame {handle : SrState → Nat → Except Fault SrState}
    {packet : Bytes} {dip : InAddr}
    (h : fillAndSendPktWith handle sr s packet dip .arp = .ok s') :
    ∃ iface dhost shost, s' = s.emit (.transmitted (.fillAndSendPkt .arp) iface
      (ethFrame dhost shost .arp packet)) := by
  unfold fillAndSendPktWith at h
  split at h
  · cases h
  · next rt hrt =>
    simp only [or_true, if_true] at h
    split at h
    · cases h
    · cases h
    · next dhost i hd hi =>
      cases h
      exact ⟨_, _, _, srSendPacket_ethFrame hi _ _ _ _⟩

/-- `send_arp_request` needs a waiting packet, and transmits one ARP frame. -/
theorem sendArpRequest_frame {req : SrArpreq} (h : sendArpRequest sr s req = .ok s') :
    req.packets ≠ [] ∧ ∃ iface dhost shost payload,
      s' = (s.emit (.arpRequested req.addr s.clock)).emit
        (.transmitted (.fillAndSendPkt .arp) iface (ethFrame dhost shost .arp payload)) := by
  unfold sendArpRequest at h
  split at h
  · cases h
  · next packet rest hpackets =>
    split at h
    · cases h
    · obtain ⟨iface, dhost, shost, hs'⟩ := fillAndSendPktWith_arp_frame h
      exact ⟨by simp [hpackets], iface, dhost, shost, _, hs'⟩

/-- A request that is handled is left alone, sent for once more, or given up. -/
theorem srArpreqHandle_queueMoves {addr : Nat} (haddrs : AddrsOk s.cache)
    (h : srArpreqHandle sr s addr = .ok s') : QueueMoves sr s₀ i s s' := by
  obtain ⟨before, r, after, hsplit, rfl⟩ := exists_split_of_srArpreqHandle h
  have hnd := haddrs.nodup
  rw [hsplit] at hnd
  have hderef : derefReq s.cache.requests r.addr = some r := by
    rw [hsplit]
    exact derefReq_split hnd
  simp only [srArpreqHandle, hderef] at h
  split at h
  · next hdue =>
    split at h
    · next hfive =>
      cases h
      rw [srArpreqDestroy_split hsplit haddrs.nodup]
      exact .single (.giveUp hsplit hdue hfive)
    · next hfive =>
      split at h
      · cases h
      · next s₁ hs₁ =>
        cases h
        obtain ⟨hwaiting, iface, dhost, shost, payload, rfl⟩ := sendArpRequest_frame hs₁
        simp only [SrState.emit_cache, hsplit, updateReq_split hnd]
        exact .head (.ask hsplit hdue (by omega) hwaiting) (.single (.transmit .arp))
  · cases h
    exact .refl

/-- `FillAndSendPkt` for a datagram: it is transmitted, or queued and its request handled. -/
theorem fillAndSendPkt_queueMoves {d : Bytes} {dip : InAddr} (haddrs : AddrsOk s.cache)
    (hknown : Known s.history d) (hown : sizeofIpHdr ≤ d.length → dip = ipDst d)
    (h : fillAndSendPkt sr s d dip .ip = .ok s') : QueueMoves sr s₀ i s s' := by
  obtain ⟨rt, hrt, ⟨e, i, he, hi, rfl⟩ | ⟨habsent, hhandle⟩⟩ := fillAndSendPkt_ip_cases h
  · exact .single (.transmit (.datagram hknown))
  · have hqueue : QueueMove sr s₀ i s _ := .enqueue hrt hown habsent hknown
    apply Relation.ReflTransGen.head hqueue
    apply srArpreqHandle_queueMoves (haddrs.queue _ _ _) hhandle

end Functions

/-- A packet on the queue after one was queued is that one, or was on the queue before. -/
theorem mem_packets_of_queuereq {c : SrArpcache} (haddrs : AddrsOk c) {ip : InAddr}
    {packet : Bytes} {iface : String} {r : SrArpreq} {p : SrPacket}
    (hr : r ∈ (srArpcacheQueuereq c ip packet iface).1.requests) (hp : p ∈ r.packets) :
    (p = ⟨packet, iface⟩ ∧ r.ip = ip) ∨ ∃ r₀ ∈ c.requests, r₀.ip = r.ip ∧ p ∈ r₀.packets := by
  have hqueued : ∀ q ∈ queuedPackets packet iface, q = ⟨packet, iface⟩ := by
    intro q hq
    unfold queuedPackets at hq
    split at hq
    · exact List.mem_singleton.mp hq
    · cases hq
  rcases srArpcacheQueuereq_split haddrs ip packet iface with
    ⟨before, r₀, after, hsplit, hip, heq⟩ | ⟨-, heq⟩
  · rw [heq] at hr
    rcases mem_split.mp hr with rfl | hr
    · rcases List.mem_append.mp hp with hp | hp
      · exact .inl ⟨hqueued p hp, hip⟩
      · exact .inr ⟨r₀, by simp [hsplit], rfl, hp⟩
    · refine .inr ⟨r, ?_, rfl, hp⟩
      rw [hsplit]
      exact mem_split.mpr (.inr hr)
  · rw [heq] at hr
    rcases List.mem_cons.mp hr with rfl | hr
    · exact .inl ⟨hqueued p hp, rfl⟩
    · exact .inr ⟨r, hr, rfl, hp⟩

/-! ## Addresses and keys

What every move keeps: the addresses of requests, the keys of the cache, and the history so far. -/

section Keys

variable {sr : SrConfig} {s₀ s s' : SrState} {i : SrInput}

theorem AddrsOk.queueMove (h : AddrsOk s.cache) (hmove : QueueMove sr s₀ i s s') :
    AddrsOk s'.cache := by
  cases hmove with
  | receive => exact h
  | forward => exact h
  | transmit => exact h
  | enqueue => exact h.queue _ _ _
  | ask hsplit => exact h.of_sublist (by simp [hsplit]) rfl
  | giveUp hsplit => exact h.of_sublist (by simp [hsplit]) rfl
  | learn => exact h.insert _ _ _
  | answer => exact h.insert _ _ _

theorem AddrsOk.queueMoves (h : AddrsOk s.cache) (hmoves : QueueMoves sr s₀ i s s') :
    AddrsOk s'.cache := by
  induction hmoves with
  | refl => exact h
  | tail _ hmove ih => exact ih.queueMove hmove

theorem KeysOk.queueMove (haddrs : AddrsOk s.cache) (h : KeysOk s.cache)
    (hmove : QueueMove sr s₀ i s s') : KeysOk s'.cache := by
  cases hmove with
  | receive => exact h
  | forward => exact h
  | transmit => exact h
  | enqueue _ _ absent => exact h.queuereq haddrs absent _ _
  | ask hsplit => exact h.of_sublist rfl (by simp [hsplit])
  | giveUp hsplit => exact h.of_sublist rfl (by simp [hsplit])
  | learn _ _ absent => exact h.insert absent _ _
  | answer _ _ absent => exact h.insert absent _ _

/-- What is written down stays written down. -/
theorem QueueMove.history_grows (hmove : QueueMove sr s₀ i s s') : s.history <+: s'.history := by
  cases hmove <;> simp

theorem QueueMoves.history_grows (hmoves : QueueMoves sr s₀ i s s') : s.history <+: s'.history := by
  induction hmoves with
  | refl => exact List.prefix_rfl
  | tail _ hmove ih => exact ih.trans hmove.history_grows

theorem QueueMove.clock (hmove : QueueMove sr s₀ i s s') : s'.clock = s.clock := by
  cases hmove <;> rfl

theorem QueueMoves.clock (hmoves : QueueMoves sr s₀ i s s') : s'.clock = s.clock := by
  induction hmoves with
  | refl => rfl
  | tail _ hmove ih => rw [hmove.clock, ih]

end Keys

/-! ## The branches of `sr_handlepacket`, and the sweep -/

section Steps

variable {sr : SrConfig} {s₀ s s' : SrState} {i : SrInput}

theorem Known.mono {past past' : List SrEvent} {d : Bytes} (h : Known past d)
    (hsub : past ⊆ past') : Known past' d := by
  rcases h with hfwd | ⟨req, hans, hp⟩
  · exact .inl (hsub hfwd)
  · exact .inr ⟨req, hsub hans, hp⟩

/-- The packets of a request that was answered are flushed one by one. -/
theorem srArpreqSendPackets_queueMoves :
    ∀ {ps : List SrPacket} {s : SrState}, AddrsOk s.cache →
      (∀ p ∈ ps, Known s.history p.buf) →
      srArpreqSendPackets sr s ps = .ok s' → QueueMoves sr s₀ i s s'
  | [], s, _, _, h => by
      cases h
      exact .refl
  | cur :: next, s, haddrs, hknown, h => by
      obtain ⟨-, s₁, hs₁, h⟩ := srArpreqSendPackets_cons.mp h
      have hfirst : QueueMoves sr s₀ i s s₁ :=
        fillAndSendPkt_queueMoves haddrs (hknown cur (by simp)) (fun _ => rfl) hs₁
      have hrest : ∀ p ∈ next, Known s₁.history p.buf := by
        intro p hp
        exact (hknown p (by simp [hp])).mono hfirst.history_grows.subset
      exact hfirst.trans (srArpreqSendPackets_queueMoves (haddrs.queueMoves hfirst) hrest h)

theorem learnMapping_queueMoves {interface : String} {packet : Bytes} {now : Nat} {mem : Memory}
    {ip : InAddr} {mac : EtherAddr} (haddrs : AddrsOk s.cache)
    (hinput : i = .frame interface packet now mem)
    (hteach : Teaches sr ip mac (.received interface packet))
    (habsent : srArpcacheLookup s.cache ip = none)
    (h : learnMapping sr (s.emit (.received interface packet)) mac ip = .ok s') :
    QueueMoves sr s i (s.emit (.received interface packet)) s' := by
  cases hins : (srArpcacheInsert s.cache mac ip s.clock).2 with
  | none =>
      rw [learnMapping_none (s := s.emit _) hins] at h
      cases h
      exact .single (.learn hinput hteach habsent hins)
  | some req =>
      rw [learnMapping_some (s := s.emit _) hins] at h
      have hmove := QueueMove.answer hinput hteach habsent hins
      have haddrs' := AddrsOk.queueMove (s := s.emit _) haddrs hmove
      refine .head hmove (srArpreqSendPackets_queueMoves haddrs' ?_ h)
      intro p hp
      exact .inr ⟨req, by simp, p, hp, rfl⟩

theorem handleArp_queueMoves {interface : String} {packet : Bytes} {now : Nat} {mem : Memory}
    (haddrs : AddrsOk s.cache) (hinput : i = .frame interface packet now mem)
    (htype : ethertype packet = SrEthertype.arp.value)
    (h : handleArp sr (s.emit (.received interface packet)) interface packet = .ok s') :
    QueueMoves sr s i (s.emit (.received interface packet)) s' := by
  obtain rfl | ⟨recIf, s₁, hteach, hlearn, hanswer⟩ := handleArp_cases h
  · exact .refl
  have hlearned : QueueMoves sr s i (s.emit (.received interface packet)) s₁ := by
    obtain rfl | ⟨habsent, hlearn⟩ := hlearn
    · exact .refl
    · exact learnMapping_queueMoves haddrs hinput (hteach htype) habsent hlearn
  obtain rfl | hanswer := hanswer
  · exact hlearned
  · obtain ⟨iface, dhost, shost, rfl⟩ := fillAndSendPktWith_arp_frame hanswer
    exact hlearned.tail (.transmit .arp)

/-- A datagram is forwarded by the address in its own header, if it has one. -/
theorem forwardToNextHop_queueMoves {p : Bytes} (haddrs : AddrsOk s.cache) (hp : 34 ≤ p.length)
    (h : forwardToNextHop sr s p = .ok s') : QueueMoves sr s₀ i s s' := by
  unfold forwardToNextHop at h
  refine .head (.forward _) (fillAndSendPkt_queueMoves haddrs (.inl (by simp)) ?_ h)
  intro hlen
  rw [length_fwdIpPkt] at hlen
  exact (ipDst_fwdIpPkt hp hlen).symm

theorem handleIp_queueMoves {interface : String} {packet : Bytes} (haddrs : AddrsOk s.cache)
    (h : handleIp sr s interface packet = .ok s') : QueueMoves sr s₀ i s s' := by
  rcases handleIp_cases h with ⟨-, rfl⟩ | ⟨p, hgate, ⟨-, hanswer⟩ | ⟨-, hforward⟩⟩
  · exact .refl
  · obtain ⟨sender, buf, hmade, rfl⟩ := hanswer
    exact srSendPacket_queueMoves _ hmade.origin
  · have hp : 34 ≤ p.length := by
      rw [ipGate_length hgate]
      exact (ipGate_eq_some hgate).1
    exact forwardToNextHop_queueMoves haddrs hp hforward

theorem srHandlepacket_queueMoves {interface : String} {packet : Bytes} {now : Nat}
    {mem : Memory} (haddrs : AddrsOk s.cache) (hinput : i = .frame interface packet now mem)
    (h : srHandlepacket sr s interface packet = .ok s') : QueueMoves sr s i s s' := by
  apply Relation.ReflTransGen.head (.receive hinput)
  unfold srHandlepacket at h
  simp only at h
  split at h
  · cases h
    exact .refl
  · split at h
    · next htype => exact handleArp_queueMoves haddrs hinput htype h
    · exact handleIp_queueMoves (s := s.emit _) haddrs h

/-- The sweep handles one request after the other. -/
theorem run_srArpreqHandle_queueMoves {addrs : List Nat} (haddrs : AddrsOk s.cache)
    (h : run (srArpreqHandle sr) s addrs = .ok s') : QueueMoves sr s₀ i s s' := by
  refine run_induction (P := fun _ t => QueueMoves sr s₀ i s t) .refl ?_ h
  intro _ addr t t' _ hmoves hstep
  exact hmoves.trans (srArpreqHandle_queueMoves (haddrs.queueMoves hmoves) hstep)

/-- The state in which the moves of a step begin: the clock is set, and the timeout thread has
been over the entries. -/
def SrState.begun (s : SrState) : SrInput → SrState
  | .frame interface packet now mem => s.tick (.frame interface packet now mem)
  | .timeout now mem => (s.tick (.timeout now mem)).expire

@[simp] theorem SrState.begun_clock (s : SrState) (i : SrInput) : (s.begun i).clock = i.now := by
  cases i <;> rfl

@[simp] theorem SrState.begun_requests (s : SrState) (i : SrInput) :
    (s.begun i).cache.requests = s.cache.requests := by
  cases i <;> rfl

@[simp] theorem SrState.begun_brk (s : SrState) (i : SrInput) :
    (s.begun i).cache.brk = s.cache.brk := by
  cases i <;> rfl

/-- Only the expiry of entries is written down before the moves begin. -/
theorem SrState.begun_history (s : SrState) (i : SrInput) :
    ∃ es, (s.begun i).history = s.history ++ es ∧ ∀ e ∈ es, ∃ ip mac, e = .expired ip mac := by
  cases i with
  | frame interface packet now mem => exact ⟨[], by simp [begun], by simp⟩
  | timeout now mem =>
      refine ⟨expiredEvents now s.cache.entries, rfl, ?_⟩
      intro e he
      obtain ⟨j, -, rfl⟩ := List.mem_map.mp he
      exact ⟨_, _, rfl⟩

theorem AddrsOk.begun (h : AddrsOk s.cache) (i : SrInput) : AddrsOk (s.begun i).cache :=
  ⟨by simpa using h.nodup, by simpa using h.lt_brk⟩

theorem KeysOk.begun (h : KeysOk s.cache) (i : SrInput) : KeysOk (s.begun i).cache := by
  cases i with
  | frame => exact h
  | timeout now mem => exact KeysOk.expire (s := s.tick (.timeout now mem)) h

/-- The code's step is a sequence of moves. -/
theorem srStep_queueMoves (haddrs : AddrsOk s.cache) (h : srStep sr s i = .ok s') :
    QueueMoves sr (s.begun i) i (s.begun i) s' := by
  cases i with
  | frame interface packet now mem => exact srHandlepacket_queueMoves (haddrs.begun _) rfl h
  | timeout now mem =>
      have hsweep : srArpcacheSweepreqs sr (s.begun (.timeout now mem)) = .ok s' := h
      rw [srArpcacheSweepreqs_eq (haddrs.begun _).nodup] at hsweep
      exact run_srArpreqHandle_queueMoves (haddrs.begun _) hsweep

end Steps

/-! ## Runs -/

/-- What survives every move survives any number of them. -/
theorem QueueMoves.keep {sr : SrConfig} {s₀ s s' : SrState} {i : SrInput} {P : SrState → Prop}
    (move : ∀ s s', AddrsOk s.cache → P s → QueueMove sr s₀ i s s' → P s')
    (haddrs : AddrsOk s.cache) (hP : P s) (hmoves : QueueMoves sr s₀ i s s') : P s' := by
  induction hmoves with
  | refl => exact hP
  | tail hmoves hmove ih => exact move _ _ (haddrs.queueMoves hmoves) ih hmove

/-- **The invariant rule for the queue.** What holds at the start and survives the beginning of
a step and every move holds after every run. -/
theorem srRun_queueRule {sr : SrConfig} {P : SrState → Prop} (init : P srInit)
    (begun : ∀ s i, P s → P (s.begun i))
    (move : ∀ s₀ i s s', AddrsOk s.cache → P s → QueueMove sr s₀ i s s' → P s')
    {inputs : List SrInput} {s : SrState} (h : srRun sr inputs = .ok s) :
    AddrsOk s.cache ∧ P s := by
  refine run_induction (P := fun _ s => AddrsOk s.cache ∧ P s) ⟨addrsOk_init, init⟩ ?_ h
  rintro _ i t t' _ ⟨haddrs, hP⟩ hstep
  have hmoves := srStep_queueMoves haddrs hstep
  exact ⟨(haddrs.begun i).queueMoves hmoves,
    hmoves.keep (move _ _) (haddrs.begun i) (begun t i hP)⟩

end NetworkProjects.Router
