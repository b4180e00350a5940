import NetworkProjects.Router.ArpCache

/-!
# Sending, queueing and asking: `FillAndSendPkt` and its helpers

`FillAndSendPkt`, `sr_arpreq_handle` and `send_arp_request` call each other in a circle. The
circle closes at once: `send_arp_request` passes `ethertype_arp`, and a packet of that type
never takes the queue path. `fillAndSendPktWith` therefore takes the function the queue path
calls as a parameter, `sendArpRequest` uses it with a parameter that is never called
(`fillAndSendPktWith_arp`), and `fillAndSendPkt` ties the knot.

`fillAndSendPkt_ip_cases` and `srArpreqHandle_cases` say everything a successful call can have
done. The invariants are proved from them, never from the definitions.
-/

namespace NetworkProjects.Router

open NetworkProjects.Lib

/-! ## `sr_send_packet` -/

/-- `sr_send_packet`: drop a frame that is too short or whose source is not the interface's
address, else write it to the server. -/
def srSendPacket (sr : SrConfig) (s : SrState) (sender : SrSender) (buf : Bytes)
    (iface : String) : SrState :=
  if buf.length < sizeofEthernetHdr then s
  else
    match srGetInterface sr iface with
    | none => s
    | some i => if etherShost buf = i.addr then s.emit (.transmitted sender iface buf) else s

/-! ## `FillAndSendPkt`

The function and `sr_arpreq_handle` call each other: a datagram that is queued has its request
handled, and that sends an ARP packet. The queue path is a parameter of the first definition, and an
ARP packet never takes it. -/

/-- `FillAndSendPkt`, with the function its queue path hands the request to. The parameter
`send_icmp` is left out: the source never reads it. -/
def fillAndSendPktWith (handle : SrState → Nat → Except Fault SrState) (sr : SrConfig)
    (s : SrState) (packet : Bytes) (dip : InAddr) (type : SrEthertype) : Except Fault SrState :=
  match longestPrefixMatch sr dip with
  | none => .error .nullRoute
  | some rt =>
      let interface := srGetInterface sr rt.interface
      let arpEntry := srArpcacheLookup s.cache rt.gw
      if arpEntry.isSome ∨ type = .arp then
        let dhost :=
          -- `((struct sr_arp_hdr *)packet)->ar_op == htons(arp_op_request)`
          if type = .arp ∧ ntohs (load16 packet 6) = arpOpRequest then some broadcastAddr
          else arpEntry.map SrArpentry.mac
        match dhost, interface with
        | none, _ => .error .nullArpEntry
        | _, none => .error .nullInterface
        | some dhost, some i =>
            .ok (srSendPacket sr s (.fillAndSendPkt type) (ethFrame dhost i.addr type packet)
              rt.interface)
      else
        let (cache, arpReq) := srArpcacheQueuereq s.cache rt.gw packet rt.interface
        handle (s.withCache cache) arpReq

/-- An ARP packet never reaches the queue path. -/
theorem fillAndSendPktWith_arp (h₁ h₂ : SrState → Nat → Except Fault SrState) (sr : SrConfig)
    (s : SrState) (packet : Bytes) (dip : InAddr) :
    fillAndSendPktWith h₁ sr s packet dip .arp = fillAndSendPktWith h₂ sr s packet dip .arp := by
  simp [fillAndSendPktWith]

/-- `send_arp_request`. Nothing writes `ar_tha`, so it is whatever the stack holds. -/
def sendArpRequest (sr : SrConfig) (s : SrState) (req : SrArpreq) : Except Fault SrState :=
  match req.packets with
  | [] => .error .nullPackets
  | packet :: _ =>
      match srGetInterface sr packet.iface with
      | none => .error .nullInterface
      | some interface =>
          let tha := s.mem.stack s.history.length
          fillAndSendPktWith (fun s _ => .ok s) sr (s.emit (.arpRequested req.addr s.clock))
            (arpHdr arpOpRequest interface.addr interface.ip tha req.ip) req.ip .arp

/-- `sr_arpreq_handle`: if the last request is more than a second old, give up after five or
send another one. -/
def srArpreqHandle (sr : SrConfig) (s : SrState) (req : Nat) : Except Fault SrState :=
  match derefReq s.cache.requests req with
  | none => .error .dangling
  | some r =>
      if r.sent + 1 < s.clock then
        if r.timesSent ≥ 5 then
          .ok ((s.withCache (srArpreqDestroy s.cache req)).emit (.destroyed r))
        else
          match sendArpRequest sr s r with
          | .error e => .error e
          | .ok s' =>
              let resent := fun r : SrArpreq =>
                { r with sent := s.clock, timesSent := r.timesSent + 1 }
              .ok (s'.withCache { s'.cache with
                requests := updateReq req resent s'.cache.requests })
      else .ok s

/-- `FillAndSendPkt`. -/
def fillAndSendPkt (sr : SrConfig) (s : SrState) (packet : Bytes) (dip : InAddr)
    (type : SrEthertype) : Except Fault SrState :=
  fillAndSendPktWith (srArpreqHandle sr) sr s packet dip type

/-- `sr_arpreq_send_packets`, on the packet list of a request. Reading `ip_dst` needs twenty
bytes. -/
def srArpreqSendPackets (sr : SrConfig) : SrState → List SrPacket → Except Fault SrState
  | s, [] => .ok s
  | s, cur :: next =>
      if cur.buf.length < sizeofIpHdr then .error .outOfBounds
      else
        match fillAndSendPkt sr s cur.buf (ipDst cur.buf) .ip with
        | .error e => .error e
        | .ok s' => srArpreqSendPackets sr s' next

/-! ## The frame that is built -/

theorem length_ethFrame (dhost shost : EtherAddr) (type : SrEthertype) (payload : Bytes) :
    (ethFrame dhost shost type payload).length = sizeofEthernetHdr + payload.length := by
  simp [ethFrame, bytes16, dhost.property, shost.property, etherAddrLen, sizeofEthernetHdr]
  omega

theorem etherAddrAt_eq {p : Bytes} {off : Nat} {a : EtherAddr}
    (h : ∀ i < etherAddrLen, byteAt p (off + i) = byteAt a.val i) : etherAddrAt p off = a := by
  apply Subtype.ext
  apply ext_byteAt
  · rw [(etherAddrAt p off).property, a.property]
  · intro i hi
    rw [(etherAddrAt p off).property] at hi
    rw [← h i hi]
    simp [etherAddrAt, byteAt, hi]

@[simp] theorem etherDhost_ethFrame (dhost shost : EtherAddr) (type : SrEthertype)
    (payload : Bytes) : etherDhost (ethFrame dhost shost type payload) = dhost := by
  apply etherAddrAt_eq
  intro i hi
  have hlen := dhost.property
  simp only [ethFrame, List.append_assoc, Nat.zero_add]
  exact byteAt_append_left (by omega)

@[simp] theorem etherShost_ethFrame (dhost shost : EtherAddr) (type : SrEthertype)
    (payload : Bytes) : etherShost (ethFrame dhost shost type payload) = shost := by
  apply etherAddrAt_eq
  intro i hi
  have hd : dhost.val.length = 6 := dhost.property
  have hs : shost.val.length = 6 := shost.property
  have hi' : i < 6 := hi
  simp only [ethFrame, List.append_assoc]
  rw [byteAt_append_right (by omega), byteAt_append_left (by omega)]
  congr 1
  omega

theorem ethertype_ethFrame (dhost shost : EtherAddr) (type : SrEthertype) (payload : Bytes) :
    ethertype (ethFrame dhost shost type payload) = type.value := by
  have hd : dhost.val.length = 6 := dhost.property
  have hs : shost.val.length = 6 := shost.property
  have hload : load16 (ethFrame dhost shost type payload) 12
      = load16 (bytes16 (ntohs type.value)) 0 := by
    apply load16_congr
    intro k hk
    simp only [ethFrame, List.append_assoc]
    rw [byteAt_append_right (by omega), byteAt_append_right (by omega),
      byteAt_append_left (by simp [bytes16]; omega)]
    congr 1
    omega
  rw [ethertype, hload]
  cases type <;> rfl

/-- The datagram a frame carries. -/
theorem ipHeader_ethFrame (dhost shost : EtherAddr) (type : SrEthertype) (payload : Bytes) :
    ipHeader (ethFrame dhost shost type payload) = payload := by
  have hlen : (dhost.val ++ shost.val ++ bytes16 (ntohs type.value)).length = 14 := by
    simp [bytes16, dhost.property, shost.property, etherAddrLen]
  rw [ipHeader, ethFrame, sizeofEthernetHdr, ← hlen, List.drop_left]

/-! ## What the calls do

One lemma for each function says everything it can do. Later proofs use these and do not unfold the
functions. -/

section Cases

variable {sr : SrConfig} {s s' : SrState}

/-- A frame is dropped silently, or written to the wire. -/
theorem srSendPacket_cases (sr : SrConfig) (s : SrState) (sender : SrSender) (buf : Bytes)
    (iface : String) :
    srSendPacket sr s sender buf iface = s ∨
      (∃ i, srGetInterface sr iface = some i ∧ etherShost buf = i.addr) ∧
        srSendPacket sr s sender buf iface = s.emit (.transmitted sender iface buf) := by
  unfold srSendPacket
  split
  · exact .inl rfl
  · split
    · exact .inl rfl
    · next i hi =>
      split
      · next hsrc => exact .inr ⟨⟨i, hi, hsrc⟩, rfl⟩
      · exact .inl rfl

/-- A frame with the interface's own source address passes the checks of `sr_send_packet`. -/
theorem srSendPacket_ethFrame {name : String} {i : SrIf}
    (hi : srGetInterface sr name = some i) (sender : SrSender) (dhost : EtherAddr)
    (type : SrEthertype) (payload : Bytes) :
    srSendPacket sr s sender (ethFrame dhost i.addr type payload) name
      = s.emit (.transmitted sender name (ethFrame dhost i.addr type payload)) := by
  have hlen : ¬ (ethFrame dhost i.addr type payload).length < sizeofEthernetHdr := by
    rw [length_ethFrame]
    omega
  rw [srSendPacket, if_neg hlen, hi]
  simp

/-- The flush of one packet, and then of the others. -/
theorem srArpreqSendPackets_cons {cur : SrPacket} {next : List SrPacket} :
    srArpreqSendPackets sr s (cur :: next) = .ok s' ↔
      sizeofIpHdr ≤ cur.buf.length ∧ ∃ s₁,
        fillAndSendPkt sr s cur.buf (ipDst cur.buf) .ip = .ok s₁ ∧
        srArpreqSendPackets sr s₁ next = .ok s' := by
  rw [srArpreqSendPackets]
  split
  · next hshort => simp [Nat.not_le.mpr hshort]
  · next hlong =>
    rw [Nat.not_lt] at hlong
    split
    · next e he => simp [he]
    · next s₁ hs₁ => simp [hs₁, hlong]

/-- An ARP packet is transmitted, if anything is to happen at all. -/
theorem fillAndSendPktWith_arp_cases {handle : SrState → Nat → Except Fault SrState}
    {packet : Bytes} {dip : InAddr}
    (h : fillAndSendPktWith handle sr s packet dip .arp = .ok s') :
    ∃ iface frame, s' = s.emit (.transmitted (.fillAndSendPkt .arp) iface frame) := by
  unfold fillAndSendPktWith at h
  split at h
  · cases h
  · next rt hrt =>
    simp only [or_true, if_true] at h
    split at h
    · cases h
    · cases h
    · next dhost i hd hi =>
      cases h
      exact ⟨_, _, srSendPacket_ethFrame hi _ _ _ _⟩

/-- An IP packet is transmitted to the cached address of its gateway, or queued. -/
theorem fillAndSendPkt_ip_cases {packet : Bytes} {dip : InAddr}
    (h : fillAndSendPkt sr s packet dip .ip = .ok s') :
    ∃ rt, longestPrefixMatch sr dip = some rt ∧
      ((∃ e i, srArpcacheLookup s.cache rt.gw = some e ∧
          srGetInterface sr rt.interface = some i ∧
          s' = s.emit (.transmitted (.fillAndSendPkt .ip) rt.interface
            (ethFrame e.mac i.addr .ip packet))) ∨
        (srArpcacheLookup s.cache rt.gw = none ∧
          srArpreqHandle sr (s.withCache
              (srArpcacheQueuereq s.cache rt.gw packet rt.interface).1)
            (srArpcacheQueuereq s.cache rt.gw packet rt.interface).2 = .ok s')) := by
  unfold fillAndSendPkt fillAndSendPktWith at h
  split at h
  · cases h
  · next rt hrt =>
    refine ⟨rt, hrt, ?_⟩
    cases he : srArpcacheLookup s.cache rt.gw with
    | none =>
        -- no entry: the packet is queued, and the request handled at once
        refine .inr ⟨rfl, ?_⟩
        simpa [he] using h
    | some e =>
        left
        simp only [he, Option.isSome_some, true_or, if_true, reduceCtorEq, false_and,
          if_false, Option.map_some] at h
        split at h
        · next hnone => cases hnone
        · cases h
        · next dhost i hd hi =>
          cases hd
          cases h
          exact ⟨e, i, rfl, hi, srSendPacket_ethFrame hi _ _ _ _⟩

/-- `send_arp_request` writes down the call and one transmitted ARP frame, and touches nothing
else. -/
theorem sendArpRequest_cases {req : SrArpreq} (h : sendArpRequest sr s req = .ok s') :
    ∃ iface frame, s' = (s.emit (.arpRequested req.addr s.clock)).emit
      (.transmitted (.fillAndSendPkt .arp) iface frame) := by
  unfold sendArpRequest at h
  split at h
  · cases h
  · split at h
    · cases h
    · exact fillAndSendPktWith_arp_cases h

/-- Everything `sr_arpreq_handle` can do to the request `r` it is called for: nothing, take it
off the queue after five requests, or send one more request and count it. -/
theorem srArpreqHandle_cases {before after : List SrArpreq} {r : SrArpreq}
    (hsplit : s.cache.requests = before ++ r :: after)
    (hnd : (s.cache.requests.map SrArpreq.addr).Nodup)
    (h : srArpreqHandle sr s r.addr = .ok s') :
    (¬ r.sent + 1 < s.clock ∧ s' = s) ∨
    (r.sent + 1 < s.clock ∧ 5 ≤ r.timesSent ∧
      s' = (s.withCache { s.cache with requests := before ++ after }).emit (.destroyed r)) ∨
    (r.sent + 1 < s.clock ∧ r.timesSent < 5 ∧ ∃ iface frame,
      s' = ((s.withCache { s.cache with requests :=
          before ++ { r with sent := s.clock, timesSent := r.timesSent + 1 } :: after }).emit
        (.arpRequested r.addr s.clock)).emit
        (.transmitted (.fillAndSendPkt .arp) iface frame)) := by
  -- the pointer is to the request at its address
  have hderef : derefReq s.cache.requests r.addr = some r := by
    rw [hsplit] at hnd ⊢
    exact derefReq_split hnd
  simp only [srArpreqHandle, hderef] at h
  split at h
  · next hdue =>
    split at h
    · next hfive =>
      cases h
      exact .inr (.inl ⟨hdue, hfive, by rw [srArpreqDestroy_split hsplit hnd]⟩)
    · next hfive =>
      split at h
      · cases h
      · next s₁ hs₁ =>
        cases h
        obtain ⟨iface, frame, rfl⟩ := sendArpRequest_cases hs₁
        refine .inr (.inr ⟨hdue, by omega, iface, frame, ?_⟩)
        rw [hsplit] at hnd
        simp only [SrState.emit_cache, hsplit, updateReq_split hnd]
        rfl
  · next hdue =>
    cases h
    exact .inl ⟨hdue, rfl⟩

/-- A handled pointer is on the queue. -/
theorem exists_split_of_srArpreqHandle {addr : Nat} (h : srArpreqHandle sr s addr = .ok s') :
    ∃ before r after, s.cache.requests = before ++ r :: after ∧ r.addr = addr := by
  unfold srArpreqHandle at h
  split at h
  · cases h
  · next r hr =>
    obtain ⟨before, after, hsplit, haddr, -⟩ := find?_split hr
    exact ⟨before, r, after, hsplit, by simpa using haddr⟩

end Cases

end NetworkProjects.Router
