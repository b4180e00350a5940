import NetworkProjects.Router.Learning

/-!
# The ARP frames the router makes up

`send_arp_request` and `HandleArpRequst` fill in an ARP header for the interface they have in mind
and hand it to `FillAndSendPkt`, the routine that routes datagrams. That looks up the route of the
address it is given, and takes the interface and the Ethernet addresses from there.

So an ARP request leaves on the interface its body names if and only if the gateway's own address is
routed through it (`asksOnQueued_iff`), and an ARP request that comes in is answered where it came
from if and only if the requester is routed through that interface and the gateway of that route has
the requester's hardware address (`requestAnswered_iff`).
-/

namespace NetworkProjects.Router

open NetworkProjects.Lib

/-! ## An ARP frame and its fields

The frame is built from its fields, and each field is read back from it. -/

/-- An ARP header in an Ethernet frame. -/
def arpFrame (dhost shost : EtherAddr) (op : Nat) (sha : EtherAddr) (sip : InAddr)
    (tha : EtherAddr) (tip : InAddr) : Bytes :=
  ethFrame dhost shost .arp (arpHdr op sha sip tha tip)

theorem etherAddrAt_between (pre post : Bytes) (a : EtherAddr) :
    etherAddrAt (pre ++ a.val ++ post) pre.length = a := by
  apply etherAddrAt_eq
  intro i hi
  exact byteAt_between (by rw [a.property]; exact hi)

section Fields

variable (dhost shost : EtherAddr) (op : Nat) (sha : EtherAddr) (sip : InAddr) (tha : EtherAddr)
  (tip : InAddr)

/-- What stands in front of the operation, and in front of the addresses. -/
def arpLead (dhost shost : EtherAddr) : Bytes :=
  dhost.val ++ shost.val ++ bytes16 (ntohs SrEthertype.arp.value) ++ bytes16 (ntohs 1)
    ++ bytes16 (ntohs 0x0800) ++ [6, 4]

theorem length_arpLead : (arpLead dhost shost).length = 20 := by
  simp [arpLead, bytes16, dhost.property, shost.property, etherAddrLen]

theorem arpFrame_eq : arpFrame dhost shost op sha sip tha tip = arpLead dhost shost
    ++ (bytes16 (ntohs op) ++ (sha.val ++ (bytes32 sip ++ (tha.val ++ (bytes32 tip ++ []))))) := by
  simp [arpFrame, ethFrame, arpHdr, arpLead]

@[simp] theorem arpOpcode_arpFrame (h : op = arpOpRequest ∨ op = arpOpReply) :
    arpOpcode (arpFrame dhost shost op sha sip tha tip) = op := by
  have hload := load16_between (arpLead dhost shost)
    (sha.val ++ (bytes32 sip ++ (tha.val ++ (bytes32 tip ++ [])))) (ntohs op)
  rw [length_arpLead, List.append_assoc, ← arpFrame_eq] at hload
  rw [arpOpcode, hload]
  rcases h with rfl | rfl <;> rfl

@[simp] theorem arSha_arpFrame : arSha (arpFrame dhost shost op sha sip tha tip) = sha := by
  have haddr := etherAddrAt_between (arpLead dhost shost ++ bytes16 (ntohs op))
    (bytes32 sip ++ (tha.val ++ (bytes32 tip ++ []))) sha
  rw [List.append_assoc, List.append_assoc, ← arpFrame_eq, List.length_append, length_arpLead]
    at haddr
  exact haddr

@[simp] theorem arSip_arpFrame : arSip (arpFrame dhost shost op sha sip tha tip) = sip := by
  have hload := load32_between (arpLead dhost shost ++ bytes16 (ntohs op) ++ sha.val)
    (tha.val ++ (bytes32 tip ++ [])) sip
  rw [List.append_assoc, List.append_assoc, List.append_assoc, ← arpFrame_eq, List.length_append,
    List.length_append, length_arpLead, sha.property] at hload
  exact hload

@[simp] theorem arTha_arpFrame : arTha (arpFrame dhost shost op sha sip tha tip) = tha := by
  have haddr := etherAddrAt_between
    (arpLead dhost shost ++ bytes16 (ntohs op) ++ sha.val ++ bytes32 sip) (bytes32 tip ++ []) tha
  rw [List.append_assoc, List.append_assoc, List.append_assoc, List.append_assoc, ← arpFrame_eq,
    List.length_append, List.length_append, List.length_append, length_arpLead, sha.property]
    at haddr
  exact haddr

@[simp] theorem arTip_arpFrame : arTip (arpFrame dhost shost op sha sip tha tip) = tip := by
  have hload := load32_between
    (arpLead dhost shost ++ bytes16 (ntohs op) ++ sha.val ++ bytes32 sip ++ tha.val) [] tip
  rw [List.append_assoc, List.append_assoc, List.append_assoc, List.append_assoc,
    List.append_assoc, ← arpFrame_eq, List.length_append, List.length_append, List.length_append,
    List.length_append, length_arpLead, sha.property, tha.property] at hload
  exact hload

@[simp] theorem etherDhost_arpFrame :
    etherDhost (arpFrame dhost shost op sha sip tha tip) = dhost := etherDhost_ethFrame _ _ _ _

@[simp] theorem etherShost_arpFrame :
    etherShost (arpFrame dhost shost op sha sip tha tip) = shost := etherShost_ethFrame _ _ _ _

@[simp] theorem ethertype_arpFrame :
    ethertype (arpFrame dhost shost op sha sip tha tip) = SrEthertype.arp.value :=
  ethertype_ethFrame _ _ _ _

end Fields

/-! ## What becomes of an ARP header

`FillAndSendPkt` succeeds if there is a route, its interface exists, and a reply finds its gateway
in the cache. -/

section Sending

variable {sr : SrConfig} {s s' : SrState}

/-- The Ethernet destination `FillAndSendPkt` chooses for an ARP header: everybody for a request,
the gateway of the route for a reply. -/
def arpDhost (cache : SrArpcache) (rt : SrRt) (op : Nat) : Option EtherAddr :=
  if op = arpOpRequest then some broadcastAddr
  else (srArpcacheLookup cache rt.gw).map SrArpentry.mac

/-- The interface and the addresses come from the route of the address that is passed along. -/
theorem fillAndSendPktWith_arp_iff {handle : SrState → Nat → Except Fault SrState} {op : Nat}
    (hop : op = arpOpRequest ∨ op = arpOpReply) {sha : EtherAddr} {sip : InAddr} {tha : EtherAddr}
    {tip dip : InAddr} :
    fillAndSendPktWith handle sr s (arpHdr op sha sip tha tip) dip .arp = .ok s' ↔
      ∃ rt i dhost, longestPrefixMatch sr dip = some rt ∧
        srGetInterface sr rt.interface = some i ∧ arpDhost s.cache rt op = some dhost ∧
        s' = s.emit (.transmitted (.fillAndSendPkt .arp) rt.interface
          (arpFrame dhost i.addr op sha sip tha tip)) := by
  -- the opcode is read back from the bytes that `arpHdr` has just written
  have hread : ntohs (load16 (arpHdr op sha sip tha tip) 6) = op := by
    have hload := load16_between (bytes16 (ntohs 1) ++ bytes16 (ntohs 0x0800) ++ [6, 4])
      (sha.val ++ (bytes32 sip ++ (tha.val ++ bytes32 tip))) (ntohs op)
    simp only [List.append_assoc] at hload
    simp only [arpHdr, List.append_assoc]
    rw [show 6 = (bytes16 (ntohs 1) ++ (bytes16 (ntohs 0x0800) ++ [6, 4])).length from rfl, hload]
    rcases hop with rfl | rfl <;> rfl
  unfold fillAndSendPktWith
  cases hrt : longestPrefixMatch sr dip with
  | none => simp
  | some rt =>
      simp only [or_true, if_true, hread, true_and]
      cases hd : arpDhost s.cache rt op with
      | none =>
          -- a reply to an address that is not in the cache is not sent
          have hnone := hd
          unfold arpDhost at hnone
          simp [hnone, hd]
      | some dhost =>
          have hsome := hd
          unfold arpDhost at hsome
          simp only [hsome]
          cases hi : srGetInterface sr rt.interface with
          | none => simp [hi]
          | some i =>
              simp only
              rw [srSendPacket_ethFrame hi]
              constructor
              · intro h
                cases h
                exact ⟨rt, i, dhost, rfl, hi, hd, rfl⟩
              · rintro ⟨rt', i', dhost', hrt', hi', hd', rfl⟩
                cases hrt'
                rw [hi] at hi'
                cases hi'
                rw [hd] at hd'
                cases hd'
                rfl

/-- `send_arp_request`: the body is that of the interface the first packet names, the frame that of
the route of the gateway. -/
theorem sendArpRequest_iff {req : SrArpreq} :
    sendArpRequest sr s req = .ok s' ↔
      ∃ packet rest i rt j, req.packets = packet :: rest ∧
        srGetInterface sr packet.iface = some i ∧ longestPrefixMatch sr req.ip = some rt ∧
        srGetInterface sr rt.interface = some j ∧
        s' = (s.emit (.arpRequested req.addr s.clock)).emit
          (.transmitted (.fillAndSendPkt .arp) rt.interface (arpFrame broadcastAddr j.addr
            arpOpRequest i.addr i.ip (s.mem.stack s.history.length) req.ip)) := by
  unfold sendArpRequest
  cases hpackets : req.packets with
  | nil => simp
  | cons packet rest =>
      simp only
      cases hi : srGetInterface sr packet.iface with
      | none => simp [hi]
      | some i =>
          simp only [fillAndSendPktWith_arp_iff (.inl rfl), arpDhost, if_true]
          constructor
          · rintro ⟨rt, j, dhost, hrt, hj, hdhost, rfl⟩
            cases hdhost
            exact ⟨packet, rest, i, rt, j, rfl, hi, hrt, hj, rfl⟩
          · rintro ⟨packet', rest', i', rt, j, hpackets, hi', hrt, hj, rfl⟩
            cases hpackets
            rw [hi] at hi'
            cases hi'
            exact ⟨rt, j, broadcastAddr, hrt, hj, rfl, rfl⟩

end Sending

/-! ## Asking for a gateway

The interface in the body is that of the first waiting packet, and the interface of the frame is
that of the route to the gateway. The two agree in a table that routes each gateway over the
interface of its own route. -/

/-- What `send_arp_request` is meant to do: one broadcast request for the gateway, on the interface
`name`, with that interface's own addresses. -/
def AsksOn (sr : SrConfig) (name : String) (req : SrArpreq) (s s' : SrState) : Prop :=
  ∃ i frame, srGetInterface sr name = some i ∧
    s' = (s.emit (.arpRequested req.addr s.clock)).emit
      (.transmitted (.fillAndSendPkt .arp) name frame) ∧
    ethertype frame = SrEthertype.arp.value ∧ arpOpcode frame = arpOpRequest ∧
    etherDhost frame = broadcastAddr ∧ arTip frame = req.ip ∧
    etherShost frame = i.addr ∧ arSha frame = i.addr ∧ arSip frame = i.ip

/-- The interface a request leaves on is the one the gateway is routed through. -/
theorem AsksOn.route {sr : SrConfig} {name : String} {req : SrArpreq} {s s' : SrState}
    (h : AsksOn sr name req s s') (hsend : sendArpRequest sr s req = .ok s') :
    ∃ rt, longestPrefixMatch sr req.ip = some rt ∧ rt.interface = name := by
  obtain ⟨i, frame, -, hs', -⟩ := h
  obtain ⟨packet, rest, i', rt, j, -, -, hrt, -, hs''⟩ := sendArpRequest_iff.mp hsend
  refine ⟨rt, hrt, ?_⟩
  have hhist := congrArg SrState.history (hs''.symm.trans hs')
  simp at hhist
  exact hhist.1

/-- **ARP requests go out on the waiting packets' interface, and exactly when.** The request that is
sent for a gateway leaves on the interface of the first waiting packet, with that interface's
addresses, if and only if there is such an interface and the gateway itself is routed through it. -/
theorem asksOnQueued_iff (sr : SrConfig) (s : SrState) (req : SrArpreq) :
    (∃ packet rest s', req.packets = packet :: rest ∧ sendArpRequest sr s req = .ok s' ∧
      AsksOn sr packet.iface req s s') ↔
    ∃ packet rest i rt, req.packets = packet :: rest ∧
      srGetInterface sr packet.iface = some i ∧ longestPrefixMatch sr req.ip = some rt ∧
      rt.interface = packet.iface := by
  constructor
  · rintro ⟨packet, rest, s', hpackets, hsend, hasks⟩
    obtain ⟨rt, hrt, hname⟩ := hasks.route hsend
    obtain ⟨i, frame, hi, -⟩ := hasks
    exact ⟨packet, rest, i, rt, hpackets, hi, hrt, hname⟩
  · rintro ⟨packet, rest, i, rt, hpackets, hi, hrt, hname⟩
    have hj : srGetInterface sr rt.interface = some i := by rwa [hname]
    refine ⟨packet, rest, _, hpackets,
      sendArpRequest_iff.mpr ⟨packet, rest, i, rt, i, hpackets, hi, hrt, hj, rfl⟩, ?_⟩
    refine ⟨i, _, hi, by rw [hname], ?_⟩
    simp

/-- A table whose first route has a gateway that is itself reached over another interface. -/
def crossedConfig : SrConfig where
  ifList := rtableConfig.ifList
  routingTable :=
    [⟨dotted 172 64 3 10, dotted 192 168 2 2, dotted 255 255 255 255, "eth2"⟩,
      hostRoute (dotted 192 168 2 2) "eth1"]

/-- The datagram waits for `eth2`, and its gateway is asked for on `eth1`. -/
theorem not_asksOnQueued_crossed :
    ¬ ∀ sr inputs s req, srVerifyRoutingTable sr = 0 → srRun sr inputs = .ok s →
      req ∈ s.cache.requests →
      ∃ packet rest s', req.packets = packet :: rest ∧ sendArpRequest sr s req = .ok s' ∧
        AsksOn sr packet.iface req s s' := by
  intro h
  obtain ⟨s, hrun, hcheck⟩ : ∃ s, srRun crossedConfig
      [.frame "eth3" (clientFrame 64 (dotted 172 64 3 10)) 5 srInit.mem] = .ok s ∧
      (s.cache.requests.any fun r => r.ip == dotted 192 168 2 2 &&
        r.packets.all fun p => p.iface == "eth2") = true := exists_ok_of_check (by decide +kernel)
  simp only [List.any_eq_true, Bool.and_eq_true, beq_iff_eq, List.all_eq_true] at hcheck
  obtain ⟨req, hreq, hip, hiface⟩ := hcheck
  obtain ⟨packet, rest, s', hpackets, hsend, hasks⟩ :=
    h crossedConfig _ s req (by decide) hrun hreq
  obtain ⟨rt, hrt, hname⟩ := hasks.route hsend
  rw [hiface packet (by simp [hpackets])] at hname
  rw [hip] at hrt
  have hroute : (longestPrefixMatch crossedConfig (dotted 192 168 2 2)).map SrRt.interface
      = some "eth1" := by decide
  rw [hrt, Option.map_some, hname] at hroute
  exact absurd hroute (by decide)

/-! ## Answering a requester

The reply goes where a datagram to the requester would go. Nothing but the reply itself is an ARP
reply in the history, so the step makes one or none. -/

/-- The ARP replies among the frames an event writes to the wire. -/
def SrEvent.arpReplies : SrEvent → List (String × Bytes)
  | .transmitted _ iface frame =>
      if ethertype frame = SrEthertype.arp.value ∧ arpOpcode frame = arpOpReply then
        [(iface, frame)]
      else []
  | _ => []

/-- The ARP replies a history transmits. -/
def arpReplies (h : List SrEvent) : List (String × Bytes) := h.flatMap SrEvent.arpReplies

theorem arpReplies_append (h es : List SrEvent) :
    arpReplies (h ++ es) = arpReplies h ++ arpReplies es := by
  simp [arpReplies]

section Answering

variable {sr : SrConfig} {s s' t : SrState}

/-- What is written down on the way of a datagram: that it is handed over, and what
`FillAndSendPkt` and the functions it calls do when no ARP reply is to be sent. -/
inductive SrEvent.Routine : SrEvent → Prop
  | forwarded (d : Bytes) : Routine (.forwarded d)
  | datagram (iface : String) (dhost shost : EtherAddr) (d : Bytes) :
      Routine (.transmitted (.fillAndSendPkt .ip) iface (ethFrame dhost shost .ip d))
  | request (iface : String) (dhost shost sha : EtherAddr) (sip : InAddr) (tha : EtherAddr)
      (tip : InAddr) : Routine (.transmitted (.fillAndSendPkt .arp) iface
        (arpFrame dhost shost arpOpRequest sha sip tha tip))
  | asked (addr now : Nat) : Routine (.arpRequested addr now)
  | answered (req : SrArpreq) : Routine (.answered req)
  | destroyed (req : SrArpreq) : Routine (.destroyed req)

/-- Nothing but routine happens between `s` and `s'`. -/
def Routinely (s s' : SrState) : Prop :=
  ∃ es, s'.history = s.history ++ es ∧ ∀ e ∈ es, e.Routine

theorem Routinely.refl (s : SrState) : Routinely s s := ⟨[], by simp, by simp⟩

theorem Routinely.trans (h : Routinely s t) (h' : Routinely t s') : Routinely s s' := by
  obtain ⟨es, hes, hall⟩ := h
  obtain ⟨es', hes', hall'⟩ := h'
  refine ⟨es ++ es', by rw [hes', hes, List.append_assoc], ?_⟩
  intro e he
  rcases List.mem_append.mp he with he | he
  · exact hall e he
  · exact hall' e he

theorem Routinely.emit {e : SrEvent} (s : SrState) (h : e.Routine) : Routinely s (s.emit e) :=
  ⟨[e], rfl, by simpa using h⟩

theorem sendArpRequest_routinely {req : SrArpreq} (h : sendArpRequest sr s req = .ok s') :
    Routinely s s' := by
  obtain ⟨packet, rest, i, rt, j, -, -, -, -, rfl⟩ := sendArpRequest_iff.mp h
  exact (Routinely.emit s (.asked _ _)).trans (.emit _ (.request _ _ _ _ _ _ _))

theorem srArpreqHandle_routinely {addr : Nat} (h : srArpreqHandle sr s addr = .ok s') :
    Routinely s s' := by
  unfold srArpreqHandle at h
  split at h
  · cases h
  · split at h
    · split at h
      · cases h
        exact .emit s (.destroyed _)
      · split at h
        · cases h
        · next s₁ hs₁ =>
          cases h
          have hsend : Routinely s s₁ := sendArpRequest_routinely hs₁
          exact hsend
    · cases h
      exact .refl s

theorem fillAndSendPkt_routinely {d : Bytes} {dip : InAddr}
    (h : fillAndSendPkt sr s d dip .ip = .ok s') : Routinely s s' := by
  obtain ⟨rt, -, ⟨e, i, -, -, rfl⟩ | ⟨-, hhandle⟩⟩ := fillAndSendPkt_ip_cases h
  · exact .emit s (.datagram _ _ _ _)
  · have hqueue : Routinely (s.withCache _) s' := srArpreqHandle_routinely hhandle
    exact hqueue

theorem srArpreqSendPackets_routinely :
    ∀ {ps : List SrPacket} {s : SrState}, srArpreqSendPackets sr s ps = .ok s' → Routinely s s'
  | [], _, h => by
      cases h
      exact .refl _
  | cur :: next, s, h => by
      obtain ⟨-, s₁, hs₁, h⟩ := srArpreqSendPackets_cons.mp h
      exact (fillAndSendPkt_routinely hs₁).trans (srArpreqSendPackets_routinely h)

theorem learnMapping_routinely {mac : EtherAddr} {ip : InAddr}
    (h : learnMapping sr s mac ip = .ok s') : Routinely s s' := by
  cases hins : (srArpcacheInsert s.cache mac ip s.clock).2 with
  | none =>
      rw [learnMapping_none hins] at h
      cases h
      exact .refl s
  | some req =>
      rw [learnMapping_some hins] at h
      have hflush := srArpreqSendPackets_routinely h
      exact (Routinely.emit (s.withCache _) (.answered req)).trans hflush

theorem learnSender_routinely {mac : EtherAddr} {ip : InAddr}
    (h : learnSender sr s mac ip = .ok s') : Routinely s s' := by
  unfold learnSender at h
  split at h
  · cases h
    exact .refl s
  · exact learnMapping_routinely h

/-- No ARP reply is routine. -/
theorem arpReplies_routine {es : List SrEvent} (h : ∀ e ∈ es, e.Routine) : arpReplies es = [] := by
  apply List.flatMap_eq_nil_iff.mpr
  intro e he
  have hip : SrEthertype.ip.value ≠ SrEthertype.arp.value := by decide
  have hop : arpOpRequest ≠ arpOpReply := by decide
  cases h e he with
  | forwarded => rfl
  | datagram => simp [SrEvent.arpReplies, ethertype_ethFrame, hip]
  | request => simp [SrEvent.arpReplies, hop]
  | asked => rfl
  | answered => rfl
  | destroyed => rfl

/-- Handling a request whose gateway has a route. -/
theorem srArpreqHandle_succeeds (hverified : srVerifyRoutingTable sr = 0) {r : SrArpreq}
    {packet : SrPacket} {rest : List SrPacket} {i : SrIf}
    (hderef : derefReq s.cache.requests r.addr = some r) (hpackets : r.packets = packet :: rest)
    (hi : srGetInterface sr packet.iface = some i) (hgateway : HasRoute sr r.ip) :
    ∃ s', srArpreqHandle sr s r.addr = .ok s' := by
  obtain ⟨rt, hrt⟩ := hgateway
  obtain ⟨j, hj⟩ := interface_of_verified hverified rt (longestPrefixMatch_eq_some hrt).1
  obtain ⟨s₁, hsend⟩ : ∃ s₁, sendArpRequest sr s r = .ok s₁ :=
    ⟨_, sendArpRequest_iff.mpr ⟨packet, rest, i, rt, j, hpackets, hi, hrt, hj, rfl⟩⟩
  simp only [srArpreqHandle, hderef]
  split
  · split
    · exact ⟨_, rfl⟩
    · rw [hsend]
      exact ⟨_, rfl⟩
  · exact ⟨_, rfl⟩

/-- A datagram whose destination and gateway have routes. -/
theorem fillAndSendPkt_succeeds (hverified : srVerifyRoutingTable sr = 0)
    (haddrs : AddrsOk s.cache) {d : Bytes} (hd : d ≠ []) {dip : InAddr} {rt : SrRt}
    (hrt : longestPrefixMatch sr dip = some rt) (hgateway : HasRoute sr rt.gw) :
    ∃ s', fillAndSendPkt sr s d dip .ip = .ok s' ∧ AddrsOk s'.cache := by
  obtain ⟨i, hi⟩ := interface_of_verified hverified rt (longestPrefixMatch_eq_some hrt).1
  cases he : srArpcacheLookup s.cache rt.gw with
  | some e => exact ⟨_, fillAndSendPkt_cached hrt he hi, haddrs⟩
  | none =>
      have hfill : fillAndSendPkt sr s d dip .ip
          = srArpreqHandle sr (s.withCache (srArpcacheQueuereq s.cache rt.gw d rt.interface).1)
            (srArpcacheQueuereq s.cache rt.gw d rt.interface).2 := by
        unfold fillAndSendPkt fillAndSendPktWith
        simp [hrt, he]
      have haddrs' := haddrs.queue rt.gw d rt.interface
      -- the request for the gateway, old or new, can be sent: both routes exist
      have hhandle : ∃ s', srArpreqHandle sr
          (s.withCache (srArpcacheQueuereq s.cache rt.gw d rt.interface).1)
          (srArpcacheQueuereq s.cache rt.gw d rt.interface).2 = .ok s' := by
        rcases srArpcacheQueuereq_cases haddrs rt.gw hd rt.interface with
          ⟨before, r, after, -, hip, heq⟩ | ⟨-, heq⟩
        · rw [heq] at haddrs' ⊢
          exact srArpreqHandle_succeeds (s := s.withCache _)
            (r := { r with packets := ⟨d, rt.interface⟩ :: r.packets }) hverified
            (derefReq_split haddrs'.nodup) rfl hi (hip ▸ hgateway)
        · rw [heq] at haddrs' ⊢
          exact srArpreqHandle_succeeds (s := s.withCache _)
            (r := ⟨s.cache.brk, rt.gw, 0, 0, [⟨d, rt.interface⟩]⟩) hverified
            (by simp [derefReq]) rfl hi hgateway
      obtain ⟨s', hs'⟩ := hhandle
      exact ⟨s', hfill.trans hs', AddrsOk.handle (s := s.withCache _) haddrs' hs'⟩

/-- A flush of packets that hold a destination address. -/
theorem srArpreqSendPackets_succeeds (hverified : srVerifyRoutingTable sr = 0) {g : InAddr}
    (hgateway : HasRoute sr g) :
    ∀ {ps : List SrPacket} {s : SrState}, AddrsOk s.cache →
      (∀ p ∈ ps, sizeofIpHdr ≤ p.buf.length ∧ nextHop sr (ipDst p.buf) = some g) →
      ∃ s', srArpreqSendPackets sr s ps = .ok s'
  | [], s, _, _ => ⟨s, rfl⟩
  | cur :: next, s, haddrs, hps => by
      obtain ⟨hlen, hhop⟩ := hps cur (by simp)
      obtain ⟨rt, hrt, rfl⟩ := nextHop_eq_some hhop
      have hne : cur.buf ≠ [] := List.ne_nil_of_length_pos (Nat.lt_of_lt_of_le (by decide) hlen)
      obtain ⟨s₁, hs₁, haddrs₁⟩ := fillAndSendPkt_succeeds hverified haddrs hne hrt hgateway
      obtain ⟨s', hs'⟩ := srArpreqSendPackets_succeeds hverified hgateway haddrs₁
        fun p hp => hps p (List.mem_cons_of_mem cur hp)
      exact ⟨s', srArpreqSendPackets_cons.mpr ⟨hlen, s₁, hs₁, hs'⟩⟩

/-- A sender with a route is learned without a fault if what waits for it can be flushed. -/
theorem learnSender_iff (hverified : srVerifyRoutingTable sr = 0) (haddrs : AddrsOk s.cache)
    (hok : HopsOk sr s.cache) {ip : InAddr} (hroute : HasRoute sr ip) (mac : EtherAddr) :
    (∃ s', learnSender sr s mac ip = .ok s') ↔
      ∀ r ∈ s.cache.requests, r.ip = ip → ∀ p ∈ r.packets, sizeofIpHdr ≤ p.buf.length := by
  by_cases hwaiting : ∃ r ∈ s.cache.requests, r.ip = ip
  · obtain ⟨r, hr, rfl⟩ := hwaiting
    have habsent := hok.keys.absent_of_request hr
    obtain ⟨hsome, before, after, hsplit, -⟩ :=
      srArpcacheInsert_takes hok.keys hr mac s.clock
    rw [learnSender_answers habsent hsome]
    constructor
    · rintro ⟨s', hs'⟩ x hx hip
      have hsame : x = r := by
        rw [hsplit] at hx
        rcases mem_split.mp hx with heq | hmem
        · exact heq
        · exact absurd hip (hok.keys.ip_ne_of_split hsplit x hmem)
      rw [hsame]
      exact length_of_srArpreqSendPackets hs'
    · intro hlong
      refine srArpreqSendPackets_succeeds hverified hroute (by exact haddrs.insert mac r.ip s.clock)
        ?_
      intro p hp
      have hlen := hlong r hr rfl p hp
      exact ⟨hlen, hok.routed r hr p hp hlen⟩
  · constructor
    · intro _ r hr hip
      exact absurd ⟨r, hr, hip⟩ hwaiting
    · intro _
      unfold learnSender
      split
      · exact ⟨s, rfl⟩
      · rcases srArpcacheInsert_cases s.cache mac ip s.clock with
          ⟨before, r, after, hsplit, hip, -, -⟩ | ⟨-, -, hnone⟩
        · exact absurd ⟨r, by simp [hsplit], hip⟩ hwaiting
        · exact ⟨_, learnMapping_none hnone⟩

/-- Where the cache has `mac` for a gateway once the sender of an ARP frame has been learned. -/
theorem gateway_current_iff (c : SrArpcache) (mac : EtherAddr) (ip gw : InAddr) (now : Nat) :
    (srArpcacheLookup (lookupAndInsert c mac ip now) gw).map SrArpentry.mac = some mac ↔
      (∃ e, srArpcacheLookup c gw = some e ∧ e.mac = mac) ∨
      (gw = ip ∧ srArpcacheLookup c ip = none ∧ ∃ k, (c.entries k).valid = false) := by
  by_cases hgw : gw = ip
  · rw [hgw, lookupAndInsert_current_iff]
    simp
  · rw [srArpcacheLookup_lookupAndInsert_of_ne mac now hgw]
    simp [hgw, Option.map_eq_some_iff]

/-- The answer a requester should get: one ARP reply in the step, on the interface the request came
in on, addressed to the requester and with that interface's own addresses. -/
def RequestAnswered (sr : SrConfig) (interface : String) (packet : Bytes) (s s' : SrState) : Prop :=
  ∃ i es frame, srGetInterface sr interface = some i ∧ s'.history = s.history ++ es ∧
    arpReplies es = [(interface, frame)] ∧
    etherDhost frame = arSha packet ∧ arTha frame = arSha packet ∧
    etherShost frame = i.addr ∧ arSha frame = i.addr ∧ arSip frame = i.ip ∧
    arTip frame = arSip packet

/-- The requester at `ip` is routed through the interface its request came in on, and the gateway of
that route is in the cache with the requester's own hardware address, or will be as soon as the
requester has been learned. What waits for the requester can be flushed. -/
structure CanAnswer (sr : SrConfig) (s : SrState) (interface : String) (ip : InAddr)
    (mac : EtherAddr) : Prop where
  flush : ∀ r ∈ s.cache.requests, r.ip = ip → ∀ p ∈ r.packets, sizeofIpHdr ≤ p.buf.length
  route : ∃ rt, longestPrefixMatch sr ip = some rt ∧ rt.interface = interface ∧
    ((∃ e, srArpcacheLookup s.cache rt.gw = some e ∧ e.mac = mac) ∨
      (rt.gw = ip ∧ srArpcacheLookup s.cache ip = none ∧ ∃ k, (s.cache.entries k).valid = false))

/-- The step of an ARP request: the sender is learned, and a reply goes to the gateway of its
route. -/
theorem srStep_request_iff {interface : String} {packet : Bytes} {ip : InAddr} {mac : EtherAddr}
    (hteach : Teaches sr ip mac (.received interface packet))
    (hrequest : arpOpcode packet = arpOpRequest) (now : Nat) (mem : Memory) :
    ∃ i, srGetInterface sr interface = some i ∧ ∀ s',
      srStep sr s (.frame interface packet now mem) = .ok s' ↔
        ∃ s₁ rt j dhost, learnSender sr (s.arrived interface packet now mem) mac ip = .ok s₁ ∧
          longestPrefixMatch sr ip = some rt ∧ srGetInterface sr rt.interface = some j ∧
          (srArpcacheLookup s₁.cache rt.gw).map SrArpentry.mac = some dhost ∧
          s' = s₁.emit (.transmitted (.fillAndSendPkt .arp) rt.interface
            (arpFrame dhost j.addr arpOpReply i.addr i.ip mac ip)) := by
  obtain ⟨rfl, rfl⟩ := hteach.sender
  obtain ⟨i, hi, -, hstep⟩ := srStep_teaches (s := s) hteach now mem
  refine ⟨i, hi, fun s' => ?_⟩
  have hdhost : ∀ (c : SrArpcache) rt, arpDhost c rt arpOpReply
      = (srArpcacheLookup c rt.gw).map SrArpentry.mac := fun _ _ => if_neg (by decide)
  rw [hstep]
  cases hs₁ : learnSender sr (s.arrived interface packet now mem) (arSha packet) (arSip packet) with
  | error e => simp
  | ok s₁ =>
      simp only [if_pos hrequest]
      rw [handleArpRequst, fillAndSendPkt, fillAndSendPktWith_arp_iff (.inr rfl)]
      simp [hdhost]

/-- A step that learns a sender and replies makes one ARP reply. -/
theorem arpReplies_reply {interface : String} {packet : Bytes} {now : Nat} {mem : Memory}
    {ip : InAddr} {mac : EtherAddr} {s₁ : SrState}
    (h : learnSender sr (s.arrived interface packet now mem) mac ip = .ok s₁) (iface : String)
    (dhost shost sha : EtherAddr) (sip : InAddr) (tha : EtherAddr) (tip : InAddr) :
    ∃ es, (s₁.emit (.transmitted (.fillAndSendPkt .arp) iface
        (arpFrame dhost shost arpOpReply sha sip tha tip))).history = s.history ++ es ∧
      arpReplies es = [(iface, arpFrame dhost shost arpOpReply sha sip tha tip)] := by
  obtain ⟨es, hes, hroutine⟩ := learnSender_routinely h
  have hreceived : arpReplies [.received interface packet] = [] := rfl
  let reply := SrEvent.transmitted (.fillAndSendPkt .arp) iface
    (arpFrame dhost shost arpOpReply sha sip tha tip)
  refine ⟨[.received interface packet] ++ es ++ [reply], ?_, ?_⟩
  · rw [SrState.emit_history, hes, SrState.arrived_history]
    simp [reply]
  · rw [arpReplies_append, arpReplies_append, hreceived, arpReplies_routine hroutine]
    simp [arpReplies, SrEvent.arpReplies, reply]

/-- **ARP requests are answered where they came from, and exactly when.** In a reachable state, an
ARP request for the interface it comes in on is answered as it should be if and only if `CanAnswer`
holds. -/
theorem requestAnswered_iff {inputs : List SrInput} (hverified : srVerifyRoutingTable sr = 0)
    (hrun : srRun sr inputs = .ok s) {interface : String} {packet : Bytes} {ip : InAddr}
    {mac : EtherAddr} (hteach : Teaches sr ip mac (.received interface packet))
    (hrequest : arpOpcode packet = arpOpRequest) (now : Nat) (mem : Memory) :
    (∃ s', srStep sr s (.frame interface packet now mem) = .ok s' ∧
      RequestAnswered sr interface packet s s') ↔ CanAnswer sr s interface ip mac := by
  obtain ⟨haddrs, hok⟩ := hopsOk_of_srRun hrun
  obtain ⟨hsip, hsha⟩ := hteach.sender
  obtain ⟨i, hi, hstep⟩ := srStep_request_iff (s := s) hteach hrequest now mem
  have hlearns : HasRoute sr ip →
      ((∃ s₁, learnSender sr (s.arrived interface packet now mem) mac ip = .ok s₁) ↔
        ∀ r ∈ s.cache.requests, r.ip = ip → ∀ p ∈ r.packets, sizeofIpHdr ≤ p.buf.length) :=
    fun hroute => learnSender_iff (s := s.arrived interface packet now mem) hverified haddrs hok
      hroute mac
  have hlookup : ∀ s₁, learnSender sr (s.arrived interface packet now mem) mac ip = .ok s₁ →
      ∀ gw, srArpcacheLookup s₁.cache gw
        = srArpcacheLookup (lookupAndInsert s.cache mac ip now) gw :=
    fun s₁ hs₁ => srArpcacheLookup_congr
      (learnSender_entries (s := s.arrived interface packet now mem) haddrs hs₁)
  constructor
  · rintro ⟨s', hs', i', es, frame, -, hes, hreplies, hdst, -⟩
    obtain ⟨s₁, rt, j, dhost, hs₁, hrt, hj, hd, rfl⟩ := (hstep s').mp hs'
    obtain ⟨es', hes', hreplies'⟩ :=
      arpReplies_reply hs₁ rt.interface dhost j.addr i.addr i.ip mac ip
    cases List.append_cancel_left (hes.symm.trans hes')
    cases hreplies.symm.trans hreplies'
    -- the frame is addressed to the requester, so that is what the cache has for the gateway
    rw [etherDhost_arpFrame, hsha] at hdst
    rw [hdst, hlookup s₁ hs₁, gateway_current_iff] at hd
    exact ⟨(hlearns ⟨rt, hrt⟩).mp ⟨s₁, hs₁⟩, rt, hrt, rfl, hd⟩
  · rintro ⟨hflush, rt, hrt, rfl, hgateway⟩
    obtain ⟨s₁, hs₁⟩ := (hlearns ⟨rt, hrt⟩).mpr hflush
    rw [← gateway_current_iff, ← hlookup s₁ hs₁] at hgateway
    obtain ⟨es, hes, hreplies⟩ := arpReplies_reply hs₁ rt.interface mac i.addr i.addr i.ip mac ip
    refine ⟨_, (hstep _).mpr ⟨s₁, rt, i, mac, hs₁, hrt, hi, hgateway, rfl⟩, i, es, _, hi, hes,
      hreplies, ?_⟩
    simp [hsip, hsha]

end Answering

/-- A host at `host` asks for the router's address on the interface with the IP `ip`. -/
def whoHas (ip host : InAddr) : Bytes :=
  ethFrame broadcastAddr serverAddr .arp (arpHdr arpOpRequest serverAddr host broadcastAddr ip)

/-- The server asks for the router while a datagram waits for it. -/
theorem requestAnswered_serverAsks : ∃ s s',
    srRun rtableConfig [.frame "eth3" (clientFrame 64 (dotted 192 168 2 2)) 5 srInit.mem] = .ok s ∧
    srStep rtableConfig s (.frame "eth1" (whoHas (dotted 192 168 2 1) (dotted 192 168 2 2)) 6
      srInit.mem) = .ok s' ∧
    RequestAnswered rtableConfig "eth1" (whoHas (dotted 192 168 2 1) (dotted 192 168 2 2))
      s s' := by
  obtain ⟨s, hrun, hcheck⟩ : ∃ s,
      srRun rtableConfig [.frame "eth3" (clientFrame 64 (dotted 192 168 2 2)) 5 srInit.mem]
        = .ok s ∧
      ((srArpcacheLookup s.cache (dotted 192 168 2 2)).isNone &&
        (freeSlot s.cache.entries).isSome &&
        s.cache.requests.all fun r => r.packets.all fun p => decide (sizeofIpHdr ≤ p.buf.length))
        = true := exists_ok_of_check (by decide +kernel)
  simp only [Bool.and_eq_true, Option.isNone_iff_eq_none, freeSlot_isSome, List.all_eq_true,
    decide_eq_true_eq] at hcheck
  obtain ⟨⟨habsent, hfree⟩, hlong⟩ := hcheck
  have hteach : Teaches rtableConfig (dotted 192 168 2 2) serverAddr
      (.received "eth1" (whoHas (dotted 192 168 2 1) (dotted 192 168 2 2))) :=
    ⟨by decide, by decide, by decide +kernel, by decide +kernel, _, rfl, by decide⟩
  have hcan : CanAnswer rtableConfig s "eth1" (dotted 192 168 2 2) serverAddr :=
    ⟨fun r hr _ => hlong r hr, hostRoute (dotted 192 168 2 2) "eth1", by rfl, rfl,
      .inr ⟨rfl, habsent, hfree⟩⟩
  obtain ⟨s', hstep, hanswered⟩ := (requestAnswered_iff (by decide) hrun hteach
    (by decide +kernel) 6 srInit.mem).mpr hcan
  exact ⟨s, s', hrun, hstep, hanswered⟩

/-- A neighbour on `eth3` that the table has no route for gets no answer: the router crashes. -/
theorem not_requestAnswered_stranger :
    ¬ ∀ sr inputs s interface packet ip mac now mem, srVerifyRoutingTable sr = 0 →
      srRun sr inputs = .ok s → Teaches sr ip mac (.received interface packet) →
      arpOpcode packet = arpOpRequest →
      ∃ s', srStep sr s (.frame interface packet now mem) = .ok s' ∧
        RequestAnswered sr interface packet s s' := by
  intro h
  have hteach : Teaches rtableConfig (dotted 10 0 1 50) serverAddr
      (.received "eth3" (whoHas (dotted 10 0 1 1) (dotted 10 0 1 50))) :=
    ⟨by decide, by decide, by decide +kernel, by decide +kernel, _, rfl, by decide⟩
  obtain ⟨s', hstep, -⟩ := h rtableConfig [] srInit "eth3" _ _ _ 5 srInit.mem (by decide) rfl hteach
    (by decide +kernel)
  have hfault : (srStep rtableConfig srInit (.frame "eth3" (whoHas (dotted 10 0 1 1)
      (dotted 10 0 1 50)) 5 srInit.mem)).toOption.isNone = true := by decide +kernel
  rw [hstep] at hfault
  cases hfault

end NetworkProjects.Router
