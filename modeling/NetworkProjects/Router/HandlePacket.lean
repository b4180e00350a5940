import NetworkProjects.Router.Forward
import NetworkProjects.Lib.Run

/-!
# `sr_handlepacket`, the timeout sweep, and runs of the router

The dispatcher of `sr_router.c` with the functions it calls, the sweep of `sr_arpcache.c`, and
one atomic step for each: `srStep`. A run is `Lib.run (srStep sr) srInit inputs`.

The dispatcher edits the received frame in place. An edit is a `store` into the frame, and the
frame after the edit is what the callees get.
-/

namespace NetworkProjects.Router

open NetworkProjects.Lib

/-! ## Answers to the sender

The two frames that the router makes up for ICMP are lists of writes into a buffer from `malloc`, in
the order of the source. A reader can hold each list against the function it stands for. -/

/-- Copy `n` bytes from `off` in `src` over those from `pos` in `dst`. -/
def copyBytes (dst : Bytes) (pos : Nat) (src : Bytes) (off n : Nat) : Bytes :=
  store dst pos (slice src off n)

/-- `n` bytes of the received frame from `off`; past its end, whatever lies behind it. -/
def readFrame (packet : Bytes) (beyond : Nat → UInt8) (off n : Nat) : Bytes :=
  (List.range n).map fun i =>
    if off + i < packet.length then byteAt packet (off + i) else beyond (off + i - packet.length)

/-- The frame `sr_send_echo_reply` builds in a fresh buffer, in the order of its writes. -/
def echoReplyFrame (packet : Bytes) (heap : Nat → UInt8) : Bytes :=
  let buf := (List.range packet.length).map heap
  -- ICMP header: type, code, checksum over these four bytes
  let buf := store buf 34 [0]
  let buf := store buf 35 [0]
  let buf := store buf 36 [0, 0]
  let buf := store buf 36 (bytes16 (cksum (slice buf 34 sizeofIcmpHdr)))
  -- IP header: ip_hl and ip_v, ip_tos, ip_len, ip_id, ip_off, ip_p, ip_ttl, the addresses
  let buf := copyBytes buf 14 packet 14 1
  let buf := copyBytes buf 15 packet 15 1
  let buf := copyBytes buf 16 packet 16 2
  let buf := copyBytes buf 18 packet 18 2
  let buf := copyBytes buf 20 packet 20 2
  let buf := copyBytes buf 23 packet 23 1
  let buf := store buf 22 [63]
  let buf := copyBytes buf 26 packet 30 4
  let buf := copyBytes buf 30 packet 26 4
  let buf := store buf 24 [0, 0]
  let buf := store buf 24 (bytes16 (cksum (slice buf 14 sizeofIpHdr)))
  -- Ethernet header
  let buf := copyBytes buf 0 packet 6 6
  let buf := copyBytes buf 6 packet 0 6
  let buf := copyBytes buf 12 packet 12 2
  copyBytes buf 38 packet 38 (packet.length - 38)

/-- `sr_send_echo_reply`. Below 38 bytes `len - TotalHeaderLength` wraps around and the last
`memcpy` leaves both buffers. -/
def srSendEchoReply (sr : SrConfig) (s : SrState) (packet : Bytes) (interface : String) :
    Except Fault SrState :=
  if packet.length < sizeofEthernetHdr + sizeofIpHdr + sizeofIcmpHdr then .error .outOfBounds
  else .ok (srSendPacket sr s .echoReply (echoReplyFrame packet s.mem.heap) interface)

/-- The frame `sr_send_port_unreachable` builds, in the order of its writes. `icmp_sum`,
`unused`, `next_mtu` and `ip_sum` hold what the heap held when a checksum reads them. -/
def portUnreachableFrame (packet : Bytes) (i : SrIf) (mem : Memory) : Bytes :=
  let buf := (List.range (sizeofEthernetHdr + sizeofIpHdr + sizeofIcmpT3Hdr)).map mem.heap
  let buf := store buf 34 [3]
  let buf := store buf 35 [3]
  let buf := store buf 42 (readFrame packet mem.beyond 14 28)
  let buf := store buf 36 (bytes16 (cksum (slice buf 34 sizeofIcmpT3Hdr)))
  -- IP header: ip_hl and ip_v, the addresses, ip_tos, ip_len, ip_id, ip_off, ip_p, ip_ttl
  let buf := copyBytes buf 14 packet 14 1
  let buf := store buf 26 (bytes32 i.ip)
  let buf := copyBytes buf 30 packet 26 4
  let buf := copyBytes buf 15 packet 15 1
  let buf := store buf 16 (bytes16 (ntohs (sizeofIpHdr + sizeofIcmpT3Hdr)))
  let buf := copyBytes buf 18 packet 18 2
  let buf := copyBytes buf 20 packet 20 2
  let buf := store buf 23 [ipProtocolIcmp]
  let buf := store buf 22 [63]
  let buf := store buf 24 (bytes16 (cksum (slice buf 14 sizeofIpHdr)))
  -- Ethernet header
  let buf := copyBytes buf 0 packet 6 6
  let buf := store buf 6 i.addr.val
  copyBytes buf 12 packet 12 2

/-- `sr_send_port_unreachable`. -/
def srSendPortUnreachable (sr : SrConfig) (s : SrState) (packet : Bytes) (interface : String) :
    Except Fault SrState :=
  match srGetInterface sr interface with
  | none => .error .nullInterface
  | some i =>
      .ok (srSendPacket sr s .portUnreachable (portUnreachableFrame packet i s.mem) interface)

/-- What the router makes up to answer a frame. -/
inductive Answer (s : SrState) : SrSender → Bytes → Prop
  | echoReply {packet : Bytes}
      (long : sizeofEthernetHdr + sizeofIpHdr + sizeofIcmpHdr ≤ packet.length) :
      Answer s .echoReply (echoReplyFrame packet s.mem.heap)
  | portUnreachable {packet : Bytes} {i : SrIf} :
      Answer s .portUnreachable (portUnreachableFrame packet i s.mem)

theorem Answer.sender_ne {s : SrState} {sender : SrSender} {buf : Bytes}
    (h : Answer s sender buf) : sender ≠ .fillAndSendPkt .ip := by
  cases h with
  | echoReply => simp
  | portUnreachable => simp

/-- The state after an answer over `interface`. -/
def AnswersOn (sr : SrConfig) (interface : String) (s s' : SrState) : Prop :=
  ∃ sender buf, Answer s sender buf ∧ s' = srSendPacket sr s sender buf interface

theorem srSendEchoReply_ends {E : Fault → Prop} (hE : E .outOfBounds) (sr : SrConfig)
    (s : SrState) (packet : Bytes) (interface : String) :
    Ends (AnswersOn sr interface s) E (srSendEchoReply sr s packet interface) := by
  unfold srSendEchoReply
  split
  · exact hE
  · next hlen => exact ⟨_, _, .echoReply (Nat.le_of_not_lt hlen), rfl⟩

theorem srSendPortUnreachable_ends {E : Fault → Prop} {sr : SrConfig} {interface : String}
    (hE : srGetInterface sr interface = none → E .nullInterface) (s : SrState) (packet : Bytes) :
    Ends (AnswersOn sr interface s) E (srSendPortUnreachable sr s packet interface) := by
  unfold srSendPortUnreachable
  split
  · next hnone => exact hE hnone
  · exact ⟨_, _, .portUnreachable, rfl⟩

/-! ## The IP branch

What is not ARP is taken for IP. A frame passes the gate, or is dropped; then it is answered if it
is for the router, and else forwarded. -/

/-- The edits `ForwardToNextHop` makes to the frame: the TTL goes down by one in eight bits, the
checksum is cleared and computed again over the header length the header names. -/
def forwardEdits (packet : Bytes) : Bytes :=
  let packet := store packet 22 [byteAt packet 22 - 1]
  let packet := store packet 24 [0, 0]
  store packet 24 (bytes16 (cksum (slice packet 14 (ipIhl (ipHeader packet)))))

/-- `fwd_ip_pkt`: `ip_len` bytes from the IP header on. -/
def fwdIpPkt (packet : Bytes) (beyond : Nat → UInt8) : Bytes :=
  readFrame (forwardEdits packet) beyond sizeofEthernetHdr (ipLen (ipHeader packet))

/-- `ForwardToNextHop`. -/
def forwardToNextHop (sr : SrConfig) (s : SrState) (packet : Bytes) : Except Fault SrState :=
  let fwd := fwdIpPkt packet s.mem.beyond
  fillAndSendPkt sr (s.emit (.forwarded fwd)) fwd (ipDst (ipHeader (forwardEdits packet))) .ip

/-- The tests at the head of the IP branch. A frame that passes goes on with `ip_sum` cleared. -/
def ipGate (packet : Bytes) : Option Bytes :=
  if packet.length < sizeofIpHdr + sizeofEthernetHdr then none
  else if packet.length < sizeofEthernetHdr + ipIhl (ipHeader packet) then none
  else
    let receivedCksum := ipSum (ipHeader packet)
    let packet := store packet 24 [0, 0]
    let expectedCksum := cksum (slice packet 14 (ipIhl (ipHeader packet)))
    if expectedCksum ≠ receivedCksum then none else some packet

/-- The IP branch of `sr_handlepacket`, taken for every ethertype but ARP. -/
def handleIp (sr : SrConfig) (s : SrState) (interface : String) (packet : Bytes) :
    Except Fault SrState :=
  match ipGate packet with
  | none => .ok s
  | some packet =>
      if srInterfaceIpMatch sr (ipDst (ipHeader packet)) then
        if ipP (ipHeader packet) = ipProtocolIcmp then srSendEchoReply sr s packet interface
        else srSendPortUnreachable sr s packet interface
      else forwardToNextHop sr s packet

/-- What the IP branch can do with a frame: drop it, answer it, or forward it. -/
theorem handleIp_cases {sr : SrConfig} {s s' : SrState} {interface : String} {packet : Bytes}
    (h : handleIp sr s interface packet = .ok s') :
    (ipGate packet = none ∧ s' = s) ∨
    ∃ p, ipGate packet = some p ∧
      ((srInterfaceIpMatch sr (ipDst (ipHeader p)) = true ∧ AnswersOn sr interface s s') ∨
        (srInterfaceIpMatch sr (ipDst (ipHeader p)) = false ∧
          forwardToNextHop sr s p = .ok s')) := by
  unfold handleIp at h
  split at h
  · next hgate =>
    cases h
    exact .inl ⟨hgate, rfl⟩
  · next p hgate =>
    refine .inr ⟨p, hgate, ?_⟩
    split at h
    · next hmatch =>
      refine .inl ⟨hmatch, ?_⟩
      split at h
      · exact (srSendEchoReply_ends (E := fun _ => True) trivial sr s p interface).ok h
      · exact (srSendPortUnreachable_ends (E := fun _ => True) (fun _ => trivial) s p).ok h
    · next hmatch => exact .inr ⟨by simpa using hmatch, h⟩

/-! ## The ARP branch

A frame for the interface it came in on teaches its sender, and a request among them is answered as
well. -/

/-- `HandleArpRequst`. -/
def handleArpRequst (sr : SrConfig) (s : SrState) (packet : Bytes) (interface : SrIf) :
    Except Fault SrState :=
  fillAndSendPkt sr s
    (arpHdr arpOpReply interface.addr interface.ip (arSha packet) (arSip packet))
    (arSip packet) .arp

/-- `sr_arpcache_insert` and the flush of the request it returns. The request itself is not
freed. -/
def learnMapping (sr : SrConfig) (s : SrState) (mac : EtherAddr) (ip : InAddr) :
    Except Fault SrState :=
  match srArpcacheInsert s.cache mac ip s.clock with
  | (cache, none) => .ok (s.withCache cache)
  | (cache, some req) =>
      srArpreqSendPackets sr ((s.withCache cache).emit (.answered req)) req.packets

theorem learnMapping_none {sr : SrConfig} {s : SrState} {mac : EtherAddr} {ip : InAddr}
    (h : (srArpcacheInsert s.cache mac ip s.clock).2 = none) :
    learnMapping sr s mac ip = .ok (s.withCache (srArpcacheInsert s.cache mac ip s.clock).1) := by
  unfold learnMapping
  split
  · next cache hins => rw [hins]
  · next cache req hins =>
    rw [hins] at h
    cases h

theorem learnMapping_some {sr : SrConfig} {s : SrState} {mac : EtherAddr} {ip : InAddr}
    {req : SrArpreq} (h : (srArpcacheInsert s.cache mac ip s.clock).2 = some req) :
    learnMapping sr s mac ip = srArpreqSendPackets sr
      ((s.withCache (srArpcacheInsert s.cache mac ip s.clock).1).emit (.answered req))
      req.packets := by
  unfold learnMapping
  split
  · next cache hins =>
    rw [hins] at h
    cases h
  · next cache req' hins =>
    rw [hins] at h ⊢
    cases h
    rfl

/-- The ARP branch of `sr_handlepacket`. -/
def handleArp (sr : SrConfig) (s : SrState) (interface : String) (packet : Bytes) :
    Except Fault SrState :=
  if packet.length < sizeofEthernetHdr + sizeofArpHdr then .ok s
  else
    match srGetInterface sr interface with
    | none => .error .nullInterface
    | some recIf =>
        if recIf.ip ≠ arTip packet then .ok s
        else
          let learned : Except Fault SrState :=
            match srArpcacheLookup s.cache (arSip packet) with
            | some _ => .ok s
            | none => learnMapping sr s (arSha packet) (arSip packet)
          match learned with
          | .error e => .error e
          | .ok s =>
              if arpOpcode packet = arpOpRequest then handleArpRequst sr s packet recIf
              else .ok s

/-- `sr_handlepacket`. -/
def srHandlepacket (sr : SrConfig) (s : SrState) (interface : String) (packet : Bytes) :
    Except Fault SrState :=
  let s := s.emit (.received interface packet)
  if packet.length < sizeofEthernetHdr then .ok s
  else if ethertype packet = SrEthertype.arp.value then handleArp sr s interface packet
  else handleIp sr s interface packet

/-! ## The sweep

The loop walks along a list while its body takes nodes out of it, so the pointer to the next node is
part of the state. -/

/-- `cur->next`, for the request at `addr`. -/
def nextReq (requests : List SrArpreq) (addr : Nat) : Except Fault (Option Nat) :=
  match requests.dropWhile fun r => r.addr != addr with
  | [] => .error .dangling
  | _ :: rest => .ok (rest.head?.map SrArpreq.addr)

/-- The loop of `sr_arpcache_sweepreqs`: `next` is read before the request at `cur` is handled,
since handling may free it. -/
def sweepLoop (sr : SrConfig) : Nat → SrState → Option Nat → Option Nat → Except Fault SrState
  | _, s, none, _ => .ok s
  | 0, _, some _, _ => .error .dangling
  | fuel + 1, s, some cur, next =>
      match srArpreqHandle sr s cur with
      | .error e => .error e
      | .ok s =>
          match next with
          | none => sweepLoop sr fuel s none none
          | some cur =>
              match nextReq s.cache.requests cur with
              | .error e => .error e
              | .ok next => sweepLoop sr fuel s (some cur) next

/-- `sr_arpcache_sweepreqs`. One round for each request is enough (`srArpcacheSweepreqs_eq`). -/
def srArpcacheSweepreqs (sr : SrConfig) (s : SrState) : Except Fault SrState :=
  match s.cache.requests with
  | [] => .ok s
  | cur :: rest =>
      sweepLoop sr (rest.length + 1) s (some cur.addr) (rest.head?.map SrArpreq.addr)

/-- One round of `sr_arpcache_timeout`, all of it under the cache lock. -/
def srArpcacheTimeout (sr : SrConfig) (s : SrState) : Except Fault SrState :=
  srArpcacheSweepreqs sr
    { s with cache := { s.cache with entries := expireEntries s.clock s.cache.entries },
             history := s.history ++ expiredEvents s.clock s.cache.entries }

/-! ## Steps and runs

A step is atomic here. What two threads make of that is in `Threads` and `Interleaving`. -/

/-- What sets the router in motion: a frame on an interface, or the timeout thread waking up;
with the clock and the unwritten memory of that moment. -/
inductive SrInput
  | frame (interface : String) (packet : Bytes) (now : Nat) (mem : Memory)
  | timeout (now : Nat) (mem : Memory)

def SrInput.now : SrInput → Nat
  | .frame _ _ now _ => now
  | .timeout now _ => now

/-- One atomic step. -/
def srStep (sr : SrConfig) (s : SrState) : SrInput → Except Fault SrState
  | .frame interface packet now mem =>
      srHandlepacket sr { s with clock := now, mem := mem } interface packet
  | .timeout now mem => srArpcacheTimeout sr { s with clock := now, mem := mem }

/-- The run of the router on `inputs`, up to the first fault. -/
def srRun (sr : SrConfig) (inputs : List SrInput) : Except Fault SrState :=
  run (srStep sr) srInit inputs

/-! ## The sweep handles each request once -/

theorem nextReq_split {before after : List SrArpreq} {r : SrArpreq}
    (hnd : ((before ++ r :: after).map SrArpreq.addr).Nodup) :
    nextReq (before ++ r :: after) r.addr = .ok (after.head?.map SrArpreq.addr) := by
  obtain ⟨hb, -⟩ := addr_ne_of_split hnd
  have hdrop : (before ++ r :: after).dropWhile (fun x => x.addr != r.addr) = r :: after := by
    rw [List.dropWhile_append_of_pos (by simpa using hb), List.dropWhile_cons_of_neg (by simp)]
  rw [nextReq, hdrop]

/-- Handling the node between `before` and `after` leaves `after` in place and the addresses
distinct. -/
theorem srArpreqHandle_split {sr : SrConfig} {s s' : SrState} {before after : List SrArpreq}
    {r : SrArpreq} (hsplit : s.cache.requests = before ++ r :: after)
    (hnd : (s.cache.requests.map SrArpreq.addr).Nodup)
    (h : srArpreqHandle sr s r.addr = .ok s') :
    ∃ before', s'.cache.requests = before' ++ after ∧
      (s'.cache.requests.map SrArpreq.addr).Nodup := by
  have hnd' := hnd
  rw [hsplit] at hnd'
  rcases srArpreqHandle_cases hsplit hnd h with ⟨-, rfl⟩ | ⟨-, -, rfl⟩ | ⟨-, -, iface, frame, rfl⟩
  · exact ⟨before ++ [r], by simp [hsplit], hnd⟩
  · refine ⟨before, rfl, ?_⟩
    apply List.Nodup.sublist _ hnd'
    exact List.Sublist.map _ ((List.sublist_cons_self r after).append_left before)
  · refine ⟨before ++ [{ r with sent := s.clock, timesSent := r.timesSent + 1 }], by simp, ?_⟩
    simpa using hnd'

/-- The loop visits the nodes that were on the queue when it started. -/
theorem sweepLoop_eq {sr : SrConfig} :
    ∀ (rest : List SrArpreq) (fuel : Nat) (s : SrState) (before : List SrArpreq)
      (cur : SrArpreq), rest.length < fuel →
      s.cache.requests = before ++ cur :: rest →
      (s.cache.requests.map SrArpreq.addr).Nodup →
      sweepLoop sr fuel s (some cur.addr) (rest.head?.map SrArpreq.addr)
        = run (srArpreqHandle sr) s ((cur :: rest).map SrArpreq.addr) := by
  intro rest
  induction rest with
  | nil =>
      intro fuel s before cur hfuel hsplit hnd
      obtain ⟨fuel, rfl⟩ : ∃ n, fuel = n + 1 := ⟨fuel - 1, by omega⟩
      cases h : srArpreqHandle sr s cur.addr with
      | error e => simp [sweepLoop, run, h, bind, Except.bind]
      | ok s' => simp [sweepLoop, run, h, bind, Except.bind, pure, Except.pure]
  | cons n rest ih =>
      intro fuel s before cur hfuel hsplit hnd
      obtain ⟨fuel, rfl⟩ : ∃ n, fuel = n + 1 := ⟨fuel - 1, by omega⟩
      cases h : srArpreqHandle sr s cur.addr with
      | error e => simp [sweepLoop, run, h, bind, Except.bind]
      | ok s' =>
          obtain ⟨before', hsplit', hnd'⟩ := srArpreqHandle_split hsplit hnd h
          -- `next` was read before the handler ran, and is still in the queue
          have hnext : nextReq s'.cache.requests n.addr
              = .ok (rest.head?.map SrArpreq.addr) := by
            rw [hsplit'] at hnd' ⊢
            exact nextReq_split hnd'
          have hrun := ih fuel s' before' n (by simp at hfuel; omega) hsplit' hnd'
          simp only [sweepLoop, h, List.head?_cons, Option.map_some, hnext, hrun]
          simp [run, h, bind, Except.bind]

/-- `sr_arpcache_sweepreqs` handles each queued request once, in queue order. -/
theorem srArpcacheSweepreqs_eq {sr : SrConfig} {s : SrState}
    (hnd : (s.cache.requests.map SrArpreq.addr).Nodup) :
    srArpcacheSweepreqs sr s
      = run (srArpreqHandle sr) s (s.cache.requests.map SrArpreq.addr) := by
  unfold srArpcacheSweepreqs
  split
  · next h => rw [h]; rfl
  · next cur rest h =>
    rw [h]
    exact sweepLoop_eq rest _ s [] cur (by omega) (by simp [h]) hnd

end NetworkProjects.Router
