import NetworkProjects.Router.QueueMoves

/-!
# Two threads

`srStep` takes a whole frame at once. The code does not: the packet thread holds the cache lock
inside the four cache operations only, and the timeout thread can run between any two of its
accesses. Here the packet thread has a program point, with the pointers and copies it has in its
local variables there, and `threadStep` is one turn of one of the threads. The sweep holds the lock
all the time, so it is one turn.
-/

namespace NetworkProjects.Router

open NetworkProjects.Lib

/-! ## Program points of the packet thread

The packet thread can be interrupted between two accesses to the cache. A point says what it does
next, and what it has in its local variables. -/

/-- What `FillAndSendPkt` is called for. The call for an ARP request comes from
`sr_arpreq_handle`, which goes on with the request. -/
inductive Caller
  | datagram
  | arpReply
  | arpRequest (req : Nat)

def Caller.type : Caller → SrEthertype
  | .datagram => .ip
  | .arpReply => .arp
  | .arpRequest _ => .arp

inductive Point
  /-- Waiting for a frame. -/
  | idle
  /-- `FillAndSendPkt`, before it looks up the gateway. -/
  | fillAndSendPkt (caller : Caller) (packet : Bytes) (dip : InAddr)
  /-- `FillAndSendPkt`, with the frame it is about to send. -/
  | sendPacket (caller : Caller) (frame : Bytes) (iface : String)
  /-- `FillAndSendPkt`, about to queue. -/
  | queuereq (gw : InAddr) (packet : Bytes) (iface : String)
  /-- `sr_arpreq_handle`, about to read `req->sent`. -/
  | readSent (req : Nat)
  /-- `sr_arpreq_handle`, about to read `req->times_sent`. -/
  | readTimes (req : Nat)
  | destroy (req : Nat)
  /-- `send_arp_request`, about to read `req->packets->iface`. -/
  | readIface (req : Nat)
  /-- `send_arp_request`, about to read `req->ip` for the ARP header. -/
  | readTip (req : Nat) (interface : SrIf) (tha : EtherAddr)
  /-- `send_arp_request`, about to read `req->ip` for the call of `FillAndSendPkt`. -/
  | readDip (req : Nat) (arpHdr : Bytes)
  /-- `sr_arpreq_handle`, about to write `req->sent`. -/
  | writeSent (req : Nat)
  /-- `sr_arpreq_handle`, about to write `req->times_sent`. -/
  | writeTimes (req : Nat)
  /-- `sr_handlepacket`, about to look up the sender of an ARP frame. -/
  | lookupSender (mac : EtherAddr) (ip : InAddr)
  | insert (mac : EtherAddr) (ip : InAddr)
  /-- `sr_arpreq_send_packets`, before the packet at `cur`, for a request that has left the
  queue. -/
  | sendPackets (req : SrArpreq) (cur : List SrPacket)

/-- The shared state, where the packet thread is, and what it returns to from there. -/
structure Threads where
  state : SrState
  point : Point
  later : List Point

/-- The packet thread goes on at `p`. -/
def Threads.goto (t : Threads) (p : Point) : Threads := { t with point := p }

/-- The packet thread returns. -/
def Threads.done (t : Threads) : Threads :=
  match t.later with
  | [] => { t with point := .idle }
  | p :: ps => { t with point := p, later := ps }

/-- The shared state changes. -/
def Threads.update (t : Threads) (s : SrState) : Threads := { t with state := s }

/-! ## Turns of the packet thread

A turn is one access and the code up to the next one. A pointer to a request that is gone is a fault
when it is followed. -/

/-- Access through a pointer to a request. -/
def withReq (s : SrState) (req : Nat) {α : Type} (access : SrArpreq → Except Fault α) :
    Except Fault α :=
  match derefReq s.cache.requests req with
  | none => .error .dangling
  | some r => access r

/-- An access that succeeds is an access to a queued request. -/
theorem of_withReq {s : SrState} {req : Nat} {α : Type} {access : SrArpreq → Except Fault α}
    {a : α} (h : withReq s req access = .ok a) :
    ∃ r, derefReq s.cache.requests req = some r ∧ access r = .ok a := by
  unfold withReq at h
  cases hderef : derefReq s.cache.requests req with
  | none =>
      rw [hderef] at h
      cases h
  | some r =>
      rw [hderef] at h
      exact ⟨r, rfl, h⟩

/-- `FillAndSendPkt` up to the end of the lookup: it sends, or it queues. -/
def fillPoint (sr : SrConfig) (s : SrState) (caller : Caller) (packet : Bytes) (dip : InAddr) :
    Except Fault Point :=
  match longestPrefixMatch sr dip with
  | none => .error .nullRoute
  | some rt =>
      let interface := srGetInterface sr rt.interface
      let arpEntry := srArpcacheLookup s.cache rt.gw
      if arpEntry.isSome ∨ caller.type = .arp then
        let dhost :=
          if caller.type = .arp ∧ ntohs (load16 packet 6) = arpOpRequest then some broadcastAddr
          else arpEntry.map SrArpentry.mac
        match dhost, interface with
        | none, _ => .error .nullArpEntry
        | _, none => .error .nullInterface
        | some dhost, some i =>
            .ok (.sendPacket caller (ethFrame dhost i.addr caller.type packet) rt.interface)
      else .ok (.queuereq rt.gw packet rt.interface)

/-- Where the lookup in `FillAndSendPkt` leads. -/
theorem fillPoint_cases {sr : SrConfig} {s : SrState} {caller : Caller} {packet : Bytes}
    {dip : InAddr} {p : Point} (h : fillPoint sr s caller packet dip = .ok p) :
    (∃ frame iface, p = .sendPacket caller frame iface) ∨
      caller.type = .ip ∧ ∃ gw iface, p = .queuereq gw packet iface := by
  unfold fillPoint at h
  split at h
  · cases h
  · next rt hrt =>
    simp only at h
    split at h
    · split at h
      · cases h
      · cases h
      · cases h
        exact .inl ⟨_, _, rfl⟩
    · next hqueue =>
      cases h
      refine .inr ⟨?_, _, _, rfl⟩
      cases hcaller : caller.type with
      | ip => rfl
      | arp => exact absurd (.inr hcaller) hqueue

/-- Write through a pointer to a request. -/
def writeReq (s : SrState) (req : Nat) (f : SrArpreq → SrArpreq) : SrState :=
  s.withRequests (updateReq req f s.cache.requests)

/-- One turn of the packet thread. -/
def packetStep (sr : SrConfig) (t : Threads) : Except Fault Threads :=
  let s := t.state
  match t.point with
  | .idle => .ok t
  | .fillAndSendPkt caller packet dip => (fillPoint sr s caller packet dip).map t.goto
  | .sendPacket caller frame iface =>
      let t := t.update (srSendPacket sr s (.fillAndSendPkt caller.type) frame iface)
      match caller with
      | .arpRequest req => .ok (t.goto (.writeSent req))
      | _ => .ok t.done
  | .queuereq gw packet iface =>
      let (cache, req) := srArpcacheQueuereq s.cache gw packet iface
      .ok ((t.update (s.withCache cache)).goto (.readSent req))
  | .readSent req => withReq s req fun r =>
      .ok (if r.sent + 1 < s.clock then t.goto (.readTimes req) else t.done)
  | .readTimes req => withReq s req fun r =>
      .ok (t.goto (if r.timesSent ≥ 5 then .destroy req else .readIface req))
  | .destroy req => withReq s req fun r =>
      .ok (t.update ((s.withCache (srArpreqDestroy s.cache req)).emit (.destroyed r))).done
  | .readIface req => withReq s req fun r =>
      match r.packets with
      | [] => .error .nullPackets
      | packet :: _ =>
          match srGetInterface sr packet.iface with
          | none => .error .nullInterface
          | some interface =>
              .ok ((t.update (s.emit (.arpRequested req s.clock))).goto
                (.readTip req interface (s.mem.stack s.history.length)))
  | .readTip req interface tha => withReq s req fun r =>
      .ok (t.goto (.readDip req (arpHdr arpOpRequest interface.addr interface.ip tha r.ip)))
  | .readDip req arpHdr => withReq s req fun r =>
      .ok (t.goto (.fillAndSendPkt (.arpRequest req) arpHdr r.ip))
  | .writeSent req => withReq s req fun _ =>
      .ok ((t.update (writeReq s req fun r => { r with sent := s.clock })).goto (.writeTimes req))
  | .writeTimes req => withReq s req fun _ =>
      .ok (t.update (writeReq s req fun r => { r with timesSent := r.timesSent + 1 })).done
  | .lookupSender mac ip =>
      match srArpcacheLookup s.cache ip with
      | some _ => .ok t.done
      | none => .ok (t.goto (.insert mac ip))
  | .insert mac ip =>
      match srArpcacheInsert s.cache mac ip s.clock with
      | (cache, none) => .ok (t.update (s.withCache cache)).done
      | (cache, some req) =>
          .ok ((t.update ((s.withCache cache).emit (.answered req))).goto
            (.sendPackets req req.packets))
  | .sendPackets _ [] => .ok t.done
  | .sendPackets req (cur :: next) =>
      if cur.buf.length < sizeofIpHdr then .error .outOfBounds
      else
        .ok { t with
          point := .fillAndSendPkt .datagram cur.buf (ipDst cur.buf)
          later := .sendPackets req next :: t.later }

/-- `sr_handlepacket`, up to its first access to the cache. Frames that the router answers itself
never access it. -/
def receiveStep (sr : SrConfig) (t : Threads) (interface : String) (packet : Bytes) :
    Except Fault Threads :=
  let s := t.state.emit (.received interface packet)
  if packet.length < sizeofEthernetHdr then .ok (t.update s)
  else if ethertype packet = SrEthertype.arp.value then
    if packet.length < sizeofEthernetHdr + sizeofArpHdr then .ok (t.update s)
    else
      match srGetInterface sr interface with
      | none => .error .nullInterface
      | some recIf =>
          if recIf.ip ≠ arTip packet then .ok (t.update s)
          else
            .ok
              { state := s
                point := .lookupSender (arSha packet) (arSip packet)
                later :=
                  if arpOpcode packet = arpOpRequest then
                    [.fillAndSendPkt .arpReply
                      (arpHdr arpOpReply recIf.addr recIf.ip (arSha packet) (arSip packet))
                      (arSip packet)]
                  else [] }
  else
    match ipGate packet with
    | none => .ok (t.update s)
    | some packet =>
        if srInterfaceIpMatch sr (ipDst (ipHeader packet)) then
          if ipP (ipHeader packet) = ipProtocolIcmp then
            (srSendEchoReply sr s packet interface).map t.update
          else (srSendPortUnreachable sr s packet interface).map t.update
        else
          let fwd := fwdIpPkt packet s.mem.beyond
          .ok ((t.update (s.emit (.forwarded fwd))).goto
            (.fillAndSendPkt .datagram fwd (ipDst (ipHeader (forwardEdits packet)))))

/-- What becomes of a frame that is taken in: the packet thread has answered or dropped it, or goes
on with what it has read. -/
inductive TakenIn (sr : SrConfig) (t : Threads) (interface : String) (packet : Bytes) :
    Threads → Prop
  | drop : TakenIn sr t interface packet (t.update (t.state.emit (.received interface packet)))
  | answer {s : SrState}
      (answered : AnswersOn sr interface (t.state.emit (.received interface packet)) s) :
      TakenIn sr t interface packet (t.update s)
  | arp {mac : EtherAddr} {ip : InAddr} {later : List Point}
      (reply : ∀ p ∈ later, ∃ payload dip, p = .fillAndSendPkt .arpReply payload dip) :
      TakenIn sr t interface packet
        ⟨t.state.emit (.received interface packet), .lookupSender mac ip, later⟩
  | forward {d : Bytes} {dip : InAddr} :
      TakenIn sr t interface packet
        ((t.update ((t.state.emit (.received interface packet)).emit (.forwarded d))).goto
          (.fillAndSendPkt .datagram d dip))

theorem receiveStep_ends (sr : SrConfig) (t : Threads) (interface : String) (packet : Bytes) :
    Ends (TakenIn sr t interface packet) (· ≠ .dangling) (receiveStep sr t interface packet) := by
  unfold receiveStep
  simp only
  split
  · exact .drop
  · split
    · split
      · exact .drop
      · split
        · simp [Ends]
        · split
          · exact .drop
          · refine .arp fun p hp => ?_
            split at hp
            · exact ⟨_, _, List.mem_singleton.mp hp⟩
            · cases hp
    · split
      · exact .drop
      · next p _ =>
        split
        · have hanswer : ∀ s, AnswersOn sr interface (t.state.emit (.received interface packet)) s →
              TakenIn sr t interface packet (t.update s) := fun _ => .answer
          split
          · exact (srSendEchoReply_ends (by simp) sr _ p interface).map _ hanswer
          · exact (srSendPortUnreachable_ends (by simp) _ p).map _ hanswer
        · exact .forward

/-! ## Turns of both threads

The timeout thread holds the lock for a whole round, so its turn is the round. -/

/-- Whose turn it is, with the clock and the unwritten memory of that moment. -/
inductive Turn
  /-- The packet thread takes a frame, if it waits for one. -/
  | receive (interface : String) (packet : Bytes) (now : Nat) (mem : Memory)
  /-- The packet thread goes on. -/
  | packet (now : Nat) (mem : Memory)
  /-- The timeout thread wakes up and does its round. -/
  | timeout (now : Nat) (mem : Memory)

/-- The clock and the unwritten memory of a turn are in place. -/
def Threads.at (t : Threads) (now : Nat) (mem : Memory) : Threads :=
  t.update { t.state with clock := now, mem := mem }

/-- One turn. A frame that arrives while the packet thread is busy stays in the socket. -/
def threadStep (sr : SrConfig) (t : Threads) : Turn → Except Fault Threads
  | .receive interface packet now mem =>
      match t.point with
      | .idle => receiveStep sr (t.at now mem) interface packet
      | _ => .ok t
  | .packet now mem => packetStep sr (t.at now mem)
  | .timeout now mem => (srArpcacheTimeout sr (t.at now mem).state).map t.update

/-- Both threads before the first frame. -/
def threadsInit : Threads := ⟨srInit, .idle, []⟩

/-- An interleaving of the two threads, up to the first fault. -/
def threadRun (sr : SrConfig) (turns : List Turn) : Except Fault Threads :=
  run (threadStep sr) threadsInit turns

end NetworkProjects.Router
