import NetworkProjects.Transport.Segment
import NetworkProjects.Lib.Run

/-!
# The handshake (`transport_init`)

Two processes, each with its own copy of the globals, and a network that delivers every segment
once and in order. A process runs from one blocking `stcp_network_recv` to the next.

The code adds one to the sequence number it has received without `ntohl`, and the server takes
its own sequence number from `E`, a header that only the client fills in. So the two sides agree
only in the cases where neither shows: `agreement_iff`.
-/

namespace NetworkProjects.Transport

open NetworkProjects.Lib

/-! ## `transport_init` -/

/-- Where a process is in `transport_init`. -/
inductive InitPoint
  /-- At the entry. The server blocks at once, for `C`. -/
  | entry
  /-- The client waits for `B`. -/
  | recvB
  /-- The server waits for `F`. -/
  | recvF
  /-- `control_loop` is entered. -/
  | controlLoop
  deriving DecidableEq, Repr

/-- The globals of a process, and where it is. -/
structure Process where
  a : STCPHeader
  b : STCPHeader
  c : STCPHeader
  d : STCPHeader
  e : STCPHeader
  f : STCPHeader
  acknowledgedByte : UInt32
  nextExpectedByte : UInt32
  sequenceNumber : UInt32
  point : InitPoint
  deriving DecidableEq, Repr

def Process.initial : Process :=
  ⟨.zero, .zero, .zero, .zero, .zero, .zero, 0, 0, 0, .entry⟩

section TransportInit

variable (o : ByteOrder)

/-- The client up to `stcp_network_recv(sd, &B, ...)`, with `x` as its random number. -/
def sendSyn (x : UInt32) (p : Process) : Process × Bytes :=
  let a := { p.a with thFlags := thSyn, thSeq := o.htonl x }
  ({ p with a := a, point := .recvB }, a.toBytes o)

/-- The client from there on. -/
def sendAck (p : Process) (segment : Bytes) : Process × Bytes :=
  let b := p.b.recv o segment
  let e := { p.e with thFlags := thAck, thSeq := b.thAck, thAck := b.thSeq + 1 }
  ({ p with
      b := b, e := e, acknowledgedByte := b.thAck - 1, sequenceNumber := b.thAck,
      nextExpectedByte := e.thAck, point := .controlLoop }, e.toBytes o)

/-- The server up to `stcp_network_recv(sd, &F, ...)`, with `y` as its random number. -/
def sendSynAck (y : UInt32) (p : Process) (segment : Bytes) : Process × Bytes :=
  let c := p.c.recv o segment
  let d := { p.d with thSeq := o.htonl y, thFlags := thAck ||| thSyn, thAck := c.thSeq + 1 }
  ({ p with c := c, d := d, point := .recvF }, d.toBytes o)

/-- The server from there on. -/
def recvAck (p : Process) (segment : Bytes) : Process :=
  { p with
    f := p.f.recv o segment, acknowledgedByte := p.d.thSeq, sequenceNumber := p.e.thAck,
    nextExpectedByte := p.d.thAck, point := .controlLoop }

end TransportInit

/-! ## The two processes -/

inductive Side
  | client
  | server
  deriving DecidableEq, Repr

/-- The processes, the segments on their way, and all segments that have been sent. -/
structure Handshake where
  client : Process
  server : Process
  toServer : List Bytes
  toClient : List Bytes
  wire : List Bytes
  deriving DecidableEq, Repr

def Handshake.start : Handshake := ⟨.initial, .initial, [], [], []⟩

/-- A process that cannot go on. -/
inductive Blocked
  | blocked
  deriving DecidableEq, Repr

/-- One side runs up to its next blocking call. -/
def handshakeStep (o : ByteOrder) (x y : UInt32) (s : Handshake) : Side → Except Blocked Handshake
  | .client =>
      match s.client.point, s.toClient with
      | .entry, _ =>
          let (client, syn) := sendSyn o x s.client
          .ok { s with client, toServer := s.toServer ++ [syn], wire := s.wire ++ [syn] }
      | .recvB, segment :: toClient =>
          let (client, ack) := sendAck o s.client segment
          .ok { s with client, toClient, toServer := s.toServer ++ [ack], wire := s.wire ++ [ack] }
      | _, _ => .error .blocked
  | .server =>
      match s.server.point, s.toServer with
      | .entry, segment :: toServer =>
          let (server, synAck) := sendSynAck o y s.server segment
          .ok { s with server, toServer, toClient := s.toClient ++ [synAck],
                       wire := s.wire ++ [synAck] }
      | .recvF, segment :: toServer =>
          .ok { s with server := recvAck o s.server segment, toServer }
      | _, _ => .error .blocked

/-- What the handshake is for: each side acknowledges the number behind the other's initial one,
and both start with the same counters. -/
structure Agreement (o : ByteOrder) (x y : UInt32) : Prop where
  synAck : ∀ sides s, run (handshakeStep o x y) .start sides = .ok s →
    ∀ segment ∈ s.wire, wireFlags segment = thAck ||| thSyn → wireAck segment = x + 1
  ack : ∀ sides s, run (handshakeStep o x y) .start sides = .ok s →
    ∀ segment ∈ s.wire, wireFlags segment = thAck → wireAck segment = y + 1
  counters : ∀ sides s, run (handshakeStep o x y) .start sides = .ok s →
    s.client.point = .controlLoop → s.server.point = .controlLoop →
    s.client.sequenceNumber = s.server.nextExpectedByte ∧
      s.server.sequenceNumber = s.client.nextExpectedByte

/-! ## The course of the handshake -/

section Course

variable (o : ByteOrder) (x y : UInt32)

def syn : STCPHeader := ⟨o.htonl x, 0, thSyn, 0⟩

def synAck : STCPHeader := ⟨o.htonl y, o.htonl x + 1, thAck ||| thSyn, 0⟩

def ack : STCPHeader := ⟨o.htonl x + 1, o.htonl y + 1, thAck, 0⟩

/-- The client once it has sent its SYN. -/
def synSent : Process := { Process.initial with a := syn o x, point := .recvB }

/-- The server once it has answered. -/
def synReceived : Process :=
  { Process.initial with c := syn o x, d := synAck o x y, point := .recvF }

/-- The client in `control_loop`. -/
def clientEstablished : Process :=
  { synSent o x with
    b := synAck o x y, e := ack o x y, acknowledgedByte := o.htonl x + 1 - 1,
    sequenceNumber := o.htonl x + 1, nextExpectedByte := o.htonl y + 1, point := .controlLoop }

/-- The server in `control_loop`. Its `E` is as it was at the start. -/
def serverEstablished : Process :=
  { synReceived o x y with
    f := ack o x y, acknowledgedByte := o.htonl y, sequenceNumber := 0,
    nextExpectedByte := o.htonl x + 1, point := .controlLoop }

def afterSyn : Handshake :=
  { client := synSent o x, server := .initial, toServer := [(syn o x).toBytes o], toClient := []
    wire := [(syn o x).toBytes o] }

def afterSynAck : Handshake :=
  { client := synSent o x, server := synReceived o x y, toServer := []
    toClient := [(synAck o x y).toBytes o]
    wire := [(syn o x).toBytes o, (synAck o x y).toBytes o] }

def afterAck : Handshake :=
  { client := clientEstablished o x y, server := synReceived o x y
    toServer := [(ack o x y).toBytes o], toClient := []
    wire := [(syn o x).toBytes o, (synAck o x y).toBytes o, (ack o x y).toBytes o] }

def established : Handshake :=
  { afterAck o x y with server := serverEstablished o x y, toServer := [] }

theorem step_start : handshakeStep o x y .start .client = .ok (afterSyn o x) := rfl

theorem step_afterSyn :
    handshakeStep o x y (afterSyn o x) .server = .ok (afterSynAck o x y) := by
  have hsend : sendSynAck o y .initial ((syn o x).toBytes o)
      = (synReceived o x y, (synAck o x y).toBytes o) := by
    simp only [sendSynAck, recv_toBytes]
    rfl
  simp only [handshakeStep, afterSyn, Process.initial] at hsend ⊢
  rw [hsend]
  rfl

theorem step_afterSynAck :
    handshakeStep o x y (afterSynAck o x y) .client = .ok (afterAck o x y) := by
  have hsend : sendAck o (synSent o x) ((synAck o x y).toBytes o)
      = (clientEstablished o x y, (ack o x y).toBytes o) := by
    simp only [sendAck, recv_toBytes]
    rfl
  simp only [handshakeStep, afterSynAck, synSent] at hsend ⊢
  rw [hsend]
  rfl

theorem step_afterAck :
    handshakeStep o x y (afterAck o x y) .server = .ok (established o x y) := by
  have hrecv : recvAck o (synReceived o x y) ((ack o x y).toBytes o)
      = serverEstablished o x y := by
    simp only [recvAck, recv_toBytes]
    rfl
  simp only [handshakeStep, afterAck, synReceived] at hrecv ⊢
  rw [hrecv]
  rfl

/-- The states of the handshake, one after the other. -/
def course : List Handshake :=
  [.start, afterSyn o x, afterSynAck o x y, afterAck o x y, established o x y]

variable {o x y}

/-- Only one side can go on, and it goes on to the next state. -/
theorem course_step {s s' : Handshake} {side : Side} (hs : s ∈ course o x y)
    (h : handshakeStep o x y s side = .ok s') : s' ∈ course o x y := by
  simp only [course, List.mem_cons, List.not_mem_nil, or_false] at hs ⊢
  rcases hs with rfl | rfl | rfl | rfl | rfl
  · cases side with
    | client =>
        rw [step_start] at h
        cases h
        exact .inr (.inl rfl)
    | server => cases h
  · cases side with
    | client => cases h
    | server =>
        rw [step_afterSyn] at h
        cases h
        exact .inr (.inr (.inl rfl))
  · cases side with
    | client =>
        rw [step_afterSynAck] at h
        cases h
        exact .inr (.inr (.inr (.inl rfl)))
    | server => cases h
  · cases side with
    | client => cases h
    | server =>
        rw [step_afterAck] at h
        cases h
        exact .inr (.inr (.inr (.inr rfl)))
  · cases side with
    | client => cases h
    | server => cases h

theorem mem_course {sides : List Side} {s : Handshake}
    (h : run (handshakeStep o x y) .start sides = .ok s) : s ∈ course o x y := by
  apply run_induction (P := fun _ s => s ∈ course o x y) ?_ ?_ h
  · exact List.mem_cons_self
  · intro _ _ t t' _ ht hstep
    exact course_step ht hstep

/-- The handshake can be completed. -/
theorem run_established :
    run (handshakeStep o x y) .start [.client, .server, .client, .server]
      = .ok (established o x y) := by
  simp only [run, List.foldlM_cons, List.foldlM_nil, bind, Except.bind, step_start, step_afterSyn,
    step_afterSynAck, step_afterAck, pure, Except.pure]

/-- Whatever is sent is one of the three segments. -/
theorem mem_wire {s : Handshake} (hs : s ∈ course o x y) {segment : Bytes}
    (h : segment ∈ s.wire) :
    ∃ header ∈ [syn o x, synAck o x y, ack o x y], segment = header.toBytes o := by
  simp only [course, List.mem_cons, List.not_mem_nil, or_false] at hs
  rcases hs with rfl | rfl | rfl | rfl | rfl <;>
    simp [Handshake.start, afterSyn, afterSynAck, afterAck, established] at h ⊢ <;> tauto

end Course

/-! ## When the two sides agree -/

/-- The SYN-ACK acknowledges the right number. -/
theorem synAck_acknowledges {o : ByteOrder} {x y : UInt32} (h : o = .big ∨ x.toNat = 2 ^ 32 - 1)
    {sides : List Side} {s : Handshake} (hrun : run (handshakeStep o x y) .start sides = .ok s)
    {segment : Bytes} (hmem : segment ∈ s.wire) (hflags : wireFlags segment = thAck ||| thSyn) :
    wireAck segment = x + 1 := by
  obtain ⟨header, hheader, rfl⟩ := mem_wire (mem_course hrun) hmem
  rw [wireFlags_header] at hflags
  rw [wireAck_header]
  simp only [List.mem_cons, List.not_mem_nil, or_false] at hheader
  rcases hheader with rfl | rfl | rfl
  · exact absurd hflags (by simp only [syn]; decide)
  · exact (ByteOrder.ntohl_htonl_add_one o x).mpr h
  · exact absurd hflags (by simp only [ack]; decide)

/-- The last segment acknowledges the right number. -/
theorem ack_acknowledges {o : ByteOrder} {x y : UInt32} (h : o = .big ∨ y.toNat = 2 ^ 32 - 1)
    {sides : List Side} {s : Handshake} (hrun : run (handshakeStep o x y) .start sides = .ok s)
    {segment : Bytes} (hmem : segment ∈ s.wire) (hflags : wireFlags segment = thAck) :
    wireAck segment = y + 1 := by
  obtain ⟨header, hheader, rfl⟩ := mem_wire (mem_course hrun) hmem
  rw [wireFlags_header] at hflags
  rw [wireAck_header]
  simp only [List.mem_cons, List.not_mem_nil, or_false] at hheader
  rcases hheader with rfl | rfl | rfl
  · exact absurd hflags (by simp only [syn]; decide)
  · exact absurd hflags (by simp only [synAck]; decide)
  · exact (ByteOrder.ntohl_htonl_add_one o y).mpr h

/-- Both sides are in `control_loop` at the end only. -/
theorem eq_established {o : ByteOrder} {x y : UInt32} {s : Handshake} (hs : s ∈ course o x y)
    (hclient : s.client.point = .controlLoop) (hserver : s.server.point = .controlLoop) :
    s = established o x y := by
  simp only [course, List.mem_cons, List.not_mem_nil, or_false] at hs
  rcases hs with rfl | rfl | rfl | rfl | rfl
  · cases hclient
  · cases hclient
  · cases hclient
  · cases hserver
  · rfl

/-- **The sides agree** only if adding one in network order does no harm, and the number that the
server takes from `E`, which is 0, happens to be right. -/
theorem agreement_iff (o : ByteOrder) (x y : UInt32) :
    Agreement o x y ↔ (o = .big ∨ x.toNat = 2 ^ 32 - 1) ∧ y.toNat = 2 ^ 32 - 1 := by
  constructor
  · intro h
    constructor
    · have hack : wireAck ((synAck o x y).toBytes o) = x + 1 := by
        apply h.synAck _ _ run_established
        · simp [established, afterAck]
        · rw [wireFlags_header]
          rfl
      rw [wireAck_header] at hack
      exact (ByteOrder.ntohl_htonl_add_one o x).mp hack
    · have hcounters := h.counters _ _ run_established rfl rfl
      exact ByteOrder.htonl_add_one_eq_zero.mp hcounters.2.symm
  · rintro ⟨hx, hy⟩
    constructor
    · intro sides s hrun segment hmem hflags
      exact synAck_acknowledges hx hrun hmem hflags
    · intro sides s hrun segment hmem hflags
      exact ack_acknowledges (.inr hy) hrun hmem hflags
    · intro sides s hrun hclient hserver
      rw [eq_established (mem_course hrun) hclient hserver]
      exact ⟨rfl, (ByteOrder.htonl_add_one_eq_zero.mpr hy).symm⟩

/-- Two little-endian hosts that start with 7 and 29 do not agree. -/
theorem not_agreement_little : ¬ Agreement .little 7 29 := by
  intro h
  have hcounters := h.counters [.client, .server, .client, .server] (established .little 7 29)
    run_established rfl rfl
  exact absurd hcounters.2 (by decide)

end NetworkProjects.Transport
