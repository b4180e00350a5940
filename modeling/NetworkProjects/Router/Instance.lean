import NetworkProjects.Router.Protocol

/-!
# The router's tables, its ARP cache, and what it writes down

`struct sr_instance` in two parts: `SrConfig`, the interface list and the routing table, which
nothing changes once packets arrive, and `SrState`, what the packet handler and the timeout
thread change. Linked lists are lists; a node of the request queue keeps its address, because
`sr_arpreq_handle` and `sr_arpreq_destroy` find a request by pointer and not by IP.

`SrState` carries a history of `SrEvent`s next to the source's own data. The code never reads
it: it is what the results about whole runs are stated on.
-/

namespace NetworkProjects.Router

open NetworkProjects.Lib

/-! ## Interfaces and routes (`sr_if.c`, `sr_rt.c`) -/

/-- `sr_IFACE_NAMELEN`. -/
def srIfaceNamelen : Nat := 32

/-- `struct sr_if`. The name is the text of the `char[32]`, on which `strncmp` over 32 bytes is
equality. -/
structure SrIf where
  name : String
  addr : EtherAddr
  ip : InAddr
  deriving DecidableEq

/-- `struct sr_rt`. -/
structure SrRt where
  dest : InAddr
  gw : InAddr
  mask : InAddr
  interface : String
  deriving DecidableEq

/-- A name as the text of an array: one character a byte. -/
def nameText (bs : Bytes) : String := String.ofList (bs.map fun c => Char.ofNat c.toNat)

/-- The bytes of a name. -/
def nameBytes (name : String) : Bytes := name.toList.map fun c => UInt8.ofNat c.toNat

/-- The part of `struct sr_instance` that is fixed while packets are handled. -/
@[ext] structure SrConfig where
  ifList : List SrIf
  routingTable : List SrRt

/-- `sr_get_interface`: the first interface of that name. -/
def srGetInterface (sr : SrConfig) (name : String) : Option SrIf :=
  sr.ifList.find? fun walker => walker.name == name

/-- `sr_interface_ip_match`. -/
def srInterfaceIpMatch (sr : SrConfig) (dip : InAddr) : Bool :=
  sr.ifList.any fun walker => dip == walker.ip

/-- The loop of `LongestPrefixMatch`: `lpm` is the best entry so far, `lpmLen` its mask. -/
def longestPrefixMatchLoop (addr : InAddr) :
    List SrRt → InAddr → Option SrRt → Option SrRt
  | [], _, lpm => lpm
  | cur :: next, lpmLen, lpm =>
      if cur.dest &&& cur.mask = addr &&& cur.mask ∧ lpmLen ≤ cur.mask then
        longestPrefixMatchLoop addr next cur.mask (some cur)
      else longestPrefixMatchLoop addr next lpmLen lpm

/-- `LongestPrefixMatch`. -/
def longestPrefixMatch (sr : SrConfig) (addr : InAddr) : Option SrRt :=
  longestPrefixMatchLoop addr sr.routingTable 0 none

/-! ## The ARP cache (`sr_arpcache.h`) -/

/-- `SR_ARPCACHE_SZ`. -/
def srArpcacheSz : Nat := 100
/-- `SR_ARPCACHE_TO`, in seconds. -/
def srArpcacheTo : Nat := 15

/-- `struct sr_packet`; `len` is the length of `buf`. -/
structure SrPacket where
  buf : Bytes
  iface : String
  deriving DecidableEq

/-- `struct sr_arpentry`. -/
structure SrArpentry where
  mac : EtherAddr
  ip : InAddr
  added : Nat
  valid : Bool

/-- `struct sr_arpreq`, with the address `calloc` gave it. -/
structure SrArpreq where
  addr : Nat
  ip : InAddr
  sent : Nat
  timesSent : Nat
  packets : List SrPacket
  deriving DecidableEq

/-- `struct sr_arpcache`. `brk` is the next address `calloc` returns. -/
structure SrArpcache where
  entries : Fin srArpcacheSz → SrArpentry
  requests : List SrArpreq
  brk : Nat

/-- The cache `sr_arpcache_init` leaves behind. -/
def srArpcacheInit : SrArpcache where
  entries := fun _ => ⟨etherAddrAt [] 0, 0, 0, false⟩
  requests := []
  brk := 0

/-! ## The history -/

/-- Which call site hands a frame to `sr_send_packet`. -/
inductive SrSender
  | fillAndSendPkt (type : SrEthertype)
  | echoReply
  | portUnreachable
  deriving DecidableEq

inductive SrEvent
  /-- `sr_handlepacket` is called. -/
  | received (interface : String) (packet : Bytes)
  /-- The timeout thread clears `valid` on an entry. -/
  | expired (ip : InAddr) (mac : EtherAddr)
  /-- `ForwardToNextHop` hands a datagram to `FillAndSendPkt`. -/
  | forwarded (datagram : Bytes)
  /-- `sr_send_packet` writes a frame. -/
  | transmitted (sender : SrSender) (interface : String) (frame : Bytes)
  /-- `send_arp_request` is called for the request at `addr`. -/
  | arpRequested (addr : Nat) (now : Nat)
  /-- `sr_arpcache_insert` takes a request off the queue. -/
  | answered (req : SrArpreq)
  /-- `sr_arpreq_destroy` frees a request with its packets. -/
  | destroyed (req : SrArpreq)
  deriving DecidableEq

/-- What a step finds in memory that nobody wrote for it: the bytes behind the received frame,
what `malloc` returns, and the `ar_tha` left on the stack of the `n`-th event. -/
structure Memory where
  beyond : Nat → UInt8
  heap : Nat → UInt8
  stack : Nat → EtherAddr

/-- What changes while the router runs. `clock` is what `time` returns and `mem` what
unwritten memory holds, both for the step being taken. -/
structure SrState where
  cache : SrArpcache
  clock : Nat
  mem : Memory
  history : List SrEvent

/-- The state `sr_init` leaves behind. -/
def srInit : SrState :=
  ⟨srArpcacheInit, 0, ⟨fun _ => 0, fun _ => 0, fun _ => etherAddrAt [] 0⟩, []⟩

/-- Write one event down. -/
def SrState.emit (s : SrState) (e : SrEvent) : SrState := { s with history := s.history ++ [e] }

@[simp] theorem SrState.emit_cache (s : SrState) (e : SrEvent) : (s.emit e).cache = s.cache := rfl
@[simp] theorem SrState.emit_clock (s : SrState) (e : SrEvent) : (s.emit e).clock = s.clock := rfl
@[simp] theorem SrState.emit_mem (s : SrState) (e : SrEvent) : (s.emit e).mem = s.mem := rfl
@[simp] theorem SrState.emit_history (s : SrState) (e : SrEvent) :
    (s.emit e).history = s.history ++ [e] := rfl

/-- Replace the cache. -/
def SrState.withCache (s : SrState) (c : SrArpcache) : SrState := { s with cache := c }

@[simp] theorem SrState.withCache_cache (s : SrState) (c : SrArpcache) :
    (s.withCache c).cache = c := rfl
@[simp] theorem SrState.withCache_clock (s : SrState) (c : SrArpcache) :
    (s.withCache c).clock = s.clock := rfl
@[simp] theorem SrState.withCache_mem (s : SrState) (c : SrArpcache) :
    (s.withCache c).mem = s.mem := rfl
@[simp] theorem SrState.withCache_history (s : SrState) (c : SrArpcache) :
    (s.withCache c).history = s.history := rfl

/-- Where the source runs into undefined behaviour. -/
inductive Fault
  /-- `rt->interface` with no matching route. -/
  | nullRoute
  /-- `interface->addr` or `rec_if->ip` with no such interface. -/
  | nullInterface
  /-- `arp_entry->mac` with no cache entry. -/
  | nullArpEntry
  /-- `req->packets->iface` with no waiting packet. -/
  | nullPackets
  /-- A request that is no longer on the queue. -/
  | dangling
  /-- A read or write outside a buffer. -/
  | outOfBounds
  deriving DecidableEq, Repr

end NetworkProjects.Router
