import NetworkProjects.Router.HandlePacket

/-!
# What `LongestPrefixMatch` returns, and the routing table that comes with the router

The loop keeps the best entry so far, and a later entry with the same mask replaces an earlier
one. So the result is an entry that matches, with no matching entry of a larger mask and no
later one of the same mask.

The second half is the table in the file `rtable`: three host routes, each through an interface
the router has. Concrete runs are evaluated on it, with the frames at the end.
-/

namespace NetworkProjects.Router

open NetworkProjects.Lib

/-! ## The lookup -/

/-- The address is in the network of the entry. -/
def SrRt.Matches (rt : SrRt) (addr : InAddr) : Prop := rt.dest &&& rt.mask = addr &&& rt.mask

instance (rt : SrRt) (addr : InAddr) : Decidable (rt.Matches addr) :=
  inferInstanceAs (Decidable (_ = _))

/-- The loop returns what it started with, unless a matching entry of the list replaces it. -/
theorem longestPrefixMatchLoop_mem {addr : InAddr} :
    ∀ {rts : List SrRt} {lpmLen : InAddr} {lpm : Option SrRt} {rt : SrRt},
      longestPrefixMatchLoop addr rts lpmLen lpm = some rt →
      lpm = some rt ∨ rt ∈ rts ∧ rt.Matches addr
  | [], _, _, _, h => .inl h
  | cur :: next, lpmLen, lpm, rt, h => by
      unfold longestPrefixMatchLoop at h
      split at h
      · next hcur =>
        rcases longestPrefixMatchLoop_mem h with heq | ⟨hmem, hmatch⟩
        · cases heq
          exact .inr ⟨by simp, hcur.1⟩
        · exact .inr ⟨by simp [hmem], hmatch⟩
      · rcases longestPrefixMatchLoop_mem h with heq | ⟨hmem, hmatch⟩
        · exact .inl heq
        · exact .inr ⟨by simp [hmem], hmatch⟩

/-- The mask of the result is at least the bound the loop started with, and at least that of
every matching entry. -/
theorem longestPrefixMatchLoop_mask {addr : InAddr} :
    ∀ {rts : List SrRt} {lpmLen : InAddr} {lpm : Option SrRt} {rt : SrRt},
      (∀ rt₀ ∈ lpm, rt₀.mask = lpmLen) →
      longestPrefixMatchLoop addr rts lpmLen lpm = some rt →
      lpmLen ≤ rt.mask ∧ ∀ rt' ∈ rts, rt'.Matches addr → rt'.mask ≤ rt.mask
  | [], lpmLen, lpm, rt, hlpm, h => by
      unfold longestPrefixMatchLoop at h
      have hmask := hlpm rt (by simp [h])
      exact ⟨by rw [hmask]; exact UInt32.le_refl _, by simp⟩
  | cur :: next, lpmLen, lpm, rt, hlpm, h => by
      unfold longestPrefixMatchLoop at h
      split at h
      · next hcur =>
        obtain ⟨hle, hall⟩ := longestPrefixMatchLoop_mask (by simp) h
        refine ⟨UInt32.le_trans hcur.2 hle, ?_⟩
        intro rt' hrt' hmatch
        rcases List.mem_cons.mp hrt' with rfl | hrt'
        · exact hle
        · exact hall rt' hrt' hmatch
      · next hcur =>
        obtain ⟨hle, hall⟩ := longestPrefixMatchLoop_mask hlpm h
        refine ⟨hle, ?_⟩
        intro rt' hrt' hmatch
        rcases List.mem_cons.mp hrt' with rfl | hrt'
        · -- it matches, so its mask is what kept it out
          have hmask : ¬ lpmLen ≤ rt'.mask := fun hm => hcur ⟨hmatch, hm⟩
          exact UInt32.le_trans (UInt32.le_of_lt (UInt32.not_le.mp hmask)) hle
        · exact hall rt' hrt' hmatch

/-- **The route of an address** is an entry of the table whose network holds the address, and
no such entry has a larger mask. -/
theorem longestPrefixMatch_eq_some {sr : SrConfig} {addr : InAddr} {rt : SrRt}
    (h : longestPrefixMatch sr addr = some rt) :
    rt ∈ sr.routingTable ∧ rt.Matches addr ∧
      ∀ rt' ∈ sr.routingTable, rt'.Matches addr → rt'.mask ≤ rt.mask := by
  rcases longestPrefixMatchLoop_mem h with hnone | ⟨hmem, hmatch⟩
  · cases hnone
  · exact ⟨hmem, hmatch, (longestPrefixMatchLoop_mask (by simp) h).2⟩

/-! ## The routing table in `rtable` -/

/-- A dotted-quad address, in network byte order. -/
def dotted (a b c d : UInt8) : InAddr := load32 [a, b, c, d] 0

/-- A line of `rtable`: a route to one host, which is its own gateway. -/
def hostRoute (host : InAddr) (interface : String) : SrRt :=
  ⟨host, host, dotted 255 255 255 255, interface⟩

/-- The three interfaces and the table in `rtable`. The hardware addresses are the server's to
choose. -/
def rtableConfig : SrConfig where
  ifList :=
    [⟨"eth1", ⟨[2, 0, 0, 0, 0, 1], rfl⟩, dotted 192 168 2 1⟩,
      ⟨"eth2", ⟨[2, 0, 0, 0, 0, 2], rfl⟩, dotted 172 64 3 1⟩,
      ⟨"eth3", ⟨[2, 0, 0, 0, 0, 3], rfl⟩, dotted 10 0 1 1⟩]
  routingTable :=
    [hostRoute (dotted 10 0 1 100) "eth3", hostRoute (dotted 192 168 2 2) "eth1",
      hostRoute (dotted 172 64 3 10) "eth2"]

/-- Every route of `rtable` goes to the host itself, through an interface the router has. -/
theorem rtable_route {addr : InAddr} {rt : SrRt}
    (h : longestPrefixMatch rtableConfig addr = some rt) :
    rt.gw = addr ∧ (srGetInterface rtableConfig rt.interface).isSome := by
  obtain ⟨hmem, hmatch, -⟩ := longestPrefixMatch_eq_some h
  have hhost : rt.mask = -1 ∧ rt.gw = rt.dest ∧
      (srGetInterface rtableConfig rt.interface).isSome := by
    simp only [rtableConfig, List.mem_cons, List.not_mem_nil, or_false] at hmem
    rcases hmem with rfl | rfl | rfl <;> decide
  obtain ⟨hmask, hgw, hif⟩ := hhost
  refine ⟨?_, hif⟩
  rw [SrRt.Matches, hmask, UInt32.and_neg_one, UInt32.and_neg_one] at hmatch
  rw [hgw, hmatch]

/-! ## Frames, and a run -/

/-- A datagram without options and with a correct header checksum. -/
def ipDatagram (ttl proto : UInt8) (src dst : InAddr) (payload : Bytes) : Bytes :=
  let hdr := [0x45, 0] ++ bytes16 (ntohs (sizeofIpHdr + payload.length)) ++ [0, 0, 0, 0]
    ++ [ttl, proto, 0, 0] ++ bytes32 src ++ bytes32 dst
  store hdr 10 (bytes16 (cksum hdr)) ++ payload

/-- The hardware address of the server at `192.168.2.2`. -/
def serverAddr : EtherAddr := ⟨[2, 0, 0, 0, 1, 1], rfl⟩

/-- A datagram from the client, as the router receives it on `eth3`. -/
def clientFrame (ttl : UInt8) (dst : InAddr) : Bytes :=
  ethFrame ⟨[2, 0, 0, 0, 0, 3], rfl⟩ ⟨[2, 0, 0, 0, 1, 3], rfl⟩ .ip
    (ipDatagram ttl 17 (dotted 10 0 1 100) dst [1, 2, 3, 4])

/-- The server's answer to the router's ARP request on `eth1`. -/
def serverArpReply : Bytes :=
  ethFrame ⟨[2, 0, 0, 0, 0, 1], rfl⟩ serverAddr .arp
    (arpHdr arpOpReply serverAddr (dotted 192 168 2 2) ⟨[2, 0, 0, 0, 0, 1], rfl⟩
      (dotted 192 168 2 1))

/-- The first datagram is queued, the server's answer flushes it, the second one goes out at
once; the third one waits for the other server. -/
def queueAndFlush : List SrInput :=
  [.frame "eth3" (clientFrame 64 (dotted 192 168 2 2)) 5 srInit.mem,
    .frame "eth1" serverArpReply 6 srInit.mem,
    .frame "eth3" (clientFrame 32 (dotted 192 168 2 2)) 7 srInit.mem,
    .frame "eth3" (clientFrame 64 (dotted 172 64 3 10)) 8 srInit.mem]

/-- The same, until the router gives up on the third datagram. -/
def queueAndGiveUp : List SrInput :=
  queueAndFlush ++ [10, 12, 14, 16, 18].map (.timeout · srInit.mem)

end NetworkProjects.Router
