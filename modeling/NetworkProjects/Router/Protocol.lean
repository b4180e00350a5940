import NetworkProjects.Lib.Bytes

/-!
# Ethernet, ARP and IP headers (`sr_protocol.h`, `sr_utils.c`)

A frame is its bytes; the header structs are packed, so a field is a fixed offset. An Ethernet
frame is `packet`, an `ip_hdr` or `arp_hdr` pointer is `packet + 14`; the accessors below take
the frame, except those on a bare datagram (`ipDst`, `ipTtl`, …), which take what an
`ip_hdr` pointer points at.

Addresses stay in network byte order in the source, in 32-bit words of a little-endian host.
They are compared and masked, never converted, so `InAddr` is that word.
-/

namespace NetworkProjects.Router

open NetworkProjects.Lib

/-! ## Sizes and constants -/

def etherAddrLen : Nat := 6
/-- `sizeof(struct sr_ethernet_hdr)`. -/
def sizeofEthernetHdr : Nat := 14
/-- `sizeof(struct sr_arp_hdr)`. -/
def sizeofArpHdr : Nat := 28
/-- `sizeof(struct sr_ip_hdr)`. -/
def sizeofIpHdr : Nat := 20
/-- `sizeof(struct sr_icmp_hdr)`. -/
def sizeofIcmpHdr : Nat := 4
/-- `sizeof(struct sr_icmp_t3_hdr)`. -/
def sizeofIcmpT3Hdr : Nat := 36

/-- `enum sr_ethertype`. -/
inductive SrEthertype
  | arp
  | ip
  deriving DecidableEq, Repr

def SrEthertype.value : SrEthertype → Nat
  | .arp => 0x0806
  | .ip => 0x0800

def arpOpRequest : Nat := 1
def arpOpReply : Nat := 2
def ipProtocolIcmp : UInt8 := 1

/-- An IPv4 address: `s_addr`, in network byte order. -/
abbrev InAddr := UInt32

/-- A hardware address. -/
abbrev EtherAddr := { bs : Bytes // bs.length = etherAddrLen }

/-- The hardware address at an offset. -/
def etherAddrAt (p : Bytes) (off : Nat) : EtherAddr :=
  ⟨(List.range etherAddrLen).map fun i => byteAt p (off + i), by simp⟩

/-- `memset(eth_hdr.ether_dhost, 255, ETHER_ADDR_LEN)`. -/
def broadcastAddr : EtherAddr := ⟨List.replicate etherAddrLen 255, by simp⟩

/-! ## Ethernet header -/

def etherDhost (packet : Bytes) : EtherAddr := etherAddrAt packet 0
def etherShost (packet : Bytes) : EtherAddr := etherAddrAt packet 6
def ethertype (packet : Bytes) : Nat := ntohs (load16 packet 12)

/-- A frame: the Ethernet header `FillAndSendPkt` fills in, then the payload. -/
def ethFrame (dhost shost : EtherAddr) (type : SrEthertype) (payload : Bytes) : Bytes :=
  dhost.val ++ shost.val ++ bytes16 (ntohs type.value) ++ payload

/-! ## ARP header, in a frame -/

def arpOpcode (packet : Bytes) : Nat := ntohs (load16 packet 20)
def arSha (packet : Bytes) : EtherAddr := etherAddrAt packet 22
def arSip (packet : Bytes) : InAddr := load32 packet 28
def arTha (packet : Bytes) : EtherAddr := etherAddrAt packet 32
def arTip (packet : Bytes) : InAddr := load32 packet 38

/-- A `struct sr_arp_hdr` with the four leading fields both senders fill in alike. -/
def arpHdr (op : Nat) (sha : EtherAddr) (sip : InAddr) (tha : EtherAddr) (tip : InAddr) : Bytes :=
  bytes16 (ntohs 1) ++ bytes16 (ntohs 0x0800) ++ [6, 4] ++ bytes16 (ntohs op)
    ++ sha.val ++ bytes32 sip ++ tha.val ++ bytes32 tip

/-! ## IP header, behind an `ip_hdr` pointer -/

/-- `ip_hl`, the low nibble of the first byte. -/
def ipHl (d : Bytes) : Nat := (byteAt d 0).toNat % 16
/-- `ip_v`, the high nibble of the first byte. -/
def ipV (d : Bytes) : Nat := (byteAt d 0).toNat / 16
/-- The header length in bytes. -/
def ipIhl (d : Bytes) : Nat := ipHl d * 4
def ipLen (d : Bytes) : Nat := ntohs (load16 d 2)
def ipTtl (d : Bytes) : UInt8 := byteAt d 8
def ipP (d : Bytes) : UInt8 := byteAt d 9
def ipSum (d : Bytes) : Nat := load16 d 10
def ipSrc (d : Bytes) : InAddr := load32 d 12
def ipDst (d : Bytes) : InAddr := load32 d 16

/-- `ip_header(packet)`: what the pointer points at. -/
def ipHeader (packet : Bytes) : Bytes := packet.drop sizeofEthernetHdr

/-! ## The Internet checksum -/

/-- The first loop of `cksum`: the 32-bit accumulator takes the big-endian words, an odd last
byte as a high byte. -/
def cksumWords : Bytes → Nat → Nat
  | hi :: lo :: rest, sum => cksumWords rest ((sum + (hi.toNat * 256 + lo.toNat)) % 2 ^ 32)
  | [hi], sum => (sum + hi.toNat * 256) % 2 ^ 32
  | [], sum => sum

/-- The second loop, `while (sum > 0xffff)`, for at most `fuel` rounds. -/
def cksumFold : Nat → Nat → Nat
  | 0, sum => sum
  | fuel + 1, sum => if sum > 0xffff then cksumFold fuel (sum / 2 ^ 16 + sum % 2 ^ 16) else sum

/-- `cksum`. Each round of the fold decreases `sum`, so `sum` rounds are enough
(`cksumFold_le`). The result is `htons (~sum)`, a word in network byte order. -/
def cksum (data : Bytes) : Nat :=
  let sum := cksumWords data 0
  ntohs (0xffff - cksumFold sum sum)

/-- The fold leaves its loop: the result fits in 16 bits. -/
theorem cksumFold_le : ∀ fuel sum, sum ≤ fuel → cksumFold fuel sum ≤ 0xffff
  | 0, sum, h => by
      rw [cksumFold]
      omega
  | fuel + 1, sum, h => by
      rw [cksumFold]
      split
      · next hbig => exact cksumFold_le fuel _ (by omega)
      · next hsmall => omega

end NetworkProjects.Router
