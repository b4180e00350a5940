import NetworkProjects.Lib.Fill
import NetworkProjects.Router.Datagram

/-!
# The writes of `sr_send_echo_reply` and `sr_send_port_unreachable`

Both functions fill in a fresh buffer from the frame they answer. `echoReplyWrites` and
`portUnreachableWrites` list what they write, in their order, and the frames they build are what
these writes make of the buffer (`echoReplyFrame_eq_fill`, `portUnreachableFrame_eq_fill`).
-/

namespace NetworkProjects.Router

open NetworkProjects.Lib

/-! ## The writes -/

/-- What a pointer into the frame reads: the frame, and then what lies behind it. -/
def frameByte (packet : Bytes) (beyond : Nat → UInt8) (k : Nat) : UInt8 :=
  if k < packet.length then byteAt packet k else beyond (k - packet.length)

theorem frameByte_of_lt {packet : Bytes} (beyond : Nat → UInt8) {k : Nat}
    (h : k < packet.length) : frameByte packet beyond k = byteAt packet k := if_pos h

/-- What `sr_send_echo_reply` writes, if `tail` bytes are copied at the end. -/
def echoReplyWrites (tail : Nat) : List Write :=
  [.put 34 [0], .put 35 [0], .put 36 [0, 0], .word 36 34 sizeofIcmpHdr cksum,
    .copy 14 14 1, .copy 15 15 1, .copy 16 16 2, .copy 18 18 2, .copy 20 20 2, .copy 23 23 1,
    .put 22 [63], .copy 26 30 4, .copy 30 26 4, .put 24 [0, 0], .word 24 14 sizeofIpHdr cksum,
    .copy 0 6 6, .copy 6 0 6, .copy 12 12 2, .copy 38 38 tail]

/-- What `sr_send_port_unreachable` writes, if the frame came in on `i`. -/
def portUnreachableWrites (i : SrIf) : List Write :=
  [.put 34 [3], .put 35 [3], .copy 42 14 28, .word 36 34 sizeofIcmpT3Hdr cksum,
    .copy 14 14 1, .put 26 (bytes32 i.ip), .copy 30 26 4, .copy 15 15 1,
    .put 16 (bytes16 (ntohs (sizeofIpHdr + sizeofIcmpT3Hdr))), .copy 18 18 2, .copy 20 20 2,
    .put 23 [ipProtocolIcmp], .put 22 [63], .word 24 14 sizeofIpHdr cksum,
    .copy 0 6 6, .put 6 i.addr.val, .copy 12 12 2]

section Writes

variable {packet : Bytes}

/-- A copy out of the frame. -/
theorem copyBytes_eq (beyond : Nat → UInt8) {dst : Bytes} {pos off n : Nat}
    (h : off + n ≤ packet.length) :
    copyBytes dst pos packet off n = store dst pos (readFrame packet beyond off n) := by
  rw [copyBytes, readFrame_eq_slice h]

theorem echoReplyFrame_eq_fill (h : 38 ≤ packet.length) (heap beyond : Nat → UInt8) :
    echoReplyFrame packet heap
      = fill (frameByte packet beyond) ((List.range packet.length).map heap)
          (echoReplyWrites (packet.length - 38)) := by
  unfold echoReplyFrame
  simp (disch := omega) only [copyBytes_eq beyond]
  rfl

theorem portUnreachableFrame_eq_fill (h : 34 ≤ packet.length) (i : SrIf) (mem : Memory) :
    portUnreachableFrame packet i mem
      = fill (frameByte packet mem.beyond) ((List.range 70).map mem.heap)
          (portUnreachableWrites i) := by
  unfold portUnreachableFrame
  simp (disch := omega) only [copyBytes_eq mem.beyond]
  rfl

/-- The writes of an echo reply fit into a buffer that has room for the headers and the tail. -/
theorem fits_echoReplyWrites {len tail : Nat} (h : 38 + tail ≤ len) :
    ∀ w ∈ echoReplyWrites tail, w.Fits len := by
  simp only [echoReplyWrites, List.mem_cons, List.not_mem_nil, or_false, forall_eq_or_imp,
    forall_eq, Write.Fits, Write.pos, Write.size, List.length_cons, List.length_nil]
  omega

theorem fits_portUnreachableWrites (i : SrIf) : ∀ w ∈ portUnreachableWrites i, w.Fits 70 := by
  have hmac : i.addr.val.length = 6 := i.addr.property
  simp only [portUnreachableWrites, List.mem_cons, List.not_mem_nil, or_false, forall_eq_or_imp,
    forall_eq, Write.Fits, Write.pos, Write.size, List.length_cons, List.length_nil, bytes16,
    bytes32, hmac]
  omega

theorem length_echoReplyFrame (h : 38 ≤ packet.length) (heap : Nat → UInt8) :
    (echoReplyFrame packet heap).length = packet.length := by
  rw [echoReplyFrame_eq_fill h heap fun _ => 0]
  exact length_fill _ (by simp) (fits_echoReplyWrites (by omega))

/-- A byte of the reply that is copied from the frame. -/
theorem byteAt_echoReplyFrame_copy (h : 38 ≤ packet.length) (heap : Nat → UInt8)
    {j pos off n i : Nat}
    (hj : (echoReplyWrites (packet.length - 38))[j]? = some (.copy pos off n)) (hi : i < n)
    (hoff : off + n ≤ packet.length)
    (hafter : ∀ w ∈ (echoReplyWrites (packet.length - 38)).drop (j + 1), ¬ w.Covers (pos + i)) :
    byteAt (echoReplyFrame packet heap) (pos + i) = byteAt packet (off + i) := by
  rw [echoReplyFrame_eq_fill h heap fun _ => 0,
    byteAt_fill_copy (show _ = packet.length by simp) (fits_echoReplyWrites (by omega)) hj hi
      hafter, frameByte_of_lt _ (by omega)]

end Writes

end NetworkProjects.Router
