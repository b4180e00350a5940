import NetworkProjects.Router.Answers
import NetworkProjects.Router.EchoStorm

/-!
# The echo reply

`sr_handlepacket` checks that the Ethernet header and the IP header are there before it calls
`sr_send_echo_reply`, which also takes an ICMP header for granted. A frame without one makes it
write behind the buffer, and the length of its last copy wraps around (`echoReply_inBounds_iff`).

The reply is the request with the addresses exchanged, except for its checksums. The one of the IP
header is right. The one of the ICMP message is computed over the four bytes of `sr_icmp_hdr`
alone, before the identifier, the sequence number and the data are copied in behind them
(`echoReply_valid_iff`).
-/

namespace NetworkProjects.Router

open NetworkProjects.Lib

/-! ## The calls

Which frames reach the function, and what the dispatcher has checked of them. -/

/-- `sr_handlepacket` calls `sr_send_echo_reply` with `p` when it receives `packet`. -/
structure EchoReplyCalled (sr : SrConfig) (packet p : Bytes) : Prop where
  accepted : ipAccepted packet = some p
  mine : srInterfaceIpMatch sr (ipDst (ipHeader p)) = true
  icmp : ipP (ipHeader p) = ipProtocolIcmp

section Calls

variable {sr : SrConfig} {packet p : Bytes}

theorem EchoReplyCalled.handled (h : EchoReplyCalled sr packet p) (s : SrState)
    (interface : String) :
    srHandlepacket sr s interface packet
      = srSendEchoReply sr (s.emit (.received interface packet)) p interface := by
  obtain ⟨hchecked, -⟩ := ipAccepted_eq_some.mp h.accepted
  rw [srHandlepacket_eq (.inr hchecked.notArp), h.accepted]
  simp only [h.mine, h.icmp, if_true]

theorem EchoReplyCalled.length (h : EchoReplyCalled sr packet p) : p.length = packet.length := by
  obtain ⟨hchecked, rfl⟩ := ipAccepted_eq_some.mp h.accepted
  have h34 : 34 ≤ packet.length := hchecked.length
  exact length_store (by simp; omega)

end Calls

/-! ## Bounds

The dispatcher has checked for an IP header. The function takes 38 bytes for granted, and subtracts
them from the length without a sign. -/

/-- `len - TotalHeaderLength`, in 32 bits without a sign. -/
def echoReplyTail (len : Nat) : Nat :=
  (len + 2 ^ 32 - (sizeofEthernetHdr + sizeofIpHdr + sizeofIcmpHdr)) % 2 ^ 32

/-- Called for a frame of `len` bytes, `sr_send_echo_reply` subtracts without a wrap-around and
stays inside the frame and the `len` bytes it has allocated. -/
structure EchoReplyInBounds (len : Nat) : Prop where
  noWrap : echoReplyTail len + (sizeofEthernetHdr + sizeofIpHdr + sizeofIcmpHdr) = len
  inBounds : ∀ w ∈ echoReplyWrites (echoReplyTail len), w.InBounds len len

theorem echoReplyInBounds_iff {len : Nat} (hlen : len < 2 ^ 32) :
    EchoReplyInBounds len ↔ 38 ≤ len := by
  have htail : echoReplyTail len = (len + 4294967296 - 38) % 4294967296 := rfl
  constructor
  · rintro ⟨hnowrap, -⟩
    simp only [sizeofEthernetHdr, sizeofIpHdr, sizeofIcmpHdr] at hnowrap
    omega
  · intro h
    have hsub : echoReplyTail len = len - 38 := by omega
    refine ⟨by simp only [sizeofEthernetHdr, sizeofIpHdr, sizeofIcmpHdr]; omega, ?_⟩
    rw [hsub]
    simp only [echoReplyWrites, List.mem_cons, List.not_mem_nil, or_false, forall_eq_or_imp,
      forall_eq, Write.InBounds, Write.Fits, Write.pos, Write.size, List.length_cons,
      List.length_nil, sizeofIcmpHdr, sizeofIpHdr, and_true]
    omega

/-- **When the echo reply stays in bounds**: if the frame has room for an ICMP header, and the
dispatcher does not look whether it has. -/
theorem echoReply_inBounds_iff {sr : SrConfig} {packet p : Bytes}
    (h : EchoReplyCalled sr packet p) (hlen : packet.length < 2 ^ 32) :
    (EchoReplyInBounds p.length ↔
      sizeofEthernetHdr + sizeofIpHdr + sizeofIcmpHdr ≤ packet.length) ∧
    ∀ s interface, srHandlepacket sr s interface packet = .error .outOfBounds ↔
      ¬ EchoReplyInBounds p.length := by
  have hiff : EchoReplyInBounds p.length ↔
      sizeofEthernetHdr + sizeofIpHdr + sizeofIcmpHdr ≤ packet.length := by
    rw [h.length]
    exact echoReplyInBounds_iff hlen
  refine ⟨hiff, fun s interface => ?_⟩
  rw [h.handled, hiff, srSendEchoReply, h.length, Nat.not_le]
  split
  · next hshort => simp [hshort]
  · next hlong => simp [hlong]

/-- A datagram in a frame from the client. -/
def fromClient (datagram : Bytes) : Bytes :=
  (clientFrame 64 (dotted 10 0 1 1)).take sizeofEthernetHdr ++ datagram

/-- A header that announces an ICMP message to the router, and nothing behind it. -/
def bareIcmpFrame : Bytes :=
  fromClient (ipDatagram 64 ipProtocolIcmp (dotted 10 0 1 100) (dotted 10 0 1 1) [])

/-- An echo request from the client with an identifier, a sequence number and data. -/
def pingFrame (rest : Bytes) : Bytes :=
  let icmp := [icmpEchoRequestCode, 0] ++ bytes16 (cksum ([icmpEchoRequestCode, 0, 0, 0] ++ rest))
    ++ rest
  fromClient (ipDatagram 64 ipProtocolIcmp (dotted 10 0 1 100) (dotted 10 0 1 1) icmp)

theorem echoReply_inBounds_ping :
    EchoReplyInBounds (store (pingFrame [0, 1, 0, 1]) 24 [0, 0]).length := by
  have hcalled : EchoReplyCalled rtableConfig (pingFrame [0, 1, 0, 1])
      (store (pingFrame [0, 1, 0, 1]) 24 [0, 0]) :=
    ⟨by decide +kernel, by decide +kernel, by decide +kernel⟩
  exact (echoReply_inBounds_iff hcalled (by decide +kernel)).1.mpr (by decide +kernel)

/-- The bare header is taken for a message. -/
theorem not_echoReply_inBounds :
    ¬ ∀ sr packet p, EchoReplyCalled sr packet p → packet.length < 2 ^ 32 →
      EchoReplyInBounds p.length := by
  intro h
  have hcalled : EchoReplyCalled rtableConfig bareIcmpFrame (store bareIcmpFrame 24 [0, 0]) :=
    ⟨by decide +kernel, by decide +kernel, by decide +kernel⟩
  have hbounds := h _ _ _ hcalled (by decide +kernel)
  rw [echoReplyInBounds_iff (by decide +kernel)] at hbounds
  exact absurd hbounds (by decide +kernel)

/-! ## Checksums that are computed along the way

A checksum that is computed while an old value stands in its field is right if that value was a
zero. -/

/-- A header is written with a checksum computed over the field as it was before. -/
theorem hasChecksum_written_iff {before frame : Bytes} (hbefore : 34 ≤ before.length)
    (hframe : 34 ≤ frame.length) (hhl : ipHl (ipHeader before) = 5)
    (hwritten : slice frame 14 20 = slice before 14 10
      ++ bytes16 (cksum (slice before 14 20)) ++ slice before 26 8) :
    HasChecksum (ipHeader frame) ↔ IsZero [byteAt before 24, byteAt before 25] := by
  have hlen : (slice before 14 20).length = 20 := length_slice hbefore
  have hlen₁ : (slice before 14 10).length = 10 := length_slice (by omega)
  -- the parts of the frame, one by one
  have hparts := slice_around (show 24 = 14 + 10 from rfl)
    (show 20 = 10 + 2 + 8 from rfl) hframe
  rw [hwritten] at hparts
  have hlen₂ : (slice frame 14 10).length = 10 := length_slice (by omega)
  obtain ⟨hleft, hpost⟩ := List.append_inj hparts (by simp [hlen₁, hlen₂, bytes16])
  obtain ⟨hpre, hfield⟩ := List.append_inj hleft (by rw [hlen₁, hlen₂])
  have hfirst : byteAt frame 14 = byteAt before 14 := by
    have hbyte := congrArg (byteAt · 0) hpre
    simp only [byteAt_slice (show 0 < 10 by decide)] at hbyte
    exact hbyte.symm
  have hihl : ipIhl (ipHeader frame) = 20 := by
    have hhl' : ipHl (ipHeader frame) = ipHl (ipHeader before) := by
      simp only [ipHl, ipHeader, byteAt_drop, sizeofEthernetHdr, Nat.add_zero, hfirst]
    rw [ipIhl, hhl', hhl]
  have hsum : ipSum (ipHeader frame) = cksum (slice before 14 20) := by
    have hload : load16 frame 24 = load16 (bytes16 (cksum (slice before 14 20))) 0 := by
      rw [hfield]
      rfl
    have hlt : cksum (slice before 14 20) < 2 ^ 16 := ntohs_lt _
    rw [load16_bytes16_of_lt hlt] at hload
    simpa [ipSum, ipHeader, load16, sizeofEthernetHdr] using hload
  have hne : wordSum (slice before 14 10) ≠ 0 := by
    have hsplit : slice before 14 10
        = [byteAt before 14, byteAt before 15] ++ slice before 16 8 := by
      rw [slice_add before 14 2 8, slice_two (by omega)]
    have hnibble : (byteAt before 14).toNat % 16 = 5 := by
      simpa [ipHl, ipHeader, sizeofEthernetHdr] using hhl
    rw [hsplit, wordSum_append _ (by simp)]
    simp only [wordSum]
    omega
  have hold := slice_around (show 24 = 14 + 10 from rfl)
    (show 20 = 10 + 2 + 8 from rfl) hbefore
  rw [hasChecksum_iff, hihl, ← slice_cleared (by decide) hframe,
    slice_around_cleared_sum (by decide) hframe, ← hpre, ← hpost, hsum, hold, eq_comm]
  refine cksum_uncleared_iff (by rw [hlen₁]) ?_ hne
  rw [← hold, hlen]
  decide

section Checksums

variable {src : Nat → UInt8} {buf : Bytes} {ws : List Write} {j len : Nat}

/-- **An IP header checksum** that is computed over the field as it was: it is right if and only
if the field was one of the two zeros. -/
theorem hasChecksum_fill_iff (hlen : buf.length = len) (hfits : ∀ w ∈ ws, w.Fits len)
    (h34 : 34 ≤ len) (hj : ws[j]? = some (.word 24 14 sizeofIpHdr cksum))
    (hafter : ∀ k, 14 ≤ k → k < 34 → ∀ w ∈ ws.drop (j + 1), ¬ w.Covers k)
    (hhl : ipHl (ipHeader (fill src buf (ws.take j))) = 5) :
    HasChecksum (ipHeader (fill src buf ws)) ↔
      IsZero [byteAt (fill src buf (ws.take j)) 24, byteAt (fill src buf (ws.take j)) 25] := by
  have htake : (fill src buf (ws.take j)).length = len :=
    length_fill _ hlen fun w hw => hfits w (List.mem_of_mem_take hw)
  have hframe : (fill src buf ws).length = len := length_fill _ hlen hfits
  exact hasChecksum_written_iff (htake ▸ h34) (hframe ▸ h34) hhl
    (slice_fill_word _ hlen hfits hj rfl rfl (by simpa [sizeofIpHdr] using h34) hafter)

end Checksums

/-! ## Contents

The reply field by field, as the list of writes leaves it. -/

section Contents

variable {packet : Bytes}

/-- The Ethernet addresses are exchanged. -/
theorem etherDhost_echoReplyFrame (h : 38 ≤ packet.length) (heap : Nat → UInt8) :
    etherDhost (echoReplyFrame packet heap) = etherShost packet := by
  apply etherAddrAt_eq
  intro i hi
  have hi' : i < 6 := hi
  have hcopy : (echoReplyWrites (packet.length - 38))[15]? = some (.copy 0 6 6) := rfl
  have hbyte := byteAt_echoReplyFrame_copy h heap hcopy hi (by omega)
  rw [hbyte]
  · simp [etherShost, etherAddrAt, byteAt, hi]
  · simp [echoReplyWrites]
    omega

/-- The IP addresses are exchanged. -/
theorem ipAddrs_echoReplyFrame (h : 38 ≤ packet.length) (heap : Nat → UInt8) :
    ipSrc (ipHeader (echoReplyFrame packet heap)) = ipDst (ipHeader packet) ∧
      ipDst (ipHeader (echoReplyFrame packet heap)) = ipSrc (ipHeader packet) := by
  constructor
  · apply load32_congr
    intro k hk
    simp only [ipHeader, byteAt_drop, sizeofEthernetHdr, ← Nat.add_assoc, Nat.reduceAdd]
    apply byteAt_echoReplyFrame_copy h heap (j := 11) (n := 4) rfl hk (by omega)
    simp [echoReplyWrites]
    omega
  · apply load32_congr
    intro k hk
    simp only [ipHeader, byteAt_drop, sizeofEthernetHdr, ← Nat.add_assoc, Nat.reduceAdd]
    apply byteAt_echoReplyFrame_copy h heap (j := 12) (n := 4) rfl hk (by omega)
    simp [echoReplyWrites]
    omega

/-- Everything behind the ICMP header is copied. -/
theorem slice_echoReplyFrame (h : 38 ≤ packet.length) (heap : Nat → UInt8) :
    slice (echoReplyFrame packet heap) 38 (packet.length - 38)
      = slice packet 38 (packet.length - 38) := by
  have hlen := length_echoReplyFrame h heap
  apply slice_congr (by omega) (by omega)
  intro i hi
  exact byteAt_echoReplyFrame_copy h heap (j := 18) (n := packet.length - 38) rfl hi (by omega)
    (by simp [echoReplyWrites])

/-- The ICMP header: type and code 0, and the checksum of these four bytes. -/
theorem icmpHdr_echoReplyFrame (h : 38 ≤ packet.length) (heap : Nat → UInt8) :
    slice (echoReplyFrame packet heap) 34 4 = [0, 0, 255, 255] := by
  have hfits : ∀ w ∈ echoReplyWrites (packet.length - 38), w.Fits packet.length :=
    fits_echoReplyWrites (by omega)
  have hbuf : ((List.range packet.length).map heap).length = packet.length := by simp
  have hword : (echoReplyWrites (packet.length - 38))[3]? = some (.word 36 34 4 cksum) := rfl
  have hwritten := slice_fill_word (frameByte packet fun _ => 0) hbuf hfits hword
    (show 36 = 34 + 2 from rfl) (show 4 = 2 + 2 + 0 from rfl) (by omega)
    (by simp [echoReplyWrites]; omega)
  -- the first three writes clear the header
  have hcleared : ∀ i < 4, byteAt (fill (frameByte packet fun _ => 0)
      ((List.range packet.length).map heap) ((echoReplyWrites (packet.length - 38)).take 3))
        (34 + i) = 0 := by
    have hfits' : ∀ w ∈ (echoReplyWrites (packet.length - 38)).take 3, w.Fits packet.length :=
      fun w hw => hfits w (List.mem_of_mem_take hw)
    intro i hi
    interval_cases i
    · exact byteAt_fill_put (j := 0) (i := 0) hbuf hfits' rfl (by decide)
        (by simp [echoReplyWrites])
    · exact byteAt_fill_put (j := 1) (i := 0) hbuf hfits' rfl (by decide)
        (by simp [echoReplyWrites])
    · exact byteAt_fill_put (j := 2) (i := 0) hbuf hfits' rfl (by decide)
        (by simp [echoReplyWrites])
    · exact byteAt_fill_put (j := 2) (i := 1) hbuf hfits' rfl (by decide)
        (by simp [echoReplyWrites])
  rw [echoReplyFrame_eq_fill h heap fun _ => 0, hwritten]
  have hlen := length_fill (frameByte packet fun _ => 0) hbuf
    fun w hw => hfits w (List.mem_of_mem_take (i := 3) hw)
  generalize fill (frameByte packet fun _ => 0) ((List.range packet.length).map heap)
    ((echoReplyWrites (packet.length - 38)).take 3) = before at hcleared hlen
  have htwo : ∀ off, 34 ≤ off → off < 37 → slice before off 2 = [0, 0] := by
    intro off hlo hhi
    obtain ⟨i, rfl⟩ := Nat.exists_eq_add_of_le hlo
    rw [slice_two (by omega), hcleared i (by omega), Nat.add_assoc, hcleared (i + 1) (by omega)]
  have hnil : slice before (36 + 2) 0 = [] := by simp [slice]
  rw [slice_add before 34 2 2, htwo 34 (by decide) (by decide), htwo 36 (by decide) (by decide),
    hnil]
  decide

/-- The checksum of the ICMP message is right if the part it leaves out adds up to zero. -/
theorem icmpSum_echoReplyFrame (h : 38 ≤ packet.length) (heap : Nat → UInt8) :
    onesSum (slice (echoReplyFrame packet heap) 34 (packet.length - 34)) = 0xffff#16 ↔
      SumsToZero (slice packet 38 (packet.length - 38)) := by
  have hsplit : slice (echoReplyFrame packet heap) 34 (packet.length - 34)
      = [0, 0] ++ [255, 255] ++ slice packet 38 (packet.length - 38) := by
    rw [show packet.length - 34 = 4 + (packet.length - 38) by omega, slice_add,
      icmpHdr_echoReplyFrame h, slice_echoReplyFrame h]
    rfl
  have hones : (255 : UInt8).toNat * 256 + (255 : UInt8).toNat = 65535 := rfl
  have hzero : wordSum [0, 0] = 0 := rfl
  rw [onesSum_eq_ones, hsplit, SumsToZero, SumsToZero, wordSum_around _ 255 255 rfl, hones, hzero]
  omega

/-- The header checksum is right: its field is cleared before. -/
theorem hasChecksum_echoReplyFrame (h : 38 ≤ packet.length) (heap : Nat → UInt8)
    (hhl : ipHl (ipHeader packet) = 5) : HasChecksum (ipHeader (echoReplyFrame packet heap)) := by
  have hfits : ∀ w ∈ echoReplyWrites (packet.length - 38), w.Fits packet.length :=
    fits_echoReplyWrites (by omega)
  have hbuf : ((List.range packet.length).map heap).length = packet.length := by simp
  have hfits' : ∀ w ∈ (echoReplyWrites (packet.length - 38)).take 14, w.Fits packet.length :=
    fun w hw => hfits w (List.mem_of_mem_take hw)
  have hfirst : byteAt (fill (frameByte packet fun _ => 0) ((List.range packet.length).map heap)
      ((echoReplyWrites (packet.length - 38)).take 14)) 14 = byteAt packet 14 := by
    rw [← frameByte_of_lt (fun _ => 0) (show 14 < packet.length by omega)]
    exact byteAt_fill_copy (j := 4) (i := 0) (n := 1) hbuf hfits' rfl (by decide)
      (by simp [echoReplyWrites])
  have hcleared : ∀ i < 2, byteAt (fill (frameByte packet fun _ => 0)
      ((List.range packet.length).map heap) ((echoReplyWrites (packet.length - 38)).take 14))
        (24 + i) = 0 := by
    intro i hi
    have hput : ((echoReplyWrites (packet.length - 38)).take 14)[13]? = some (.put 24 [0, 0]) := rfl
    rw [byteAt_fill_put hbuf hfits' hput hi (by simp [echoReplyWrites])]
    interval_cases i <;> rfl
  rw [echoReplyFrame_eq_fill h heap fun _ => 0]
  refine (hasChecksum_fill_iff (j := 14) hbuf hfits (by omega) rfl ?_ ?_).mpr ?_
  · intro k hlo hhi
    simp [echoReplyWrites]
    omega
  · simpa [ipHl, ipHeader, sizeofEthernetHdr, hfirst] using hhl
  · exact .inl (by rw [hcleared 0 (by decide), hcleared 1 (by decide)])

end Contents

/-! ## Requests and their replies -/

/-- A frame with a well-formed echo request to the router: no IP options, and `ip_len` is what is
behind the Ethernet header. -/
structure Ping (sr : SrConfig) (packet : Bytes) : Prop extends IsEchoRequest packet where
  ethertype : ethertype packet = SrEthertype.ip.value
  version : ipV (ipHeader packet) = 4
  hl : ipHl (ipHeader packet) = 5
  checksum : HasChecksum (ipHeader packet)
  length : sizeofEthernetHdr + ipLen (ipHeader packet) = packet.length
  len_ge : 28 ≤ ipLen (ipHeader packet)
  mine : srInterfaceIpMatch sr (ipDst (ipHeader packet)) = true

/-- The frame is a valid reply to the request in `packet`. -/
structure ValidEchoReply (packet reply : Bytes) : Prop where
  length : reply.length = packet.length
  type : byteAt reply 34 = 0
  code : byteAt reply 35 = 0
  /-- The identifier, the sequence number and the data. -/
  rest : slice reply 38 (packet.length - 38) = slice packet 38 (packet.length - 38)
  icmpSum : onesSum (slice reply 34 (packet.length - 34)) = 0xffff#16
  src : ipSrc (ipHeader reply) = ipDst (ipHeader packet)
  dst : ipDst (ipHeader reply) = ipSrc (ipHeader packet)
  checksum : HasChecksum (ipHeader reply)
  dhost : etherDhost reply = etherShost packet
  shost : etherShost reply = etherDhost packet

section Replies

variable {sr : SrConfig} {packet : Bytes}

theorem Ping.long (h : Ping sr packet) : 42 ≤ packet.length := by
  have hlen := h.length
  have hge := h.len_ge
  simp only [sizeofEthernetHdr] at hlen
  omega

/-- The dispatcher takes the request, and clears its header checksum. -/
theorem Ping.called (h : Ping sr packet) : EchoReplyCalled sr packet (store packet 24 [0, 0]) := by
  have hlong := h.long
  have hihl : ipIhl (ipHeader packet) = 20 := by rw [ipIhl, h.hl]
  have hnotArp : NetworkProjects.Router.ethertype packet ≠ SrEthertype.arp.value := by
    rw [h.ethertype]
    decide
  have hchecked : Checked packet := by
    refine (checked_iff hnotArp ?_ ?_).mpr h.checksum
    · rw [hihl]
      decide
    · rw [hihl, sizeofEthernetHdr]
      omega
  refine ⟨ipAccepted_eq_some.mpr ⟨hchecked, rfl⟩, ?_, ?_⟩
  · rw [(ipDst_cleared (by omega)).1]
    exact h.mine
  · rw [(fields_cleared (by omega)).2]
    exact h.protocol

/-- The reply to a frame whose header checksum has been cleared, in terms of the frame. -/
theorem validEchoReply_iff (hlong : 42 ≤ packet.length) (hhl : ipHl (ipHeader packet) = 5)
    (heap : Nat → UInt8) :
    ValidEchoReply packet (echoReplyFrame (store packet 24 [0, 0]) heap) ↔
      SumsToZero (slice packet 38 (packet.length - 38)) := by
  -- only the two bytes of the IP checksum differ from the received frame
  have hclear : 24 + ([0, 0] : Bytes).length ≤ packet.length := by simp; omega
  have hlen : (store packet 24 [0, 0]).length = packet.length := length_store hclear
  have hbyte : ∀ k, k < 24 ∨ 26 ≤ k → byteAt (store packet 24 [0, 0]) k = byteAt packet k :=
    fun k hk => byteAt_store_of_not_mem hclear hk
  have h38 : 38 ≤ (store packet 24 [0, 0]).length := by omega
  have hrest : slice (store packet 24 [0, 0]) 38 (packet.length - 38)
      = slice packet 38 (packet.length - 38) :=
    slice_store_of_disjoint hclear (by omega) (.inr (by simp))
  have hsum := icmpSum_echoReplyFrame h38 heap
  have htail := slice_echoReplyFrame h38 heap
  have hicmp := icmpHdr_echoReplyFrame h38 heap
  rw [hlen, hrest] at hsum htail
  have htype : ∀ i < 4, byteAt (echoReplyFrame (store packet 24 [0, 0]) heap) (34 + i)
      = byteAt [0, 0, 255, 255] i := by
    intro i hi
    rw [← hicmp, byteAt_slice hi]
  constructor
  · intro h
    -- the stored sum is that of the four header bytes alone, and holds if the rest sums to zero
    exact hsum.mp h.icmpSum
  · intro h
    obtain ⟨hsrc, hdst⟩ := ipAddrs_echoReplyFrame h38 heap
    refine ⟨?_, htype 0 (by decide), htype 1 (by decide), htail, hsum.mpr h, ?_, ?_, ?_, ?_, ?_⟩
    · rw [length_echoReplyFrame h38, hlen]
    · rw [hsrc, (ipDst_cleared (by omega)).1]
    · rw [hdst]
      apply load32_congr
      intro k hk
      simp only [ipHeader, byteAt_drop, sizeofEthernetHdr]
      exact hbyte _ (by omega)
    · apply hasChecksum_echoReplyFrame h38
      simp only [ipHl, ipHeader, byteAt_drop, sizeofEthernetHdr] at hhl ⊢
      rw [hbyte _ (by omega)]
      exact hhl
    · rw [etherDhost_echoReplyFrame h38]
      apply etherAddrAt_eq
      intro i hi
      have hi' : i < 6 := hi
      rw [hbyte _ (by omega)]
      simp [etherShost, etherAddrAt, byteAt, hi]
    · rw [etherShost_echoReplyFrame h38, (fields_cleared (by omega)).1]

end Replies

/-- **When the reply to an echo request is valid**: if the identifier, the sequence number and the
data add up to zero. -/
theorem echoReply_valid_iff {sr : SrConfig} {packet : Bytes} (h : Ping sr packet) (s : SrState)
    (interface : String) :
    srHandlepacket sr s interface packet
      = .ok (srSendPacket sr (s.emit (.received interface packet)) .echoReply
          (echoReplyFrame (store packet 24 [0, 0]) s.mem.heap) interface) ∧
    (ValidEchoReply packet (echoReplyFrame (store packet 24 [0, 0]) s.mem.heap) ↔
      SumsToZero (slice packet 38 (packet.length - 38))) := by
  have hlong := h.long
  refine ⟨?_, validEchoReply_iff hlong h.hl _⟩
  have hroom : ¬ (store packet 24 [0, 0]).length
      < sizeofEthernetHdr + sizeofIpHdr + sizeofIcmpHdr := by
    rw [h.called.length]
    simp only [sizeofEthernetHdr, sizeofIpHdr, sizeofIcmpHdr]
    omega
  rw [h.called.handled, srSendEchoReply, if_neg hroom, SrState.emit_mem]

/-- A request whose data make up for the identifier and the sequence number. -/
theorem echoReply_valid_balanced : ∃ packet, Ping rtableConfig packet ∧
    ValidEchoReply packet (echoReplyFrame (store packet 24 [0, 0]) srInit.mem.heap) := by
  have hping : Ping rtableConfig (pingFrame [0, 1, 0, 1, 255, 253]) :=
    ⟨⟨by decide +kernel, by decide +kernel, by decide +kernel, by decide +kernel⟩,
      by decide +kernel, by decide +kernel, by decide +kernel, by decide +kernel,
      by decide +kernel, by decide +kernel, by decide +kernel⟩
  exact ⟨_, hping, (echoReply_valid_iff hping srInit "eth3").2.mpr (by decide +kernel)⟩

/-- A request with identifier 1 and sequence number 1 gets a reply with a wrong checksum. -/
theorem not_echoReply_valid :
    ¬ ∀ sr packet heap, Ping sr packet →
      ValidEchoReply packet (echoReplyFrame (store packet 24 [0, 0]) heap) := by
  intro h
  have hping : Ping rtableConfig (pingFrame [0, 1, 0, 1]) :=
    ⟨⟨by decide +kernel, by decide +kernel, by decide +kernel, by decide +kernel⟩,
      by decide +kernel, by decide +kernel, by decide +kernel, by decide +kernel,
      by decide +kernel, by decide +kernel, by decide +kernel⟩
  have hsum := (h _ _ srInit.mem.heap hping).icmpSum
  exact absurd hsum (by decide +kernel)

end NetworkProjects.Router
