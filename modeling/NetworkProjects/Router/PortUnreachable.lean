import NetworkProjects.Router.EchoReply

/-!
# The port unreachable message

`sr_send_port_unreachable` fills in a buffer that `malloc` returned. Both checksums are computed
before their fields are cleared, and two fields behind the ICMP checksum are never written, so the
message depends on what was in the buffer. It also depends on the frame in ways it should not: the
length of the IP header is copied from it, the quote is taken after `sr_handlepacket` has cleared
`ip_sum`, and it is 28 bytes long whatever the length of the frame.

`Quotable` is what has to come together for the message to be as it should
(`portUnreachable_valid_iff`).
-/

namespace NetworkProjects.Router

open NetworkProjects.Lib

/-- A frame with a well-formed datagram to the router that is not an ICMP message. -/
structure PortProbe (sr : SrConfig) (packet : Bytes) : Prop where
  ethertype : ethertype packet = SrEthertype.ip.value
  version : ipV (ipHeader packet) = 4
  ihl_ge : sizeofIpHdr ≤ ipIhl (ipHeader packet)
  len_ge : ipIhl (ipHeader packet) ≤ ipLen (ipHeader packet)
  len_le : sizeofEthernetHdr + ipLen (ipHeader packet) ≤ packet.length
  checksum : HasChecksum (ipHeader packet)
  noIcmp : ipP (ipHeader packet) ≠ ipProtocolIcmp
  mine : srInterfaceIpMatch sr (ipDst (ipHeader packet)) = true

/-- A port unreachable message about the datagram in `packet`, as the standard has it. -/
structure ValidPortUnreachable (packet frame : Bytes) : Prop where
  length : frame.length = 70
  ethertype : ethertype frame = SrEthertype.ip.value
  version : ipV (ipHeader frame) = 4
  hl : ipHl (ipHeader frame) = 5
  len : ipLen (ipHeader frame) = sizeofIpHdr + sizeofIcmpT3Hdr
  protocol : ipP (ipHeader frame) = ipProtocolIcmp
  checksum : HasChecksum (ipHeader frame)
  type : byteAt frame 34 = 3
  code : byteAt frame 35 = 3
  icmpSum : onesSum (slice frame 34 sizeofIcmpT3Hdr) = 0xffff#16
  unused : ∀ k < 4, byteAt frame (38 + k) = 0
  /-- The first 28 bytes of the datagram, and zeros if it is shorter. -/
  quote : ∀ k < 28, byteAt frame (42 + k)
    = if k < ipLen (ipHeader packet) then byteAt packet (14 + k) else 0

/-- No read of `sr_send_port_unreachable` goes past the frame, and no write past the buffer. -/
def PortUnreachableInBounds (i : SrIf) (packet : Bytes) : Prop :=
  ∀ w ∈ portUnreachableWrites i, w.InBounds packet.length 70

/-- What the message rests on: in the frame, a header without options whose checksum is zero, room
for the quote, and zeros behind a datagram that is shorter; and in the buffer, zeros in the fields
that are read or sent unwritten. -/
structure Quotable (packet : Bytes) (heap : Nat → UInt8) : Prop where
  hl : ipHl (ipHeader packet) = 5
  sum : ipSum (ipHeader packet) = 0
  length : 42 ≤ packet.length
  padding : ∀ k, ipLen (ipHeader packet) ≤ k → k < 28 → byteAt packet (14 + k) = 0
  heapIpSum : IsZero [heap 24, heap 25]
  heapIcmpSum : IsZero [heap 36, heap 37]
  heapUnused : ∀ k < 4, heap (38 + k) = 0

section Contents

variable {packet : Bytes}

/-- A byte of the message, from the writes. -/
theorem portUnreachable_copy (h34 : 34 ≤ packet.length) (i : SrIf) (mem : Memory)
    {j pos off n k : Nat} (hj : (portUnreachableWrites i)[j]? = some (.copy pos off n)) (hk : k < n)
    (hafter : ∀ w ∈ (portUnreachableWrites i).drop (j + 1), ¬ w.Covers (pos + k)) :
    byteAt (portUnreachableFrame packet i mem) (pos + k)
      = frameByte packet mem.beyond (off + k) := by
  rw [portUnreachableFrame_eq_fill h34]
  exact byteAt_fill_copy (by simp) (fits_portUnreachableWrites i) hj hk hafter

theorem portUnreachable_put (h34 : 34 ≤ packet.length) (i : SrIf) (mem : Memory)
    {j pos k : Nat} {bs : Bytes} (hj : (portUnreachableWrites i)[j]? = some (.put pos bs))
    (hk : k < bs.length)
    (hafter : ∀ w ∈ (portUnreachableWrites i).drop (j + 1), ¬ w.Covers (pos + k)) :
    byteAt (portUnreachableFrame packet i mem) (pos + k) = byteAt bs k := by
  rw [portUnreachableFrame_eq_fill h34]
  exact byteAt_fill_put (by simp) (fits_portUnreachableWrites i) hj hk hafter

/-- The fields that are written with what they should be. -/
theorem portUnreachable_fields (h34 : 34 ≤ packet.length) (i : SrIf) (mem : Memory) :
    ethertype (portUnreachableFrame packet i mem) = ethertype packet ∧
      byteAt (portUnreachableFrame packet i mem) 14 = byteAt packet 14 ∧
      ipLen (ipHeader (portUnreachableFrame packet i mem)) = sizeofIpHdr + sizeofIcmpT3Hdr ∧
      ipP (ipHeader (portUnreachableFrame packet i mem)) = ipProtocolIcmp ∧
      byteAt (portUnreachableFrame packet i mem) 34 = 3 ∧
      byteAt (portUnreachableFrame packet i mem) 35 = 3 := by
  have hmac : i.addr.val.length = 6 := i.addr.property
  -- each field is the work of one write of the list
  refine ⟨?_, ?_, ?_, ?_, ?_, ?_⟩
  · apply congrArg ntohs
    apply load16_congr
    intro k hk
    rw [portUnreachable_copy h34 i mem
      (show (portUnreachableWrites i)[16]? = some (.copy 12 12 2) from rfl) hk
      (by simp [portUnreachableWrites]), frameByte_of_lt _ (by omega)]
  · have hfirst := portUnreachable_copy h34 i mem (j := 4) (k := 0) (n := 1) rfl (by decide)
      (by simp [portUnreachableWrites, hmac, length_bytes16, length_bytes32])
    rwa [frameByte_of_lt _ (by omega)] at hfirst
  · have hlen : load16 (portUnreachableFrame packet i mem) 16
        = load16 (bytes16 (ntohs (sizeofIpHdr + sizeofIcmpT3Hdr))) 0 := by
      apply load16_congr
      intro k hk
      rw [portUnreachable_put h34 i mem (j := 8) rfl hk
        (by simp [portUnreachableWrites, hmac]; omega),
        Nat.zero_add]
    simp only [ipLen, load16, ipHeader, byteAt_drop, sizeofEthernetHdr] at hlen ⊢
    rw [hlen]
    decide
  · simp only [ipP, ipHeader, byteAt_drop, sizeofEthernetHdr]
    exact portUnreachable_put h34 i mem (j := 11) (k := 0) rfl (by decide)
      (by simp [portUnreachableWrites, hmac])
  · exact portUnreachable_put h34 i mem (j := 0) (k := 0) rfl (by decide)
      (by simp [portUnreachableWrites, hmac, length_bytes16, length_bytes32])
  · exact portUnreachable_put h34 i mem (j := 1) (k := 0) rfl (by decide)
      (by simp [portUnreachableWrites, hmac, length_bytes16, length_bytes32])

/-- The quote: whatever the frame pointer reads, from the IP header on. -/
theorem portUnreachable_quote (h34 : 34 ≤ packet.length) (i : SrIf) (mem : Memory) {k : Nat}
    (hk : k < 28) :
    byteAt (portUnreachableFrame packet i mem) (42 + k) = frameByte packet mem.beyond (14 + k) := by
  have hmac : i.addr.val.length = 6 := i.addr.property
  exact portUnreachable_copy h34 i mem (j := 2) rfl hk
    (by simp [portUnreachableWrites, hmac, length_bytes16, length_bytes32]; omega)

/-- The fields nobody writes. -/
theorem portUnreachable_unused (h34 : 34 ≤ packet.length) (i : SrIf) (mem : Memory) {k : Nat}
    (hk : k < 4) : byteAt (portUnreachableFrame packet i mem) (38 + k) = mem.heap (38 + k) := by
  have hmac : i.addr.val.length = 6 := i.addr.property
  rw [portUnreachableFrame_eq_fill h34,
    byteAt_fill_of_not_covers (show _ = 70 by simp) (fits_portUnreachableWrites i)
      (by simp [portUnreachableWrites, hmac, length_bytes16, length_bytes32]
          omega)]
  have hlt : 38 + k < 70 := by omega
  simp [byteAt, hlt]

/-- The ICMP checksum is right if its field was zero, one way or the other. -/
theorem portUnreachable_icmpSum (h34 : 34 ≤ packet.length) (i : SrIf) (mem : Memory) :
    onesSum (slice (portUnreachableFrame packet i mem) 34 sizeofIcmpT3Hdr) = 0xffff#16 ↔
      IsZero [mem.heap 36, mem.heap 37] := by
  have hmac : i.addr.val.length = 6 := i.addr.property
  have hfits := fits_portUnreachableWrites i
  have hbuf : ((List.range 70).map mem.heap).length = 70 := by simp
  have hword : (portUnreachableWrites i)[3]? = some (.word 36 34 36 cksum) := rfl
  have hwritten := slice_fill_word (frameByte packet mem.beyond) hbuf hfits hword
    (show 36 = 34 + 2 from rfl) (show 36 = 2 + 2 + 32 from rfl) (by decide)
    (by simp [portUnreachableWrites, hmac, length_bytes16, length_bytes32]
        omega)
  have hfits' : ∀ w ∈ (portUnreachableWrites i).take 3, w.Fits 70 :=
    fun w hw => hfits w (List.mem_of_mem_take hw)
  have hlen := length_fill (frameByte packet mem.beyond) hbuf hfits'
  -- when the checksum is computed, type and code are there and the field is as it was
  have htype : ∀ k < 2, byteAt (fill (frameByte packet mem.beyond) ((List.range 70).map mem.heap)
      ((portUnreachableWrites i).take 3)) (34 + k) = 3 := by
    intro k hk
    interval_cases k
    · exact byteAt_fill_put (j := 0) (i := 0) hbuf hfits' rfl (by decide)
        (by simp [portUnreachableWrites])
    · exact byteAt_fill_put (j := 1) (i := 0) hbuf hfits' rfl (by decide)
        (by simp [portUnreachableWrites])
  have hfield : ∀ k < 2, byteAt (fill (frameByte packet mem.beyond)
      ((List.range 70).map mem.heap) ((portUnreachableWrites i).take 3)) (36 + k)
        = mem.heap (36 + k) := by
    intro k hk
    rw [byteAt_fill_of_not_covers hbuf hfits' (by simp [portUnreachableWrites]; omega)]
    have hlt : 36 + k < 70 := by omega
    simp [byteAt, hlt]
  rw [portUnreachableFrame_eq_fill h34, sizeofIcmpT3Hdr, hwritten]
  generalize fill (frameByte packet mem.beyond) ((List.range 70).map mem.heap)
    ((portUnreachableWrites i).take 3) = before at hlen htype hfield
  have hpre : slice before 34 2 = [3, 3] := by
    rw [slice_two (by omega), htype 0 (by decide), htype 1 (by decide)]
  have hblock : slice before 34 36
      = [3, 3] ++ [mem.heap 36, mem.heap 37] ++ slice before 38 32 := by
    rw [slice_around (show 36 = 34 + 2 from rfl) (show 36 = 2 + 2 + 32 from rfl) (by omega), hpre,
      hfield 0 (by decide), hfield 1 (by decide)]
  have hshort : (slice before 34 36).length ≤ maxCksumLen := by
    rw [length_slice (by omega)]
    decide
  have hne : ∀ rest : Bytes, wordSum ([3, 3] ++ rest) ≠ 0 := by
    intro rest
    simp only [List.cons_append, List.nil_append, wordSum]
    have : (3 : UInt8).toNat = 3 := rfl
    omega
  rw [onesSum_eq_ones, hpre, List.append_assoc]
  refine (and_iff_left (hne _)).trans ?_
  rw [← List.append_assoc, hblock]
  exact sumsToZero_cksum_iff rfl (hblock ▸ hshort)

/-- The header checksum is right if its field was zero, one way or the other. -/
theorem portUnreachable_checksum (h34 : 34 ≤ packet.length) (i : SrIf) (mem : Memory)
    (hhl : ipHl (ipHeader packet) = 5) :
    HasChecksum (ipHeader (portUnreachableFrame packet i mem)) ↔
      IsZero [mem.heap 24, mem.heap 25] := by
  have hmac : i.addr.val.length = 6 := i.addr.property
  have hfits := fits_portUnreachableWrites i
  have hbuf : ((List.range 70).map mem.heap).length = 70 := by simp
  have hfits' : ∀ w ∈ (portUnreachableWrites i).take 13, w.Fits 70 :=
    fun w hw => hfits w (List.mem_of_mem_take hw)
  have hfirst : byteAt (fill (frameByte packet mem.beyond) ((List.range 70).map mem.heap)
      ((portUnreachableWrites i).take 13)) 14 = byteAt packet 14 := by
    rw [← frameByte_of_lt mem.beyond (show 14 < packet.length by omega)]
    exact byteAt_fill_copy (j := 4) (i := 0) (n := 1) hbuf hfits' rfl (by decide)
      (by simp [portUnreachableWrites])
  have hfield : ∀ k < 2, byteAt (fill (frameByte packet mem.beyond)
      ((List.range 70).map mem.heap) ((portUnreachableWrites i).take 13)) (24 + k)
        = mem.heap (24 + k) := by
    intro k hk
    rw [byteAt_fill_of_not_covers hbuf hfits'
      (by simp [portUnreachableWrites, length_bytes16, length_bytes32]; omega)]
    have hlt : 24 + k < 70 := by omega
    simp [byteAt, hlt]
  rw [portUnreachableFrame_eq_fill h34, hasChecksum_fill_iff (j := 13) hbuf hfits (by decide) rfl,
    hfield 0 (by decide), hfield 1 (by decide)]
  · intro k hlo hhi
    simp [portUnreachableWrites, hmac]
    omega
  · simpa [ipHl, ipHeader, sizeofEthernetHdr, hfirst] using hhl

theorem portUnreachableInBounds_iff {i : SrIf} :
    PortUnreachableInBounds i packet ↔ 42 ≤ packet.length := by
  have hmac : i.addr.val.length = 6 := i.addr.property
  simp only [PortUnreachableInBounds, portUnreachableWrites, List.mem_cons, List.not_mem_nil,
    or_false, forall_eq_or_imp, forall_eq, Write.InBounds, Write.Fits, Write.pos, Write.size,
    List.length_cons, List.length_nil, length_bytes16, length_bytes32, hmac, sizeofIcmpT3Hdr,
    sizeofIpHdr, and_true]
  omega

end Contents

/-! ## When the message is valid -/

section Messages

variable {sr : SrConfig} {packet : Bytes}

theorem PortProbe.lengths (h : PortProbe sr packet) :
    20 ≤ ipIhl (ipHeader packet) ∧ ipIhl (ipHeader packet) ≤ ipLen (ipHeader packet) ∧
      14 + ipLen (ipHeader packet) ≤ packet.length :=
  ⟨h.ihl_ge, h.len_ge, h.len_le⟩

theorem PortProbe.handled (h : PortProbe sr packet) {interface : String} {i : SrIf}
    (hi : srGetInterface sr interface = some i) (s : SrState) :
    srHandlepacket sr s interface packet
      = .ok (srSendPacket sr (s.emit (.received interface packet)) .portUnreachable
          (portUnreachableFrame (store packet 24 [0, 0]) i s.mem) interface) := by
  obtain ⟨h20, hle, hlen⟩ := h.lengths
  have hnotArp : NetworkProjects.Router.ethertype packet ≠ SrEthertype.arp.value := by
    rw [h.ethertype]
    decide
  have hchecked : Checked packet :=
    (checked_iff hnotArp h.ihl_ge (by rw [sizeofEthernetHdr]; omega)).mpr h.checksum
  rw [srHandlepacket_eq (.inr hnotArp), ipAccepted_eq_some.mpr ⟨hchecked, rfl⟩]
  simp only [(ipDst_cleared (show 34 ≤ packet.length by omega)).1,
    (fields_cleared (show 34 ≤ packet.length by omega)).2, h.mine, h.noIcmp, if_true, if_false]
  rw [srSendPortUnreachable, hi]
  rfl

/-- What the frame pointer reads of the datagram is the datagram with `ip_sum` cleared, as far as
the frame goes. -/
theorem frameByte_cleared (beyond : Nat → UInt8) {k : Nat} (h34 : 34 ≤ packet.length)
    (hk : 14 + k < packet.length) :
    frameByte (store packet 24 [0, 0]) beyond (14 + k)
      = if k = 10 ∨ k = 11 then 0 else byteAt packet (14 + k) := by
  have hclear : 24 + ([0, 0] : Bytes).length ≤ packet.length := by simp; omega
  rw [frameByte_of_lt _ (by rw [length_store hclear]; exact hk)]
  split
  · next hsum =>
    rcases hsum with rfl | rfl
    · exact byteAt_store_of_mem hclear (by decide) (by decide)
    · exact byteAt_store_of_mem hclear (by decide) (by decide)
  · next hsum => exact byteAt_store_of_not_mem hclear (by simp; omega)

/-- The checksum field is zero when both of its bytes are. -/
theorem ipSum_eq_zero :
    ipSum (ipHeader packet) = 0 ↔ byteAt packet 24 = 0 ∧ byteAt packet 25 = 0 := by
  have hzero : ∀ b : UInt8, b = 0 ↔ b.toNat = 0 := by
    intro b
    rw [← UInt8.toNat_inj, UInt8.toNat_zero]
  simp only [ipSum, load16, ipHeader, byteAt_drop, sizeofEthernetHdr, hzero, Nat.reduceAdd]
  omega

/-- The quote is as it should be, in a frame that has room for it. -/
theorem quote_iff (h : PortProbe sr packet) (h42 : 42 ≤ packet.length) (i : SrIf) (mem : Memory) :
    (∀ k < 28, byteAt (portUnreachableFrame (store packet 24 [0, 0]) i mem) (42 + k)
      = if k < ipLen (ipHeader packet) then byteAt packet (14 + k) else 0) ↔
    ipSum (ipHeader packet) = 0 ∧
      ∀ k, ipLen (ipHeader packet) ≤ k → k < 28 → byteAt packet (14 + k) = 0 := by
  obtain ⟨h20, hle, hlen⟩ := h.lengths
  have hclear : 24 + ([0, 0] : Bytes).length ≤ packet.length := by simp; omega
  -- the quoted checksum is zero, since it was cleared before the copy
  have hbyte : ∀ k < 28, byteAt (portUnreachableFrame (store packet 24 [0, 0]) i mem) (42 + k)
      = if k = 10 ∨ k = 11 then 0 else byteAt packet (14 + k) := by
    intro k hk
    rw [portUnreachable_quote (by rw [length_store hclear]; omega) i mem hk,
      frameByte_cleared mem.beyond (by omega) (by omega)]
  rw [ipSum_eq_zero]
  constructor
  · intro hquote
    refine ⟨⟨?_, ?_⟩, ?_⟩
    · have hten := hquote 10 (by decide)
      rw [hbyte 10 (by decide), if_pos (.inl rfl), if_pos (by omega)] at hten
      exact hten.symm
    · have heleven := hquote 11 (by decide)
      rw [hbyte 11 (by decide), if_pos (.inr rfl), if_pos (by omega)] at heleven
      exact heleven.symm
    · intro k hge hlt
      have hk := hquote k hlt
      rw [hbyte k hlt, if_neg (by omega), if_neg (by omega)] at hk
      exact hk
  · rintro ⟨⟨hten, heleven⟩, hpadding⟩ k hk
    rw [hbyte k hk]
    split
    · next hsum =>
      rcases hsum with rfl | rfl
      · rw [if_pos (by omega), hten]
      · rw [if_pos (by omega), heleven]
    · split
      · rfl
      · next hge => exact hpadding k (by omega) hk

theorem validPortUnreachable_iff (h : PortProbe sr packet) (i : SrIf) (mem : Memory) :
    (ValidPortUnreachable packet (portUnreachableFrame (store packet 24 [0, 0]) i mem) ∧
      PortUnreachableInBounds i packet) ↔ Quotable packet mem.heap := by
  obtain ⟨h20, hle, hlen⟩ := h.lengths
  have hclear : 24 + ([0, 0] : Bytes).length ≤ packet.length := by simp; omega
  have hcleared : (store packet 24 [0, 0]).length = packet.length := length_store hclear
  have h34 : 34 ≤ (store packet 24 [0, 0]).length := by omega
  have hbyte : ∀ k, k < 24 → byteAt (store packet 24 [0, 0]) k = byteAt packet k :=
    fun k hk => byteAt_store_of_not_mem hclear (.inl hk)
  obtain ⟨htype, hfirst, htotal, hproto, hicmp, hcode⟩ := portUnreachable_fields h34 i mem
  rw [hbyte 14 (by decide)] at hfirst
  have hhl : ipHl (ipHeader (portUnreachableFrame (store packet 24 [0, 0]) i mem))
      = ipHl (ipHeader packet) := by
    simp only [ipHl, ipHeader, byteAt_drop, sizeofEthernetHdr, Nat.add_zero, hfirst]
  have hhl' : ipHl (ipHeader (store packet 24 [0, 0])) = ipHl (ipHeader packet) := by
    simp only [ipHl, ipHeader, byteAt_drop, sizeofEthernetHdr, Nat.add_zero, hbyte 14 (by decide)]
  rw [portUnreachableInBounds_iff]
  constructor
  · -- each demand on the frame is one on the heap bytes or on the probe
    rintro ⟨hvalid, h42⟩
    obtain ⟨hsum, hpadding⟩ := (quote_iff h h42 i mem).mp hvalid.quote
    have hfive : ipHl (ipHeader packet) = 5 := hhl ▸ hvalid.hl
    refine ⟨hfive, hsum, h42, hpadding, ?_, ?_, ?_⟩
    · exact (portUnreachable_checksum h34 i mem (hhl'.trans hfive)).mp hvalid.checksum
    · exact (portUnreachable_icmpSum h34 i mem).mp hvalid.icmpSum
    · intro k hk
      rw [← portUnreachable_unused h34 i mem hk, hvalid.unused k hk]
  · intro hq
    refine ⟨⟨?_, ?_, ?_, hhl.trans hq.hl, htotal, hproto, ?_, hicmp, hcode, ?_, ?_, ?_⟩, hq.length⟩
    · exact (holdsAt_portUnreachableFrame _ i mem).length
    · rw [htype, ← h.ethertype]
      exact congrArg ntohs (load16_congr fun k hk => hbyte _ (by omega))
    · have hversion := h.version
      simp only [ipV, ipHeader, byteAt_drop, sizeofEthernetHdr, Nat.add_zero, hfirst] at hversion ⊢
      exact hversion
    · exact (portUnreachable_checksum h34 i mem (hhl'.trans hq.hl)).mpr hq.heapIpSum
    · exact (portUnreachable_icmpSum h34 i mem).mpr hq.heapIcmpSum
    · intro k hk
      rw [portUnreachable_unused h34 i mem hk, hq.heapUnused k hk]
    · exact (quote_iff h hq.length i mem).mpr ⟨hq.sum, hq.padding⟩

end Messages

/-- **When a port unreachable message is valid.** What the router sends is a valid message, and it
has read nothing behind the frame, if and only if the frame and the buffer are `Quotable`. No frame
is so for every content of the buffer. -/
theorem portUnreachable_valid_iff {sr : SrConfig} {packet : Bytes} {interface : String} {i : SrIf}
    (h : PortProbe sr packet) (hi : srGetInterface sr interface = some i) (s : SrState) :
    srHandlepacket sr s interface packet
      = .ok (srSendPacket sr (s.emit (.received interface packet)) .portUnreachable
          (portUnreachableFrame (store packet 24 [0, 0]) i s.mem) interface) ∧
    ((ValidPortUnreachable packet (portUnreachableFrame (store packet 24 [0, 0]) i s.mem) ∧
        PortUnreachableInBounds i packet) ↔ Quotable packet s.mem.heap) ∧
    ¬ ∀ mem, ValidPortUnreachable packet (portUnreachableFrame (store packet 24 [0, 0]) i mem) := by
  refine ⟨h.handled hi s, validPortUnreachable_iff h i s.mem, fun hall => ?_⟩
  obtain ⟨h20, hle, hlen⟩ := h.lengths
  have hclear : 24 + ([0, 0] : Bytes).length ≤ packet.length := by simp; omega
  have hunused := (hall ⟨fun _ => 0, fun _ => 1, fun _ => i.addr⟩).unused 0 (by decide)
  rw [portUnreachable_unused (by rw [length_store hclear]; omega) i _ (by decide)] at hunused
  have hone : (1 : UInt8) = 0 := hunused
  exact absurd hone (by decide)

/-- A datagram to the router whose checksum is zero: its identification makes up for the rest. -/
def zeroSumFrame : Bytes :=
  fromClient ([0x45, 0, 0, 28, 0x64, 0x6d, 0, 0, 64, 17, 0, 0] ++ bytes32 (dotted 10 0 1 100)
    ++ bytes32 (dotted 10 0 1 1) ++ [0, 53, 0, 53, 0, 8, 0, 0])

theorem portUnreachable_valid_zeroSum :
    ∃ i, srGetInterface rtableConfig "eth3" = some i ∧ ValidPortUnreachable zeroSumFrame
      (portUnreachableFrame (store zeroSumFrame 24 [0, 0]) i srInit.mem) := by
  have hprobe : PortProbe rtableConfig zeroSumFrame :=
    ⟨by decide +kernel, by decide +kernel, by decide +kernel, by decide +kernel,
      by decide +kernel, by decide +kernel, by decide +kernel, by decide +kernel⟩
  have hquotable : Quotable zeroSumFrame srInit.mem.heap := by
    refine ⟨by decide +kernel, by decide +kernel, by decide +kernel, ?_, .inl rfl, .inl rfl,
      fun _ _ => rfl⟩
    intro k hle hlt
    have htotal : ipLen (ipHeader zeroSumFrame) = 28 := by decide +kernel
    omega
  have hi : srGetInterface rtableConfig "eth3"
      = some ⟨"eth3", ⟨[2, 0, 0, 0, 0, 3], rfl⟩, dotted 10 0 1 1⟩ := rfl
  exact ⟨_, hi, ((portUnreachable_valid_iff hprobe hi srInit).2.1.mpr hquotable).1⟩

/-- A UDP datagram from the client is quoted without its checksum, in a message whose unused fields
hold what the buffer held. -/
theorem not_portUnreachable_valid :
    ¬ ∀ sr packet interface i mem, PortProbe sr packet → srGetInterface sr interface = some i →
      ValidPortUnreachable packet (portUnreachableFrame (store packet 24 [0, 0]) i mem) := by
  intro h
  let packet := ethFrame ⟨[2, 0, 0, 0, 0, 3], rfl⟩ ⟨[2, 0, 0, 0, 1, 3], rfl⟩ .ip
    (ipDatagram 64 17 (dotted 10 0 1 100) (dotted 10 0 1 1) [0, 53, 0, 53, 0, 8, 0, 0])
  have hprobe : PortProbe rtableConfig packet :=
    ⟨by decide +kernel, by decide +kernel, by decide +kernel, by decide +kernel,
      by decide +kernel, by decide +kernel, by decide +kernel, by decide +kernel⟩
  have hquote := (h rtableConfig packet "eth3" _ srInit.mem hprobe rfl).quote 10 (by decide)
  exact absurd hquote (by decide +kernel)

end NetworkProjects.Router
