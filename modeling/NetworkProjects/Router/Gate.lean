import NetworkProjects.Router.Datagram
import NetworkProjects.Router.Routes
import NetworkProjects.Lib.OnesComplement

/-!
# Which frames are treated as IP

`ipAccepted` is the dispatcher's decision, `srHandlepacket_eq` what follows from it, and
`WellFormed` what it ought to mean for the frame. The gate checks the length against `ip_hl`
and the header checksum. It does not look at the ethertype (anything but ARP is IP), the
version, or `ip_len`, and `ip_hl` may be below five; `gate_wellFormed_iff` says that this is
all it misses.
-/

namespace NetworkProjects.Router

open NetworkProjects.Lib

/-! ## The decision -/

/-- The frame, with `ip_sum` cleared, that `sr_handlepacket` goes on with as an IP frame. -/
def ipAccepted (packet : Bytes) : Option Bytes :=
  if packet.length < sizeofEthernetHdr then none
  else if ethertype packet = SrEthertype.arp.value then none
  else ipGate packet

/-- What `sr_handlepacket` does with a frame that is not ARP. -/
theorem srHandlepacket_eq {sr : SrConfig} {s : SrState} {interface : String} {packet : Bytes}
    (harp : packet.length < sizeofEthernetHdr ∨ ethertype packet ≠ SrEthertype.arp.value) :
    srHandlepacket sr s interface packet =
      match ipAccepted packet with
      | none => .ok (s.emit (.received interface packet))
      | some p =>
          if srInterfaceIpMatch sr (ipDst (ipHeader p)) then
            if ipP (ipHeader p) = ipProtocolIcmp then
              srSendEchoReply sr (s.emit (.received interface packet)) p interface
            else srSendPortUnreachable sr (s.emit (.received interface packet)) p interface
          else forwardToNextHop sr (s.emit (.received interface packet)) p := by
  by_cases hlen : packet.length < sizeofEthernetHdr
  · simp [srHandlepacket, ipAccepted, hlen]
  · have htype := harp.resolve_left hlen
    have hhandle : srHandlepacket sr s interface packet
        = handleIp sr (s.emit (.received interface packet)) interface packet := by
      simp only [srHandlepacket, hlen, htype, if_false]
    have haccepted : ipAccepted packet = ipGate packet := by
      simp only [ipAccepted, hlen, htype, if_false]
    rw [hhandle, haccepted]
    rfl

/-- The frame is an IPv4 frame as the standard has it, and the datagram it announces is all
there. -/
structure WellFormed (packet : Bytes) : Prop where
  ethertype : ethertype packet = SrEthertype.ip.value
  version : ipV (ipHeader packet) = 4
  ihl_ge : sizeofIpHdr ≤ ipIhl (ipHeader packet)
  ihl_le : sizeofEthernetHdr + ipIhl (ipHeader packet) ≤ packet.length
  checksum : SumsToZero (slice packet sizeofEthernetHdr (ipIhl (ipHeader packet)))
  len_ge : ipIhl (ipHeader packet) ≤ ipLen (ipHeader packet)
  len_le : sizeofEthernetHdr + ipLen (ipHeader packet) ≤ packet.length

/-- What `sr_handlepacket` checks before it treats a frame as IP. -/
structure Checked (packet : Bytes) : Prop where
  notArp : ethertype packet ≠ SrEthertype.arp.value
  length : sizeofEthernetHdr + sizeofIpHdr ≤ packet.length
  ihl_le : sizeofEthernetHdr + ipIhl (ipHeader packet) ≤ packet.length
  checksum : cksum (slice (store packet 24 [0, 0]) sizeofEthernetHdr (ipIhl (ipHeader packet)))
    = ipSum (ipHeader packet)

/-- What it does not check. -/
structure Unchecked (packet : Bytes) : Prop where
  ethertype : ethertype packet = SrEthertype.ip.value
  version : ipV (ipHeader packet) = 4
  hl_ge : 5 ≤ ipHl (ipHeader packet)
  len_ge : ipIhl (ipHeader packet) ≤ ipLen (ipHeader packet)
  len_le : sizeofEthernetHdr + ipLen (ipHeader packet) ≤ packet.length

/-! ## The checksum test -/

/-- The 32-bit accumulator does not overflow on a header. -/
theorem cksumWords_eq (data : Bytes) (sum : Nat) (h : sum + wordSum data < 2 ^ 32) :
    cksumWords data sum = sum + wordSum data := by
  fun_induction cksumWords data sum with
  | case1 hi lo rest sum ih =>
      rw [wordSum, ← Nat.add_assoc] at h
      have hlt : sum + (hi.toNat * 256 + lo.toNat) < 2 ^ 32 :=
        Nat.lt_of_le_of_lt (Nat.le_add_right _ _) h
      rw [Nat.mod_eq_of_lt hlt] at ih ⊢
      rw [ih h, wordSum, Nat.add_assoc]
  | case2 hi sum => exact Nat.mod_eq_of_lt h
  | case3 sum => rfl

/-- Folding the carries does not change the sum modulo `2 ^ 16 - 1`. -/
theorem cksumFold_mod : ∀ fuel sum, cksumFold fuel sum % 65535 = sum % 65535
  | 0, _ => rfl
  | fuel + 1, sum => by
      rw [cksumFold]
      split
      · rw [cksumFold_mod fuel]
        omega
      · rfl

/-- A big-endian word, loaded on a little-endian host. -/
theorem ntohs_eq {hi lo n : Nat} (hhi : hi < 256) (hn : n < 65536)
    (h : ntohs n = hi + 256 * lo) : hi * 256 + lo = n := by
  unfold ntohs at h
  have hdiv := Nat.div_add_mod n 256
  have hlt : n / 256 < 256 := by omega
  rw [Nat.mod_eq_of_lt hlt] at h
  have hhigh : n / 256 = hi := by omega
  have hlow : n % 256 = lo := by omega
  rw [← hhigh, ← hlow, Nat.mul_comm, hdiv]

/-- A header around its checksum field. -/
theorem slice_around_sum {packet : Bytes} {ihl : Nat} (hihl : 12 ≤ ihl)
    (hlen : 14 + ihl ≤ packet.length) :
    slice packet 14 ihl = slice packet 14 10 ++ [byteAt packet 24, byteAt packet 25]
      ++ slice packet 26 (ihl - 12) :=
  slice_around rfl (by omega) hlen

/-- The same header with the field cleared. -/
theorem slice_around_cleared_sum {packet : Bytes} {ihl : Nat} (hihl : 12 ≤ ihl)
    (hlen : 14 + ihl ≤ packet.length) :
    slice (store packet 24 [0, 0]) 14 ihl
      = slice packet 14 10 ++ [0, 0] ++ slice packet 26 (ihl - 12) :=
  slice_store_around rfl (by simp; omega) hlen

/-- A header that passes the comparison passes the receiver's check of the standard. -/
theorem sumsToZero_of_cksum {packet : Bytes} {ihl : Nat} (hihl : 12 ≤ ihl) (hmax : ihl ≤ 60)
    (hlen : 14 + ihl ≤ packet.length)
    (h : cksum (slice (store packet 24 [0, 0]) 14 ihl) = ipSum (ipHeader packet)) :
    SumsToZero (slice packet 14 ihl) := by
  have hzeroed := slice_around_cleared_sum hihl hlen
  have hbound := wordSum_le (slice (store packet 24 [0, 0]) 14 ihl)
  have hcleared : (store packet 24 [0, 0]).length = packet.length := length_store (by simp; omega)
  rw [length_slice (by omega)] at hbound
  have hwords : cksumWords (slice (store packet 24 [0, 0]) 14 ihl) 0
      = wordSum (slice (store packet 24 [0, 0]) 14 ihl) := by
    rw [cksumWords_eq _ _ (by omega), Nat.zero_add]
  rw [cksum, hwords] at h
  rw [slice_around_sum hihl hlen]
  rw [hzeroed] at h
  refine sumsToZero_of_complement ?_ (cksumFold_le _ _ (Nat.le_refl _)) (cksumFold_mod _ _) ?_
  · rw [length_slice (by omega)]
  · apply ntohs_eq (UInt8.toNat_lt _) (by omega)
    rw [h]
    simp [ipSum, ipHeader, load16, sizeofEthernetHdr]

/-! ## What the gate guarantees -/

/-- Clearing the checksum leaves the lengths in the header alone. -/
theorem lengths_cleared {packet : Bytes} (h : 34 ≤ packet.length) :
    ipIhl (ipHeader (store packet 24 [0, 0])) = ipIhl (ipHeader packet) ∧
      ipLen (ipHeader (store packet 24 [0, 0])) = ipLen (ipHeader packet) := by
  have hbyte : ∀ i < 24, byteAt (store packet 24 [0, 0]) i = byteAt packet i := by
    intro i hi
    exact byteAt_store_of_not_mem (by simp; omega) (.inl hi)
  constructor
  · simp only [ipIhl, ipHl, ipHeader, byteAt_drop, sizeofEthernetHdr]
    rw [hbyte 14 (by decide)]
  · simp only [ipLen]
    congr 1
    apply load16_congr
    intro k hk
    simp only [ipHeader, byteAt_drop, sizeofEthernetHdr]
    exact hbyte _ (by omega)

/-- The dispatcher's decision is `Checked`. -/
theorem ipAccepted_eq_some {packet p : Bytes} :
    ipAccepted packet = some p ↔ Checked packet ∧ p = store packet 24 [0, 0] := by
  constructor
  · intro h
    unfold ipAccepted at h
    split at h
    · cases h
    · split at h
      · cases h
      · next htype =>
        obtain ⟨h34, hihl, rfl, hsum⟩ := ipGate_eq_some h
        rw [(lengths_cleared h34).1] at hsum
        exact ⟨⟨htype, h34, hihl, hsum⟩, rfl⟩
  · rintro ⟨h, rfl⟩
    have h34 : 34 ≤ packet.length := h.length
    have hlen : ¬ packet.length < sizeofEthernetHdr := by simp only [sizeofEthernetHdr]; omega
    have hmin : ¬ packet.length < sizeofIpHdr + sizeofEthernetHdr := by
      simp only [sizeofEthernetHdr, sizeofIpHdr]; omega
    have hihl := Nat.not_lt.mpr h.ihl_le
    have hsum := h.checksum
    simp only [sizeofEthernetHdr] at hsum
    simp only [ipAccepted, ipGate, hlen, hmin, hihl, h.notArp, if_false,
      (lengths_cleared h34).1, hsum, ne_eq, not_true_eq_false]

/-- Every byte of the forwarded copy lies inside the received frame and, but for the TTL and
the checksum, is the byte received. -/
def CopiesFrame (packet p : Bytes) : Prop :=
  ∀ beyond i, i < (fwdIpPkt p beyond).length →
    sizeofEthernetHdr + i < packet.length ∧
    (i = 8 ∨ i = 10 ∨ i = 11 ∨
      byteAt (fwdIpPkt p beyond) i = byteAt packet (sizeofEthernetHdr + i))

theorem copiesFrame {packet : Bytes} (h34 : 34 ≤ packet.length)
    (hlen : sizeofEthernetHdr + ipLen (ipHeader packet) ≤ packet.length) :
    CopiesFrame packet (store packet 24 [0, 0]) := by
  intro beyond i hi
  have hclear : 24 + ([0, 0] : Bytes).length ≤ packet.length := by simp; omega
  have hcleared : (store packet 24 [0, 0]).length = packet.length := length_store hclear
  have hedited := length_forwardEdits (p := store packet 24 [0, 0]) (by omega)
  rw [length_fwdIpPkt, (lengths_cleared h34).2] at hi
  refine ⟨by omega, ?_⟩
  by_cases hfield : i = 8 ∨ i = 10 ∨ i = 11
  · rcases hfield with rfl | rfl | rfl <;> simp
  · refine .inr (.inr (.inr ?_))
    rw [fwdIpPkt, byteAt_readFrame (by rw [(lengths_cleared h34).2]; exact hi) (by omega)]
    simp only [sizeofEthernetHdr] at hfield ⊢
    rw [byteAt_forwardEdits (by omega) (by omega) (by omega),
      byteAt_store_of_not_mem hclear (by simp; omega)]

theorem ipHl_le (d : Bytes) : ipHl d ≤ 15 := by
  unfold ipHl
  omega

/-- **What the gate guarantees, and exactly when.** A frame that is treated as IP is well
formed, and what is forwarded of it is in it, if and only if the frame is rejected or meets
the conditions the gate does not check. -/
theorem gate_wellFormed_iff (packet : Bytes) :
    (∀ p, ipAccepted packet = some p → WellFormed packet ∧ CopiesFrame packet p) ↔
      (¬ Checked packet ∨ Unchecked packet) := by
  constructor
  · intro h
    by_cases hchecked : Checked packet
    · obtain ⟨hw, -⟩ := h _ (ipAccepted_eq_some.mpr ⟨hchecked, rfl⟩)
      have hhl : 5 ≤ ipHl (ipHeader packet) := by
        have := hw.ihl_ge
        simp only [sizeofIpHdr, ipIhl] at this
        omega
      exact .inr ⟨hw.ethertype, hw.version, hhl, hw.len_ge, hw.len_le⟩
    · exact .inl hchecked
  · intro h p hp
    obtain ⟨hchecked, rfl⟩ := ipAccepted_eq_some.mp hp
    have hrest := h.resolve_left (not_not_intro hchecked)
    have hihl : 20 ≤ ipIhl (ipHeader packet) := by
      have := hrest.hl_ge
      simp only [ipIhl]
      omega
    have hmax : ipIhl (ipHeader packet) ≤ 60 := by
      have := ipHl_le (ipHeader packet)
      simp only [ipIhl]
      omega
    exact ⟨⟨hrest.ethertype, hrest.version, hihl, hchecked.ihl_le,
        sumsToZero_of_cksum (by omega) hmax hchecked.ihl_le hchecked.checksum,
        hrest.len_ge, hrest.len_le⟩,
      copiesFrame hchecked.length hrest.len_le⟩

/-- A bare header whose `ip_len` announces 1500 bytes. -/
def truncatedFrame : Bytes :=
  let frame := store (clientFrame 64 (dotted 192 168 2 2)) 16 (bytes16 (ntohs 1500))
  let frame := store (frame.take 34) 24 [0, 0]
  store frame 24 (bytes16 (cksum (slice frame 14 20)))

/-- It is forwarded, with 1480 bytes that were never received. -/
theorem gate_truncatedFrame :
    ¬ ∀ packet p, ipAccepted packet = some p → WellFormed packet ∧ CopiesFrame packet p := by
  intro h
  have hchecked : Checked truncatedFrame :=
    ⟨by decide +kernel, by decide +kernel, by decide +kernel, by decide +kernel⟩
  have hlen := (h truncatedFrame _ (ipAccepted_eq_some.mpr ⟨hchecked, rfl⟩)).1.len_le
  exact absurd hlen (by decide +kernel)

end NetworkProjects.Router
