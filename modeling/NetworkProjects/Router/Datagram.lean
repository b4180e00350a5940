import NetworkProjects.Router.HandlePacket

/-!
# What `ForwardToNextHop` is called with, and what it hands on

`forwardedFrame` is the frame `ForwardToNextHop` gets, if it is called at all. The lemmas say
how long the forwarded copy is and which byte it holds where: the byte of the edited frame, and
the edits touch the TTL byte (8) and the checksum (10 and 11) of the IP header only.
-/

namespace NetworkProjects.Router

open NetworkProjects.Lib

/-- The frame `sr_handlepacket` calls `ForwardToNextHop` with, if it does. -/
def forwardedFrame (sr : SrConfig) (packet : Bytes) : Option Bytes :=
  if packet.length < sizeofEthernetHdr then none
  else if ethertype packet = SrEthertype.arp.value then none
  else
    match ipGate packet with
    | none => none
    | some packet =>
        if srInterfaceIpMatch sr (ipDst (ipHeader packet)) then none else some packet

/-! ## The gate -/

/-- What a frame that passes the tests of the IP branch looks like. -/
theorem ipGate_eq_some {packet p : Bytes} (h : ipGate packet = some p) :
    34 ≤ packet.length ∧ 14 + ipIhl (ipHeader packet) ≤ packet.length ∧
      p = store packet 24 [0, 0] ∧
      cksum (slice p 14 (ipIhl (ipHeader p))) = ipSum (ipHeader packet) := by
  unfold ipGate at h
  split at h
  · cases h
  · next h34 =>
    split at h
    · cases h
    · next hihl =>
      simp only [sizeofIpHdr, sizeofEthernetHdr] at h34 hihl
      dsimp only at h
      split at h
      · cases h
      · next hsum =>
        cases h
        exact ⟨by omega, by omega, rfl, not_not.mp hsum⟩

theorem forwardedFrame_eq_some {sr : SrConfig} {packet p : Bytes}
    (h : forwardedFrame sr packet = some p) :
    ethertype packet ≠ SrEthertype.arp.value ∧ ipGate packet = some p ∧
      srInterfaceIpMatch sr (ipDst (ipHeader p)) = false := by
  unfold forwardedFrame at h
  split at h
  · cases h
  · split at h
    · cases h
    · next htype =>
      split at h
      · cases h
      · next q hq =>
        split at h
        · cases h
        · next hmatch =>
          cases h
          exact ⟨htype, hq, by simpa using hmatch⟩

/-- A frame the gate lets through keeps its length; only the checksum field is cleared. -/
theorem ipGate_length {packet p : Bytes} (h : ipGate packet = some p) :
    p.length = packet.length := by
  obtain ⟨h34, -, rfl, -⟩ := ipGate_eq_some h
  exact length_store (by simp; omega)

theorem ipGate_byteAt {packet p : Bytes} (h : ipGate packet = some p) {i : Nat}
    (hi : i < 24 ∨ 26 ≤ i) : byteAt p i = byteAt packet i := by
  obtain ⟨h34, -, rfl, -⟩ := ipGate_eq_some h
  exact byteAt_store_of_not_mem (by simp; omega) (by simpa using hi)

/-! ## The edits -/

/-- The two edits in front of the checksum keep the length. -/
theorem length_edited {p : Bytes} (h : 34 ≤ p.length) (t : UInt8) :
    (store p 22 [t]).length = p.length ∧
      (store (store p 22 [t]) 24 [0, 0]).length = p.length := by
  have h1 : (store p 22 [t]).length = p.length := length_store (by simp; omega)
  refine ⟨h1, ?_⟩
  rw [length_store (by simp [h1]; omega), h1]

theorem length_forwardEdits {p : Bytes} (h : 34 ≤ p.length) :
    (forwardEdits p).length = p.length := by
  unfold forwardEdits
  obtain ⟨h1, h2⟩ := length_edited h (byteAt p 22 - 1)
  rw [length_store (by simp [bytes16, h2]; omega), h2]

/-- Outside the TTL and the checksum the edited frame is the received one. -/
theorem byteAt_forwardEdits {p : Bytes} (h : 34 ≤ p.length) {i : Nat} (httl : i ≠ 22)
    (hsum : i < 24 ∨ 26 ≤ i) : byteAt (forwardEdits p) i = byteAt p i := by
  unfold forwardEdits
  obtain ⟨h1, h2⟩ := length_edited h (byteAt p 22 - 1)
  rw [byteAt_store_of_not_mem (by simp [bytes16, h2]; omega) (by simpa [bytes16] using hsum),
    byteAt_store_of_not_mem (by simp [h1]; omega) (by simpa using hsum),
    byteAt_store_of_not_mem (by simp; omega) (by simp; omega)]

/-- The TTL byte is one less, modulo 256. -/
theorem byteAt_forwardEdits_ttl {p : Bytes} (h : 34 ≤ p.length) :
    byteAt (forwardEdits p) 22 = byteAt p 22 - 1 := by
  unfold forwardEdits
  obtain ⟨h1, h2⟩ := length_edited h (byteAt p 22 - 1)
  rw [byteAt_store_of_not_mem (by simp [bytes16, h2]; omega) (by simp),
    byteAt_store_of_not_mem (by simp [h1]; omega) (by simp),
    byteAt_store_of_mem (by simp; omega) (by simp) (by simp)]
  rfl

/-! ## The copy -/

@[simp] theorem length_readFrame (p : Bytes) (beyond : Nat → UInt8) (off n : Nat) :
    (readFrame p beyond off n).length = n := by
  simp [readFrame]

/-- Inside the frame the copy is the frame. -/
theorem byteAt_readFrame {p : Bytes} {beyond : Nat → UInt8} {off n i : Nat} (hi : i < n)
    (hp : off + i < p.length) : byteAt (readFrame p beyond off n) i = byteAt p (off + i) := by
  simp [readFrame, byteAt, hi, hp]

/-- Inside the frame, reading is taking a slice. -/
theorem readFrame_eq_slice {p : Bytes} {beyond : Nat → UInt8} {off n : Nat}
    (h : off + n ≤ p.length) : readFrame p beyond off n = slice p off n := by
  apply ext_byteAt
  · rw [length_readFrame, length_slice h]
  · intro i hi
    rw [length_readFrame] at hi
    rw [byteAt_readFrame hi (by omega), byteAt_slice hi]

@[simp] theorem length_fwdIpPkt (p : Bytes) (beyond : Nat → UInt8) :
    (fwdIpPkt p beyond).length = ipLen (ipHeader p) := by
  simp [fwdIpPkt]

/-- The first twenty bytes of the copy are those of the edited header. -/
theorem byteAt_fwdIpPkt {p : Bytes} {beyond : Nat → UInt8} (h : 34 ≤ p.length)
    (hlen : 20 ≤ ipLen (ipHeader p)) {i : Nat} (hi : i < 20) :
    byteAt (fwdIpPkt p beyond) i = byteAt (forwardEdits p) (14 + i) := by
  have hf := length_forwardEdits h
  exact byteAt_readFrame (by omega) (by simp only [sizeofEthernetHdr]; omega)

/-- The destination the route is looked up for is the one in the copy. -/
theorem ipDst_fwdIpPkt {p : Bytes} {beyond : Nat → UInt8} (h : 34 ≤ p.length)
    (hlen : 20 ≤ ipLen (ipHeader p)) :
    ipDst (fwdIpPkt p beyond) = ipDst (ipHeader (forwardEdits p)) := by
  apply load32_congr
  intro k hk
  rw [byteAt_fwdIpPkt h hlen (by omega), ipHeader, byteAt_drop]
  rfl

end NetworkProjects.Router
