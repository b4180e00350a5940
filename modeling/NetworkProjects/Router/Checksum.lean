import NetworkProjects.Router.Gate

/-!
# The Internet checksum

`cksum` adds up the words in 32 bits and folds the carries in afterwards. For as many words as the
accumulator can hold that is the ones' complement sum with end-around carry, `onesSum`, of which it
returns the complement (`cksum_internet`).

The test of `sr_handlepacket` compares checksums. `corruption_detected` says what that detects:
every change of one word of the header, except that a word which is one of the two zeros may have
become the other one, since only `ip_sum` is compared bit by bit.
-/

namespace NetworkProjects.Router

open NetworkProjects.Lib

/-! ## The two loops

The words are added up in 32 bits, and the carries are folded in at the end. With too much data the
accumulator itself would wrap. -/

/-- The longest data for which the 32-bit accumulator is large enough: `65537` words. -/
def maxCksumLen : Nat := 2 * 65537

theorem wordSum_lt {data : Bytes} (hlen : data.length ≤ maxCksumLen) : wordSum data < 2 ^ 32 := by
  have hle := wordSum_le_words data
  have hwords : (data.length + 1) / 2 ≤ 65537 := by
    simp only [maxCksumLen] at hlen
    omega
  have hmul := Nat.mul_le_mul_left 65535 hwords
  omega

/-- A sum that fits in 32 bits is folded in at most two rounds. -/
theorem cksumFold_two {sum : Nat} (hsum : sum < 2 ^ 32) :
    cksumFold 2 sum ≤ 0xffff ∧ ∀ fuel ≥ 2, cksumFold fuel sum = cksumFold 2 sum := by
  have hstop : ∀ fuel n, n ≤ 0xffff → cksumFold fuel n = n := by
    intro fuel n hn
    cases fuel with
    | zero => rfl
    | succ fuel => rw [cksumFold, if_neg (by omega)]
  have hround : ∀ fuel n, ¬ n ≤ 0xffff → cksumFold (fuel + 1) n
      = cksumFold fuel (n / 2 ^ 16 + n % 2 ^ 16) := by
    intro fuel n hn
    rw [cksumFold, if_pos (by omega)]
  -- the sum of two halves needs no round, one, or two
  by_cases hone : sum ≤ 0xffff
  · refine ⟨by rw [hstop 2 sum hone]; exact hone, fun fuel _ => ?_⟩
    rw [hstop _ _ hone, hstop _ _ hone]
  · by_cases htwo : sum / 2 ^ 16 + sum % 2 ^ 16 ≤ 0xffff
    · have hval : ∀ fuel, cksumFold (fuel + 1) sum = sum / 2 ^ 16 + sum % 2 ^ 16 := by
        intro fuel
        rw [hround _ _ hone, hstop _ _ htwo]
      refine ⟨by rw [hval 1]; exact htwo, fun fuel hfuel => ?_⟩
      obtain ⟨n, rfl⟩ : ∃ n, fuel = n + 1 := ⟨fuel - 1, by omega⟩
      rw [hval, hval]
    · have hlast : (sum / 2 ^ 16 + sum % 2 ^ 16) / 2 ^ 16 + (sum / 2 ^ 16 + sum % 2 ^ 16) % 2 ^ 16
          ≤ 0xffff := by omega
      have hval : ∀ fuel, cksumFold (fuel + 2) sum = (sum / 2 ^ 16 + sum % 2 ^ 16) / 2 ^ 16
          + (sum / 2 ^ 16 + sum % 2 ^ 16) % 2 ^ 16 := by
        intro fuel
        rw [hround _ _ hone, hround _ _ htwo, hstop _ _ hlast]
      refine ⟨by rw [hval 0]; exact hlast, fun fuel hfuel => ?_⟩
      obtain ⟨n, rfl⟩ : ∃ n, fuel = n + 2 := ⟨fuel - 2, by omega⟩
      rw [hval, hval]

/-- Folding leaves zero alone, and nothing else becomes zero. -/
theorem cksumFold_eq_zero : ∀ fuel sum, cksumFold fuel sum = 0 ↔ sum = 0
  | 0, _ => Iff.rfl
  | fuel + 1, sum => by
      rw [cksumFold]
      split
      · rw [cksumFold_eq_zero fuel]
        omega
      · exact Iff.rfl

/-- Both loops together compute the sum with end-around carry. -/
theorem cksumFold_wordSum (data : Bytes) :
    cksumFold (wordSum data) (wordSum data) = (onesSum data).toNat :=
  eq_onesSum (cksumFold_le _ _ (Nat.le_refl _)) (cksumFold_mod _ _) (cksumFold_eq_zero _ _)

theorem cksum_eq {data : Bytes} (hlen : data.length ≤ maxCksumLen) :
    cksum data = ntohs (0xffff - (onesSum data).toNat) := by
  have hwords : cksumWords data 0 = wordSum data := by
    rw [cksumWords_eq _ _ (by rw [Nat.zero_add]; exact wordSum_lt hlen), Nat.zero_add]
  simp only [cksum, hwords, cksumFold_wordSum]

/-! ## Bytes on the wire -/

theorem ntohs_lt (n : Nat) : ntohs n < 2 ^ 16 := by
  unfold ntohs
  omega

/-- The low byte of the swapped word is the high byte, and the other way around. -/
theorem ntohs_bytes {n : Nat} (h : n < 2 ^ 16) :
    ntohs n % 256 = n / 256 ∧ ntohs n / 256 = n % 256 := by
  unfold ntohs
  have hhigh : n / 256 % 256 = n / 256 := Nat.mod_eq_of_lt (by omega)
  have hlow : n % 256 < 256 := Nat.mod_lt n (by decide)
  rw [hhigh]
  generalize n % 256 = lo at hlow ⊢
  constructor <;> omega

theorem ntohs_ntohs {n : Nat} (h : n < 2 ^ 16) : ntohs (ntohs n) = n := by
  obtain ⟨hlow, hhigh⟩ := ntohs_bytes h
  have hsplit := Nat.div_add_mod n 256
  rw [ntohs, hlow, hhigh]
  omega

/-- The two bytes of a word that `htons` has swapped are its bytes, high byte first. -/
theorem bytes16_ntohs {n : Nat} (h : n < 2 ^ 16) :
    ∃ hi lo : UInt8, bytes16 (ntohs n) = [hi, lo] ∧ hi.toNat * 256 + lo.toNat = n := by
  obtain ⟨hlow, hhigh⟩ := ntohs_bytes h
  refine ⟨_, _, rfl, ?_⟩
  simp only [UInt8.toNat_ofNat', Nat.reducePow, hlow, hhigh]
  omega

/-- The complement, as a word. -/
theorem not_onesSum (data : Bytes) :
    BitVec.ofNat 16 (0xffff - (onesSum data).toNat) = ~~~ onesSum data := by
  apply BitVec.eq_of_toNat_eq
  have hlt := (onesSum data).isLt
  rw [BitVec.toNat_not, BitVec.toNat_ofNat, Nat.mod_eq_of_lt (by omega)]

/-! ## The field

A checksum is written over an old value of its field. What comes of that depends on whether the old
value was there when the sum was taken. -/

/-- A block around a word of it. -/
theorem eq_around (p : Bytes) (off : Nat) :
    p = p.take off ++ slice p off 2 ++ p.drop (off + 2) := by
  rw [slice, ← List.drop_drop, List.append_assoc, List.take_append_drop, List.take_append_drop]

/-- A checksum written into a field that was zero makes the checksum of the whole zero. -/
theorem cksum_store {data : Bytes} {off : Nat} (hlen : data.length ≤ maxCksumLen)
    (heven : off % 2 = 0) (hoff : off + 2 ≤ data.length) (hfield : slice data off 2 = [0, 0]) :
    cksum (store data off (bytes16 (cksum data))) = 0 := by
  have hlt := (onesSum data).isLt
  obtain ⟨hi, lo, hbytes, hvalue⟩ :=
    bytes16_ntohs (n := 0xffff - (onesSum data).toNat) (by omega)
  have htake : (data.take off).length % 2 = 0 := by
    rw [List.length_take, Nat.min_eq_left (by omega)]
    exact heven
  have hdata := eq_around data off
  rw [hfield] at hdata
  have hwritten : store data off (bytes16 (cksum data))
      = data.take off ++ [hi, lo] ++ data.drop (off + 2) := by
    rw [cksum_eq hlen, hbytes, store]
    rfl
  have hwlen : (store data off (bytes16 (cksum data))).length ≤ maxCksumLen := by
    rw [length_store (by simpa [bytes16] using hoff)]
    exact hlen
  -- the sum was some `f`, and now it is `f` and its complement: all bits are set
  have hsum : wordSum data = wordSum (data.take off) + wordSum (data.drop (off + 2)) := by
    conv_lhs => rw [hdata, wordSum_around _ _ _ htake]
    simp
  have hsum' : wordSum (store data off (bytes16 (cksum data)))
      = wordSum data + (0xffff - (onesSum data).toNat) := by
    rw [hwritten, wordSum_around _ _ _ htake, hvalue, hsum]
    omega
  have hmod := onesSum_mod data
  have hzero := onesSum_eq_zero data
  have hall : 65535 = (onesSum (store data off (bytes16 (cksum data)))).toNat := by
    refine eq_onesSum (Nat.le_refl _) ?_ ?_
    · rw [hsum']
      omega
    · rw [hsum']
      omega
  rw [cksum_eq hwlen, ← hall]
  rfl

/-- Equal checksums come from sums that are equal modulo `2 ^ 16 - 1`. -/
theorem wordSum_of_cksum_eq {p q : Bytes} (hp : p.length ≤ maxCksumLen)
    (hq : q.length ≤ maxCksumLen) (h : cksum p = cksum q) :
    wordSum p % 65535 = wordSum q % 65535 := by
  have hlt := (onesSum p).isLt
  have hlt' := (onesSum q).isLt
  rw [cksum_eq hp, cksum_eq hq] at h
  have hsame := congrArg ntohs h
  rw [ntohs_ntohs (by omega), ntohs_ntohs (by omega)] at hsame
  rw [← onesSum_mod p, ← onesSum_mod q]
  omega

/-- The two bytes of a checksum, as a word. -/
theorem bytes16_cksum {data : Bytes} (hlen : data.length ≤ maxCksumLen) :
    ∃ hi lo : UInt8, bytes16 (cksum data) = [hi, lo] ∧
      hi.toNat * 256 + lo.toNat = 65535 - (onesSum data).toNat := by
  have hlt := (onesSum data).isLt
  rw [cksum_eq hlen]
  exact bytes16_ntohs (by omega)

section Uncleared

variable {before after : Bytes} {hi lo : UInt8}

/-- A checksum that is computed over an old value of its field is right if and only if the old
value was one of the two zeros. -/
theorem sumsToZero_cksum_iff (heven : before.length % 2 = 0)
    (hlen : (before ++ [hi, lo] ++ after).length ≤ maxCksumLen) :
    SumsToZero (before ++ bytes16 (cksum (before ++ [hi, lo] ++ after)) ++ after) ↔
      IsZero [hi, lo] := by
  obtain ⟨hi', lo', hbytes, hvalue⟩ := bytes16_cksum hlen
  have hlt := (onesSum (before ++ [hi, lo] ++ after)).isLt
  have hsum := onesSum_mod (before ++ [hi, lo] ++ after)
  rw [wordSum_around after hi lo heven] at hsum
  rw [hbytes, isZero_iff, SumsToZero, wordSum_around after hi' lo' heven, hvalue]
  omega

/-- The same, for the value itself: it is what it is with the field cleared. -/
theorem cksum_uncleared_iff (heven : before.length % 2 = 0)
    (hlen : (before ++ [hi, lo] ++ after).length ≤ maxCksumLen)
    (hne : wordSum before ≠ 0) :
    cksum (before ++ [hi, lo] ++ after) = cksum (before ++ [0, 0] ++ after) ↔
      IsZero [hi, lo] := by
  have hlen' : (before ++ [0, 0] ++ after).length ≤ maxCksumLen := by simpa using hlen
  have hcleared : wordSum (before ++ [0, 0] ++ after) = wordSum before + wordSum after := by
    rw [wordSum_around after 0 0 heven, UInt8.toNat_zero]
    omega
  constructor
  · intro h
    -- equal checksums mean word sums that agree modulo 65535
    have hmod := wordSum_of_cksum_eq hlen hlen' h
    rw [hcleared, wordSum_around after hi lo heven] at hmod
    rw [isZero_iff]
    omega
  · intro h
    rw [isZero_iff] at h
    have hlt := (onesSum (before ++ [hi, lo] ++ after)).isLt
    have hmod := onesSum_mod (before ++ [hi, lo] ++ after)
    have hzero := onesSum_eq_zero (before ++ [hi, lo] ++ after)
    rw [wordSum_around after hi lo heven] at hmod hzero
    have hsame : (onesSum (before ++ [hi, lo] ++ after)).toNat
        = (onesSum (before ++ [0, 0] ++ after)).toNat := by
      apply eq_onesSum (by omega)
      · rw [hcleared]
        omega
      · rw [hcleared]
        omega
    rw [cksum_eq hlen, cksum_eq hlen', hsame]

end Uncleared

/-- **The Internet checksum.** The accumulator does not wrap on any part of the data, two rounds of
folding are enough, and the result is, in network byte order, the complement of the ones' complement
sum. Written into a field that was zero it makes the checksum of the whole zero. -/
theorem cksum_internet (data : Bytes) (hlen : data.length ≤ maxCksumLen) :
    (∀ p, p <+: data → cksumWords p 0 = wordSum p ∧ wordSum p < 2 ^ 32) ∧
    (cksumFold 2 (wordSum data) ≤ 0xffff ∧
      ∀ fuel ≥ 2, cksumFold fuel (wordSum data) = cksumFold 2 (wordSum data)) ∧
    (cksum data < 2 ^ 16 ∧ BitVec.ofNat 16 (ntohs (cksum data)) = ~~~ onesSum data) ∧
    ∀ off, off % 2 = 0 → off + 2 ≤ data.length → slice data off 2 = [0, 0] →
      cksum (store data off (bytes16 (cksum data))) = 0 := by
  refine ⟨?_, cksumFold_two (wordSum_lt hlen), ⟨?_, ?_⟩, ?_⟩
  · rintro p ⟨q, rfl⟩
    have hlt : wordSum p < 2 ^ 32 :=
      Nat.lt_of_le_of_lt (wordSum_le_append p q) (wordSum_lt hlen)
    refine ⟨?_, hlt⟩
    rw [cksumWords_eq _ _ (by rw [Nat.zero_add]; exact hlt), Nat.zero_add]
  · exact ntohs_lt _
  · have hlt := (onesSum data).isLt
    rw [cksum_eq hlen, ntohs_ntohs (by omega), not_onesSum]
  · intro off heven hoff hfield
    exact cksum_store hlen heven hoff hfield

/-- The header of a datagram whose checksum has still to be written. -/
def clearedHeader : Bytes :=
  slice (store (clientFrame 64 (dotted 192 168 2 2)) 24 [0, 0]) sizeofEthernetHdr sizeofIpHdr

theorem cksum_internet_clearedHeader :
    BitVec.ofNat 16 (ntohs (cksum clearedHeader)) = ~~~ onesSum clearedHeader ∧
      cksum (store clearedHeader 10 (bytes16 (cksum clearedHeader))) = 0 := by
  obtain ⟨-, -, ⟨-, hvalue⟩, hfield⟩ := cksum_internet clearedHeader (by decide +kernel)
  exact ⟨hvalue, hfield 10 (by decide) (by decide +kernel) (by decide +kernel)⟩

/-! ## Headers that are corrupted

The test compares what was received with what is expected. A change of one word changes the sum,
unless it is one zero for the other. -/

/-- A header around one of its words. -/
theorem slice_around_word (p : Bytes) {ihl k : Nat} (hk : 2 * k + 2 ≤ ihl) :
    slice p 14 ihl = slice p 14 (2 * k) ++ slice p (14 + 2 * k) 2
      ++ slice p (14 + 2 * k + 2) (ihl - 2 * k - 2) := by
  have hadd : ihl = 2 * k + 2 + (ihl - 2 * k - 2) := by omega
  conv_lhs => rw [hadd, slice_add, slice_add, ← Nat.add_assoc]

/-- The header with `ip_sum` cleared, and the same after another word was changed. -/
theorem cleared_changed {packet : Bytes} {ihl k : Nat} (hi lo : UInt8) (hk : 2 * k + 2 ≤ ihl)
    (hlen : 14 + ihl ≤ packet.length) (h34 : 34 ≤ packet.length) (hsum : k ≠ 5) :
    ∃ before after : Bytes, before.length % 2 = 0 ∧
      slice (store packet 24 [0, 0]) 14 ihl
        = before ++ [byteAt packet (14 + 2 * k), byteAt packet (14 + 2 * k + 1)] ++ after ∧
      slice (store (store packet (14 + 2 * k) [hi, lo]) 24 [0, 0]) 14 ihl
        = before ++ [hi, lo] ++ after := by
  have hword : 14 + 2 * k + ([hi, lo] : Bytes).length ≤ packet.length := by simp; omega
  have hlen' : (store packet (14 + 2 * k) [hi, lo]).length = packet.length := length_store hword
  have hclear₁ : 24 + ([0, 0] : Bytes).length ≤ packet.length := by simp; omega
  have hclear₂ : 24 + ([0, 0] : Bytes).length ≤ (store packet (14 + 2 * k) [hi, lo]).length := by
    rw [hlen']
    exact hclear₁
  -- outside the word the two cleared frames agree
  have hsame : ∀ off n, off + n ≤ packet.length →
      off + n ≤ 14 + 2 * k ∨ 14 + 2 * k + 2 ≤ off →
      slice (store (store packet (14 + 2 * k) [hi, lo]) 24 [0, 0]) off n
        = slice (store packet 24 [0, 0]) off n := by
    intro off n hn hout
    apply slice_congr (by rw [length_store hclear₂, hlen']; exact hn)
      (by rw [length_store hclear₁]; exact hn)
    intro i hi
    by_cases hfield : 24 ≤ off + i ∧ off + i < 26
    · rw [byteAt_store_of_mem hclear₂ hfield.1 (by simpa using hfield.2),
        byteAt_store_of_mem hclear₁ hfield.1 (by simpa using hfield.2)]
    · have hfield' : off + i < 24 ∨ 24 + ([0, 0] : Bytes).length ≤ off + i := by
        simp only [List.length_cons, List.length_nil]
        omega
      rw [byteAt_store_of_not_mem hclear₂ hfield', byteAt_store_of_not_mem hclear₁ hfield',
        byteAt_store_of_not_mem hword (by simp; omega)]
  have hold : slice (store packet 24 [0, 0]) (14 + 2 * k) 2
      = [byteAt packet (14 + 2 * k), byteAt packet (14 + 2 * k + 1)] := by
    rw [slice_store_of_disjoint hclear₁ (by omega) (by simp; omega), slice_two (by omega)]
  have hnew : slice (store (store packet (14 + 2 * k) [hi, lo]) 24 [0, 0]) (14 + 2 * k) 2
      = [hi, lo] := by
    rw [slice_store_of_disjoint hclear₂ (by rw [hlen']; omega) (by simp; omega)]
    exact slice_store_self hword
  refine ⟨slice (store packet 24 [0, 0]) 14 (2 * k),
    slice (store packet 24 [0, 0]) (14 + 2 * k + 2) (ihl - 2 * k - 2), ?_, ?_, ?_⟩
  · rw [length_slice (by rw [length_store hclear₁]; omega)]
    omega
  · rw [slice_around_word _ hk, hold]
  · rw [slice_around_word _ hk, hnew, hsame 14 (2 * k) (by omega) (.inl (Nat.le_refl _)),
      hsame _ _ (by omega) (.inr (Nat.le_refl _))]

/-- A word behind the first one holds neither the header length nor the ethertype. -/
theorem head_of_changed {packet : Bytes} {k : Nat} {hi lo : UInt8} (hk : 1 ≤ k)
    (hword : 14 + 2 * k + 2 ≤ packet.length) :
    ipIhl (ipHeader (store packet (14 + 2 * k) [hi, lo])) = ipIhl (ipHeader packet) ∧
      ethertype (store packet (14 + 2 * k) [hi, lo]) = ethertype packet := by
  have hhead : ∀ i < 16, byteAt (store packet (14 + 2 * k) [hi, lo]) i = byteAt packet i :=
    fun i hi => byteAt_store_of_not_mem (by simpa using hword) (.inl (by omega))
  constructor
  · simp only [ipIhl, ipHl, ipHeader, byteAt_drop, sizeofEthernetHdr, Nat.add_zero]
    rw [hhead 14 (by decide)]
  · rw [ethertype, ethertype, load16_congr fun j hj => hhead _ (by omega)]

/-- The expected checksum does not depend on the received one, so that cannot change. -/
theorem ipSum_of_checked {packet : Bytes} {hi lo : UInt8} (h : Checked packet)
    (h' : Checked (store packet 24 [hi, lo])) : [hi, lo] = slice packet 24 2 := by
  have hlen : 34 ≤ packet.length := h.length
  have hword : 24 + ([hi, lo] : Bytes).length ≤ packet.length := by simp; omega
  have hclear : store (store packet 24 [hi, lo]) 24 [0, 0] = store packet 24 [0, 0] :=
    store_store hword rfl
  have hsum' := h'.checksum
  rw [hclear, (head_of_changed (k := 5) (by decide) hword).1, h.checksum] at hsum'
  have hfield : load16 packet 24 = load16 (store packet 24 [hi, lo]) 24 := by
    simpa [ipSum, ipHeader, load16, sizeofEthernetHdr] using hsum'
  obtain ⟨hlow, hhigh⟩ := byteAt_of_load16 hfield
  rw [slice_two (by omega), hlow, hhigh, byteAt_store_of_mem hword (by omega) (by simp),
    byteAt_store_of_mem hword (by omega) (by simp)]
  rfl

/-- Another word keeps its residue, so it is the same one or the other zero. -/
theorem word_of_checked {packet : Bytes} {k : Nat} {hi lo : UInt8} (hk : 1 ≤ k) (hfive : k ≠ 5)
    (hin : 2 * k + 2 ≤ ipIhl (ipHeader packet)) (h : Checked packet)
    (h' : Checked (store packet (14 + 2 * k) [hi, lo])) :
    slice packet (14 + 2 * k) 2 = [hi, lo] ∨
      OppositeZeros (slice packet (14 + 2 * k) 2) [hi, lo] := by
  have hlen : 34 ≤ packet.length := h.length
  have hihl : 14 + ipIhl (ipHeader packet) ≤ packet.length := h.ihl_le
  have hword : 14 + 2 * k + ([hi, lo] : Bytes).length ≤ packet.length := by simp; omega
  have hshort : ∀ p : Bytes, (slice p 14 (ipIhl (ipHeader packet))).length ≤ maxCksumLen := by
    intro p
    have := ipHl_le (ipHeader packet)
    simp only [slice, List.length_take, ipIhl, maxCksumLen]
    omega
  obtain ⟨before, after, heven, hold, hnew⟩ := cleared_changed hi lo hin hihl hlen hfive
  have hfield : ipSum (ipHeader (store packet (14 + 2 * k) [hi, lo]))
      = ipSum (ipHeader packet) := by
    apply load16_congr
    intro j hj
    simp only [ipHeader, byteAt_drop, sizeofEthernetHdr]
    exact byteAt_store_of_not_mem hword (by simp; omega)
  have hsum := h'.checksum
  rw [(head_of_changed hk hword).1, hfield, ← h.checksum] at hsum
  have hmod := wordSum_of_cksum_eq (hshort _) (hshort _) hsum.symm
  rw [hold, hnew] at hmod
  rw [slice_two (by omega)]
  exact word_change heven hmod

/-- **Header corruption is detected.** An accepted frame in whose header one word behind the first
has been replaced by another one is dropped, unless the word is not `ip_sum` and one of the two
zeros was replaced by the other. -/
theorem corruption_detected {packet p : Bytes} (haccepted : ipAccepted packet = some p) {k : Nat}
    (hk : 1 ≤ k) (hin : 2 * k + 2 ≤ ipIhl (ipHeader packet)) {hi lo : UInt8}
    (hchanged : [hi, lo] ≠ slice packet (14 + 2 * k) 2)
    (hzeros : k = 5 ∨ ¬ OppositeZeros (slice packet (14 + 2 * k) 2) [hi, lo]) :
    ipAccepted (store packet (14 + 2 * k) [hi, lo]) = none ∧
    ∀ sr s interface, srHandlepacket sr s interface (store packet (14 + 2 * k) [hi, lo])
      = .ok (s.emit (.received interface (store packet (14 + 2 * k) [hi, lo]))) := by
  obtain ⟨hchecked, -⟩ := ipAccepted_eq_some.mp haccepted
  have hihl : 14 + ipIhl (ipHeader packet) ≤ packet.length := hchecked.ihl_le
  have hword : 14 + 2 * k + 2 ≤ packet.length := by omega
  have hnone : ipAccepted (store packet (14 + 2 * k) [hi, lo]) = none := by
    by_contra hsome
    obtain ⟨q, hq⟩ := Option.ne_none_iff_exists'.mp hsome
    obtain ⟨hchecked', -⟩ := ipAccepted_eq_some.mp hq
    by_cases hfive : k = 5
    · subst hfive
      exact hchanged (ipSum_of_checked hchecked hchecked')
    · rcases word_of_checked hk hfive hin hchecked hchecked' with heq | hopposite
      · exact hchanged heq.symm
      · exact hzeros.resolve_left hfive hopposite
  refine ⟨hnone, ?_⟩
  intro sr s interface
  have hnotArp : ethertype (store packet (14 + 2 * k) [hi, lo]) ≠ SrEthertype.arp.value := by
    rw [(head_of_changed hk hword).2]
    exact hchecked.notArp
  rw [srHandlepacket_eq (.inr hnotArp), hnone]

/-- A datagram whose TTL has gone from 64 to 63 on the way, and whose checksum has not changed. -/
def staleChecksum : Bytes := store (clientFrame 64 (dotted 192 168 2 2)) (14 + 2 * 4) [63, 17]

theorem corruption_detected_ttl : ipAccepted staleChecksum = none ∧
    ∀ sr s interface, srHandlepacket sr s interface staleChecksum
      = .ok (s.emit (.received interface staleChecksum)) := by
  have haccepted : ipAccepted (clientFrame 64 (dotted 192 168 2 2))
      = some (store (clientFrame 64 (dotted 192 168 2 2)) 24 [0, 0]) := by decide +kernel
  have hold : slice (clientFrame 64 (dotted 192 168 2 2)) (14 + 2 * 4) 2 = [64, 17] := by
    decide +kernel
  exact corruption_detected haccepted (by decide) (by decide +kernel) (by rw [hold]; decide)
    (.inr (by rw [hold]; decide))

end NetworkProjects.Router
