import NetworkProjects.Lib.Bytes

/-!
# The ones' complement sum of a byte string

Sixteen-bit words, high byte first, an odd last byte padded on the right. Adding with
end-around carry is adding modulo `2 ^ 16 - 1`, so the receiver's check on a block that
contains its own checksum is that the words sum to zero modulo that (`SumsToZero`).

`sumsToZero_of_complement` is the sender's side: put the complement of the sum of the block,
with the field left out, into the field, and the check succeeds.

`onesSum` is the sum with end-around carry itself, in sixteen bits. Modulo `2 ^ 16 - 1` it is
`wordSum`, and of the two representations of zero it takes the one with all bits set unless all
words are zero (`eq_onesSum`).
-/

namespace NetworkProjects.Lib

/-- The sum of the 16-bit words. -/
def wordSum : Bytes → Nat
  | hi :: lo :: rest => hi.toNat * 256 + lo.toNat + wordSum rest
  | [hi] => hi.toNat * 256
  | [] => 0

/-- The ones' complement sum is (plus or minus) zero. -/
def SumsToZero (p : Bytes) : Prop := wordSum p % 65535 = 0

instance (p : Bytes) : Decidable (SumsToZero p) := inferInstanceAs (Decidable (_ = _))

/-- A first part of even length does not shift the words of the second. -/
theorem wordSum_append :
    ∀ {p : Bytes} (q : Bytes), p.length % 2 = 0 → wordSum (p ++ q) = wordSum p + wordSum q
  | [], q, _ => by simp [wordSum]
  | [_], _, h => by simp at h
  | hi :: lo :: rest, q, h => by
      have ih := wordSum_append (p := rest) q (by simp at h; omega)
      simp only [List.cons_append, wordSum, ih]
      omega

theorem wordSum_le : ∀ p : Bytes, wordSum p ≤ 65535 * p.length
  | [] => by simp [wordSum]
  | [hi] => by
      have := hi.toNat_lt
      simp only [wordSum, List.length_singleton]
      omega
  | hi :: lo :: rest => by
      have h1 := hi.toNat_lt
      have h2 := lo.toNat_lt
      have ih := wordSum_le rest
      simp only [wordSum, List.length_cons]
      omega

/-- A block around one of its words. -/
theorem wordSum_around {before : Bytes} (after : Bytes) (hi lo : UInt8)
    (heven : before.length % 2 = 0) :
    wordSum (before ++ [hi, lo] ++ after)
      = wordSum before + (hi.toNat * 256 + lo.toNat) + wordSum after := by
  rw [List.append_assoc, wordSum_append _ heven]
  simp only [List.cons_append, List.nil_append, wordSum]
  omega

/-- A block whose field holds the complement `65535 - f` of a sum `f` of the block with the
field zeroed passes the receiver's check. -/
theorem sumsToZero_of_complement {before after : Bytes} {hi lo : UInt8} {f : Nat}
    (heven : before.length % 2 = 0) (hle : f ≤ 65535)
    (hsum : f % 65535 = wordSum (before ++ [0, 0] ++ after) % 65535)
    (hfield : hi.toNat * 256 + lo.toNat = 65535 - f) :
    SumsToZero (before ++ [hi, lo] ++ after) := by
  rw [wordSum_around after 0 0 heven, UInt8.toNat_zero] at hsum
  rw [SumsToZero, wordSum_around after hi lo heven, hfield]
  omega

/-- One word is the positive zero and the other one the negative zero. -/
def OppositeZeros (w w' : Bytes) : Prop :=
  (w = [0, 0] ∧ w' = [255, 255]) ∨ (w = [255, 255] ∧ w' = [0, 0])

instance (w w' : Bytes) : Decidable (OppositeZeros w w') := inferInstanceAs (Decidable (_ ∨ _))

/-- **A change of one word changes the sum**, unless it turns one zero into the other. -/
theorem word_change {before after : Bytes} {hi lo hi' lo' : UInt8}
    (heven : before.length % 2 = 0)
    (hsum : wordSum (before ++ [hi, lo] ++ after) % 65535
      = wordSum (before ++ [hi', lo'] ++ after) % 65535) :
    [hi, lo] = [hi', lo'] ∨ OppositeZeros [hi, lo] [hi', lo'] := by
  rw [wordSum_around after hi lo heven, wordSum_around after hi' lo' heven] at hsum
  have hbytes : ∀ {a b : UInt8}, a.toNat = b.toNat → a = b := UInt8.toNat_inj.mp
  have h1 := hi.toNat_lt
  have h2 := lo.toNat_lt
  have h3 := hi'.toNat_lt
  have h4 := lo'.toNat_lt
  -- two words that are equal modulo `65535` are equal, or `0` and `65535`
  have hcases : hi.toNat * 256 + lo.toNat = hi'.toNat * 256 + lo'.toNat ∨
      (hi.toNat * 256 + lo.toNat = 0 ∧ hi'.toNat * 256 + lo'.toNat = 65535) ∨
      (hi.toNat * 256 + lo.toNat = 65535 ∧ hi'.toNat * 256 + lo'.toNat = 0) := by omega
  rcases hcases with heq | ⟨hz, ho⟩ | ⟨ho, hz⟩
  · left
    rw [hbytes (a := hi) (b := hi') (by omega), hbytes (a := lo) (b := lo') (by omega)]
  · right
    left
    rw [hbytes (a := hi) (b := 0) (by simp; omega), hbytes (a := lo) (b := 0) (by simp; omega),
      hbytes (a := hi') (b := 255) (by simp; omega), hbytes (a := lo') (b := 255) (by simp; omega)]
    exact ⟨rfl, rfl⟩
  · right
    right
    rw [hbytes (a := hi) (b := 255) (by simp; omega), hbytes (a := lo) (b := 255) (by simp; omega),
      hbytes (a := hi') (b := 0) (by simp; omega), hbytes (a := lo') (b := 0) (by simp; omega)]
    exact ⟨rfl, rfl⟩

/-! ## Addition with end-around carry -/

/-- A 16-bit word, high byte first. -/
def word (hi lo : UInt8) : BitVec 16 := hi.toBitVec ++ lo.toBitVec

/-- Add, and add the carry out of the top bit back in at the bottom. -/
def endAround (a b : BitVec 16) : BitVec 16 :=
  if a.toNat + b.toNat < 2 ^ 16 then a + b else a + b + 1

/-- The ones' complement sum of the 16-bit words. -/
def onesSum : Bytes → BitVec 16
  | hi :: lo :: rest => endAround (word hi lo) (onesSum rest)
  | [hi] => word hi 0
  | [] => 0

theorem toNat_word (hi lo : UInt8) : (word hi lo).toNat = hi.toNat * 256 + lo.toNat := by
  have hlo := lo.toNat_lt
  rw [word, BitVec.toNat_append, ← Nat.shiftLeft_add_eq_or_of_lt (by simpa using hlo),
    Nat.shiftLeft_eq]
  rfl

theorem toNat_endAround (a b : BitVec 16) :
    (endAround a b).toNat =
      if a.toNat + b.toNat < 2 ^ 16 then a.toNat + b.toNat else a.toNat + b.toNat - 65535 := by
  have ha := a.isLt
  have hb := b.isLt
  unfold endAround
  split
  · next h => rw [BitVec.toNat_add, Nat.mod_eq_of_lt h]
  · next h =>
    have hone : (1 : BitVec 16).toNat = 1 := rfl
    rw [BitVec.toNat_add, BitVec.toNat_add, hone]
    omega

theorem endAround_mod (a b : BitVec 16) :
    (endAround a b).toNat % 65535 = (a.toNat + b.toNat) % 65535 := by
  rw [toNat_endAround]
  split <;> omega

/-- A sum is zero only if nothing was added. -/
theorem endAround_eq_zero (a b : BitVec 16) :
    (endAround a b).toNat = 0 ↔ a.toNat = 0 ∧ b.toNat = 0 := by
  rw [toNat_endAround]
  split <;> omega

theorem onesSum_mod : ∀ p : Bytes, (onesSum p).toNat % 65535 = wordSum p % 65535
  | [] => rfl
  | [hi] => by rw [onesSum, wordSum, toNat_word, UInt8.toNat_zero, Nat.add_zero]
  | hi :: lo :: rest => by
      rw [onesSum, wordSum, endAround_mod, toNat_word, Nat.add_mod, onesSum_mod rest,
        ← Nat.add_mod]

theorem onesSum_eq_zero : ∀ p : Bytes, (onesSum p).toNat = 0 ↔ wordSum p = 0
  | [] => by simp [onesSum, wordSum]
  | [hi] => by rw [onesSum, wordSum, toNat_word, UInt8.toNat_zero, Nat.add_zero]
  | hi :: lo :: rest => by
      rw [onesSum, wordSum, endAround_eq_zero, toNat_word, onesSum_eq_zero rest]
      omega

/-- **The sum is determined** by what it is modulo `2 ^ 16 - 1` and by when it is zero. -/
theorem eq_onesSum {p : Bytes} {x : Nat} (hle : x ≤ 65535)
    (hmod : x % 65535 = wordSum p % 65535) (hzero : x = 0 ↔ wordSum p = 0) :
    x = (onesSum p).toNat := by
  have hlt := (onesSum p).isLt
  have hsum := onesSum_mod p
  have hsum0 := onesSum_eq_zero p
  omega

/-- The sum has all bits set if the words sum to zero and are not all zero. -/
theorem onesSum_eq_ones {p : Bytes} : onesSum p = 0xffff#16 ↔ SumsToZero p ∧ wordSum p ≠ 0 := by
  have hlt := (onesSum p).isLt
  have hmod := onesSum_mod p
  have hzero := onesSum_eq_zero p
  have hones : (0xffff#16).toNat = 65535 := rfl
  rw [← BitVec.toNat_inj, hones, SumsToZero]
  omega

/-- The word is one of the two zeros. -/
def IsZero (w : Bytes) : Prop := w = [0, 0] ∨ w = [255, 255]

instance (w : Bytes) : Decidable (IsZero w) := inferInstanceAs (Decidable (_ ∨ _))

theorem isZero_iff {hi lo : UInt8} :
    IsZero [hi, lo] ↔ (hi.toNat * 256 + lo.toNat) % 65535 = 0 := by
  have hhi := hi.toNat_lt
  have hlo := lo.toNat_lt
  have hpair : ∀ a b : UInt8, [hi, lo] = [a, b] ↔ hi.toNat = a.toNat ∧ lo.toNat = b.toNat := by
    intro a b
    rw [List.cons.injEq, List.cons.injEq, ← UInt8.toNat_inj, ← UInt8.toNat_inj]
    simp
  have hmod : (hi.toNat * 256 + lo.toNat) % 65535 = 0 ↔
      hi.toNat * 256 + lo.toNat = 0 ∨ hi.toNat * 256 + lo.toNat = 65535 := by omega
  rw [IsZero, hpair, hpair, hmod, UInt8.toNat_zero, show (255 : UInt8).toNat = 255 from rfl]
  omega

/-- A block of `n` words sums up to at most `n` times the largest word. -/
theorem wordSum_le_words : ∀ p : Bytes, wordSum p ≤ 65535 * ((p.length + 1) / 2)
  | [] => by simp [wordSum]
  | [hi] => by
      have := hi.toNat_lt
      simp only [wordSum, List.length_singleton]
      omega
  | hi :: lo :: rest => by
      have h1 := hi.toNat_lt
      have h2 := lo.toNat_lt
      have ih := wordSum_le_words rest
      simp only [wordSum, List.length_cons]
      omega

/-- The words of a first part are among the words of the whole. -/
theorem wordSum_le_append : ∀ p q : Bytes, wordSum p ≤ wordSum (p ++ q)
  | [], q => by simp [wordSum]
  | [hi], [] => by simp
  | [hi], lo :: q => by
      simp only [List.cons_append, List.nil_append, wordSum]
      omega
  | hi :: lo :: rest, q => by
      have ih := wordSum_le_append rest q
      simp only [List.cons_append, wordSum]
      omega

end NetworkProjects.Lib
