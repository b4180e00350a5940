import Mathlib.Data.Nat.Bitwise

/-!
# Prefixes of bit strings

Numbers below `2 ^ w` are strings of `w` bits, the highest first. Masking one with
`prefixMask w len` keeps its first `len` bits and clears the others (`and_prefixMask`), so a masked
number is `net` if it starts like `net` and `net` has no bits behind the mask
(`and_prefixMask_eq_iff`).
-/

namespace NetworkProjects.Lib

section Prefixes

variable {w len m x y : Nat}

/-- The first `len` of `w` bits are set. -/
def prefixMask (w len : Nat) : Nat := 2 ^ w - 2 ^ (w - len)

/-- The first `len` of `w` bits are the same. -/
def SamePrefix (w len x y : Nat) : Prop := x / 2 ^ (w - len) = y / 2 ^ (w - len)

instance (w len x y : Nat) : Decidable (SamePrefix w len x y) :=
  inferInstanceAs (Decidable (_ = _))

/-- Numbers that start with the same bits start with the same fewer bits. -/
theorem SamePrefix.shorter (h : SamePrefix w len x y) (hm : m ≤ len) (hlen : len ≤ w) :
    SamePrefix w m x y := by
  have hsplit : 2 ^ (w - m) = 2 ^ (w - len) * 2 ^ (len - m) := by
    rw [← Nat.pow_add]
    congr 1
    omega
  rw [SamePrefix, hsplit, ← Nat.div_div_eq_div_mul, ← Nat.div_div_eq_div_mul, h]

/-- One more bit of the mask. -/
theorem prefixMask_succ (h : len < w) :
    prefixMask w (len + 1) = prefixMask w len + 2 ^ (w - (len + 1)) := by
  have hhalf : 2 ^ (w - len) = 2 * 2 ^ (w - (len + 1)) := by
    rw [← Nat.pow_succ']
    congr 1
    omega
  have hle : 2 ^ (w - len) ≤ 2 ^ w := Nat.pow_le_pow_right (by decide) (Nat.sub_le w len)
  rw [prefixMask, prefixMask]
  omega

/-- **What is left behind the mask** is the number rounded down to a multiple of the power of two
that the prefix leaves open. -/
theorem and_prefixMask (hx : x < 2 ^ w) (hlen : len ≤ w) :
    x &&& prefixMask w len = x / 2 ^ (w - len) * 2 ^ (w - len) := by
  have hpow : 2 ^ w = 2 ^ len * 2 ^ (w - len) := by
    rw [← Nat.pow_add]
    congr 1
    omega
  have hmask : prefixMask w len = (2 ^ len - 1) <<< (w - len) := by
    rw [Nat.shiftLeft_eq, Nat.sub_mul, Nat.one_mul, ← hpow]
    rfl
  have hhigh : x >>> (w - len) < 2 ^ len := by
    rw [Nat.shiftRight_eq_div_pow]
    exact Nat.div_lt_of_lt_mul (by rwa [Nat.mul_comm, ← hpow])
  have hand : x &&& (2 ^ len - 1) <<< (w - len)
      = (x >>> (w - len) &&& (2 ^ len - 1)) <<< (w - len) := by
    apply Nat.eq_of_testBit_eq
    intro i
    rw [Nat.testBit_and, Nat.testBit_shiftLeft, Nat.testBit_shiftLeft, Nat.testBit_and,
      Nat.testBit_shiftRight]
    by_cases hi : w - len ≤ i
    · have hadd : w - len + (i - (w - len)) = i := by omega
      simp [hi, hadd]
    · simp [hi]
  rw [hmask, hand, Nat.and_two_pow_sub_one_eq_mod, Nat.mod_eq_of_lt hhigh, Nat.shiftLeft_eq,
    Nat.shiftRight_eq_div_pow]

theorem and_prefixMask_eq_iff (hx : x < 2 ^ w) (hlen : len ≤ w) :
    x &&& prefixMask w len = y ↔ 2 ^ (w - len) ∣ y ∧ SamePrefix w len x y := by
  have hpos : 0 < 2 ^ (w - len) := Nat.two_pow_pos _
  rw [and_prefixMask hx hlen]
  constructor
  · rintro rfl
    exact ⟨Nat.dvd_mul_left _ _, (Nat.mul_div_cancel _ hpos).symm⟩
  · rintro ⟨hdvd, hsame⟩
    rw [SamePrefix] at hsame
    rw [hsame, Nat.div_mul_cancel hdvd]

end Prefixes

end NetworkProjects.Lib
