import Mathlib.Data.List.Induction
import Mathlib.Data.List.TakeWhile
import Mathlib.Data.Nat.Digits.Lemmas
import NetworkProjects.Lib.Bytes

/-!
# Decimal numbers

`decimal n` is what `sprintf` makes of a number that is not negative with `"%d"`, and `atoi` what
the C library reads. A number is read back (`atoi_decimal`), and what is read when only some of
its digits are there is no more than the number (`atoi_prefix_le`).
-/

namespace NetworkProjects.Lib

/-! ## Printing and reading -/

def decimalDigit (d : Nat) : UInt8 := UInt8.ofNat (48 + d)

def isDecimal (c : UInt8) : Bool := 48 ≤ c ∧ c ≤ 57

/-- The digits of a number, the highest first. -/
def decimal (n : Nat) : Bytes :=
  if n = 0 then [decimalDigit 0] else (Nat.digits 10 n).reverse.map decimalDigit

/-- The number that a string of digits stands for. -/
def decimalValue (s : Bytes) : Nat := s.foldl (fun n c => 10 * n + (c.toNat - 48)) 0

/-- A `long` as an `int`. -/
def intOfLong (n : Int) : Int := n.bmod (2 ^ 32)

/-- Whether there is a minus sign, and what is behind the sign. -/
def splitSign : Bytes → Bool × Bytes
  | 45 :: rest => (true, rest)
  | 43 :: rest => (false, rest)
  | s => (false, s)

/-- `atoi`: the number behind leading spaces and a sign, read as a `long`. -/
def atoi (s : Bytes) : Int :=
  let (neg, s) := splitSign (s.dropWhile fun c => c = 32 ∨ (9 ≤ c ∧ c ≤ 13))
  let n : Int := decimalValue (s.takeWhile isDecimal)
  intOfLong (max (-2 ^ 63) (min (if neg then -n else n) (2 ^ 63 - 1)))

/-! ## Digits -/

section Digits

variable {s t : Bytes} {n : Nat}

theorem toNat_decimalDigit {d : Nat} (h : d < 10) : (decimalDigit d).toNat = 48 + d := by
  rw [decimalDigit, UInt8.toNat_ofNat']
  exact Nat.mod_eq_of_lt (by omega)

theorem isDecimal_iff {c : UInt8} : isDecimal c = true ↔ 48 ≤ c.toNat ∧ c.toNat ≤ 57 := by
  simp [isDecimal, UInt8.le_iff_toNat_le]

/-- A digit is no sign. -/
theorem splitSign_digit {c : UInt8} (h : isDecimal c = true) :
    splitSign (c :: s) = (false, c :: s) := by
  unfold splitSign
  split
  · next heq =>
    cases heq
    exact absurd h (by decide)
  · next heq =>
    cases heq
    exact absurd h (by decide)
  · rfl

theorem isDecimal_decimal (n : Nat) : ∀ c ∈ decimal n, isDecimal c = true := by
  intro c hc
  have hdigit : ∃ d < 10, c = decimalDigit d := by
    rw [decimal] at hc
    split at hc
    · exact ⟨0, by decide, List.mem_singleton.mp hc⟩
    · obtain ⟨d, hd, rfl⟩ := List.mem_map.mp hc
      exact ⟨d, Nat.digits_lt_base (by decide) (List.mem_reverse.mp hd), rfl⟩
  obtain ⟨d, hd, rfl⟩ := hdigit
  rw [isDecimal_iff, toNat_decimalDigit hd]
  omega

/-- Only zero is written with a zero in front. -/
theorem head_decimal {n : Nat} (hn : n ≠ 0) : ∃ c rest, decimal n = c :: rest ∧ c ≠ 48 := by
  have hne : Nat.digits 10 n ≠ [] := Nat.digits_ne_nil_iff_ne_zero.mpr hn
  have hlast := Nat.getLast_digit_ne_zero 10 hn
  have hlt := Nat.digits_lt_base (by decide) (List.getLast_mem hne)
  refine ⟨decimalDigit ((Nat.digits 10 n).getLast hne),
    (Nat.digits 10 n).dropLast.reverse.map decimalDigit, ?_, ?_⟩
  · rw [decimal, if_neg hn]
    conv => lhs; rw [← List.dropLast_append_getLast hne]
    rw [List.reverse_append]
    rfl
  · intro h
    have hvalue := toNat_decimalDigit hlt
    rw [h] at hvalue
    simp only [UInt8.reduceToNat] at hvalue
    omega

theorem decimal_ne_nil (n : Nat) : decimal n ≠ [] := by
  by_cases hn : n = 0
  · subst hn
    decide
  · obtain ⟨c, rest, hdecimal, -⟩ := head_decimal hn
    rw [hdecimal]
    exact List.cons_ne_nil c rest

theorem length_decimal_le {k : Nat} (hk : 0 < k) (h : n < 10 ^ k) : (decimal n).length ≤ k := by
  rw [decimal]
  split
  · exact hk
  · rw [List.length_map, List.length_reverse]
    exact (Nat.digits_length_le_iff (by decide) n).mpr h

theorem not_mem_decimal (n : Nat) : 0 ∉ decimal n :=
  fun h => absurd (isDecimal_decimal n 0 h) (by decide)

/-- A number has its own value. -/
theorem decimalValue_decimal (n : Nat) : decimalValue (decimal n) = n := by
  rw [decimal]
  split
  · next hn =>
    rw [hn]
    rfl
  · have hdigits : ∀ ds : List Nat, (∀ d ∈ ds, d < 10) →
        decimalValue (ds.reverse.map decimalDigit) = Nat.ofDigits 10 ds := by
      intro ds hds
      induction ds with
      | nil => rfl
      | cons d ds ih =>
          have hd := toNat_decimalDigit (hds d List.mem_cons_self)
          have hrest := ih fun x hx => hds x (List.mem_cons_of_mem _ hx)
          rw [decimalValue] at hrest ⊢
          rw [List.reverse_cons, List.map_append, List.foldl_append, hrest, Nat.ofDigits_cons]
          simp only [List.map_cons, List.map_nil, List.foldl_cons, List.foldl_nil, hd]
          omega
    rw [hdigits _ fun d hd => Nat.digits_lt_base (by decide) hd, Nat.ofDigits_digits]

/-- More digits make the value no smaller. -/
theorem decimalValue_prefix_le (h : s <+: t) : decimalValue s ≤ decimalValue t := by
  obtain ⟨more, rfl⟩ := h
  induction more using List.reverseRecOn with
  | nil => rw [List.append_nil]
  | append_singleton more c ih =>
      refine ih.trans ?_
      rw [← List.append_assoc, decimalValue, decimalValue, List.foldl_concat]
      omega

/-- What is read from digits is their value, if it is an `int`. -/
theorem atoi_of_digits (hs : ∀ c ∈ s, isDecimal c = true) (hlt : decimalValue s < 2 ^ 31) :
    atoi s = decimalValue s := by
  have htake : s.takeWhile isDecimal = s := List.takeWhile_eq_self_iff.mpr hs
  have hint : intOfLong (max (-2 ^ 63) (min (decimalValue s : Int) (2 ^ 63 - 1)))
      = decimalValue s := by
    rw [intOfLong, Int.bmod]
    omega
  cases s with
  | nil => rfl
  | cons c s =>
      have hc := isDecimal_iff.mp (hs c List.mem_cons_self)
      have hspace : ¬ (c = 32 ∨ (9 ≤ c ∧ c ≤ 13)) := by
        rintro (rfl | ⟨-, hle⟩)
        · simp at hc
        · have hle := UInt8.le_iff_toNat_le.mp hle
          simp only [UInt8.reduceToNat] at hle
          omega
      have hfirst : (c :: s).dropWhile (fun c => decide (c = 32 ∨ (9 ≤ c ∧ c ≤ 13))) = c :: s :=
        List.dropWhile_cons_of_neg (by simpa using hspace)
      rw [atoi, hfirst, splitSign_digit (hs c List.mem_cons_self)]
      simp only [htake, Bool.false_eq_true, if_false]
      exact hint

/-- **A number is read back** from its decimal digits, as long as it fits in an `int`. -/
theorem atoi_decimal {n : Nat} (h : n < 2 ^ 31) : atoi (decimal n) = n := by
  rw [atoi_of_digits (isDecimal_decimal n) (by rwa [decimalValue_decimal]), decimalValue_decimal]

/-- The beginning of a number is read as a number that is no larger. -/
theorem atoi_prefix_le {n : Nat} (h : n < 2 ^ 31) (hs : s <+: decimal n) :
    0 ≤ atoi s ∧ atoi s ≤ n := by
  have hle := decimalValue_prefix_le hs
  rw [decimalValue_decimal] at hle
  have hatoi := atoi_of_digits (fun c hc => isDecimal_decimal n c (hs.mem hc))
    (Nat.lt_of_le_of_lt hle h)
  rw [hatoi]
  omega

end Digits

end NetworkProjects.Lib
