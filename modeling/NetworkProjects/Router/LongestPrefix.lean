import NetworkProjects.Router.Routes
import NetworkProjects.Lib.LastMax
import Mathlib.Data.Nat.Bitwise

/-!
# Longest-prefix match

`LongestPrefixMatch` compares masks as numbers, in the order in which a little-endian host reads the
bytes of the network. That a longer prefix is a larger number takes no arithmetic on bytes: of two
masks with leading ones the longer one has all the ones of the other, and more ones in whatever
order make a larger number (`le_of_ones`).
-/

namespace NetworkProjects.Router

open NetworkProjects.Lib

/-! ## Masks -/

/-- Bit `i` of an address on the wire, counted from the first bit that is sent. -/
def networkBit (addr : InAddr) (i : Nat) : Bool := addr.toNat.testBit (8 * (i / 8) + (7 - i % 8))

/-- The ones of the mask come first. -/
def LeadingOnes (mask : InAddr) : Prop :=
  ∀ j < 32, ∀ i < j, networkBit mask j = true → networkBit mask i = true

instance (mask : InAddr) : Decidable (LeadingOnes mask) :=
  inferInstanceAs (Decidable (∀ j < 32, ∀ i < j, _ → _))

/-- How many ones there are. -/
def prefixLength (mask : InAddr) : Nat := (List.range 32).countP (networkBit mask)

/-- `/9` on the wire is `255.128.0.0`. -/
example : prefixLength (dotted 255 128 0 0) = 9 := by decide

/-- Of a predicate that holds first and then no more, the number of places where it holds says
where. -/
theorem iff_lt_countP {b : Nat → Bool} {n : Nat}
    (h : ∀ j < n, ∀ i < j, b j = true → b i = true) :
    ∀ i < n, b i = true ↔ i < (List.range n).countP b := by
  induction n with
  | zero => simp
  | succ n ih =>
      have hih := ih fun j hj => h j (Nat.lt_succ_of_lt hj)
      have hle : (List.range n).countP b ≤ n := by
        simpa using List.countP_le_length (p := b) (l := List.range n)
      rw [List.range_succ, List.countP_append, List.countP_singleton]
      intro i hi
      by_cases hn : b n = true
      · -- all places so far
        have hall : (List.range n).countP b = n := by
          rw [List.countP_eq_length.mpr, List.length_range]
          intro j hj
          exact h n (Nat.lt_succ_self n) j (List.mem_range.mp hj) hn
        rw [hall, if_pos hn]
        refine ⟨fun _ => hi, fun _ => ?_⟩
        rcases Nat.lt_succ_iff_lt_or_eq.mp hi with hlt | rfl
        · exact h n (Nat.lt_succ_self n) i hlt hn
        · exact hn
      · -- place `n` does not count, and neither does any after it
        rw [if_neg hn, Nat.add_zero]
        rcases Nat.lt_succ_iff_lt_or_eq.mp hi with hlt | rfl
        · exact hih i hlt
        · constructor
          · intro hi'
            exact absurd hi' hn
          · intro hlt
            omega

theorem networkBit_iff {mask : InAddr} (h : LeadingOnes mask) {i : Nat} (hi : i < 32) :
    networkBit mask i = true ↔ i < prefixLength mask :=
  iff_lt_countP h i hi

/-- Every bit of the number is a bit on the wire. -/
theorem testBit_eq_networkBit (mask : InAddr) (j : Nat) :
    mask.toNat.testBit j = networkBit mask (8 * (j / 8) + (7 - j % 8)) := by
  unfold networkBit
  congr 1
  omega

/-- A mask with more ones is a larger number. -/
theorem le_of_ones {mask mask' : InAddr}
    (h : ∀ i < 32, networkBit mask i = true → networkBit mask' i = true) : mask ≤ mask' := by
  have hand : mask.toNat &&& mask'.toNat = mask.toNat := by
    apply Nat.eq_of_testBit_eq
    intro j
    rw [Nat.testBit_and]
    by_cases hj : j < 32
    · have hbit := h (8 * (j / 8) + (7 - j % 8)) (by omega)
      rw [← testBit_eq_networkBit, ← testBit_eq_networkBit] at hbit
      cases hm : mask.toNat.testBit j with
      | false => rfl
      | true => rw [hbit hm, Bool.and_self]
    · have hsmall : mask.toNat < 2 ^ j :=
        Nat.lt_of_lt_of_le mask.toNat_lt (Nat.pow_le_pow_right (by decide) (by omega))
      rw [Nat.testBit_lt_two_pow hsmall, Bool.false_and]
  rw [UInt32.le_iff_toNat_le, ← hand]
  exact Nat.and_le_right

/-- **Masks are compared as their prefix lengths are**, though they are compared as numbers of a
little-endian host. -/
theorem mask_le_iff {mask mask' : InAddr} (h : LeadingOnes mask) (h' : LeadingOnes mask') :
    mask ≤ mask' ↔ prefixLength mask ≤ prefixLength mask' := by
  have hmono : ∀ {m m' : InAddr}, LeadingOnes m → LeadingOnes m' →
      prefixLength m ≤ prefixLength m' → m ≤ m' := by
    intro m m' hm hm' hle
    apply le_of_ones
    intro i hi hbit
    rw [networkBit_iff hm hi] at hbit
    rw [networkBit_iff hm' hi]
    omega
  refine ⟨fun hle => ?_, hmono h h'⟩
  by_contra hlt
  have hge := hmono h' h (by omega)
  rw [UInt32.le_antisymm hle hge] at hlt
  exact hlt (Nat.le_refl _)

/-! ## The lookup -/

/-- The loop keeps the last matching entry of the largest mask; the bound it carries along is the
mask of that entry. -/
theorem longestPrefixMatchLoop_eq {addr : InAddr} :
    ∀ {rts : List SrRt} {lpmLen : InAddr} {lpm : Option SrRt},
      (∀ rt ∈ lpm, rt.mask = lpmLen) → (lpm = none → lpmLen = 0) →
      longestPrefixMatchLoop addr rts lpmLen lpm
        = lastMax (fun rt : SrRt => rt.Matches addr) (fun rt => rt.mask.toNat) rts lpm
  | [], _, _, _, _ => rfl
  | cur :: next, lpmLen, lpm, hlpm, hnone => by
      have hcond : (cur.dest &&& cur.mask = addr &&& cur.mask ∧ lpmLen ≤ cur.mask) ↔
          (cur.Matches addr ∧ ∀ rt ∈ lpm, rt.mask.toNat ≤ cur.mask.toNat) := by
        refine and_congr Iff.rfl ?_
        cases lpm with
        | none => simp [hnone rfl]
        | some rt => simp [hlpm rt rfl, UInt32.le_iff_toNat_le]
      rw [longestPrefixMatchLoop, lastMax]
      by_cases hcur : cur.dest &&& cur.mask = addr &&& cur.mask ∧ lpmLen ≤ cur.mask
      · rw [if_pos hcur, if_pos (hcond.mp hcur)]
        exact longestPrefixMatchLoop_eq (by simp) (by simp)
      · rw [if_neg hcur, if_neg fun h => hcur (hcond.mpr h)]
        exact longestPrefixMatchLoop_eq hlpm hnone

/-- **Longest-prefix match is correct.** It returns no entry exactly if none matches, and else the
last one of the matching entries with the longest prefix. -/
theorem longestPrefixMatch_correct {sr : SrConfig}
    (hmasks : ∀ rt ∈ sr.routingTable, LeadingOnes rt.mask) (addr : InAddr) :
    (longestPrefixMatch sr addr = none ↔ ∀ rt ∈ sr.routingTable, ¬ rt.Matches addr) ∧
    ∀ rt, longestPrefixMatch sr addr = some rt →
      IsLastMax (fun rt : SrRt => rt.Matches addr) (fun rt => prefixLength rt.mask)
        sr.routingTable rt := by
  have hscan : longestPrefixMatch sr addr
      = lastMax (fun rt : SrRt => rt.Matches addr) (fun rt => rt.mask.toNat) sr.routingTable none :=
    longestPrefixMatchLoop_eq (by simp) (by simp)
  rw [hscan]
  refine ⟨lastMax_eq_none, ?_⟩
  intro rt hrt
  apply (lastMax_eq_some hrt).of_key
  intro rt₁ h₁ rt₂ h₂
  rw [← UInt32.le_iff_toNat_le]
  exact mask_le_iff (hmasks rt₁ h₁) (hmasks rt₂ h₂)

/-- A default route between routes to parts of the same network, one of them twice. -/
def nestedConfig : SrConfig where
  ifList := rtableConfig.ifList
  routingTable :=
    [⟨dotted 10 128 0 0, dotted 10 0 1 100, dotted 255 128 0 0, "eth3"⟩,
      ⟨dotted 10 0 0 0, dotted 10 0 1 100, dotted 255 0 0 0, "eth3"⟩,
      ⟨0, dotted 172 64 3 10, 0, "eth2"⟩,
      ⟨dotted 10 0 0 0, dotted 192 168 2 2, dotted 255 0 0 0, "eth1"⟩]

theorem longestPrefixMatch_correct_nestedConfig :
    ∃ rt, longestPrefixMatch nestedConfig (dotted 10 1 2 3) = some rt ∧ rt.interface = "eth1" ∧
      IsLastMax (fun rt : SrRt => rt.Matches (dotted 10 1 2 3)) (fun rt => prefixLength rt.mask)
        nestedConfig.routingTable rt := by
  have hmasks : ∀ rt ∈ nestedConfig.routingTable, LeadingOnes rt.mask := by decide +kernel
  have hsome : (longestPrefixMatch nestedConfig (dotted 10 1 2 3)).map SrRt.interface
      = some "eth1" := by decide
  obtain ⟨rt, hrt, hinterface⟩ := Option.map_eq_some_iff.mp hsome
  exact ⟨rt, hrt, hinterface, (longestPrefixMatch_correct hmasks _).2 rt hrt⟩

end NetworkProjects.Router
