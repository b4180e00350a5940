import Mathlib.Data.List.Flatten
import Mathlib.Data.List.TakeWhile
import NetworkProjects.Lib.Bytes

/-!
# Records in a stream

A text is sent as records of `k` bytes, the last one filled up with NULs, and the stream of the
records arrives in pieces of at most `k` bytes. A stream keeps no boundaries: the pieces are the
records if they are all of that length (`eq_of_full`), and they are all of that length if there are
no more of them than records (`full_of_length`).
-/

namespace NetworkProjects.Lib

/-! ## Records -/

/-- A record of `k` bytes that holds `s`. -/
def padded (k : Nat) (s : Bytes) : Bytes := s ++ List.replicate (k - s.length) 0

/-- The first `n` records of a text. -/
def records (k : Nat) : Nat → Bytes → List Bytes
  | 0, _ => []
  | n + 1, s => padded k (s.take k) :: records k n (s.drop k)

/-- What `"%s"` prints of a record. -/
def untilNul (s : Bytes) : Bytes := s.takeWhile (· ≠ 0)

section Records

variable {k n : Nat} {s : Bytes}

theorem length_padded (h : s.length ≤ k) : (padded k s).length = k := by
  rw [padded, List.length_append, List.length_replicate]
  omega

theorem length_records (k n : Nat) (s : Bytes) : (records k n s).length = n := by
  induction n generalizing s with
  | zero => rfl
  | succ n ih => rw [records, List.length_cons, ih]

theorem length_of_mem_records : ∀ r ∈ records k n s, r.length = k := by
  induction n generalizing s with
  | zero => simp [records]
  | succ n ih =>
      intro r hr
      rw [records] at hr
      rcases List.mem_cons.mp hr with rfl | hr
      · exact length_padded (List.length_take_le k s)
      · exact ih r hr

theorem untilNul_eq_self (h : 0 ∉ s) : untilNul s = s := by
  rw [untilNul, List.takeWhile_eq_self_iff]
  intro c hc
  rw [decide_eq_true_eq]
  rintro rfl
  exact h hc

/-- What is printed of a string with more behind it. -/
theorem untilNul_append (s t : Bytes) :
    untilNul (s ++ t) = if 0 ∈ s then untilNul s else s ++ untilNul t := by
  by_cases h : 0 ∈ s
  · obtain ⟨front, back, rfl, hfront⟩ := List.eq_append_cons_of_mem h
    have hstop : ∀ more, untilNul (front ++ 0 :: more) = front := by
      intro more
      have hself := untilNul_eq_self hfront
      rw [untilNul, List.takeWhile_eq_self_iff] at hself
      rw [untilNul, List.takeWhile_append_of_pos hself, List.takeWhile_cons_of_neg (by simp),
        List.append_nil]
    rw [if_pos h, hstop back, List.append_assoc, List.cons_append, hstop]
  · have hself := untilNul_eq_self h
    rw [untilNul, List.takeWhile_eq_self_iff] at hself
    rw [if_neg h, untilNul, List.takeWhile_append_of_pos hself]
    rfl

theorem untilNul_prefix {t : Bytes} (h : s <+: t) : untilNul s <+: untilNul t := by
  obtain ⟨more, rfl⟩ := h
  rw [untilNul_append]
  split
  · exact List.prefix_refl _
  · next hnul =>
    rw [untilNul_eq_self hnul]
    exact List.prefix_append _ _

/-- The bytes that a record is filled up with are not printed. -/
theorem untilNul_padded (k : Nat) (s : Bytes) : untilNul (padded k s) = untilNul s := by
  have hzeros : untilNul (List.replicate (k - s.length) 0) = [] := by
    cases k - s.length with
    | zero => rfl
    | succ m => rfl
  rw [padded, untilNul_append, hzeros, List.append_nil]
  split
  · rfl
  · next hnul => exact (untilNul_eq_self hnul).symm

theorem length_flatMap_untilNul_le (ps : List Bytes) :
    (ps.flatMap untilNul).length ≤ ps.flatten.length := by
  induction ps with
  | nil => exact Nat.le_refl _
  | cons p ps ih =>
      have hp := (List.takeWhile_prefix (fun c : UInt8 => decide (c ≠ 0)) (l := p)).length_le
      rw [List.flatMap_cons, List.flatten_cons, List.length_append, List.length_append]
      exact Nat.add_le_add hp ih

/-- **The records of a text are printed as the text**, if there are enough of them to hold it and no
byte of it is a NUL. -/
theorem flatMap_untilNul_records (hnul : 0 ∉ s) (hlen : s.length ≤ n * k) :
    (records k n s).flatMap untilNul = s := by
  induction n generalizing s with
  | zero =>
      rw [Nat.zero_mul, Nat.le_zero] at hlen
      rw [List.length_eq_zero_iff.mp hlen]
      rfl
  | succ n ih =>
      rw [Nat.add_mul, Nat.one_mul] at hlen
      have hdrop : (s.drop k).length ≤ n * k := by
        rw [List.length_drop]
        omega
      have hrest := ih (fun hmem => hnul (List.mem_of_mem_drop hmem)) hdrop
      rw [records, List.flatMap_cons, hrest, untilNul_padded,
        untilNul_eq_self fun hmem => hnul (List.mem_of_mem_take hmem), List.take_append_drop]

end Records

/-! ## Pieces -/

section Pieces

variable {α : Type} {k : Nat} {ps qs : List (List α)}

theorem length_flatten_le (h : ∀ p ∈ ps, p.length ≤ k) : ps.flatten.length ≤ ps.length * k := by
  induction ps with
  | nil => exact Nat.zero_le _
  | cons p ps ih =>
      have hp := h p List.mem_cons_self
      have hrest := ih fun q hq => h q (List.mem_cons_of_mem _ hq)
      rw [List.flatten_cons, List.length_append, List.length_cons, Nat.add_mul]
      omega

theorem length_flatten_of_full (h : ∀ p ∈ ps, p.length = k) :
    ps.flatten.length = ps.length * k := by
  induction ps with
  | nil => simp
  | cons p ps ih =>
      rw [List.flatten_cons, List.length_append, h p List.mem_cons_self,
        ih fun q hq => h q (List.mem_cons_of_mem _ hq), List.length_cons, Nat.add_mul]
      omega

/-- As few pieces as there can be are all full. -/
theorem full_of_length (h : ∀ p ∈ ps, p.length ≤ k) (hlen : ps.length * k ≤ ps.flatten.length) :
    ∀ p ∈ ps, p.length = k := by
  induction ps with
  | nil => simp
  | cons p ps ih =>
      have hp := h p List.mem_cons_self
      have hle := fun q hq => h q (List.mem_cons_of_mem p hq)
      have hrest := length_flatten_le hle
      rw [List.flatten_cons, List.length_append, List.length_cons, Nat.add_mul] at hlen
      intro q hq
      rcases List.mem_cons.mp hq with rfl | hq
      · omega
      · exact ih hle (by omega) q hq

/-- Full pieces of one stream are the same. -/
theorem eq_of_full (hk : 0 < k) (hps : ∀ p ∈ ps, p.length = k) (hqs : ∀ q ∈ qs, q.length = k)
    (h : ps.flatten = qs.flatten) : ps = qs := by
  have hcount : ps.length = qs.length := by
    have hlen := congrArg List.length h
    rw [length_flatten_of_full hps, length_flatten_of_full hqs] at hlen
    exact Nat.eq_of_mul_eq_mul_right hk hlen
  refine List.eq_iff_flatten_eq.mpr ⟨h, ?_⟩
  rw [List.map_eq_replicate_iff.mpr hps, List.map_eq_replicate_iff.mpr hqs, hcount]

end Pieces

end NetworkProjects.Lib
