import Mathlib.Data.List.Basic
import Mathlib.Data.List.Induction

/-!
# A text taken in block by block

`absorb` takes one character into a buffer and, when `n` of them are there, works the block into a
state. However a text is handed over, what has been worked in are its whole blocks, in order, and
what is in the buffer is the rest (`foldl_absorb`).
-/

namespace NetworkProjects.Lib

section Blocks

variable {σ α : Type}

/-- The blocks of `n` characters that the text fills. -/
def wholeBlocks (n : Nat) (text : List α) : List (List α) :=
  (List.range (text.length / n)).map fun i => (text.drop (n * i)).take n

/-- What is left behind the last whole block. -/
def blockRest (n : Nat) (text : List α) : List α := text.drop (n * (text.length / n))

/-- Take in one character. -/
def absorb (n : Nat) (compress : σ → List α → σ) : σ × List α → α → σ × List α
  | (h, buf), a =>
      if buf.length + 1 = n then (compress h (buf ++ [a]), []) else (h, buf ++ [a])

variable {n : Nat} {compress : σ → List α → σ}

theorem length_blockRest (n : Nat) (text : List α) :
    (blockRest n text).length = text.length % n := by
  rw [blockRest, List.length_drop, Nat.mod_eq_sub]

theorem div_of_full {m : Nat} (hn : 0 < n) (h : m % n + 1 = n) : (m + 1) / n = m / n + 1 := by
  have hdiv := Nat.div_add_mod m n
  rw [← hdiv, Nat.add_assoc, h, Nat.mul_add_div hn, Nat.div_self hn, hdiv]

theorem div_of_not_full {m : Nat} (hn : 0 < n) (h : m % n + 1 ≠ n) : (m + 1) / n = m / n := by
  have hdiv := Nat.div_add_mod m n
  have hmod := Nat.mod_lt m hn
  apply Nat.div_eq_of_lt_le
  · rw [Nat.mul_comm]
    omega
  · rw [Nat.add_mul, Nat.one_mul, Nat.mul_comm]
    omega

/-- A character behind them leaves the whole blocks as they are. -/
theorem wholeBlocks_kept (text : List α) (a : α) :
    (List.range (text.length / n)).map (fun i => ((text ++ [a]).drop (n * i)).take n)
      = wholeBlocks n text := by
  apply List.map_congr_left
  intro i hi
  have hdiv := Nat.div_add_mod text.length n
  have hle : n * (i + 1) ≤ n * (text.length / n) := Nat.mul_le_mul_left n (List.mem_range.mp hi)
  rw [Nat.mul_add] at hle
  rw [List.drop_append_of_le_length (by omega), List.take_append_of_le_length]
  rw [List.length_drop]
  omega

theorem wholeBlocks_snoc (hn : 0 < n) (text : List α) (a : α) :
    wholeBlocks n (text ++ [a]) = if text.length % n + 1 = n
      then wholeBlocks n text ++ [blockRest n text ++ [a]] else wholeBlocks n text := by
  have hdiv := Nat.div_add_mod text.length n
  rw [wholeBlocks, List.length_append, List.length_singleton]
  split
  · next hfull =>
    rw [div_of_full hn hfull, List.range_succ, List.map_append, wholeBlocks_kept,
      List.map_singleton, List.drop_append_of_le_length (by omega), List.take_of_length_le]
    · rfl
    · rw [List.length_append, List.length_drop, List.length_singleton]
      omega
  · next hmore => rw [div_of_not_full hn hmore, wholeBlocks_kept]

theorem blockRest_snoc (hn : 0 < n) (text : List α) (a : α) :
    blockRest n (text ++ [a]) = if text.length % n + 1 = n then []
      else blockRest n text ++ [a] := by
  have hdiv := Nat.div_add_mod text.length n
  rw [blockRest, List.length_append, List.length_singleton]
  split
  · next hfull =>
    rw [div_of_full hn hfull, Nat.mul_add]
    apply List.drop_of_length_le
    rw [List.length_append, List.length_singleton]
    omega
  · next hmore =>
    rw [div_of_not_full hn hmore, List.drop_append_of_le_length (by omega)]
    rfl

/-- **What has been taken in** are the whole blocks of the text, one after the other, and the buffer
holds the rest of it. -/
theorem foldl_absorb (hn : 0 < n) (h : σ) (text : List α) :
    text.foldl (absorb n compress) (h, [])
      = ((wholeBlocks n text).foldl compress h, blockRest n text) := by
  induction text using List.reverseRecOn with
  | nil => simp [wholeBlocks, blockRest]
  | append_singleton text a ih =>
      rw [List.foldl_append, ih, wholeBlocks_snoc hn, blockRest_snoc hn]
      simp only [List.foldl_cons, List.foldl_nil, absorb, length_blockRest]
      split
      · rw [List.foldl_append]
        rfl
      · rfl

/-- Characters that do not fill the block stay in the buffer. -/
theorem foldl_absorb_short (h : σ) (buf : List α) {more : List α}
    (hshort : buf.length + more.length < n) :
    more.foldl (absorb n compress) (h, buf) = (h, buf ++ more) := by
  induction more generalizing buf with
  | nil => simp
  | cons a more ih =>
      rw [List.length_cons] at hshort
      rw [List.foldl_cons, absorb, if_neg (by omega), ih]
      · rw [List.append_assoc]
        rfl
      · rw [List.length_append, List.length_singleton]
        omega

/-- Characters that fill the block are worked in. -/
theorem foldl_absorb_fill (h : σ) (buf : List α) {more : List α} (hroom : buf.length < n)
    (hfull : buf.length + more.length = n) :
    more.foldl (absorb n compress) (h, buf) = (compress h (buf ++ more), []) := by
  induction more using List.reverseRecOn with
  | nil =>
      rw [List.length_nil] at hfull
      omega
  | append_singleton more a _ =>
      rw [List.length_append, List.length_singleton] at hfull
      rw [List.foldl_append, foldl_absorb_short h buf (by omega), List.foldl_cons, List.foldl_nil,
        absorb, if_pos (by rw [List.length_append]; omega), List.append_assoc]

end Blocks

end NetworkProjects.Lib
