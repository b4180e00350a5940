import Mathlib.Algebra.GroupWithZero.Nat
import Mathlib.Data.List.Dedup
import Mathlib.Data.List.Sort

/-!
# Counting dictionaries

A dictionary that counts, for the keys that have been entered, how often they turn up. What is
entered into an empty one and counted is how often each key occurs (`counts_bumpAll_enterAll`); in
one that is not empty, the counts that are there stay in the sum (`total_bumpAll`).
-/

namespace NetworkProjects.Lib

/-- A number for each of its keys. -/
structure Tally (α : Type) where
  entries : List (α × Nat)
  nodup : (entries.map Prod.fst).Nodup

namespace Tally

variable {α : Type}

def empty : Tally α := ⟨[], List.nodup_nil⟩

def keys (d : Tally α) : List α := d.entries.map Prod.fst

def counts (d : Tally α) : List Nat := d.entries.map Prod.snd

def total (d : Tally α) : Nat := d.counts.sum

variable [DecidableEq α]

/-- A key that is not there is entered with 0. -/
def enter (d : Tally α) (k : α) : Tally α :=
  if h : k ∈ d.keys then d
  else ⟨d.entries ++ [(k, 0)], by
    rw [List.map_append]
    refine List.nodup_append.mpr ⟨d.nodup, List.nodup_singleton k, ?_⟩
    rintro a ha b hb rfl
    have hk : a = k := List.mem_singleton.mp hb
    exact h (hk ▸ ha)⟩

/-- A key that is there is counted. -/
def bump (d : Tally α) (k : α) : Tally α :=
  ⟨d.entries.map fun p => if p.1 = k then (p.1, p.2 + 1) else p, by
    rw [List.map_map, List.map_congr_left (g := Prod.fst)]
    · exact d.nodup
    · intro p _
      simp only [Function.comp_apply]
      split <;> rfl⟩

def enterAll (d : Tally α) (ks : List α) : Tally α := ks.foldl enter d

def bumpAll (d : Tally α) (ks : List α) : Tally α := ks.foldl bump d

variable {d : Tally α} {k k' : α}

/-! ## Keys -/

theorem mem_keys_enter : k' ∈ (d.enter k).keys ↔ k' ∈ d.keys ∨ k' = k := by
  rw [enter]
  split
  · next h =>
    refine ⟨.inl, ?_⟩
    rintro (hk | rfl)
    · exact hk
    · exact h
  · simp [keys]

@[simp] theorem mem_keys_enterAll {ks : List α} :
    k' ∈ (d.enterAll ks).keys ↔ k' ∈ d.keys ∨ k' ∈ ks := by
  induction ks generalizing d with
  | nil => simp [enterAll]
  | cons k ks ih =>
      have hrest := @ih (d.enter k)
      rw [mem_keys_enter, or_assoc] at hrest
      rw [List.mem_cons]
      exact hrest

theorem keys_prefix_enterAll (d : Tally α) (ks : List α) : d.keys <+: (d.enterAll ks).keys := by
  induction ks generalizing d with
  | nil => exact List.prefix_refl _
  | cons k ks ih =>
      refine List.IsPrefix.trans ?_ (ih (d.enter k))
      rw [enter]
      split
      · exact List.prefix_refl _
      · exact ⟨[k], by simp [keys]⟩

/-- There are no more keys if and only if all of them are there already. -/
theorem length_keys_enterAll_iff {ks : List α} :
    (d.enterAll ks).keys.length = d.keys.length ↔ ∀ k ∈ ks, k ∈ d.keys := by
  have hgrown := keys_prefix_enterAll d ks
  constructor
  · intro hlen k hk
    rw [hgrown.eq_of_length hlen.symm, mem_keys_enterAll]
    exact .inr hk
  · intro hall
    have hsub : (d.enterAll ks).keys ⊆ d.keys := fun k hk =>
      (mem_keys_enterAll.mp hk).elim id (hall k)
    have hle := (List.subperm_of_subset (d.enterAll ks).nodup hsub).length_le
    exact Nat.le_antisymm hle hgrown.length_le

@[simp] theorem keys_bump : (d.bump k).keys = d.keys := by
  rw [keys, bump, List.map_map]
  apply List.map_congr_left
  intro p _
  simp only [Function.comp_apply]
  split <;> rfl

@[simp] theorem keys_bumpAll {ks : List α} : (d.bumpAll ks).keys = d.keys := by
  induction ks generalizing d with
  | nil => rfl
  | cons k ks ih => exact (@ih (d.bump k)).trans keys_bump

/-- What is entered into an empty dictionary are the different keys. -/
theorem keys_enterAll_empty (ks : List α) : (empty.enterAll ks).keys.Perm ks.dedup := by
  refine (List.perm_ext_iff_of_nodup (nodup _) (List.nodup_dedup ks)).mpr fun k => ?_
  rw [List.mem_dedup]
  exact mem_keys_enterAll.trans (by simp [keys, empty])

/-! ## Counts -/

@[simp] theorem total_enterAll {ks : List α} : (d.enterAll ks).total = d.total := by
  induction ks generalizing d with
  | nil => rfl
  | cons k ks ih =>
      refine (@ih (d.enter k)).trans ?_
      rw [enter]
      split
      · rfl
      · simp [total, counts]

/-- Every count grows by what has turned up. -/
theorem entries_bumpAll [BEq α] [LawfulBEq α] (d : Tally α) (ks : List α) :
    (d.bumpAll ks).entries = d.entries.map fun p => (p.1, p.2 + ks.count p.1) := by
  induction ks generalizing d with
  | nil => simp [bumpAll]
  | cons k ks ih =>
      refine (ih (d.bump k)).trans ?_
      rw [bump, List.map_map]
      apply List.map_congr_left
      intro p _
      simp only [Function.comp_apply, List.count_cons]
      by_cases h : p.1 = k
      · have hk : (k == p.1) = true := beq_iff_eq.mpr h.symm
        rw [if_pos h, if_pos hk]
        simp only [Prod.mk.injEq, true_and]
        omega
      · have hk : ¬ (k == p.1) = true := fun heq => h (beq_iff_eq.mp heq).symm
        rw [if_neg h, if_neg hk]
        rfl

/-- A key stands once in the list. -/
theorem sum_map_ite {es : List (α × Nat)} (h : (es.map Prod.fst).Nodup) (k : α) :
    (es.map fun p => if p.1 = k then p.2 + 1 else p.2).sum
      = (es.map Prod.snd).sum + if k ∈ es.map Prod.fst then 1 else 0 := by
  induction es with
  | nil => rfl
  | cons p es ih =>
      rw [List.map_cons, List.nodup_cons] at h
      have hrest := ih h.2
      rw [List.map_cons, List.map_cons, List.map_cons, List.sum_cons, List.sum_cons, hrest]
      by_cases hp : p.1 = k
      · have hno : k ∉ es.map Prod.fst := hp ▸ h.1
        rw [if_pos hp, if_neg hno, if_pos (hp ▸ List.mem_cons_self)]
        omega
      · have hmem : k ∈ p.1 :: es.map Prod.fst ↔ k ∈ es.map Prod.fst := by
          rw [List.mem_cons]
          exact or_iff_right fun heq => hp heq.symm
        rw [if_neg hp]
        simp only [hmem]
        omega

theorem total_bump (d : Tally α) (k : α) :
    (d.bump k).total = d.total + if k ∈ d.keys then 1 else 0 := by
  have hcounts : (d.bump k).counts = d.entries.map fun p => if p.1 = k then p.2 + 1 else p.2 := by
    rw [counts, bump, List.map_map]
    apply List.map_congr_left
    intro p _
    simp only [Function.comp_apply]
    split <;> rfl
  rw [total, hcounts]
  exact sum_map_ite d.nodup k

/-- **What is counted is added to the sum**: one for each of the keys that is in the tally, and
nothing for the others. -/
theorem total_bumpAll (d : Tally α) (ks : List α) :
    (d.bumpAll ks).total = d.total + ks.countP (· ∈ d.keys) := by
  induction ks generalizing d with
  | nil => rfl
  | cons k ks ih =>
      refine (ih (d.bump k)).trans ?_
      rw [total_bump, keys_bump, List.countP_cons]
      simp only [decide_eq_true_eq]
      omega

/-- **The counts of a new dictionary** are how often each key turns up. -/
theorem counts_bumpAll_enterAll [BEq α] [LawfulBEq α] (rib ks : List α) :
    ((empty.enterAll rib).bumpAll ks).counts.Perm (rib.dedup.map fun k => ks.count k) := by
  have hzero : ∀ p ∈ (empty.enterAll rib).entries, p.2 = 0 := by
    intro p hp
    have htotal : (empty.enterAll rib).total = 0 := total_enterAll
    exact List.sum_eq_zero_iff_forall_eq_nat.mp htotal p.2 (List.mem_map_of_mem hp)
  have hcounts : ((empty.enterAll rib).bumpAll ks).counts
      = (empty.enterAll rib).keys.map fun k => ks.count k := by
    rw [counts, entries_bumpAll, List.map_map, keys, List.map_map]
    apply List.map_congr_left
    intro p hp
    simp only [Function.comp_apply, hzero p hp, Nat.zero_add]
  rw [hcounts]
  exact (keys_enterAll_empty rib).map _

end Tally

/-! ## Ranking -/

/-- The largest first. -/
def ranked (counts : List Nat) : List Nat := counts.insertionSort (· ≥ ·)

theorem ranked_perm (counts : List Nat) : (ranked counts).Perm counts :=
  List.perm_insertionSort _ counts

/-- Only the counts matter, and not the order in which they are found. -/
theorem ranked_eq_of_perm {counts counts' : List Nat} (h : counts.Perm counts') :
    ranked counts = ranked counts' := by
  refine List.Perm.eq_of_sortedGE List.sortedGE_insertionSort List.sortedGE_insertionSort ?_
  exact (ranked_perm counts).trans (h.trans (ranked_perm counts').symm)

end NetworkProjects.Lib
