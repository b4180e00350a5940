import Mathlib.Data.List.Perm.Basic
import Mathlib.Logic.Relation

/-!
# Who owns a block

A ledger of the blocks an allocator has handed out. A block is *linked* into a shared list, or
*taken* off it by the one thread that still works on it, or *freed*. The allocator never hands out
an address twice, so a block is in one place only (`Ledger.Ok`), and what is linked or taken is not
freed.
-/

namespace NetworkProjects.Lib

structure Ledger where
  linked : List Nat
  taken : List Nat
  freed : List Nat
  /-- The next address the allocator hands out. -/
  brk : Nat

namespace Ledger

def blocks (l : Ledger) : List Nat := l.linked ++ l.taken ++ l.freed

/-- Every block is in one place, and has been handed out. -/
structure Ok (l : Ledger) : Prop where
  nodup : l.blocks.Nodup
  lt_brk : ∀ a ∈ l.blocks, a < l.brk

/-- What can happen to a block. -/
inductive Move : Ledger → Ledger → Prop
  | alloc {l : Ledger} : Move l { l with linked := l.brk :: l.linked, brk := l.brk + 1 }
  | take {l : Ledger} {before after : List Nat} {a : Nat}
      (split : l.linked = before ++ a :: after) :
      Move l { l with linked := before ++ after, taken := a :: l.taken }
  /-- A block that was taken is leaked. -/
  | leak {l : Ledger} {taken : List Nat} (sub : taken.Sublist l.taken) :
      Move l { l with taken := taken }
  | free {l : Ledger} {before after : List Nat} {a : Nat}
      (split : l.linked = before ++ a :: after) :
      Move l { l with linked := before ++ after, freed := l.freed ++ [a] }

/-- Any number of moves. -/
abbrev Moves := Relation.ReflTransGen Move

section Rules

variable {l l' : Ledger} {a : Nat}

theorem ok_empty : Ok ⟨[], [], [], 0⟩ := ⟨List.nodup_nil, fun _ h => nomatch h⟩

/-- Blocks change places, or are forgotten. -/
theorem Ok.of_perm (h : l.Ok) {blocks : List Nat} (hperm : l'.blocks.Perm blocks)
    (hsub : blocks.Sublist l.blocks) (hbrk : l.brk ≤ l'.brk) : l'.Ok where
  nodup := hperm.nodup_iff.mpr (h.nodup.sublist hsub)
  lt_brk := by
    intro a ha
    exact Nat.lt_of_lt_of_le (h.lt_brk a (hsub.subset (hperm.mem_iff.mp ha))) hbrk

theorem Ok.move (h : l.Ok) (hmove : Move l l') : l'.Ok := by
  cases hmove with
  | alloc =>
      refine ⟨List.nodup_cons.mpr ⟨?_, h.nodup⟩, ?_⟩
      · intro hmem
        exact Nat.lt_irrefl _ (h.lt_brk _ hmem)
      · intro a ha
        rcases List.mem_cons.mp ha with rfl | ha
        · exact Nat.lt_succ_self _
        · exact Nat.lt_succ_of_lt (h.lt_brk a ha)
  | @take before after a hsplit =>
      refine h.of_perm ?_ (List.Sublist.refl l.blocks) (Nat.le_refl _)
      simp only [blocks, hsplit]
      apply List.Perm.append_right
      simp only [List.append_assoc, List.cons_append]
      apply List.Perm.append_left
      exact List.perm_middle
  | @leak taken hsub =>
      refine h.of_perm (List.Perm.refl _) ?_ (Nat.le_refl _)
      exact (hsub.append_left l.linked).append_right l.freed
  | @free before after a hsplit =>
      refine h.of_perm ?_ (List.Sublist.refl l.blocks) (Nat.le_refl _)
      simp only [blocks, hsplit, List.append_assoc, List.cons_append]
      apply List.Perm.append_left
      simp only [← List.append_assoc]
      exact List.perm_append_singleton _ _

/-- **The ledger rule**: what is owned once in the beginning is owned once after any number of
moves. -/
theorem Ok.moves (h : l.Ok) (hmoves : Moves l l') : l'.Ok := by
  induction hmoves with
  | refl => exact h
  | tail _ hmove ih => exact ih.move hmove

/-- What is freed stays freed. -/
theorem freed_subset (hmoves : Moves l l') : l.freed ⊆ l'.freed := by
  induction hmoves with
  | refl => exact fun _ h => h
  | tail _ hmove ih =>
      cases hmove with
      | free => exact fun a ha => List.mem_append_left _ (ih ha)
      | _ => exact ih

theorem Ok.linked_not_freed (h : l.Ok) (ha : a ∈ l.linked) : a ∉ l.freed := by
  obtain ⟨-, -, hdisj⟩ := List.nodup_append.mp h.nodup
  intro hfreed
  exact hdisj a (List.mem_append_left _ ha) a hfreed rfl

theorem Ok.taken_not_freed (h : l.Ok) (ha : a ∈ l.taken) : a ∉ l.freed := by
  obtain ⟨-, -, hdisj⟩ := List.nodup_append.mp h.nodup
  intro hfreed
  exact hdisj a (List.mem_append_right _ ha) a hfreed rfl

theorem Ok.linked_nodup (h : l.Ok) : l.linked.Nodup :=
  (List.nodup_append.mp (List.nodup_append.mp h.nodup).1).1

theorem Ok.linked_lt (h : l.Ok) (ha : a ∈ l.linked) : a < l.brk :=
  h.lt_brk a (List.mem_append_left _ (List.mem_append_left _ ha))

end Rules

end Ledger

end NetworkProjects.Lib
