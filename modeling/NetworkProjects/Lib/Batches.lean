import Mathlib.Data.List.Basic
import Mathlib.Data.List.Perm.Basic

/-!
# A buffer that is emptied in batches

Items arrive one at a time. An item goes on at once if nothing waits, or it is put in front of
those that wait; a batch empties the whole buffer. So an item never overtakes one of an earlier
batch, but inside a batch the order is that of the buffer, newest first.

`buffer_order` says it without the buffer: put each batch in some other order, and what went out is
a subsequence of what came in.
-/

namespace NetworkProjects.Lib

open scoped List

variable {α : Type}

/-- One step of the buffer: what arrives, what goes out, and what waits before and after. -/
inductive BufferStep : List α → Option α → List α → List α → Prop
  /-- Nothing happens, or the item that arrives is lost. -/
  | keep {waiting : List α} (arrival : Option α) : BufferStep waiting arrival [] waiting
  | hold {waiting : List α} (a : α) : BufferStep waiting (some a) [] (a :: waiting)
  /-- An item that finds the buffer empty goes on at once. -/
  | direct (a : α) : BufferStep [] (some a) [a] []
  /-- All that waits goes out, in the order in which it waits. -/
  | flush {waiting : List α} : BufferStep waiting none waiting []
  /-- All that waits is taken out and put back one by one. -/
  | requeue {waiting : List α} : BufferStep waiting none [] waiting.reverse
  /-- All that waits is discarded. -/
  | drop {waiting : List α} (arrival : Option α) : BufferStep waiting arrival [] []

/-- A run of the buffer on what arrives and goes out in each step. -/
inductive BufferRun : List α → List (Option α × List α) → List α → Prop
  | nil {waiting : List α} : BufferRun waiting [] waiting
  | cons {waiting waiting' final : List α} {arrival : Option α} {sent : List α}
      {steps : List (Option α × List α)} (step : BufferStep waiting arrival sent waiting')
      (rest : BufferRun waiting' steps final) :
      BufferRun waiting ((arrival, sent) :: steps) final

/-- All items that arrive in the steps. -/
def arrivals (steps : List (Option α × List α)) : List α := steps.filterMap Prod.fst

/-- Everything that goes out in the steps. -/
def departures (steps : List (Option α × List α)) : List α := steps.flatMap Prod.snd

/-- One step: what goes out, put in the order of arrival, and what waits then, in the order of
arrival, come out of what waited before and what arrives. -/
theorem BufferStep.order {waiting waiting' sent kept : List α} {arrival : Option α}
    (h : BufferStep waiting arrival sent waiting') (hkept : kept.Perm waiting) :
    ∃ sorted kept' : List α, sorted.Perm sent ∧ kept'.Perm waiting' ∧
      sorted ++ kept' <+ kept ++ arrival.toList := by
  cases h with
  | keep => exact ⟨[], kept, .refl _, hkept, List.sublist_append_left _ _⟩
  | hold a =>
      refine ⟨[], kept ++ [a], .refl _, ?_, .refl _⟩
      exact (List.perm_append_singleton a kept).trans (hkept.cons a)
  | direct a =>
      cases List.Perm.eq_nil hkept
      exact ⟨[a], [], .refl _, .refl _, .refl _⟩
  | flush => exact ⟨kept, [], hkept, .refl _, by simp⟩
  | requeue =>
      exact ⟨[], kept, .refl _, hkept.trans (List.reverse_perm _).symm, by simp⟩
  | drop => exact ⟨[], [], .refl _, .refl _, List.nil_sublist _⟩

theorem BufferRun.order {waiting final kept : List α} {steps : List (Option α × List α)}
    (h : BufferRun waiting steps final) (hkept : kept.Perm waiting) :
    ∃ sorted, List.Forall₂ List.Perm (steps.map Prod.snd) sorted ∧
      sorted.flatten <+ kept ++ arrivals steps := by
  induction h generalizing kept with
  | nil => exact ⟨[], .nil, List.nil_sublist _⟩
  | @cons waiting waiting' final arrival sent steps step rest ih =>
      obtain ⟨first, kept', hfirst, hkept', hsub⟩ := step.order hkept
      obtain ⟨sorted, hsorted, hrest⟩ := ih hkept'
      refine ⟨first :: sorted, .cons hfirst.symm hsorted, ?_⟩
      have hall : arrivals ((arrival, sent) :: steps) = arrival.toList ++ arrivals steps := by
        cases arrival <;> simp [arrivals]
      calc (first :: sorted).flatten
          = first ++ sorted.flatten := by simp
        _ <+ first ++ (kept' ++ arrivals steps) := hrest.append_left first
        _ = (first ++ kept') ++ arrivals steps := by rw [List.append_assoc]
        _ <+ (kept ++ arrival.toList) ++ arrivals steps := hsub.append_right _
        _ = kept ++ arrivals ((arrival, sent) :: steps) := by rw [hall, List.append_assoc]

/-- **Batches keep the order of arrival.** From an empty buffer, what goes out is a subsequence of
what arrives, once each batch is put in a suitable order. -/
theorem buffer_order {final : List α} {steps : List (Option α × List α)}
    (h : BufferRun [] steps final) :
    ∃ sorted, List.Forall₂ List.Perm (steps.map Prod.snd) sorted ∧
      sorted.flatten <+ arrivals steps :=
  h.order (.refl [])

end NetworkProjects.Lib
