import Mathlib.Order.Lattice
import Mathlib.Data.List.Basic

/-!
# The last of the largest

A scan over a list that remembers the best of the elements it is looking for, and takes a later one
that is just as good. `IsLastMax` says what it returns: an element with none before it that is
better, and none behind it that is as good.
-/

namespace NetworkProjects.Lib

variable {α κ : Type} [LinearOrder κ]

/-- The scan, from the best element so far. -/
def lastMax (p : α → Prop) [DecidablePred p] (key : α → κ) : List α → Option α → Option α
  | [], best => best
  | a :: as, best =>
      if p a ∧ ∀ b ∈ best, key b ≤ key a then lastMax p key as (some a)
      else lastMax p key as best

/-- `a` is the last one of the elements with `p` that have the largest key. -/
def IsLastMax (p : α → Prop) (key : α → κ) (l : List α) (a : α) : Prop :=
  ∃ before after, l = before ++ a :: after ∧ p a ∧
    (∀ b ∈ before, p b → key b ≤ key a) ∧ ∀ b ∈ after, p b → key b < key a

variable {p : α → Prop} {key : α → κ} {l : List α} {a : α}

/-- Only the order of the keys counts. -/
theorem IsLastMax.of_key {κ' : Type} [LinearOrder κ'] {key' : α → κ'} (h : IsLastMax p key l a)
    (hkey : ∀ b ∈ l, ∀ c ∈ l, key b ≤ key c ↔ key' b ≤ key' c) : IsLastMax p key' l a := by
  obtain ⟨before, after, rfl, ha, hbefore, hafter⟩ := h
  refine ⟨before, after, rfl, ha, ?_, ?_⟩
  · intro b hb hpb
    exact (hkey b (by simp [hb]) a (by simp)).mp (hbefore b hb hpb)
  · intro b hb hpb
    have hlt := not_le.mpr (hafter b hb hpb)
    rw [hkey a (by simp) b (by simp [hb])] at hlt
    exact not_le.mp hlt

variable [DecidablePred p]

/-- A scan that starts with an element ends with one. -/
theorem lastMax_ne_none (best : α) : lastMax p key l (some best) ≠ none := by
  induction l generalizing best with
  | nil => simp [lastMax]
  | cons c l ih =>
      unfold lastMax
      split
      · exact ih c
      · exact ih best

theorem lastMax_eq_none : lastMax p key l none = none ↔ ∀ b ∈ l, ¬ p b := by
  induction l with
  | nil => simp [lastMax]
  | cons c l ih =>
      by_cases hc : p c
      · simp [lastMax, hc, lastMax_ne_none]
      · simp [lastMax, hc, ih]

/-- What the scan returns, in the whole list: the elements that have been seen are in `seen`, and
the best of them is the last of their largest. -/
theorem isLastMax_of_lastMax (seen : List α) {best : Option α}
    (hbest : ∀ b ∈ best, IsLastMax p key seen b) (hnone : best = none → ∀ b ∈ seen, ¬ p b)
    (h : lastMax p key l best = some a) : IsLastMax p key (seen ++ l) a := by
  induction l generalizing seen best with
  | nil =>
      rw [List.append_nil]
      exact hbest a h
  | cons c l ih =>
      rw [← List.singleton_append, ← List.append_assoc]
      unfold lastMax at h
      split at h
      · next htake =>
        -- `c` is at least as good as everything before it
        refine ih (seen ++ [c]) ?_ (by simp) h
        intro b hb
        cases hb
        refine ⟨seen, [], rfl, htake.1, ?_, by simp⟩
        intro d hd hpd
        cases best with
        | none => exact absurd hpd (hnone rfl d hd)
        | some b =>
            obtain ⟨before, after, rfl, -, hbefore, hafter⟩ := hbest b rfl
            have hle : key d ≤ key b := by
              rcases List.mem_append.mp hd with hd | hd
              · exact hbefore d hd hpd
              · rcases List.mem_cons.mp hd with rfl | hd
                · exact le_refl _
                · exact (hafter d hd hpd).le
            exact hle.trans (htake.2 b rfl)
      · next hleave =>
        refine ih (seen ++ [c]) ?_ ?_ h
        · intro b hb
          obtain ⟨before, after, rfl, hpb, hbefore, hafter⟩ := hbest b hb
          refine ⟨before, after ++ [c], by simp, hpb, hbefore, ?_⟩
          intro d hd hpd
          rcases List.mem_append.mp hd with hd | hd
          · exact hafter d hd hpd
          · rw [List.mem_singleton.mp hd] at hpd ⊢
            -- it was left for being worse than `b`
            rw [← not_le]
            intro hle
            refine hleave ⟨hpd, ?_⟩
            intro b' hb'
            cases Option.mem_unique hb hb'
            exact hle
        · intro hbn d hd hpd
          subst hbn
          rcases List.mem_append.mp hd with hd | hd
          · exact hnone rfl d hd hpd
          · rw [List.mem_singleton.mp hd] at hpd
            exact hleave ⟨hpd, by simp⟩

theorem lastMax_eq_some (h : lastMax p key l none = some a) : IsLastMax p key l a :=
  isLastMax_of_lastMax [] (by simp) (by simp) h

end NetworkProjects.Lib
