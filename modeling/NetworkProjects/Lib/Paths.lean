import Mathlib.Data.List.Infix
import Mathlib.Data.List.Count

/-!
# Relative paths

A path is followed one component at a time. A directory is the list of the names that lead to it
from the root, so `d <+: e` says that `e` is `d` or stands below it. A path stays below the
directory it is followed from, wherever that is, if and only if there are never more `..` than
names when it is read from left to right (`staysBelow_iff`).
-/

namespace NetworkProjects.Lib

/-! ## Following a path -/

/-- A component of a path. -/
inductive Move (α : Type)
  /-- `.` -/
  | stay
  /-- `..` -/
  | up
  | down (name : α)
  deriving DecidableEq, Repr

section Moves

variable {α : Type}

/-- Above the root there is the root. -/
def Move.apply (dir : List α) : Move α → List α
  | stay => dir
  | up => dir.dropLast
  | down name => dir ++ [name]

/-- The directory that a path leads to. -/
def follow (dir : List α) (path : List (Move α)) : List α := path.foldl Move.apply dir

/-- Wherever the path is followed from, no part of it leads above that directory. -/
def StaysBelow (path : List (Move α)) : Prop :=
  ∀ dir part, part <+: path → dir <+: follow dir part

def Move.isUp : Move α → Bool
  | up => true
  | _ => false

def Move.isDown : Move α → Bool
  | down _ => true
  | _ => false

/-- Read from left to right there are never more `..` than names, of which `depth` have been read
already. -/
def Balanced (depth : Nat) (path : List (Move α)) : Prop :=
  ∀ part, part <+: path → part.countP Move.isUp ≤ depth + part.countP Move.isDown

instance (depth : Nat) (path : List (Move α)) : Decidable (Balanced depth path) :=
  decidable_of_iff
    (∀ part ∈ path.inits, part.countP Move.isUp ≤ depth + part.countP Move.isDown)
    (by simp only [Balanced, List.mem_inits])

variable {depth : Nat} {path : List (Move α)} {name : α}

/-! ## Component by component -/

theorem balanced_nil (depth : Nat) : Balanced depth ([] : List (Move α)) := by
  intro part hpart
  rw [List.prefix_nil.mp hpart]
  exact Nat.zero_le _

/-- A path is balanced if what is behind its first component is, for each part of it. -/
theorem balanced_cons {m : Move α} : Balanced depth (m :: path) ↔
    ∀ part, part <+: path →
      (m :: part).countP Move.isUp ≤ depth + (m :: part).countP Move.isDown := by
  constructor
  · intro h part hpart
    exact h (m :: part) ((List.prefix_cons_inj m).mpr hpart)
  · intro h part hpart
    rcases List.prefix_cons_iff.mp hpart with rfl | ⟨rest, rfl, hrest⟩
    · exact Nat.zero_le _
    · exact h rest hrest

theorem balanced_stay : Balanced depth (.stay :: path) ↔ Balanced depth path := by
  rw [balanced_cons, Balanced]
  simp only [List.countP_cons, Move.isUp, Move.isDown, Bool.false_eq_true, if_false, Nat.add_zero]

theorem balanced_down : Balanced depth (.down name :: path) ↔ Balanced (depth + 1) path := by
  rw [balanced_cons, Balanced]
  simp only [List.countP_cons, Move.isUp, Move.isDown, Bool.false_eq_true, if_false, if_true,
    Nat.add_zero]
  refine forall_congr' fun part => imp_congr_right fun _ => ?_
  omega

theorem balanced_up_succ : Balanced (depth + 1) (.up :: path) ↔ Balanced depth path := by
  rw [balanced_cons, Balanced]
  simp only [List.countP_cons, Move.isUp, Move.isDown, Bool.false_eq_true, if_false, if_true,
    Nat.add_zero]
  refine forall_congr' fun part => imp_congr_right fun _ => ?_
  omega

theorem not_balanced_up : ¬ Balanced 0 (.up :: path) := by
  intro h
  have hup := balanced_cons.mp h [] List.nil_prefix
  simp [Move.isUp, Move.isDown] at hup

/-- A name at the end keeps a path balanced. -/
theorem balanced_snoc_down : Balanced depth (path ++ [.down name]) ↔ Balanced depth path := by
  constructor
  · intro h part hpart
    exact h part (hpart.trans (List.prefix_append _ _))
  · intro h part hpart
    rcases List.prefix_concat_iff.mp hpart with rfl | hpart
    · have hall := h path (List.prefix_refl _)
      simp only [List.countP_append, List.countP_cons, List.countP_nil, Move.isUp, Move.isDown,
        Bool.false_eq_true, if_false, if_true, Nat.add_zero]
      omega
    · exact h part hpart

/-! ## Balanced paths stay below -/

/-- What has been descended from `dir` can be ascended again, and no more. -/
theorem follow_below_iff {dir : List α} (hdir : dir ≠ []) (here : List α) (path : List (Move α)) :
    (∀ part, part <+: path → dir <+: follow (dir ++ here) part) ↔ Balanced here.length path := by
  induction path generalizing here with
  | nil =>
      refine ⟨fun _ => balanced_nil _, fun _ part hpart => ?_⟩
      rw [List.prefix_nil.mp hpart]
      exact List.prefix_append dir here
  | cons m path ih =>
      have hfirst : (∀ part, part <+: m :: path → dir <+: follow (dir ++ here) part) ↔
          ∀ part, part <+: path → dir <+: follow (m.apply (dir ++ here)) part := by
        constructor
        · intro h part hpart
          exact h (m :: part) ((List.prefix_cons_inj m).mpr hpart)
        · intro h part hpart
          rcases List.prefix_cons_iff.mp hpart with rfl | ⟨rest, rfl, hrest⟩
          · exact List.prefix_append dir here
          · exact h rest hrest
      rw [hfirst]
      cases m with
      | stay => exact (ih here).trans balanced_stay.symm
      | down name =>
          have hlen : (here ++ [name]).length = here.length + 1 := by simp
          rw [balanced_down, ← hlen, ← ih, Move.apply, List.append_assoc]
      | up =>
          rcases List.eq_nil_or_concat' here with rfl | ⟨here, name, rfl⟩
          · refine ⟨fun h => absurd ?_ hdir, fun h => absurd h not_balanced_up⟩
            -- the directory would not be longer than the one above it
            have hup := (h [] List.nil_prefix).length_le
            simp only [follow, List.foldl_nil, Move.apply, List.append_nil,
              List.length_dropLast] at hup
            exact List.length_eq_zero_iff.mp (by omega)
          · have hlen : (here ++ [name]).length = here.length + 1 := by simp
            rw [hlen, balanced_up_succ, ← ih, Move.apply, ← List.append_assoc,
              List.dropLast_concat]

/-- Nothing stands above the root. -/
theorem staysBelow_iff [Nonempty α] : StaysBelow path ↔ Balanced 0 path := by
  constructor
  · intro h
    obtain ⟨name⟩ := ‹Nonempty α›
    have hbelow := (follow_below_iff (List.cons_ne_nil name []) [] path).mp
    exact hbelow fun part hpart => by simpa using h [name] part hpart
  · intro h dir part hpart
    by_cases hdir : dir = []
    · rw [hdir]
      exact List.nil_prefix
    · have hbelow := (follow_below_iff hdir [] path).mpr h part hpart
      rwa [List.append_nil] at hbelow

end Moves

end NetworkProjects.Lib
