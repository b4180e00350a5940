import Mathlib.Data.List.Nodup
import Mathlib.Data.List.Induction

/-!
# Ordered maps in which the last assignment wins

An association list with distinct keys, in the order of the last assignments: `setLast` drops
the old binding of a key and appends the new one. `keepLast` is what a whole sequence of
assignments amounts to (`foldl_setLast`): of each key the last one, in place.
-/

namespace NetworkProjects.Lib

variable {α β : Type} [DecidableEq α]

/-- Assign `v` to `k`. -/
def setLast (m : List (α × β)) (k : α) (v : β) : List (α × β) :=
  m.filter (fun p => p.1 ≠ k) ++ [(k, v)]

/-- Assigning to a key that has been taken out. -/
theorem setLast_filter (m : List (α × β)) (k : α) (v : β) :
    setLast (m.filter fun p => p.1 ≠ k) k v = setLast m k v := by
  simp [setLast]

theorem nodup_setLast {m : List (α × β)} (h : (m.map Prod.fst).Nodup) (k : α) (v : β) :
    ((setLast m k v).map Prod.fst).Nodup := by
  rw [setLast, List.map_append, List.nodup_append]
  refine ⟨h.sublist (List.filter_sublist.map _), by simp, ?_⟩
  intro k' hk' k'' hk''
  obtain ⟨p, hp, rfl⟩ := List.mem_map.mp hk'
  have hne := (List.mem_filter.mp hp).2
  rw [List.map_singleton, List.mem_singleton] at hk''
  simpa [hk''] using hne

/-- The last assignment to each key. -/
def keepLast : List (α × β) → List (α × β)
  | [] => []
  | p :: ps => if p.1 ∈ ps.map Prod.fst then keepLast ps else p :: keepLast ps

theorem mem_keys_keepLast {ps : List (α × β)} {k : α} :
    k ∈ (keepLast ps).map Prod.fst ↔ k ∈ ps.map Prod.fst := by
  induction ps with
  | nil => simp [keepLast]
  | cons p ps ih =>
      rw [keepLast]
      split
      · next hp =>
        rw [ih, List.map_cons, List.mem_cons]
        constructor
        · exact .inr
        · rintro (rfl | hk)
          · exact hp
          · exact hk
      · rw [List.map_cons, List.mem_cons, ih, List.map_cons, List.mem_cons]

theorem keepLast_sublist (ps : List (α × β)) : (keepLast ps).Sublist ps := by
  induction ps with
  | nil => exact .slnil
  | cons p ps ih =>
      rw [keepLast]
      split
      · exact ih.cons p
      · exact ih.cons_cons p

/-- With distinct keys, every assignment is the last one to its key. -/
theorem keepLast_of_nodup {ps : List (α × β)} (h : (ps.map Prod.fst).Nodup) :
    keepLast ps = ps := by
  induction ps with
  | nil => rfl
  | cons p ps ih =>
      rw [List.map_cons, List.nodup_cons] at h
      rw [keepLast, if_neg h.1, ih h.2]

/-- Looking at some of the keys only. -/
theorem keepLast_filter (ps : List (α × β)) (q : α → Bool) :
    (keepLast ps).filter (fun p => q p.1) = keepLast (ps.filter fun p => q p.1) := by
  induction ps with
  | nil => rfl
  | cons p ps ih =>
      cases hq : q p.1 with
      | false =>
          rw [List.filter_cons_of_neg (by simp [hq]), ← ih, keepLast]
          split
          · rfl
          · rw [List.filter_cons_of_neg (by simp [hq])]
      | true =>
          have hkey : p.1 ∈ (ps.filter fun p => q p.1).map Prod.fst ↔ p.1 ∈ ps.map Prod.fst := by
            constructor
            · exact fun h => (List.filter_sublist.map _).mem h
            · intro h
              obtain ⟨r, hr, heq⟩ := List.mem_map.mp h
              exact List.mem_map.mpr ⟨r, List.mem_filter.mpr ⟨hr, by rw [heq, hq]⟩, heq⟩
          rw [List.filter_cons_of_pos (by simp [hq]), keepLast, keepLast]
          by_cases hlast : p.1 ∈ ps.map Prod.fst
          · rw [if_pos hlast, if_pos (hkey.mpr hlast), ih]
          · rw [if_neg hlast, if_neg fun h => hlast (hkey.mp h),
              List.filter_cons_of_pos (by simp [hq]), ih]

/-- Assignments that are all made again later do not count. -/
theorem keepLast_append_of_subset {ps qs : List (α × β)}
    (h : ∀ p ∈ ps, p.1 ∈ qs.map Prod.fst) : keepLast (ps ++ qs) = keepLast qs := by
  induction ps with
  | nil => rfl
  | cons p ps ih =>
      have hp : p.1 ∈ (ps ++ qs).map Prod.fst := by
        rw [List.map_append, List.mem_append]
        exact .inr (h p (by simp))
      rw [List.cons_append, keepLast, if_pos hp]
      exact ih fun q hq => h q (by simp [hq])

/-- One more assignment. -/
theorem keepLast_snoc (ps : List (α × β)) (k : α) (v : β) :
    keepLast (ps ++ [(k, v)]) = setLast (keepLast ps) k v := by
  induction ps with
  | nil => simp [keepLast, setLast]
  | cons p ps ih =>
      rw [List.cons_append, keepLast, keepLast]
      by_cases hk : p.1 = k
      · -- the new assignment replaces this one
        rw [if_pos (by simp [hk]), ih]
        split
        · rfl
        · simp [setLast, hk]
      · have hmem : p.1 ∈ (ps ++ [(k, v)]).map Prod.fst ↔ p.1 ∈ ps.map Prod.fst := by
          simp [hk]
        by_cases hp : p.1 ∈ ps.map Prod.fst
        · rw [if_pos (hmem.mpr hp), if_pos hp, ih]
        · rw [if_neg (fun h => hp (hmem.mp h)), if_neg hp, ih]
          simp [setLast, hk]

/-- **A sequence of assignments** to an empty map leaves the last one for each key, in the order of
these last assignments. -/
theorem foldl_setLast (ps : List (α × β)) :
    ps.foldl (fun m p => setLast m p.1 p.2) [] = keepLast ps := by
  induction ps using List.reverseRecOn with
  | nil => rfl
  | append_singleton ps p ih =>
      rw [List.foldl_append, ih, List.foldl_cons, List.foldl_nil, keepLast_snoc]

end NetworkProjects.Lib
