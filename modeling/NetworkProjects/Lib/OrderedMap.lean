import NetworkProjects.Lib.LastWins
import NetworkProjects.Lib.Run

/-!
# Operations on an ordered map

A map whose bindings stand in the order of their last assignments, under assignments, removals and
lookups. What a sequence of operations leaves can be read off the sequence: a binding is there if it
was assigned and its key has not been touched since (`mem_applyOps`), and of two bindings the one
that was assigned first comes first (`pairwise_applyOps`).
-/

namespace NetworkProjects.Lib

/-- An operation on a map. -/
inductive MapOp (α β : Type)
  | set (key : α) (value : β)
  | remove (key : α)
  | get (key : α)

section Ops

variable {α β : Type}

/-- The operation changes what the key is bound to. -/
def MapOp.Touches (k : α) : MapOp α β → Prop
  | set key _ => key = k
  | remove key => key = k
  | get _ => False

/-- `k` has been assigned `v`, and has not been touched since. -/
def LastSet (ops : List (MapOp α β)) (k : α) (v : β) : Prop :=
  Since (· = .set k v) (MapOp.Touches k) ops

/-- Both bindings are there, and `p` was assigned before `q`. -/
def SetBefore (ops : List (MapOp α β)) (p q : α × β) : Prop :=
  ∃ before between after, ops = before ++ .set p.1 p.2 :: between ++ .set q.1 q.2 :: after ∧
    (∀ op ∈ between ++ .set q.1 q.2 :: after, ¬ op.Touches p.1) ∧
    ∀ op ∈ after, ¬ op.Touches q.1

theorem SetBefore.snoc {ops : List (MapOp α β)} {p q : α × β} {op : MapOp α β}
    (h : SetBefore ops p q) (hp : ¬ op.Touches p.1) (hq : ¬ op.Touches q.1) :
    SetBefore (ops ++ [op]) p q := by
  obtain ⟨before, between, after, rfl, hbetween, hafter⟩ := h
  refine ⟨before, between, after ++ [op], by simp, ?_, ?_⟩
  · intro x hx
    rw [← List.cons_append, ← List.append_assoc, List.mem_append] at hx
    rcases hx with hx | hx
    · exact hbetween x hx
    · exact List.mem_singleton.mp hx ▸ hp
  · intro x hx
    rcases List.mem_append.mp hx with hx | hx
    · exact hafter x hx
    · exact List.mem_singleton.mp hx ▸ hq

theorem setBefore_snoc {ops : List (MapOp α β)} {p q : α × β} (h : LastSet ops p.1 p.2)
    (hne : q.1 ≠ p.1) : SetBefore (ops ++ [.set q.1 q.2]) p q := by
  obtain ⟨before, op, between, rfl, rfl, hbetween⟩ := h
  refine ⟨before, between, [], by simp, ?_, by simp⟩
  intro x hx
  rcases List.mem_append.mp hx with hx | hx
  · exact hbetween x hx
  · exact List.mem_singleton.mp hx ▸ hne

variable [DecidableEq α]

/-- What one operation makes of the map. -/
def MapOp.apply (m : List (α × β)) : MapOp α β → List (α × β)
  | set k v => setLast m k v
  | remove k => m.filter fun p => p.1 ≠ k
  | get _ => m

/-- What a sequence of operations makes of the empty map. -/
def applyOps (ops : List (MapOp α β)) : List (α × β) := ops.foldl MapOp.apply []

theorem applyOps_snoc (ops : List (MapOp α β)) (op : MapOp α β) :
    applyOps (ops ++ [op]) = op.apply (applyOps ops) := by
  rw [applyOps, List.foldl_append]
  rfl

/-- An operation leaves the bindings of other keys alone. -/
theorem MapOp.mem_apply_of_not_touches {m : List (α × β)} {op : MapOp α β} {p : α × β}
    (h : ¬ op.Touches p.1) : p ∈ op.apply m ↔ p ∈ m := by
  cases op with
  | set k v =>
      have hne : p.1 ≠ k := fun heq => h heq.symm
      have hnew : p ≠ (k, v) := fun heq => hne (congrArg Prod.fst heq)
      simp [MapOp.apply, setLast, hne, hnew]
  | remove k =>
      have hne : p.1 ≠ k := fun heq => h heq.symm
      simp [MapOp.apply, hne]
  | get k => rfl

/-- **What is bound** after a sequence of operations: a key has the value it was last set to, if it
has not been removed since. -/
theorem mem_applyOps {ops : List (MapOp α β)} {k : α} {v : β} :
    (k, v) ∈ applyOps ops ↔ LastSet ops k v := by
  induction ops using List.reverseRecOn with
  | nil => simp [applyOps, LastSet, Since]
  | append_singleton ops op ih =>
      rw [applyOps_snoc, LastSet, since_snoc]
      by_cases htouch : op.Touches k
      · simp only [htouch, not_true_eq_false, and_false, or_false]
        cases op with
        | set key value =>
            obtain rfl : key = k := htouch
            simp [MapOp.apply, setLast, eq_comm]
        | remove key =>
            obtain rfl : key = k := htouch
            simp [MapOp.apply]
        | get key => cases htouch
      · have hop : op ≠ .set k v := by
          rintro rfl
          exact htouch rfl
        rw [MapOp.mem_apply_of_not_touches htouch, ih]
        simp only [hop, htouch, not_false_eq_true, and_true, false_or]
        rfl

/-- **The bindings stand in the order of their last assignments**, whatever has been removed in
between. -/
theorem pairwise_applyOps (ops : List (MapOp α β)) : (applyOps ops).Pairwise (SetBefore ops) := by
  induction ops using List.reverseRecOn with
  | nil => exact .nil
  | append_singleton ops op ih =>
      rw [applyOps_snoc]
      -- bindings that are kept stay in their order
      have hkept : ∀ k, (∀ key, key ≠ k → ¬ op.Touches key) →
          ((applyOps ops).filter fun p => p.1 ≠ k).Pairwise (SetBefore (ops ++ [op])) := by
        intro k htouch
        refine List.Pairwise.imp_of_mem ?_ (ih.sublist List.filter_sublist)
        intro p q hp hq hbefore
        have hp := (List.mem_filter.mp hp).2
        have hq := (List.mem_filter.mp hq).2
        exact hbefore.snoc (htouch _ (by simpa using hp)) (htouch _ (by simpa using hq))
      cases op with
      | set k v =>
          refine List.pairwise_append.mpr ⟨hkept k fun key hne => Ne.symm hne, by simp, ?_⟩
          intro p hp q hq
          obtain ⟨hp, hne⟩ := List.mem_filter.mp hp
          have hne : p.1 ≠ k := by simpa using hne
          cases List.mem_singleton.mp hq
          exact setBefore_snoc (q := (k, v)) (mem_applyOps.mp hp) hne.symm
      | remove k => exact hkept k fun key hne => Ne.symm hne
      | get k => exact ih.imp fun hbefore => hbefore.snoc (fun h => h) fun h => h

end Ops

end NetworkProjects.Lib
