import Mathlib.Data.List.Basic
import Mathlib.Data.List.Induction

/-!
# Runs of a fallible step function, and properties of histories

A component that takes one input after another is a step function into `Except ε`: the
fault, if there is one, ends the run. `run` feeds it a list of inputs and `run_induction` is
the induction rule every invariant over runs is an instance of.

A component that also writes down what it does has a *history*, newest entry last. Two
past-time operators on histories are enough for the safety properties stated over them:

* `Always P h` — every entry of `h` stands in relation `P` to the entries before it;
* `Since p q h` — some entry of `h` satisfies `p`, and none after it satisfies `q`.

The list of inputs of a run is a history as well: `Along` says what holds whenever the run takes
a step, `Happens` that something holds of one of its steps, and `run_induction_along` is the run
rule for runs whose steps are known to be of a kind.
-/

namespace NetworkProjects.Lib

/-! ## Runs -/

section Run

variable {σ ι ε : Type}

/-- The state `step` reaches from `s` on `inputs`, or the first fault on the way. -/
def run (step : σ → ι → Except ε σ) (s : σ) (inputs : List ι) : Except ε σ :=
  inputs.foldlM step s

@[simp] theorem run_nil (step : σ → ι → Except ε σ) (s : σ) : run step s [] = .ok s := rfl

/-- A run over `i :: is` is one step and a run over `is` from there. -/
theorem run_cons {step : σ → ι → Except ε σ} {s t' : σ} {i : ι} {is : List ι} :
    run step s (i :: is) = .ok t' ↔ ∃ t, step s i = .ok t ∧ run step t is = .ok t' := by
  unfold run
  rw [List.foldlM_cons]
  cases h : step s i with
  | error e => simp [bind, Except.bind]
  | ok t => simp [bind, Except.bind]

/-- A run over `is ++ [i]` is a run over `is` and one more step. -/
theorem run_snoc {step : σ → ι → Except ε σ} {s t' : σ} {is : List ι} {i : ι} :
    run step s (is ++ [i]) = .ok t' ↔ ∃ t, run step s is = .ok t ∧ step t i = .ok t' := by
  unfold run
  rw [List.foldlM_append]
  cases h : List.foldlM step s is with
  | error e => simp [bind, Except.bind]
  | ok t => simp [bind, Except.bind, pure, Except.pure]; cases step t i <;> simp

/-- A run over two lists is a run over the first and one over the second from there. -/
theorem run_append (step : σ → ι → Except ε σ) (s : σ) (is js : List ι) :
    run step s (is ++ js) = (run step s is).bind fun t => run step t js := by
  rw [run, List.foldlM_append]
  rfl

/-- A run that ends well has taken each of its steps. -/
theorem exists_step_of_run {step : σ → ι → Except ε σ} {s t u : σ} {past later : List ι} {i : ι}
    (h : run step s (past ++ i :: later) = .ok u) (ht : run step s past = .ok t) :
    ∃ t', step t i = .ok t' := by
  unfold run at h ht
  rw [List.foldlM_append, ht] at h
  obtain ⟨t', hstep, -⟩ := run_cons.mp h
  exact ⟨t', hstep⟩

/-- Steps that check their input and cannot fail otherwise: a run checks all inputs first. -/
theorem run_checked {step : σ → ι → Except ε σ} {P : ι → Prop} {next : σ → ι → σ}
    (h : ∀ s i t, step s i = .ok t ↔ P i ∧ t = next s i) :
    ∀ {is : List ι} {s t : σ}, run step s is = .ok t ↔ (∀ i ∈ is, P i) ∧ t = is.foldl next s
  | [], s, t => by simp [eq_comm]
  | i :: is, s, t => by
      rw [run_cons, List.forall_mem_cons, List.foldl_cons, and_assoc]
      simp only [h, run_checked h]
      constructor
      · rintro ⟨_, ⟨hi, rfl⟩, his⟩
        exact ⟨hi, his⟩
      · rintro ⟨hi, his⟩
        exact ⟨next s i, ⟨hi, rfl⟩, his⟩

/-- **The run rule.** What holds of the empty run and is kept by one more step holds of every
run. The relation may mention the inputs consumed so far. -/
theorem run_induction {step : σ → ι → Except ε σ} {s : σ} {P : List ι → σ → Prop}
    (init : P [] s)
    (next : ∀ is i t t', run step s is = .ok t → P is t → step t i = .ok t' →
      P (is ++ [i]) t') :
    ∀ {is : List ι} {t : σ}, run step s is = .ok t → P is t := by
  intro is
  induction is using List.reverseRecOn with
  | nil =>
      intro t h
      rw [run_nil] at h
      cases h
      exact init
  | append_singleton is i ih =>
      intro t' h
      obtain ⟨t, ht, hstep⟩ := run_snoc.mp h
      exact next is i t t' ht (ih ht) hstep

/-- **A measure that every step brings down** bounds the length of a run. -/
theorem length_le_of_run {step : σ → ι → Except ε σ} {P : σ → Prop} {Q : ι → Prop} {μ : σ → Nat}
    (h : ∀ s i t, P s → Q i → step s i = .ok t → P t ∧ μ t < μ s) :
    ∀ {is : List ι} {s t : σ}, P s → (∀ i ∈ is, Q i) → run step s is = .ok t →
      P t ∧ is.length + μ t ≤ μ s
  | [], s, t, hs, _, hrun => by
      rw [run_nil] at hrun
      cases hrun
      exact ⟨hs, by simp⟩
  | i :: is, s, t, hs, hq, hrun => by
      obtain ⟨s', hstep, hrest⟩ := run_cons.mp hrun
      obtain ⟨hs', hless⟩ := h s i s' hs (hq i (by simp)) hstep
      obtain ⟨ht, hle⟩ := length_le_of_run h hs' (fun j hj => hq j (by simp [hj])) hrest
      refine ⟨ht, ?_⟩
      rw [List.length_cons]
      omega

/-- The computation succeeds with a result that satisfies `P`, or fails with a fault that `E`
allows. -/
def Ends {α : Type} (P : α → Prop) (E : ε → Prop) : Except ε α → Prop
  | .ok a => P a
  | .error e => E e

theorem Ends.imp {α : Type} {P Q : α → Prop} {E : ε → Prop} {r : Except ε α} (h : Ends P E r)
    (hpq : ∀ a, P a → Q a) : Ends Q E r := by
  cases r with
  | ok a => exact hpq a h
  | error e => exact h

theorem Ends.map {α β : Type} {P : α → Prop} {Q : β → Prop} {E : ε → Prop} {r : Except ε α}
    (h : Ends P E r) (f : α → β) (hpq : ∀ a, P a → Q (f a)) : Ends Q E (r.map f) := by
  cases r with
  | ok a => exact hpq a h
  | error e => exact h

theorem Ends.ok {α : Type} {P : α → Prop} {E : ε → Prop} {r : Except ε α} {a : α}
    (h : Ends P E r) (hr : r = .ok a) : P a := by
  rw [hr] at h
  exact h

theorem Ends.error {α : Type} {P : α → Prop} {E : ε → Prop} {r : Except ε α} {e : ε}
    (h : Ends P E r) (hr : r = .error e) : E e := by
  rw [hr] at h
  exact h

/-- A computation in two parts succeeds through a result of its first part. -/
theorem bind_eq_ok {α β : Type} {x : Except ε α} {f : α → Except ε β} {b : β} :
    (x >>= f) = .ok b ↔ ∃ a, x = .ok a ∧ f a = .ok b := by
  cases x with
  | error e => simp [bind, Except.bind]
  | ok a => simp [bind, Except.bind]

/-- A computation in two parts ends as its second part does after the first. -/
theorem Ends.bind {α β : Type} {P : α → Prop} {Q : β → Prop} {E : ε → Prop} {x : Except ε α}
    {f : α → Except ε β} (h : Ends P E x) (hf : ∀ a, P a → Ends Q E (f a)) :
    Ends Q E (x >>= f) := by
  cases x with
  | error e => exact h
  | ok a => exact hf a h

/-- A run whose steps keep `P` or fail with an allowed fault does so as a whole. -/
theorem ends_run {step : σ → ι → Except ε σ} {P : σ → Prop} {E : ε → Prop}
    (next : ∀ t i, P t → Ends P E (step t i)) :
    ∀ {is : List ι} {s : σ}, P s → Ends P E (run step s is)
  | [], _, hs => hs
  | i :: is, s, hs => by
      have hstep := next s i hs
      unfold run
      rw [List.foldlM_cons]
      cases hi : step s i with
      | error e => exact hstep.error hi
      | ok t => exact ends_run next (hstep.ok hi)

/-- A computation that succeeds with a result that passes a check has such a result. This is
how a concrete run is evaluated. -/
theorem exists_ok_of_check {α : Type} {r : Except ε α} {p : α → Bool}
    (h : r.toOption.any p = true) : ∃ a, r = .ok a ∧ p a = true := by
  cases r with
  | error e => simp [Except.toOption] at h
  | ok a => exact ⟨a, rfl, by simpa [Except.toOption] using h⟩

/-- The same for a computation that fails. -/
theorem eq_error_of_check {α : Type} [DecidableEq ε] {r : Except ε α} {e : ε}
    (h : (match r with
      | .error x => decide (x = e)
      | .ok _ => false) = true) : r = .error e := by
  cases r with
  | error x => rw [of_decide_eq_true h]
  | ok a => cases h

end Run

/-! ## Histories -/

section History

variable {α : Type}

/-- Every entry of the history stands in relation `P` to what was written before it. -/
def Always (P : List α → α → Prop) (h : List α) : Prop :=
  ∀ past e later, h = past ++ e :: later → P past e

theorem always_nil (P : List α → α → Prop) : Always P [] := by
  intro past e later h
  simp at h

/-- Writing one more entry only adds that entry's obligation. -/
theorem always_snoc {P : List α → α → Prop} {h : List α} {e : α} :
    Always P (h ++ [e]) ↔ Always P h ∧ P h e := by
  constructor
  · intro hp
    refine ⟨?_, hp h e [] rfl⟩
    intro past x later hx
    exact hp past x (later ++ [e]) (by simp [hx])
  · rintro ⟨hp, he⟩ past x later hx
    rcases List.eq_nil_or_concat' later with rfl | ⟨later', y, rfl⟩
    · have := List.append_inj' hx rfl
      obtain ⟨rfl, hxe⟩ := this
      cases hxe
      exact he
    · have hx' : h ++ [e] = (past ++ x :: later') ++ [y] := by simp [hx]
      obtain ⟨rfl, -⟩ := List.append_inj' hx' rfl
      exact hp past x later' rfl

/-- A block of entries that satisfy `P` whatever came before them keeps an `Always`. -/
theorem always_append {P : List α → α → Prop} {h es : List α} (hh : Always P h)
    (hes : ∀ past, ∀ e ∈ es, P past e) : Always P (h ++ es) := by
  induction es using List.reverseRecOn with
  | nil => simpa using hh
  | append_singleton es e ih =>
      rw [← List.append_assoc, always_snoc]
      constructor
      · exact ih fun past x hx => hes past x (by simp [hx])
      · exact hes (h ++ es) e (by simp)

/-- A demand on the entries written from now on holds of those written so far. -/
theorem always_from_now (P : List α → α → Prop) (h : List α) :
    Always (fun past e => h.length ≤ past.length → P past e) h := by
  intro past e later hsplit hle
  rw [hsplit, List.length_append, List.length_cons] at hle
  omega

/-- Some entry satisfies `p` and no entry after it satisfies `q`. -/
def Since (p q : α → Prop) (h : List α) : Prop :=
  ∃ past e later, h = past ++ e :: later ∧ p e ∧ ∀ x ∈ later, ¬ q x

theorem since_snoc_of_start {p q : α → Prop} {h : List α} {e : α} (he : p e) :
    Since p q (h ++ [e]) :=
  ⟨h, e, [], rfl, he, by simp⟩

theorem Since.snoc {p q : α → Prop} {h : List α} {e : α} (hs : Since p q h) (he : ¬ q e) :
    Since p q (h ++ [e]) := by
  obtain ⟨past, x, later, rfl, hx, hlater⟩ := hs
  refine ⟨past, x, later ++ [e], by simp, hx, ?_⟩
  intro y hy
  rcases List.mem_append.mp hy with hy | hy
  · exact hlater y hy
  · rw [List.mem_singleton] at hy
    exact hy ▸ he

theorem since_snoc {p q : α → Prop} {h : List α} {e : α} :
    Since p q (h ++ [e]) ↔ p e ∨ Since p q h ∧ ¬ q e := by
  constructor
  · rintro ⟨past, x, later, hsplit, hx, hlater⟩
    rcases List.eq_nil_or_concat' later with rfl | ⟨later, y, rfl⟩
    · obtain ⟨rfl, hlast⟩ := List.append_inj' hsplit rfl
      cases hlast
      exact .inl hx
    · have hbefore : h ++ [e] = (past ++ x :: later) ++ [y] := by simp [hsplit]
      obtain ⟨rfl, hlast⟩ := List.append_inj' hbefore rfl
      cases hlast
      exact .inr ⟨⟨past, x, later, rfl, hx, fun z hz => hlater z (by simp [hz])⟩,
        hlater e (by simp)⟩
  · rintro (he | ⟨hs, he⟩)
    · exact since_snoc_of_start he
    · exact hs.snoc he

/-- A block of entries none of which satisfies `q` keeps a `Since`. -/
theorem Since.append {p q : α → Prop} {h es : List α} (hs : Since p q h)
    (hes : ∀ e ∈ es, ¬ q e) : Since p q (h ++ es) := by
  obtain ⟨past, x, later, rfl, hx, hlater⟩ := hs
  refine ⟨past, x, later ++ es, by simp, hx, ?_⟩
  intro y hy
  rcases List.mem_append.mp hy with hy | hy
  · exact hlater y hy
  · exact hes y hy

end History

/-! ## The steps of a run -/

section Along

variable {σ ι ε : Type} {step : σ → ι → Except ε σ} {s : σ} {P : List ι → σ → ι → Prop}

/-- Whenever the run takes an input, it stands in relation `P` to the inputs before it and to the
state that it is taken in. -/
def Along (step : σ → ι → Except ε σ) (s : σ) (P : List ι → σ → ι → Prop) (is : List ι) : Prop :=
  Always (fun past i => ∀ t, run step s past = .ok t → P past t i) is

theorem along_nil : Along step s P [] := always_nil _

theorem along_snoc {is : List ι} {i : ι} :
    Along step s P (is ++ [i]) ↔ Along step s P is ∧ ∀ t, run step s is = .ok t → P is t i :=
  always_snoc

/-- What follows from `P` in every step of a run. -/
theorem Along.imp {Q : List ι → σ → ι → Prop} {is : List ι} (h : Along step s P is)
    (hpq : ∀ past i t, run step s past = .ok t → Along step s P past → P past t i → Q past t i) :
    Along step s Q is := by
  induction is using List.reverseRecOn with
  | nil => exact along_nil
  | append_singleton is i ih =>
      obtain ⟨hbefore, hlast⟩ := along_snoc.mp h
      refine along_snoc.mpr ⟨ih hbefore, fun t ht => ?_⟩
      exact hpq is i t ht hbefore (hlast t ht)

/-- **The run rule** for runs all of whose steps are known to be of a kind. -/
theorem run_induction_along {R : List ι → σ → Prop} (init : R [] s)
    (next : ∀ is i t t', run step s is = .ok t → R is t → P is t i → step t i = .ok t' →
      R (is ++ [i]) t') :
    ∀ {is : List ι} {t : σ}, Along step s P is → run step s is = .ok t → R is t := by
  intro is t halong h
  revert halong
  apply run_induction (P := fun is t => Along step s P is → R is t) ?_ ?_ h
  · exact fun _ => init
  · intro is i t t' ht ih hstep halong
    obtain ⟨hbefore, hlast⟩ := along_snoc.mp halong
    exact next is i t t' ht (ih hbefore) (hlast t ht) hstep

/-- The same for runs that may fail: if the steps of the kind keep `R` or fail with an allowed
fault, so does the run. -/
theorem ends_run_along {R : σ → Prop} {E : ε → Prop} (init : R s)
    (next : ∀ is i t, run step s is = .ok t → R t → P is t i → Ends R E (step t i))
    {is : List ι} (halong : Along step s P is) : Ends R E (run step s is) := by
  induction is using List.reverseRecOn with
  | nil => exact init
  | append_singleton is i ih =>
      obtain ⟨hbefore, hlast⟩ := along_snoc.mp halong
      have hall : run step s (is ++ [i]) = (run step s is).bind fun t => step t i := by
        unfold run
        rw [List.foldlM_append]
        cases List.foldlM step s is with
        | error e => rfl
        | ok t => simp [bind, Except.bind, pure, Except.pure]; cases step t i <;> rfl
      have hrun := ih hbefore
      rw [hall]
      cases ht : run step s is with
      | error e => exact hrun.error ht
      | ok t => exact next is i t ht (hrun.ok ht) (hlast t ht)

/-- Some step of the run stands in relation `P` to the inputs before it and to the state that it
is taken in. -/
def Happens (step : σ → ι → Except ε σ) (s : σ) (P : List ι → σ → ι → Prop) (is : List ι) : Prop :=
  ∃ past i later t, is = past ++ i :: later ∧ run step s past = .ok t ∧ P past t i

theorem Happens.not_along {is : List ι} (h : Happens step s (fun past t i => ¬ P past t i) is) :
    ¬ Along step s P is := by
  obtain ⟨past, i, later, t, his, ht, hp⟩ := h
  exact fun halong => hp (halong past i later his t ht)

theorem happens_snoc {is : List ι} {i : ι} :
    Happens step s P (is ++ [i]) ↔ Happens step s P is ∨ ∃ t, run step s is = .ok t ∧ P is t i := by
  constructor
  · rintro ⟨past, x, later, t, his, ht, hp⟩
    rcases List.eq_nil_or_concat' later with rfl | ⟨later, y, rfl⟩
    · obtain ⟨rfl, hx⟩ := List.append_inj' his rfl
      cases hx
      exact .inr ⟨t, ht, hp⟩
    · have hbefore : is ++ [i] = (past ++ x :: later) ++ [y] := by simp [his]
      obtain ⟨rfl, -⟩ := List.append_inj' hbefore rfl
      exact .inl ⟨past, x, later, t, rfl, ht, hp⟩
  · rintro (⟨past, x, later, t, rfl, ht, hp⟩ | ⟨t, ht, hp⟩)
    · exact ⟨past, x, later ++ [i], t, by simp, ht, hp⟩
    · exact ⟨is, i, [], t, rfl, ht, hp⟩

/-- `Along` for a property that can be computed. -/
def alongCheck (step : σ → ι → Except ε σ) (p : σ → ι → Bool) : σ → List ι → Bool
  | _, [] => true
  | s, i :: is => p s i &&
      match step s i with
      | .error _ => true
      | .ok t => alongCheck step p t is

theorem along_of_check {p : σ → ι → Bool} {is : List ι} (h : alongCheck step p s is = true) :
    Along step s (fun _ t i => p t i = true) is := by
  induction is generalizing s with
  | nil => exact along_nil
  | cons i is ih =>
      rw [alongCheck, Bool.and_eq_true] at h
      obtain ⟨hfirst, hrest⟩ := h
      intro past x later his t ht
      cases past with
      | nil =>
          cases his
          rw [run_nil] at ht
          cases ht
          exact hfirst
      | cons y past =>
          obtain ⟨rfl, htail⟩ := List.cons.inj his
          obtain ⟨u, hstep, ht⟩ := run_cons.mp ht
          simp only [hstep] at hrest
          exact ih hrest past x later htail t ht

end Along

end NetworkProjects.Lib
