import NetworkProjects.Lib.Bytes

/-!
# Memory seen through a window

A program that is handed `limit` bytes may read those and no others. `Load` is what one byte
load does, and a function that takes one can be run twice: on `unbounded mem`, where every load
returns what the memory holds, and on `window e limit mem`, where a load behind the limit is the
fault `e`. A run through the window that ends without a fault has read inside it, and computes
what the unbounded run computes (`bytes_window_ok`, `strncmp_window_ok`).
-/

namespace NetworkProjects.Lib

variable {ε : Type}

/-- A one-byte load. -/
abbrev Load (ε : Type) := Nat → Except ε UInt8

/-- Every load returns what the memory holds. -/
def unbounded (mem : Nat → UInt8) : Load ε := fun i => .ok (mem i)

/-- The first `limit` bytes of the memory. -/
def window (e : ε) (limit : Nat) (mem : Nat → UInt8) : Load ε :=
  fun i => if i < limit then .ok (mem i) else .error e

theorem window_of_lt {e : ε} {limit i : Nat} {mem : Nat → UInt8} (h : i < limit) :
    window e limit mem i = .ok (mem i) := if_pos h

theorem window_of_le {e : ε} {limit i : Nat} {mem : Nat → UInt8} (h : limit ≤ i) :
    window e limit mem i = .error e := if_neg (Nat.not_lt.mpr h)

/-! ## Fields -/

/-- `n` bytes of memory from an offset. -/
def memSlice (mem : Nat → UInt8) (off n : Nat) : Bytes := (List.range n).map fun i => mem (off + i)

/-- Load `n` bytes from an offset, the lowest first. -/
def Load.bytes (rd : Load ε) (off : Nat) : Nat → Except ε Bytes
  | 0 => .ok []
  | n + 1 =>
      match rd off with
      | .error e => .error e
      | .ok c => (Load.bytes rd (off + 1) n).map (c :: ·)

theorem memSlice_succ (mem : Nat → UInt8) (off n : Nat) :
    memSlice mem off (n + 1) = mem off :: memSlice mem (off + 1) n := by
  simp only [memSlice, List.range_succ_eq_map, List.map_cons, List.map_map, Nat.add_zero]
  congr 1
  apply List.map_congr_left
  intro i _
  show mem (off + (i + 1)) = mem (off + 1 + i)
  congr 1
  omega

theorem length_memSlice (mem : Nat → UInt8) (off n : Nat) : (memSlice mem off n).length = n := by
  simp [memSlice]

theorem byteAt_memSlice {mem : Nat → UInt8} {off n i : Nat} (h : i < n) :
    byteAt (memSlice mem off n) i = mem (off + i) := by
  simp [byteAt, memSlice, h]

theorem bytes_unbounded (mem : Nat → UInt8) (off n : Nat) :
    (unbounded mem : Load ε).bytes off n = .ok (memSlice mem off n) := by
  induction n generalizing off with
  | zero => rfl
  | succ n ih =>
      rw [memSlice_succ]
      simp only [Load.bytes, unbounded] at ih ⊢
      rw [ih]
      rfl

/-- A field inside the window is read. -/
theorem bytes_window {e : ε} {limit off n : Nat} (mem : Nat → UInt8) (h : off + n ≤ limit) :
    (window e limit mem).bytes off n = .ok (memSlice mem off n) := by
  induction n generalizing off with
  | zero => rfl
  | succ n ih =>
      rw [memSlice_succ, Load.bytes, window_of_lt (by omega)]
      show ((window e limit mem).bytes (off + 1) n).map _ = _
      rw [ih (by omega)]
      rfl

/-- A field that is read stands inside the window. -/
theorem bytes_window_ok {e : ε} {limit off n : Nat} {mem : Nat → UInt8} {bs : Bytes}
    (h : (window e limit mem).bytes off n = .ok bs) : n = 0 ∨ off + n ≤ limit := by
  induction n generalizing off bs with
  | zero => exact .inl rfl
  | succ n ih =>
      rcases Nat.lt_or_ge off limit with hlt | hge
      · rw [Load.bytes, window_of_lt hlt] at h
        cases hrest : (window e limit mem).bytes (off + 1) n with
        | error e => rw [hrest] at h; cases h
        | ok rest =>
            rcases ih hrest with rfl | hle
            · exact .inr (by omega)
            · exact .inr (by omega)
      · rw [Load.bytes, window_of_le hge] at h
        cases h

/-! ## `strncmp` -/

/-- `strncmp(s, p, n) == 0` for the array `s` of `n` characters: the two are compared up to the
first difference, the first NUL, or the end of `s`. -/
def strncmp (rd : Load ε) : Bytes → Nat → Except ε Bool
  | [], _ => .ok true
  | c :: s, off =>
      match rd off with
      | .error e => .error e
      | .ok d => if c ≠ d then .ok false else if c = 0 then .ok true else strncmp rd s (off + 1)

/-- Some character in front of `limit` ends the comparison, or `s` does. -/
def Settles (limit : Nat) (mem : Nat → UInt8) : Bytes → Nat → Prop
  | [], _ => True
  | c :: s, off => off < limit ∧ (c ≠ mem off ∨ c = 0 ∨ Settles limit mem s (off + 1))

theorem settles_iff {limit : Nat} {mem : Nat → UInt8} {s : Bytes} {off : Nat} :
    Settles limit mem s off ↔ off + s.length ≤ limit ∨ s = [] ∨
      ∃ i < s.length, off + i < limit ∧ (byteAt s i ≠ mem (off + i) ∨ byteAt s i = 0) := by
  induction s generalizing off with
  | nil => simp [Settles]
  | cons c s ih =>
      simp only [Settles, ih, List.length_cons, List.cons_ne_nil, false_or]
      constructor
      · rintro ⟨hlt, hne | hnul | hle | rfl | ⟨i, hi, hin, hend⟩⟩
        · exact .inr ⟨0, by omega, hlt, .inl hne⟩
        · exact .inr ⟨0, by omega, hlt, .inr hnul⟩
        · exact .inl (by omega)
        · exact .inl (by simp only [List.length_nil]; omega)
        · refine .inr ⟨i + 1, by omega, by omega, ?_⟩
          rw [show off + (i + 1) = off + 1 + i by omega]
          exact hend
      · rintro (hle | ⟨i, hi, hin, hend⟩)
        · exact ⟨by omega, .inr (.inr (.inl (by omega)))⟩
        · refine ⟨by omega, ?_⟩
          cases i with
          | zero =>
              rcases hend with hne | hnul
              · exact .inl hne
              · exact .inr (.inl hnul)
          | succ i =>
              refine .inr (.inr (.inr (.inr ⟨i, by omega, by omega, ?_⟩)))
              rw [show off + 1 + i = off + (i + 1) by omega]
              exact hend

theorem Settles.mono {limit limit' : Nat} {mem : Nat → UInt8} {s : Bytes} {off : Nat}
    (h : Settles limit mem s off) (hle : limit ≤ limit') : Settles limit' mem s off := by
  induction s generalizing off with
  | nil => trivial
  | cons c s ih =>
      obtain ⟨hlt, hend⟩ := h
      refine ⟨by omega, ?_⟩
      rcases hend with hne | hnul | hrest
      · exact .inl hne
      · exact .inr (.inl hnul)
      · exact .inr (.inr (ih hrest))

instance (limit : Nat) (mem : Nat → UInt8) (s : Bytes) (off : Nat) :
    Decidable (Settles limit mem s off) := decidable_of_iff _ settles_iff.symm

/-- A comparison that is settled in front of the limit is the one on the whole memory. -/
theorem strncmp_window {e : ε} {limit : Nat} {mem : Nat → UInt8} {s : Bytes} {off : Nat}
    (h : Settles limit mem s off) :
    strncmp (window e limit mem) s off = strncmp (unbounded mem) s off := by
  induction s generalizing off with
  | nil => rfl
  | cons c s ih =>
      obtain ⟨hlt, hend⟩ := h
      simp only [strncmp, window_of_lt hlt, unbounded]
      split
      · rfl
      · next heq =>
        split
        · rfl
        · next hnul =>
          rcases hend with hne | hnul' | hrest
          · exact absurd hne heq
          · exact absurd hnul' hnul
          · exact ih hrest

/-- A comparison that comes to an end was settled in front of the limit. -/
theorem strncmp_window_ok {e : ε} {limit : Nat} {mem : Nat → UInt8} {s : Bytes} {off : Nat}
    {b : Bool} (h : strncmp (window e limit mem) s off = .ok b) : Settles limit mem s off := by
  induction s generalizing off with
  | nil => trivial
  | cons c s ih =>
      rcases Nat.lt_or_ge off limit with hlt | hge
      · refine ⟨hlt, ?_⟩
        simp only [strncmp, window_of_lt hlt] at h
        split at h
        · next hne => exact .inl hne
        · split at h
          · next hnul => exact .inr (.inl hnul)
          · exact .inr (.inr (ih h))
      · rw [strncmp, window_of_le hge] at h
        cases h

/-- An array that ends a string inside it, against a string in memory: they are equal if the strings
are, and nothing behind the string in memory is looked at. -/
theorem strncmp_string {mem : Nat → UInt8} {s t : Bytes} {off : Nat} (rest : Bytes) (hs : 0 ∉ s)
    (ht : 0 ∉ t)
    (hmem : ∀ i ≤ t.length, mem (off + i) = byteAt (t ++ [0]) i) :
    strncmp (unbounded mem : Load ε) (s ++ 0 :: rest) off = .ok (decide (s = t)) ∧
      Settles (off + t.length + 1) mem (s ++ 0 :: rest) off := by
  induction s generalizing t off with
  | nil =>
      have hfirst := hmem 0 (Nat.zero_le _)
      rw [Nat.add_zero] at hfirst
      rw [List.nil_append, strncmp, unbounded, Settles, hfirst]
      -- `s` is at its terminator, and the comparison ends there whatever memory holds
      refine ⟨?_, by omega, .inr (.inl rfl)⟩
      cases t with
      | nil => rfl
      | cons d t =>
          have hne : (0 : UInt8) ≠ d := fun h => ht (h ▸ List.mem_cons_self)
          exact if_pos hne
  | cons c s ih =>
      rw [List.mem_cons, not_or] at hs
      obtain ⟨hc, hs⟩ := hs
      have hfirst := hmem 0 (Nat.zero_le _)
      rw [Nat.add_zero] at hfirst
      rw [List.cons_append, strncmp, unbounded, Settles, hfirst]
      cases t with
      -- memory holds the terminator of `t` against a byte of `s`
      | nil => exact ⟨if_pos (Ne.symm hc), by omega, .inl (Ne.symm hc)⟩
      | cons d t =>
          have hd : byteAt (d :: t ++ [0]) 0 = d := rfl
          rw [hd]
          by_cases hcd : c = d
          · subst hcd
            have hlater : ∀ i ≤ t.length, mem (off + 1 + i) = byteAt (t ++ [0]) i := by
              intro i hi
              have hlater := hmem (i + 1) (by rw [List.length_cons]; omega)
              rwa [show off + (i + 1) = off + 1 + i by omega] at hlater
            have hnext := ih hs (fun h => ht (List.mem_cons_of_mem c h)) hlater
            have hend : off + 1 + t.length + 1 = off + (c :: t).length + 1 := by
              rw [List.length_cons]
              omega
            rw [hend] at hnext
            refine ⟨?_, by omega, .inr (.inr hnext.2)⟩
            dsimp only
            rw [if_neg (fun h => h rfl), if_neg (Ne.symm hc), hnext.1]
            simp
          · refine ⟨?_, by omega, .inl hcd⟩
            dsimp only
            rw [if_pos hcd]
            simp [hcd]

end NetworkProjects.Lib
