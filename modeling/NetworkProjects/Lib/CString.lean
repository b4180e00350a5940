import NetworkProjects.Lib.Bytes
import Mathlib.Data.List.Infix
import Mathlib.Data.List.TakeWhile

/-!
# NUL-terminated strings in a buffer

A C string is what stands between a pointer and the next NUL: `cstrAt b off`, which is `none`
when a scan for the NUL would leave the buffer. The search functions work on that text.

`strtok_r` works on the buffer, since it writes: it puts a NUL behind the token it returns.
`strtokR_token` and `strtokR_none` say what a call does, `strtokR_eq_some` and
`strtokR_eq_none` what one has done; all that is said of the buffer is which strings it holds.
On a buffer whose last byte is a NUL no call leaves the buffer (`Terminated.strtokR`).
-/

namespace NetworkProjects.Lib

/-! ## Strings

`cstr` scans from the front of a list of bytes, `cstrAt` from an offset. A string is given by its
bytes and the NUL behind them. -/

/-- The bytes up to the first NUL, if there is one. -/
def cstr : Bytes → Option Bytes
  | [] => none
  | c :: rest => if c = 0 then some [] else (cstr rest).map (c :: ·)

/-- The string at an offset. -/
def cstrAt (b : Bytes) (off : Nat) : Option Bytes := cstr (b.drop off)

theorem cstr_eq_some {b s : Bytes} : cstr b = some s ↔ ∃ post, b = s ++ 0 :: post ∧ 0 ∉ s := by
  induction b generalizing s with
  | nil => simp [cstr]
  | cons c rest ih =>
      by_cases hc : c = 0
      · -- the terminator: the string is empty
        subst hc
        simp only [cstr, if_true, Option.some.injEq]
        constructor
        · rintro rfl
          exact ⟨rest, rfl, by simp⟩
        · rintro ⟨post, heq, hs⟩
          cases s with
          | nil => rfl
          | cons d s =>
              rw [List.cons_append, List.cons.injEq] at heq
              exact absurd (heq.1 ▸ List.mem_cons_self) hs
      · simp only [cstr, if_neg hc, Option.map_eq_some_iff, ih]
        constructor
        · rintro ⟨t, ⟨post, rfl, ht⟩, rfl⟩
          refine ⟨post, rfl, ?_⟩
          simp only [List.mem_cons, not_or]
          exact ⟨Ne.symm hc, ht⟩
        · rintro ⟨post, heq, hs⟩
          cases s with
          | nil => exact absurd (List.cons.inj heq).1 hc
          | cons d s =>
              rw [List.cons_append, List.cons.injEq] at heq
              simp only [List.mem_cons, not_or] at hs
              exact ⟨s, ⟨post, heq.2, hs.2⟩, by rw [heq.1]⟩

theorem cstr_append {s : Bytes} (hs : 0 ∉ s) (post : Bytes) : cstr (s ++ 0 :: post) = some s :=
  cstr_eq_some.mpr ⟨post, rfl, hs⟩

theorem cstrAt_eq_some {b s : Bytes} {off : Nat} :
    cstrAt b off = some s ↔ ∃ post, b.drop off = s ++ 0 :: post ∧ 0 ∉ s :=
  cstr_eq_some

theorem cstrAt_zero (b : Bytes) : cstrAt b 0 = cstr b := rfl

/-- A string ends inside its buffer. -/
theorem cstrAt_lt {b s : Bytes} {off : Nat} (h : cstrAt b off = some s) :
    off + s.length < b.length := by
  obtain ⟨post, heq, -⟩ := cstrAt_eq_some.mp h
  have hlen := congrArg List.length heq
  simp only [List.length_drop, List.length_append, List.length_cons] at hlen
  omega

/-- The rest of a string is the string at its offset. -/
theorem cstrAt_drop {b s t : Bytes} {off : Nat} (h : cstrAt b off = some (s ++ t)) :
    cstrAt b (off + s.length) = some t := by
  obtain ⟨post, heq, hnul⟩ := cstrAt_eq_some.mp h
  refine cstrAt_eq_some.mpr ⟨post, ?_, fun hmem => hnul (by simp [hmem])⟩
  rw [← List.drop_drop, heq, List.append_assoc, List.drop_left]

/-- A string, byte by byte. -/
theorem cstrAt_iff {b s : Bytes} {off : Nat} :
    cstrAt b off = some s ↔ off + s.length < b.length ∧ 0 ∉ s ∧
      (∀ i < s.length, byteAt b (off + i) = byteAt s i) ∧ byteAt b (off + s.length) = 0 := by
  constructor
  · intro h
    obtain ⟨post, heq, hnul⟩ := cstrAt_eq_some.mp h
    refine ⟨cstrAt_lt h, hnul, ?_, ?_⟩
    · intro i hi
      rw [← byteAt_drop, heq, byteAt_append_left hi]
    · rw [← byteAt_drop, heq, byteAt_append_right (Nat.le_refl _), Nat.sub_self]
      rfl
  · rintro ⟨hlt, hnul, hbytes, hend⟩
    refine cstrAt_eq_some.mpr ⟨b.drop (off + s.length + 1), ?_, hnul⟩
    have hlen : (b.drop off).length = (s ++ 0 :: b.drop (off + s.length + 1)).length := by
      simp only [List.length_drop, List.length_append, List.length_cons]
      omega
    apply ext_byteAt hlen
    intro i hi
    rw [byteAt_drop]
    -- the bytes of the string, its terminator, and what stands behind it
    by_cases his : i < s.length
    · rw [byteAt_append_left his, hbytes i his]
    · rw [byteAt_append_right (by omega)]
      rcases Nat.eq_or_lt_of_not_lt his with heq | hlt
      · rw [heq, hend, Nat.sub_self]
        rfl
      · obtain ⟨k, hk⟩ : ∃ k, i - s.length = k + 1 := ⟨i - s.length - 1, by omega⟩
        have hcons : ∀ (p : Bytes), byteAt (0 :: p) (k + 1) = byteAt p k := fun _ => rfl
        rw [hk, hcons, byteAt_drop]
        congr 1
        omega

/-! ## Writing into a buffer

What a single NUL written into a buffer does to the strings of the buffer: one is cut, a new one
begins behind it, and the others stay. -/

/-- **The frame rule.** A string that ends before the written byte, or starts behind it, stays. -/
theorem cstrAt_store {b s : Bytes} {off e : Nat} {c : UInt8} (h : cstrAt b off = some s)
    (he : e < b.length) (hdisj : off + s.length < e ∨ e < off) :
    cstrAt (store b e [c]) off = some s := by
  obtain ⟨hlt, hnul, hbytes, hend⟩ := cstrAt_iff.mp h
  have hwrite : e + [c].length ≤ b.length := he
  have hout : ∀ i ≤ s.length, byteAt (store b e [c]) (off + i) = byteAt b (off + i) := by
    intro i hi
    apply byteAt_store_of_not_mem hwrite
    simp only [List.length_singleton]
    omega
  refine cstrAt_iff.mpr ⟨?_, hnul, ?_, ?_⟩
  · rw [length_store hwrite]
    exact hlt
  · intro i hi
    rw [hout i (Nat.le_of_lt hi), hbytes i hi]
  · rw [hout _ (Nat.le_refl _), hend]

/-- A NUL written into a string ends it there. -/
theorem cstrAt_cut {b s t : Bytes} {off : Nat} {d : UInt8}
    (h : cstrAt b off = some (s ++ d :: t)) :
    cstrAt (store b (off + s.length) [0]) off = some s := by
  obtain ⟨hlt, hnul, hbytes, -⟩ := cstrAt_iff.mp h
  simp only [List.length_append, List.length_cons] at hlt hbytes
  have hwrite : off + s.length + ([0] : Bytes).length ≤ b.length := by
    simp only [List.length_singleton]
    omega
  refine cstrAt_iff.mpr ⟨?_, fun hmem => hnul (by simp [hmem]), ?_, ?_⟩
  · rw [length_store hwrite]
    omega
  · intro i hi
    rw [byteAt_store_of_not_mem hwrite (by omega), hbytes i (by omega), byteAt_append_left hi]
  · rw [byteAt_store_of_mem hwrite (Nat.le_refl _) (by simp), Nat.sub_self]
    rfl

/-- What stands behind the cut is a string of its own. -/
theorem cstrAt_behind_cut {b s t : Bytes} {off : Nat} {d : UInt8}
    (h : cstrAt b off = some (s ++ d :: t)) :
    cstrAt (store b (off + s.length) [0]) (off + s.length + 1) = some t := by
  have hlt := cstrAt_lt h
  simp only [List.length_append, List.length_cons] at hlt
  have hrest : cstrAt b (off + s.length + 1) = some t := by
    have := cstrAt_drop (s := s ++ [d]) (by simpa using h)
    simpa [Nat.add_assoc] using this
  exact cstrAt_store hrest (by omega) (.inr (by omega))

/-! ## `strtok_r`

A call is described by the split of the text into delimiters, token and rest. The frame condition is
part of the description, so that several calls can be put together. -/

/-- `strtok_r` on the text at `off`, with the delimiters in `delim`: the buffer afterwards, the
token if there is one, and what is stored in `saveptr`. -/
def strtokR (b : Bytes) (off : Nat) (delim : Bytes) : Option (Bytes × Option Nat × Nat) :=
  match cstrAt b off with
  | none => none
  | some s =>
      let lead := s.takeWhile (· ∈ delim)
      let rest := s.dropWhile (· ∈ delim)
      if rest = [] then some (b, none, off + lead.length)
      else
        let tok := rest.takeWhile (· ∉ delim)
        let start := off + lead.length
        if rest.length = tok.length then some (b, some start, start + tok.length)
        else some (store b (start + tok.length) [0], some start, start + tok.length + 1)

section Strtok

variable {b s lead tok tail rest delim : Bytes} {off : Nat} {c d : UInt8}

/-- Leading delimiters end at the first other character. -/
theorem span_lead (rest : Bytes) (hlead : ∀ c ∈ lead, c ∈ delim) (hc : c ∉ delim) :
    (lead ++ c :: rest).takeWhile (· ∈ delim) = lead ∧
      (lead ++ c :: rest).dropWhile (· ∈ delim) = c :: rest := by
  have hlead' : ∀ x ∈ lead, decide (x ∈ delim) = true := by simpa using hlead
  constructor
  · rw [List.takeWhile_append_of_pos hlead', List.takeWhile_cons_of_neg (by simpa using hc),
      List.append_nil]
  · rw [List.dropWhile_append_of_pos hlead', List.dropWhile_cons_of_neg (by simpa using hc)]

/-- A token ends at the first delimiter behind it. -/
theorem span_token (rest : Bytes) (htok : ∀ c ∈ tok, c ∉ delim) (hd : d ∈ delim) :
    (tok ++ d :: rest).takeWhile (· ∉ delim) = tok ∧ tok.takeWhile (· ∉ delim) = tok := by
  have htok' : ∀ x ∈ tok, decide (x ∉ delim) = true := by simpa using htok
  constructor
  · rw [List.takeWhile_append_of_pos htok', List.takeWhile_cons_of_neg (by simpa using hd),
      List.append_nil]
  · exact List.takeWhile_eq_self_iff.mpr htok'

/-- What stands before the first byte that is not in a class, and the rest, is determined. -/
theorem span_unique {p : UInt8 → Prop} {s₁ s₂ r₁ r₂ : Bytes} (h₁ : ∀ c ∈ s₁, p c)
    (h₂ : ∀ c ∈ s₂, p c) (hr₁ : ∀ c ∈ r₁.head?, ¬ p c) (hr₂ : ∀ c ∈ r₂.head?, ¬ p c)
    (h : s₁ ++ r₁ = s₂ ++ r₂) : s₁ = s₂ ∧ r₁ = r₂ := by
  induction s₁ generalizing s₂ with
  | nil =>
      cases s₂ with
      | nil => exact ⟨rfl, h⟩
      | cons c s₂ =>
          have hhead : r₁.head? = some c := by rw [← List.nil_append r₁, h]; rfl
          exact absurd (h₂ c List.mem_cons_self) (hr₁ c hhead)
  | cons c s₁ ih =>
      cases s₂ with
      | nil =>
          have hhead : r₂.head? = some c := by rw [← List.nil_append r₂, ← h]; rfl
          exact absurd (h₁ c List.mem_cons_self) (hr₂ c hhead)
      | cons d s₂ =>
          rw [List.cons_append, List.cons_append, List.cons.injEq] at h
          obtain ⟨hs, hr⟩ := ih (fun c hc => h₁ c (List.mem_cons_of_mem _ hc))
            (fun c hc => h₂ c (List.mem_cons_of_mem _ hc)) h.2
          exact ⟨by rw [h.1, hs], hr⟩

/-- Only delimiters are left. -/
theorem strtokR_none (delim : Bytes) (h : cstrAt b off = some s) (hs : ∀ c ∈ s, c ∈ delim) :
    strtokR b off delim = some (b, none, off + s.length) := by
  have hs' : ∀ x ∈ s, decide (x ∈ delim) = true := by simpa using hs
  have hdrop : s.dropWhile (· ∈ delim) = [] := List.dropWhile_eq_nil_iff.mpr hs'
  have htake : s.takeWhile (· ∈ delim) = s := List.takeWhile_eq_self_iff.mpr hs'
  simp only [strtokR, h, hdrop, htake, if_true]

/-- What `strtok_r` has done to the buffer when it has found the token `tok` of the string `s`
at `off`, with `tail` behind it: the token and the rest are strings now, and strings elsewhere
are as before. -/
structure Tokenized (b b' : Bytes) (off : Nat) (s tok tail : Bytes) (start save : Nat) : Prop where
  length : b'.length = b.length
  token : cstrAt b' start = some tok
  rest : cstrAt b' save = some tail.tail
  frame : ∀ o u, cstrAt b o = some u → o + u.length < off ∨ off + s.length < o →
    cstrAt b' o = some u

/-- A token that is found is cut off from what stands behind it. -/
theorem strtokR_found (delim : Bytes) (h : cstrAt b off = some (lead ++ tok ++ tail))
    (hlead : ∀ c ∈ lead, c ∈ delim) (hne : tok ≠ []) (htok : ∀ c ∈ tok, c ∉ delim)
    (htail : ∀ c ∈ tail.head?, c ∈ delim) :
    strtokR b off delim
      = some (if tail = [] then b else store b (off + lead.length + tok.length) [0],
          some (off + lead.length), off + lead.length + tok.length + min 1 tail.length) := by
  obtain ⟨c, r, rfl⟩ := List.exists_cons_of_ne_nil hne
  cases tail with
  | nil =>
      rw [List.append_nil] at h
      obtain ⟨htake, hdrop⟩ := span_lead r hlead (htok c (by simp))
      have hall : (c :: r).takeWhile (· ∉ delim) = c :: r :=
        List.takeWhile_eq_self_iff.mpr (by simpa using htok)
      simp only [strtokR, h, htake, hdrop, hall, reduceCtorEq, if_false, if_true,
        List.length_nil, Nat.min_zero, Nat.add_zero]
  | cons d rest =>
      rw [List.append_assoc, List.cons_append] at h
      obtain ⟨htake, hdrop⟩ := span_lead (r ++ d :: rest) hlead (htok c (by simp))
      have hspan := span_token rest htok (htail d rfl)
      have hlen : (c :: (r ++ d :: rest)).length ≠ (c :: r).length := by simp
      have hmin : min 1 (d :: rest).length = 1 := by simp
      rw [List.cons_append] at hspan
      simp only [strtokR, h, htake, hdrop, hspan, reduceCtorEq, if_false, hlen, hmin]

/-- **The rule for `strtok_r`**: it skips the delimiters `lead`, returns the token, and goes on
behind the delimiter that ends it, if there is one. -/
theorem strtokR_token (delim : Bytes) (h : cstrAt b off = some (lead ++ tok ++ tail))
    (hlead : ∀ c ∈ lead, c ∈ delim) (hne : tok ≠ []) (htok : ∀ c ∈ tok, c ∉ delim)
    (htail : ∀ c ∈ tail.head?, c ∈ delim) :
    ∃ b', strtokR b off delim = some (b', some (off + lead.length),
        off + lead.length + tok.length + min 1 tail.length) ∧
      cstrAt b' off = some (lead ++ tok) ∧
      Tokenized b b' off (lead ++ tok ++ tail) tok tail (off + lead.length)
        (off + lead.length + tok.length + min 1 tail.length) := by
  have htoken : cstrAt b (off + lead.length) = some (tok ++ tail) :=
    cstrAt_drop (by rw [← List.append_assoc]; exact h)
  refine ⟨_, strtokR_found delim h hlead hne htok htail, ?_⟩
  cases tail with
  | nil =>
      -- the token ends the text, and nothing is overwritten
      rw [List.append_nil] at h htoken
      refine ⟨h, rfl, htoken, ?_, fun o u hu _ => hu⟩
      have hend : cstrAt b (off + lead.length) = some (tok ++ []) := by simpa using htoken
      simpa using cstrAt_drop hend
  | cons d rest =>
      -- the delimiter becomes a terminator, and the next call starts behind it
      have hlt := cstrAt_lt h
      simp only [List.length_append, List.length_cons] at hlt
      have hmin : min 1 (d :: rest).length = 1 := by simp
      rw [hmin]
      refine ⟨?_, ?_, cstrAt_cut htoken, cstrAt_behind_cut htoken, ?_⟩
      · have hcut := cstrAt_cut h
        rwa [List.length_append, ← Nat.add_assoc] at hcut
      · apply length_store
        simp only [List.length_cons, List.length_nil]
        omega
      · intro o u hu hdisj
        simp only [List.length_append, List.length_cons] at hdisj
        refine cstrAt_store hu ?_ ?_ <;> omega

/-- A string is delimiters only, or a token behind delimiters, before a delimiter or the end. -/
theorem token_cases (delim s : Bytes) :
    (∀ c ∈ s, c ∈ delim) ∨
    ∃ lead tok tail, s = lead ++ tok ++ tail ∧ (∀ c ∈ lead, c ∈ delim) ∧ tok ≠ [] ∧
      (∀ c ∈ tok, c ∉ delim) ∧ ∀ c ∈ tail.head?, c ∈ delim := by
  induction s with
  | nil => exact .inl (by simp)
  | cons c s ih =>
      by_cases hc : c ∈ delim
      · -- one more leading delimiter
        rcases ih with hall | ⟨lead, tok, tail, rfl, hlead, hne, htok, htail⟩
        · exact .inl (by simpa [hc] using hall)
        · exact .inr ⟨c :: lead, tok, tail, rfl, by simpa [hc] using hlead, hne, htok, htail⟩
      · -- the token starts here, or one byte earlier than thought
        rcases ih with hall | ⟨lead, tok, tail, rfl, hlead, hne, htok, htail⟩
        · refine .inr ⟨[], [c], s, rfl, by simp, by simp, by simpa using hc, ?_⟩
          intro d hd
          exact hall d (List.mem_of_mem_head? hd)
        · cases lead with
          | nil =>
              exact .inr ⟨[], c :: tok, tail, rfl, by simp, by simp, by simpa [hc] using htok,
                htail⟩
          | cons d lead =>
              exact .inr ⟨[], [c], d :: lead ++ tok ++ tail, by simp, by simp, by simp,
                by simpa using hc, by simpa using hlead d (by simp)⟩

/-- A call that finds no token has seen delimiters only, and leaves the buffer alone. -/
theorem strtokR_eq_none {b' : Bytes} {save : Nat} (h : cstrAt b off = some s)
    (hr : strtokR b off delim = some (b', none, save)) :
    b' = b ∧ save = off + s.length ∧ ∀ c ∈ s, c ∈ delim := by
  rcases token_cases delim s with hall | ⟨lead, tok, tail, rfl, hlead, hne, htok, htail⟩
  · rw [strtokR_none delim h hall] at hr
    cases hr
    exact ⟨rfl, rfl, hall⟩
  · obtain ⟨b₁, hr₁, -⟩ := strtokR_token delim h hlead hne htok htail
    rw [hr₁] at hr
    cases hr

/-- A call that finds a token has split the string as in `strtokR_token`. -/
theorem strtokR_eq_some {b' : Bytes} {start save : Nat} (h : cstrAt b off = some s)
    (hr : strtokR b off delim = some (b', some start, save)) :
    ∃ lead tok tail, s = lead ++ tok ++ tail ∧ (∀ c ∈ lead, c ∈ delim) ∧ tok ≠ [] ∧
      (∀ c ∈ tok, c ∉ delim) ∧ (∀ c ∈ tail.head?, c ∈ delim) ∧ start = off + lead.length ∧
      save = start + tok.length + min 1 tail.length ∧
      Tokenized b b' off s tok tail start save := by
  rcases token_cases delim s with hall | ⟨lead, tok, tail, rfl, hlead, hne, htok, htail⟩
  · rw [strtokR_none delim h hall] at hr
    cases hr
  · obtain ⟨b₁, hr₁, -, hspec⟩ := strtokR_token delim h hlead hne htok htail
    rw [hr₁] at hr
    cases hr
    exact ⟨lead, tok, tail, rfl, hlead, hne, htok, htail, rfl, rfl, hspec⟩

/-- A string without delimiters is one token. -/
theorem strtokR_whole {b' : Bytes} {start save : Nat} (h : cstrAt b off = some s)
    (hs : ∀ c ∈ s, c ∉ delim) (hr : strtokR b off delim = some (b', some start, save)) :
    start = off ∧ s ≠ [] ∧ Tokenized b b' off s s [] start save := by
  obtain ⟨lead, tok, tail, rfl, hlead, hne, -, htail, hstart, -, hspec⟩ := strtokR_eq_some h hr
  have hnolead : lead = [] := by
    apply List.eq_nil_iff_forall_not_mem.mpr
    intro c hc
    exact hs c (by simp [hc]) (hlead c hc)
  have hnotail : tail = [] := by
    cases tail with
    | nil => rfl
    | cons c tail => exact absurd (htail c rfl) (hs c (by simp))
  subst hnolead hnotail
  simp only [List.nil_append, List.append_nil, List.length_nil, Nat.add_zero] at hspec hstart ⊢
  exact ⟨hstart, hne, hspec⟩

/-! ## Buffers that end with a NUL -/

/-- The last byte is a NUL, so that no scan that starts inside leaves the buffer. -/
def Terminated (b : Bytes) : Prop := b.getLast? = some 0

theorem terminated_append (s : Bytes) : Terminated (s ++ [0]) := List.getLast?_concat

theorem exists_cstr (h : 0 ∈ b) : ∃ s, cstr b = some s := by
  obtain ⟨s, post, rfl, hs⟩ := List.eq_append_cons_of_mem h
  exact ⟨s, cstr_append hs post⟩

theorem Terminated.exists_cstrAt (h : Terminated b) (hoff : off < b.length) :
    ∃ s, cstrAt b off = some s := by
  have hlast : (b.drop off).getLast? = some 0 := by
    rw [List.getLast?_drop, if_neg (by omega)]
    exact h
  exact exists_cstr (List.mem_of_getLast? hlast)

/-- Cutting off a token keeps the last NUL. -/
theorem Terminated.store (h : Terminated b) (e : Nat) : Terminated (store b e [0]) := by
  unfold Terminated NetworkProjects.Lib.store at *
  rw [List.getLast?_append, List.getLast?_append, List.getLast?_drop]
  split
  · rfl
  · rw [h]
    rfl

/-- **On such a buffer `strtok_r` stays inside**, and so do the pointers it hands out. -/
theorem Terminated.strtokR (h : Terminated b) (hoff : off < b.length) (delim : Bytes) :
    ∃ b' start save, strtokR b off delim = some (b', start, save) ∧ Terminated b' ∧
      b'.length = b.length ∧ save < b.length ∧ ∀ i ∈ start, i < b.length := by
  obtain ⟨s, hs⟩ := h.exists_cstrAt hoff
  have hlt := cstrAt_lt hs
  rcases token_cases delim s with hall | ⟨lead, tok, tail, rfl, hlead, hne, htok, htail⟩
  · exact ⟨b, none, _, strtokR_none delim hs hall, h, rfl, hlt, by simp⟩
  · obtain ⟨b', hr, -, ht⟩ := strtokR_token delim hs hlead hne htok htail
    have hcut : Terminated b' := by
      have hfound := strtokR_found delim hs hlead hne htok htail
      rw [hr, Option.some.injEq, Prod.mk.injEq] at hfound
      rw [hfound.1]
      split
      · exact h
      · exact h.store _
    simp only [List.length_append] at hlt
    refine ⟨b', _, _, hr, hcut, ht.length, by omega, ?_⟩
    rintro i ⟨⟩
    omega

end Strtok

/-! ## Searching

`index` and `strstr` find the first occurrence, and a text has only one split at it. -/

/-- `index` (`strchr`): the offset of the first `c`. -/
def index (s : Bytes) (c : UInt8) : Option Nat := s.findIdx? (· == c)

theorem index_eq_some {s : Bytes} {c : UInt8} {i : Nat} :
    index s c = some i ↔
      ∃ before after, s = before ++ c :: after ∧ c ∉ before ∧ i = before.length := by
  induction s generalizing i with
  | nil => simp [index]
  | cons d s ih =>
      have hcons : index (d :: s) c = if d = c then some 0 else (index s c).map (· + 1) := by
        simp [index, List.findIdx?_cons]
      rw [hcons]
      by_cases hd : d = c
      · subst hd
        rw [if_pos rfl, Option.some.injEq]
        constructor
        · rintro rfl
          exact ⟨[], s, rfl, by simp, rfl⟩
        · rintro ⟨before, after, heq, hnot, rfl⟩
          cases before with
          | nil => rfl
          | cons e before =>
              rw [List.cons_append, List.cons.injEq] at heq
              exact absurd (heq.1 ▸ List.mem_cons_self) hnot
      · rw [if_neg hd, Option.map_eq_some_iff]
        constructor
        · rintro ⟨j, hj, rfl⟩
          obtain ⟨before, after, rfl, hnot, rfl⟩ := ih.mp hj
          refine ⟨d :: before, after, rfl, ?_, rfl⟩
          simp only [List.mem_cons, not_or]
          exact ⟨Ne.symm hd, hnot⟩
        · rintro ⟨before, after, heq, hnot, rfl⟩
          cases before with
          | nil => exact absurd (List.cons.inj heq).1 hd
          | cons e before =>
              rw [List.cons_append, List.cons.injEq] at heq
              simp only [List.mem_cons, not_or] at hnot
              exact ⟨before.length, ih.mpr ⟨before, after, heq.2, hnot.2, rfl⟩, rfl⟩

/-- What stands before the first `c`, and behind it, is determined. -/
theorem index_split_unique {c : UInt8} {b₁ b₂ a₁ a₂ : Bytes} (h₁ : c ∉ b₁) (h₂ : c ∉ b₂)
    (heq : b₁ ++ c :: a₁ = b₂ ++ c :: a₂) : b₁ = b₂ ∧ a₁ = a₂ := by
  have e₁ := index_eq_some.mpr ⟨b₁, a₁, rfl, h₁, rfl⟩
  have e₂ := index_eq_some.mpr ⟨b₂, a₂, heq, h₂, rfl⟩
  have hlen : b₁.length = b₂.length := by
    rw [e₁] at e₂
    exact Option.some.inj e₂
  obtain ⟨rfl, htail⟩ := List.append_inj heq hlen
  exact ⟨rfl, (List.cons.inj htail).2⟩

/-- `strstr`: the offset of the first occurrence of `needle`. -/
def strstr (needle : Bytes) : Bytes → Option Nat
  | [] => if needle = [] then some 0 else none
  | c :: rest =>
      if needle.isPrefixOf (c :: rest) then some 0 else (strstr needle rest).map (· + 1)

/-- A search succeeds if there is an occurrence. -/
theorem strstr_isSome {needle s : Bytes} : (strstr needle s).isSome ↔ needle <:+: s := by
  induction s with
  | nil =>
      rw [strstr, List.infix_nil]
      split <;> simp [*]
  | cons c rest ih =>
      rw [strstr, List.infix_cons_iff]
      by_cases hp : needle.isPrefixOf (c :: rest)
      · rw [if_pos hp]
        simp [List.isPrefixOf_iff_prefix.mp hp]
      · have hno : ¬ needle <+: c :: rest := fun h => hp (List.isPrefixOf_iff_prefix.mpr h)
        rw [if_neg hp, Option.isSome_map, ih]
        simp [hno]

/-! ## `strncpy`

`strncpy` stops at a NUL and fills up with zeros. A text is copied faithfully if nothing but zeros
stands behind its first NUL. -/

/-- `strncpy(dst, src, n)`: the `n` bytes of `dst` afterwards. Behind the first NUL there are
zeros, whatever stands there in `src`. -/
def strncpy (src : Bytes) (n : Nat) : Option Bytes :=
  let s := (src.take n).takeWhile (· ≠ 0)
  if s.length < n ∧ s.length = src.length then none
  else some (s ++ List.replicate (n - s.length) 0)

/-- A text with everything behind its first NUL cleared. -/
def clearBehindNul (s : Bytes) : Bytes :=
  s.takeWhile (· ≠ 0) ++ List.replicate (s.length - (s.takeWhile (· ≠ 0)).length) 0

/-- No other byte stands behind a NUL. -/
def Plain (s : Bytes) : Prop := ∀ c ∈ s.dropWhile (· ≠ 0), c = 0

instance (s : Bytes) : Decidable (Plain s) := inferInstanceAs (Decidable (∀ _ ∈ _, _))

theorem strncpy_eq {src : Bytes} {n : Nat} (h : n ≤ src.length) :
    strncpy src n = some (clearBehindNul (src.take n)) := by
  have hlen : (src.take n).length = n := List.length_take_of_le h
  have hle := (List.takeWhile_sublist (fun c : UInt8 => decide (c ≠ 0))
    (l := src.take n)).length_le
  rw [strncpy, clearBehindNul, hlen, if_neg]
  rintro ⟨hlt, heq⟩
  omega

theorem length_of_strncpy {src dst : Bytes} {n : Nat} (h : strncpy src n = some dst) :
    dst.length = n := by
  have hle : ((src.take n).takeWhile (· ≠ 0)).length ≤ n :=
    (List.takeWhile_sublist _).length_le.trans (List.length_take_le n src)
  simp only [strncpy] at h
  split at h
  · cases h
  · cases h
    rw [List.length_append, List.length_replicate, Nat.add_sub_cancel' hle]

@[simp] theorem length_clearBehindNul (s : Bytes) : (clearBehindNul s).length = s.length := by
  have hle := (List.takeWhile_sublist (fun c : UInt8 => decide (c ≠ 0)) (l := s)).length_le
  rw [clearBehindNul, List.length_append, List.length_replicate]
  omega

/-- **What `strncpy` copies faithfully** is a text in which no other byte stands behind a NUL. -/
theorem clearBehindNul_eq_self {s : Bytes} : clearBehindNul s = s ↔ Plain s := by
  have hsplit := List.takeWhile_append_dropWhile (p := fun c : UInt8 => decide (c ≠ 0)) (l := s)
  have hlen := congrArg List.length hsplit
  rw [List.length_append] at hlen
  have hrest : s.length - (s.takeWhile (· ≠ 0)).length = (s.dropWhile (· ≠ 0)).length := by
    omega
  rw [clearBehindNul, hrest]
  conv => lhs; rhs; rw [← hsplit]
  rw [List.append_cancel_left_eq, eq_comm, List.eq_replicate_iff]
  exact ⟨fun h => h.2, fun h => ⟨rfl, h⟩⟩

/-! ## Lines

Lines end with `\r\n`. Neither half of it is a line end of its own. -/

/-- The end of a line. -/
def crlf : Bytes := [13, 10]

@[simp] theorem length_crlf : crlf.length = 2 := rfl

/-- No line ends in the text. -/
def NoCrlf (s : Bytes) : Prop := ¬ crlf <:+: s

instance (s : Bytes) : Decidable (NoCrlf s) := inferInstanceAs (Decidable (¬ _))

theorem noCrlf_nil : NoCrlf [] := by
  simp [NoCrlf, crlf]

theorem NoCrlf.of_infix {s t : Bytes} (h : NoCrlf t) (hst : s <:+: t) : NoCrlf s :=
  fun hs => h (hs.trans hst)

theorem noCrlf_cons {c : UInt8} {s : Bytes} :
    NoCrlf (c :: s) ↔ NoCrlf s ∧ ∀ r, c :: s ≠ crlf ++ r := by
  unfold NoCrlf
  rw [List.infix_cons_iff, not_or, and_comm]
  apply and_congr_right
  intro _
  constructor
  · rintro h r hr
    exact h ⟨r, hr.symm⟩
  · rintro h ⟨r, hr⟩
    exact h r hr.symm

/-- A byte that is neither half of a line end separates two texts. -/
theorem noCrlf_append_cons {s t : Bytes} {c : UInt8} (hcr : c ≠ 13) (hlf : c ≠ 10) :
    NoCrlf (s ++ c :: t) ↔ NoCrlf s ∧ NoCrlf t := by
  induction s with
  | nil =>
      rw [List.nil_append, noCrlf_cons]
      constructor
      · rintro ⟨ht, -⟩
        exact ⟨noCrlf_nil, ht⟩
      · rintro ⟨-, ht⟩
        refine ⟨ht, ?_⟩
        rintro r hr
        exact hcr (List.cons.inj hr).1
  | cons d s ih =>
      rw [List.cons_append, noCrlf_cons, noCrlf_cons, ih]
      have hhead : (∀ r, d :: (s ++ c :: t) ≠ crlf ++ r) ↔ ∀ r, d :: s ≠ crlf ++ r := by
        cases s with
        | nil =>
            simp [crlf, hlf]
        | cons e s =>
            simp [crlf]
      rw [hhead]
      tauto

theorem noCrlf_of_not_mem {s : Bytes} (h : 13 ∉ s) : NoCrlf s := by
  rintro ⟨before, after, rfl⟩
  exact h (by simp [crlf])

/-- `strstr` finds the end of the first line. -/
theorem strstr_crlf_eq_some {s : Bytes} {i : Nat} :
    strstr crlf s = some i ↔
      ∃ before after, s = before ++ crlf ++ after ∧ NoCrlf before ∧ i = before.length := by
  induction s generalizing i with
  | nil => simp [strstr, crlf]
  | cons c s ih =>
      by_cases hp : crlf.isPrefixOf (c :: s)
      · rw [strstr, if_pos hp, Option.some.injEq]
        obtain ⟨r, hr⟩ := List.isPrefixOf_iff_prefix.mp hp
        constructor
        · rintro rfl
          exact ⟨[], r, hr.symm, noCrlf_nil, rfl⟩
        · rintro ⟨before, after, heq, hno, rfl⟩
          -- the first line would have to end inside itself
          rcases before with - | ⟨d, - | ⟨e, before⟩⟩
          · rfl
          · simp [crlf, ← hr] at heq
          · refine absurd ⟨[], before, ?_⟩ hno
            simp [crlf, ← hr] at heq ⊢
            exact ⟨heq.1, heq.2.1⟩
      · rw [strstr, if_neg hp, Option.map_eq_some_iff]
        constructor
        · rintro ⟨j, hj, rfl⟩
          obtain ⟨before, after, rfl, hno, rfl⟩ := ih.mp hj
          refine ⟨c :: before, after, rfl, noCrlf_cons.mpr ⟨hno, ?_⟩, rfl⟩
          intro r hr
          refine hp (List.isPrefixOf_iff_prefix.mpr ⟨r ++ crlf ++ after, ?_⟩)
          rw [List.append_assoc, ← List.append_assoc crlf r, ← hr]
          simp
        · rintro ⟨before, after, heq, hno, rfl⟩
          cases before with
          | nil =>
              exact absurd (List.isPrefixOf_iff_prefix.mpr ⟨after, heq.symm⟩) hp
          | cons d before =>
              simp only [List.cons_append, List.cons.injEq] at heq
              exact ⟨before.length, ih.mpr ⟨before, after, heq.2, (noCrlf_cons.mp hno).1, rfl⟩, rfl⟩

/-- A text with a line end has a first line. -/
theorem exists_first_line {s : Bytes} (h : ¬ NoCrlf s) :
    ∃ first rest, s = first ++ crlf ++ rest ∧ NoCrlf first := by
  obtain ⟨i, hi⟩ := Option.isSome_iff_exists.mp (strstr_isSome.mpr (not_not.mp h))
  obtain ⟨first, rest, hsplit, hfirst, -⟩ := strstr_crlf_eq_some.mp hi
  exact ⟨first, rest, hsplit, hfirst⟩

/-- A first line is determined. -/
theorem crlf_split_unique {b₁ b₂ a₁ a₂ : Bytes} (h₁ : NoCrlf b₁) (h₂ : NoCrlf b₂)
    (heq : b₁ ++ crlf ++ a₁ = b₂ ++ crlf ++ a₂) : b₁ = b₂ ∧ a₁ = a₂ := by
  have e₁ := strstr_crlf_eq_some.mpr ⟨b₁, a₁, rfl, h₁, rfl⟩
  have e₂ := strstr_crlf_eq_some.mpr ⟨b₂, a₂, heq, h₂, rfl⟩
  have hlen : b₁.length = b₂.length := by
    rw [e₁] at e₂
    exact Option.some.inj e₂
  rw [List.append_assoc, List.append_assoc] at heq
  obtain ⟨rfl, htail⟩ := List.append_inj heq hlen
  exact ⟨rfl, List.append_cancel_left htail⟩

end NetworkProjects.Lib
