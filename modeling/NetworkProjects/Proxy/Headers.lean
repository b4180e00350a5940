import NetworkProjects.Proxy.Parse

/-!
# Reading the headers

What `ParsedRequest_parse` does with the text behind the request line is a sequence of
`ParsedHeader_set` calls: `Reads t sets`. A header's name goes up to the first colon, on
whatever line that stands, while the next header is looked for behind the first line end; so a
name that goes over several lines is followed by what these lines are read as on their own
(`Tailed`). Because of this, the headers that are left in the end are read back when they are
printed (`reads_keepLast`).
-/

namespace NetworkProjects.Proxy

open NetworkProjects.Lib

/-- The loop stops here: at the end, or at an empty line. -/
def AtEnd (t : Bytes) : Prop := t = [] ∨ crlf <+: t

/-- The header text `t` leads to these calls of `ParsedHeader_set`. -/
inductive Reads : Bytes → List (Bytes × Bytes) → Prop
  | stop {t : Bytes} : AtEnd t → Reads t []
  | line {t key value after first next : Bytes} {x : UInt8} {sets : List (Bytes × Bytes)} :
      ¬ AtEnd t → t = key ++ colon :: x :: (value ++ crlf ++ after) → colon ∉ key →
      NoCrlf value → t = first ++ crlf ++ next → NoCrlf first → Reads next sets →
      Reads t ((key, value) :: sets)

/-- `pr'` is `pr` with a header table that means `m`. -/
def Rebound (pr : ParsedRequest) (m : List (Bytes × Bytes)) (pr' : ParsedRequest) : Prop :=
  ∃ hs n, pr' = { pr with headers := hs, headerslen := n } ∧ live hs = m ∧ TableOk pr'

theorem Rebound.trans {pr pr' pr'' : ParsedRequest} {m m' : List (Bytes × Bytes)}
    (h : Rebound pr m pr') (h' : Rebound pr' m' pr'') : Rebound pr m' pr'' := by
  obtain ⟨hs, n, rfl, -, -⟩ := h
  obtain ⟨hs', n', rfl, hm', hok'⟩ := h'
  exact ⟨hs', n', rfl, hm', hok'⟩

theorem Rebound.live {pr pr' : ParsedRequest} {m : List (Bytes × Bytes)} (h : Rebound pr m pr') :
    live pr'.headers = m := by
  obtain ⟨hs, n, rfl, hm, -⟩ := h
  exact hm

theorem Rebound.tableOk {pr pr' : ParsedRequest} {m : List (Bytes × Bytes)}
    (h : Rebound pr m pr') : TableOk pr' := by
  obtain ⟨hs, n, rfl, -, hok⟩ := h
  exact hok

theorem rebound_remove {pr : ParsedRequest} (h : TableOk pr) (key : Bytes) :
    Rebound pr ((live pr.headers).filter fun p => p.1 ≠ key) (parsedHeaderRemove pr key).2 := by
  obtain ⟨hs, hremove, hlen, hlive⟩ := parsedHeaderRemove_spec h key
  refine ⟨hs, pr.headerslen, hremove, hlive, ?_⟩
  rw [hremove]
  refine ⟨?_, ?_⟩
  · rw [hlive]
    exact h.nodup.sublist (List.filter_sublist.map _)
  · rw [hlen]
    exact h.room

theorem rebound_set {pr : ParsedRequest} (h : TableOk pr) (key value : Bytes) :
    ∃ pr', parsedHeaderSet pr key value = .ok (0, pr') ∧
      Rebound pr (setLast (live pr.headers) key value) pr' := by
  obtain ⟨hs, n, hset, hlive, hok⟩ := parsedHeaderSet_spec h key value
  exact ⟨_, hset, hs, n, rfl, hlive, hok⟩

/-! ## What is beside the table

The header loop changes the table and nothing else, so the fields of the request line can be read
before it or after it. -/

/-- `pr'` is `pr` but for the header table. -/
def TableOnly (pr pr' : ParsedRequest) : Prop :=
  ∃ hs n, pr' = { pr with headers := hs, headerslen := n }

section Beside

variable {pr pr' pr'' : ParsedRequest} {key value line t : Bytes} {ret : Int}

theorem TableOnly.refl (pr : ParsedRequest) : TableOnly pr pr := ⟨pr.headers, pr.headerslen, rfl⟩

theorem TableOnly.trans (h : TableOnly pr pr') (h' : TableOnly pr' pr'') : TableOnly pr pr'' := by
  obtain ⟨hs, n, rfl⟩ := h
  obtain ⟨hs', n', rfl⟩ := h'
  exact ⟨hs', n', rfl⟩

/-- The fields are not touched. -/
theorem TableOnly.holds {f : Fields} (h : TableOnly pr pr') (hf : pr.Holds f) : pr'.Holds f := by
  obtain ⟨hs, n, rfl⟩ := h
  exact ⟨hf.buf, hf.method, hf.protocol, hf.host, hf.port, hf.path, hf.version⟩

theorem Rebound.holds {m : List (Bytes × Bytes)} {f : Fields} (h : Rebound pr m pr')
    (hf : pr.Holds f) : pr'.Holds f := by
  obtain ⟨hs, n, heq, -⟩ := h
  exact TableOnly.holds ⟨hs, n, heq⟩ hf

theorem tableOnly_remove (pr : ParsedRequest) (key : Bytes) :
    TableOnly pr (parsedHeaderRemove pr key).2 := by
  unfold parsedHeaderRemove
  split
  · exact .refl _
  · exact ⟨_, _, rfl⟩

theorem tableOnly_set (h : parsedHeaderSet pr key value = .ok (ret, pr')) : TableOnly pr pr' := by
  refine (tableOnly_remove pr key).trans ?_
  unfold parsedHeaderSet at h
  dsimp only at h
  split at h
  · split at h
    · cases h
      exact ⟨_, _, rfl⟩
    · cases h
  · split at h
    · cases h
      exact ⟨_, _, rfl⟩
    · cases h

theorem tableOnly_headerParse (h : parsedHeaderParse pr line = .ok (ret, pr')) :
    TableOnly pr pr' := by
  unfold parsedHeaderParse at h
  split at h
  · cases h
  split at h
  · cases h
    exact .refl _
  dsimp only at h
  split at h
  · cases h
  split at h
  · cases h
  split at h
  · cases h
  · next hset =>
    cases h
    exact tableOnly_set hset

/-- However the loop ends, the fields are as they were. -/
theorem tableOnly_headerLoop {fuel : Nat} (h : headerLoop fuel pr t = .ok (ret, pr')) :
    TableOnly pr pr' := by
  induction fuel generalizing pr t with
  | zero => cases t <;> simp [headerLoop] at h
  | succ fuel ih =>
      cases t with
      | nil => simp [headerLoop] at h
      | cons c rest =>
          simp only [headerLoop] at h
          split at h
          · cases h
            exact .refl _
          split at h
          · cases h
          next r pr₁ hparse =>
          have hfirst := tableOnly_headerParse hparse
          split at h
          · cases h
            exact hfirst
          split at h
          · cases h
          split at h
          · cases h
            exact hfirst
          split at h
          · cases h
            exact hfirst
          · exact hfirst.trans (ih h)

end Beside

/-! ## The loop

One round reads one header and moves to the line behind the next line end. `Reads` follows the
rounds, in both directions: every list of reads is run by the loop, and every run that returns 0 is
such a list. -/

section Loop

variable {pr pr' : ParsedRequest} {t key value after post : Bytes} {sets : List (Bytes × Bytes)}

/-- What the string functions find in a line: the key, and the value in the string behind it. -/
theorem line_parts {x : UInt8} (post : Bytes) (hnul : 0 ∉ t)
    (ht : t = key ++ colon :: x :: (value ++ crlf ++ after)) (hkey : colon ∉ key)
    (hvalue : NoCrlf value) :
    index t colon = some key.length ∧ t.take key.length = key ∧
      cstr ((t ++ 0 :: post).drop (key.length + 2)) = some (value ++ crlf ++ after) ∧
      strstr crlf (value ++ crlf ++ after) = some value.length ∧
      (value ++ crlf ++ after).take value.length = value := by
  have hdrop : (t ++ 0 :: post).drop (key.length + 2) = value ++ crlf ++ after ++ 0 :: post := by
    rw [← List.drop_drop, ht, List.append_assoc, List.drop_left]
    rfl
  have hnul' : 0 ∉ value ++ crlf ++ after := fun hmem => hnul (by
    rw [ht]
    exact List.mem_append_right _ (List.mem_cons_of_mem _ (List.mem_cons_of_mem _ hmem)))
  refine ⟨index_eq_some.mpr ⟨key, _, ht, hkey, rfl⟩, by rw [ht, List.take_left], ?_,
    strstr_crlf_eq_some.mpr ⟨value, after, rfl, hvalue, rfl⟩, ?_⟩
  · rw [hdrop, cstr_append hnul']
  · rw [List.append_assoc, List.take_left]

theorem parsedHeaderParse_eq {x : UInt8} (h : TableOk pr) (hnul : 0 ∉ t)
    (ht : t = key ++ colon :: x :: (value ++ crlf ++ after)) (hkey : colon ∉ key)
    (hvalue : NoCrlf value) :
    ∃ pr', parsedHeaderParse pr (t ++ 0 :: post) = .ok (0, pr') ∧
      parsedHeaderSet pr key value = .ok (0, pr') ∧
      Rebound pr (setLast (live pr.headers) key value) pr' := by
  obtain ⟨hindex, hname, hstr, hend, htext⟩ := line_parts post hnul ht hkey hvalue
  obtain ⟨pr', hset, hrebound⟩ := rebound_set h key value
  refine ⟨pr', ?_, hset, hrebound⟩
  simp only [parsedHeaderParse, cstr_append hnul, hindex, hname, hstr, hend, htext, hset]

theorem parsedHeaderParse_sound (hnul : 0 ∉ t)
    (h : parsedHeaderParse pr (t ++ [0]) = .ok (0, pr')) :
    ∃ key x value after, t = key ++ colon :: x :: (value ++ crlf ++ after) ∧ colon ∉ key ∧
      NoCrlf value := by
  simp only [parsedHeaderParse, cstr_append hnul] at h
  cases hindex : index t colon with
  | none => simp [hindex] at h
  | some index1 =>
      simp only [hindex] at h
      obtain ⟨key, rest, rfl, hkey, rfl⟩ := index_eq_some.mp hindex
      have hdrop : (key ++ colon :: rest ++ [0]).drop (key.length + 2) = (rest ++ [0]).drop 1 := by
        rw [← List.drop_drop, List.append_assoc, List.drop_left]
        rfl
      rw [hdrop] at h
      cases rest with
      | nil => simp [cstr] at h
      | cons x rest =>
          have hnul' : 0 ∉ rest := fun hmem => hnul (by simp [hmem])
          simp only [List.cons_append, List.drop_succ_cons, List.drop_zero,
            cstr_append hnul'] at h
          cases hend : strstr crlf rest with
          | none => simp [hend] at h
          | some index2 =>
              obtain ⟨value, after, rfl, hvalue, -⟩ := strstr_crlf_eq_some.mp hend
              exact ⟨key, x, value, after, rfl, hkey, hvalue⟩

theorem head_of_not_atEnd {c : UInt8} {rest : Bytes} (post : Bytes) (hnul : 0 ∉ c :: rest)
    (hgo : ¬ AtEnd (c :: rest)) :
    ¬ (c = 0 ∨ (c = 13 ∧ (rest ++ 0 :: post).head? = some 10)) := by
  rintro (rfl | ⟨rfl, hhead⟩)
  · exact hnul (by simp)
  · cases rest with
    | nil => cases hhead
    | cons d rest =>
        cases hhead
        exact hgo (.inr ⟨rest, rfl⟩)

/-- One round of the loop over a header line. -/
theorem headerLoop_round {fuel : Nat} {first next : Bytes} (hnul : 0 ∉ t) (hgo : ¬ AtEnd t)
    (ht : t = first ++ crlf ++ next) (hfirst : NoCrlf first) :
    headerLoop (fuel + 1) pr (t ++ 0 :: post) =
      match parsedHeaderParse pr (t ++ 0 :: post) with
      | .error f => .error f
      | .ok (ret, pr₁) =>
          if ret ≠ 0 then .ok (-1, pr₁) else headerLoop fuel pr₁ (next ++ 0 :: post) := by
  have hend : strstr crlf t = some first.length :=
    strstr_crlf_eq_some.mpr ⟨first, next, ht, hfirst, rfl⟩
  have hdrop : (t ++ 0 :: post).drop (first.length + 2) = next ++ 0 :: post := by
    rw [← List.drop_drop, ht, List.append_assoc, List.append_assoc, List.drop_left]
    rfl
  have hlen : ¬ t.length - first.length < 2 := by
    simp only [ht, List.length_append, length_crlf]
    omega
  have hstr := cstr_append hnul post
  cases t with
  | nil => exact absurd (.inl rfl) hgo
  | cons c rest =>
      have hc := head_of_not_atEnd post hnul hgo
      rw [List.cons_append] at hstr hdrop ⊢
      cases hparse : parsedHeaderParse pr (c :: (rest ++ 0 :: post)) with
      | error f => simp only [headerLoop, if_neg hc, hparse]
      | ok r => simp only [headerLoop, if_neg hc, hparse, hstr, hend, if_neg hlen, hdrop]

theorem headerLoop_line {fuel : Nat} {first next : Bytes} (hnul : 0 ∉ t) (hgo : ¬ AtEnd t)
    (ht : t = first ++ crlf ++ next) (hfirst : NoCrlf first)
    (h : parsedHeaderParse pr (t ++ 0 :: post) = .ok (0, pr')) :
    headerLoop (fuel + 1) pr (t ++ 0 :: post) = headerLoop fuel pr' (next ++ 0 :: post) := by
  rw [headerLoop_round hnul hgo ht hfirst, h]
  rfl

/-- A loop that returns 0 has read a header where it did not stop. -/
theorem headerParse_of_headerLoop {fuel : Nat} (hnul : 0 ∉ t) (hgo : ¬ AtEnd t)
    (h : headerLoop (fuel + 1) pr (t ++ [0]) = .ok (0, pr')) :
    ∃ pr₁, parsedHeaderParse pr (t ++ [0]) = .ok (0, pr₁) := by
  cases t with
  | nil => exact absurd (.inl rfl) hgo
  | cons c rest =>
      rw [List.cons_append] at h ⊢
      simp only [headerLoop, if_neg (head_of_not_atEnd [] hnul hgo)] at h
      cases hparse : parsedHeaderParse pr (c :: (rest ++ [0])) with
      | error f => simp [hparse] at h
      | ok r =>
          obtain ⟨ret, pr₁⟩ := r
          by_cases hret : ret = 0
          · exact ⟨pr₁, by rw [hret]⟩
          · simp [hparse, hret] at h

theorem headerLoop_stop {fuel : Nat} (h : AtEnd t) :
    headerLoop (fuel + 1) pr (t ++ 0 :: post) = .ok (0, pr) := by
  rcases h with rfl | ⟨rest, rfl⟩
  · simp [headerLoop]
  · simp [headerLoop, crlf]

/-- **The loop makes the calls**, one after the other, and returns 0 with the table that they leave.
-/
theorem headerLoop_reads (hreads : Reads t sets) : ∀ {fuel : Nat} {pr : ParsedRequest},
    TableOk pr → 0 ∉ t → t.length < fuel →
    ∃ pr', headerLoop fuel pr (t ++ [0]) = .ok (0, pr') ∧
      Rebound pr (sets.foldl (fun m p => setLast m p.1 p.2) (live pr.headers)) pr' := by
  induction hreads with
  | stop hend =>
      intro fuel pr hok hnul hfuel
      obtain ⟨fuel, rfl⟩ : ∃ n, fuel = n + 1 := ⟨fuel - 1, by omega⟩
      exact ⟨pr, headerLoop_stop hend, pr.headers, pr.headerslen, rfl, rfl, hok⟩
  | line hgo ht hkey hvalue hsplit hfirst _ ih =>
      intro fuel pr hok hnul hfuel
      obtain ⟨fuel, rfl⟩ : ∃ n, fuel = n + 1 := ⟨fuel - 1, by omega⟩
      obtain ⟨pr₁, hparse, -, hset⟩ := parsedHeaderParse_eq hok hnul ht hkey hvalue
      rw [headerLoop_line hnul hgo hsplit hfirst hparse]
      have hlen := congrArg List.length hsplit
      simp only [List.length_append, length_crlf] at hlen
      obtain ⟨pr', hloop, hsets⟩ := @ih fuel _ hset.tableOk
        (fun hmem => hnul (by simp [hsplit, hmem])) (by omega)
      rw [hset.live] at hsets
      exact ⟨pr', hloop, hset.trans hsets⟩

/-- **Every loop that returns 0 has made such calls**: the rounds it has gone through are a way to
read the text. -/
theorem reads_of_headerLoop {fuel : Nat} (hok : TableOk pr) (hnul : 0 ∉ t)
    (h : headerLoop fuel pr (t ++ [0]) = .ok (0, pr')) : ∃ sets, Reads t sets := by
  induction fuel generalizing pr t with
  | zero => cases t <;> simp [headerLoop] at h
  | succ fuel ih =>
      by_cases hend : AtEnd t
      · exact ⟨[], .stop hend⟩
      · obtain ⟨pr₁, hparse⟩ := headerParse_of_headerLoop hnul hend h
        obtain ⟨key, x, value, after, ht, hkey, hvalue⟩ := parsedHeaderParse_sound hnul hparse
        obtain ⟨pr₁', hparse', -, hset⟩ := parsedHeaderParse_eq hok hnul ht hkey hvalue
        cases hparse.symm.trans hparse'
        have hline : ¬ NoCrlf t := fun h => h ⟨key ++ colon :: x :: value, after, by simp [ht]⟩
        obtain ⟨first, next, hsplit, hfirst⟩ := exists_first_line hline
        rw [headerLoop_line hnul hend hsplit hfirst hparse] at h
        obtain ⟨sets, hreads⟩ := ih hset.tableOk (fun hmem => hnul (by simp [hsplit, hmem])) h
        exact ⟨_, .line hend ht hkey hvalue hsplit hfirst hreads⟩

end Loop

/-! ## What is read

A text is read in one way. What is read has the shape that a name over several lines gives it: the
tails of the name are read as headers of their own. -/

/-- A name and a value as they can be read. -/
structure Printable (p : Bytes × Bytes) : Prop where
  colon : colon ∉ p.1
  start : ¬ crlf <+: p.1
  value : NoCrlf p.2
  nul : 0 ∉ p.1 ∧ 0 ∉ p.2

/-- After a name that goes over several lines comes the name without its first line, with the
same value, or nothing when that starts with an empty line. -/
def Tailed : List (Bytes × Bytes) → Prop
  | [] => True
  | (key, value) :: sets =>
      (∀ first rest, key = first ++ crlf ++ rest → NoCrlf first →
        (crlf <+: rest ∧ sets = []) ∨
          (¬ crlf <+: rest ∧ ∃ sets', sets = (rest, value) :: sets')) ∧ Tailed sets

theorem atEnd_append_colon {key rest : Bytes} : AtEnd (key ++ colon :: rest) ↔ crlf <+: key := by
  rcases key with - | ⟨c, - | ⟨d, key⟩⟩ <;> simp [AtEnd, crlf, colon]

section Read

variable {t : Bytes} {sets : List (Bytes × Bytes)}

theorem Reads.nil_of_atEnd (h : Reads t sets) (hend : AtEnd t) : sets = [] := by
  cases h with
  | stop => rfl
  | line hgo => exact absurd hend hgo

/-- A text is read in one way. -/
theorem Reads.unique (h : Reads t sets) {sets' : List (Bytes × Bytes)} (h' : Reads t sets') :
    sets' = sets := by
  induction h generalizing sets' with
  | stop hend => exact h'.nil_of_atEnd hend
  | line hgo ht hkey hvalue hsplit hfirst _ ih =>
      cases h' with
      | stop hend => exact absurd hend hgo
      | line _ ht' hkey' hvalue' hsplit' hfirst' hreads' =>
          obtain ⟨rfl, htail⟩ := index_split_unique hkey hkey' (ht.symm.trans ht')
          obtain ⟨rfl, -⟩ := crlf_split_unique hvalue hvalue' (List.cons.inj htail).2
          obtain ⟨-, rfl⟩ := crlf_split_unique hfirst hfirst' (hsplit.symm.trans hsplit')
          rw [ih hreads']

theorem Reads.printable (h : Reads t sets) (hnul : 0 ∉ t) : ∀ p ∈ sets, Printable p := by
  induction h with
  | stop => simp
  | @line t key value after first next x sets hgo ht hkey hvalue hsplit _ _ ih =>
      intro p hp
      rcases List.mem_cons.mp hp with rfl | hp
      · refine ⟨hkey, ?_, hvalue, ?_, ?_⟩
        · intro hstart
          exact hgo (ht ▸ atEnd_append_colon.mpr hstart)
        · exact fun hmem => hnul (by simp [ht, hmem])
        · exact fun hmem => hnul (by simp [ht, hmem])
      · exact ih (fun hmem => hnul (by simp [hsplit, hmem])) p hp

theorem Reads.tailed (h : Reads t sets) : Tailed sets := by
  induction h with
  | stop => trivial
  | @line t key value after first next x sets hgo ht hkey hvalue hsplit hfirst hreads ih =>
      refine ⟨?_, ih⟩
      rintro first' rest rfl hfirst'
      -- the next header is looked for in the rest of the name
      have hnext : next = rest ++ colon :: x :: (value ++ crlf ++ after) := by
        refine (crlf_split_unique hfirst hfirst' ?_).2
        rw [← hsplit, ht]
        simp
      subst hnext
      have hcolon : colon ∉ rest := fun hmem => hkey (by simp [hmem])
      by_cases hblank : crlf <+: rest
      · exact .inl ⟨hblank, hreads.nil_of_atEnd (atEnd_append_colon.mpr hblank)⟩
      · refine .inr ⟨hblank, ?_⟩
        cases hreads with
        | stop hend => exact absurd (atEnd_append_colon.mp hend) hblank
        | @line _ key' value' after' _ _ x' sets' _ ht' hkey' hvalue' _ _ _ =>
            obtain ⟨rfl, htail⟩ := index_split_unique hcolon hkey' ht'
            obtain ⟨rfl, -⟩ := crlf_split_unique hvalue hvalue' (List.cons.inj htail).2
            exact ⟨sets', rfl⟩

/-- A header takes three bytes at least, and is not longer than what was left. -/
theorem Reads.length_le (h : Reads t sets) :
    sets.length * 3 ≤ t.length ∧ ∀ p ∈ sets, p.1.length + p.2.length + 4 ≤ t.length := by
  induction h with
  | stop => simp
  | @line t key value after first next x sets hgo ht _ _ hsplit _ _ ih =>
      have hlen := congrArg List.length ht
      have hlen' := congrArg List.length hsplit
      simp only [List.length_append, List.length_cons, length_crlf] at hlen hlen'
      have hfirst : first ≠ [] := by
        rintro rfl
        exact hgo (.inr ⟨next, hsplit.symm⟩)
      have hpos := List.length_pos_iff.mpr hfirst
      constructor
      · rw [List.length_cons]
        omega
      · intro p hp
        rcases List.mem_cons.mp hp with rfl | hp
        · dsimp only
          omega
        · have := ih.2 p hp
          omega

end Read

/-! ## Printed headers

A header with its name on one line is read back as it was. A name over several lines is followed by
its tails, and these were read the first time as well. -/

theorem renderHeaders_cons (key value : Bytes) (hs : List (Bytes × Bytes)) :
    renderHeaders ((key, value) :: hs)
      = key ++ colon :: sp :: (value ++ crlf ++ renderHeaders hs) := by
  simp [renderHeaders, renderHeader]

/-- A printed header whose name is on one line: the loop goes on behind it. -/
theorem reads_line {key value t : Bytes} {rest : List (Bytes × Bytes)} (hcolon : colon ∉ key)
    (hkey : NoCrlf key) (hvalue : NoCrlf value) (h : Reads t rest) :
    Reads (key ++ colon :: sp :: (value ++ crlf ++ t)) ((key, value) :: rest) := by
  have hfirst : NoCrlf (key ++ colon :: ([] ++ sp :: value)) := by
    rw [noCrlf_append_cons (by decide) (by decide), noCrlf_append_cons (by decide) (by decide)]
    exact ⟨hkey, noCrlf_nil, hvalue⟩
  refine .line ?_ rfl hcolon hvalue ?_ hfirst h
  · rw [atEnd_append_colon]
    exact fun hstart => hkey hstart.isInfix
  · simp

/-- A printed header whose name goes over several lines: the loop goes on in the name. -/
theorem reads_lines {first key value t : Bytes} {rest : List (Bytes × Bytes)}
    (h : Printable (first ++ crlf ++ key, value)) (hfirst : NoCrlf first)
    (hrest : Reads (key ++ colon :: sp :: (value ++ crlf ++ t)) rest) :
    Reads (first ++ crlf ++ key ++ colon :: sp :: (value ++ crlf ++ t))
      ((first ++ crlf ++ key, value) :: rest) := by
  refine .line ?_ rfl h.colon h.value ?_ hfirst hrest
  · rw [atEnd_append_colon]
    exact h.start
  · simp

/-- Names on one line are read as they are, before anything that ends the headers. -/
theorem reads_render {hs : List (Bytes × Bytes)} {t : Bytes} (hend : AtEnd t)
    (h : ∀ p ∈ hs, colon ∉ p.1 ∧ NoCrlf p.1 ∧ NoCrlf p.2) :
    Reads (hs.flatMap renderHeader ++ t) hs := by
  induction hs with
  | nil => exact .stop hend
  | cons p hs ih =>
      obtain ⟨hcolon, hkey, hvalue⟩ := h p (by simp)
      have hread := reads_line hcolon hkey hvalue (ih fun q hq => h q (by simp [hq]))
      simpa [renderHeader] using hread

/-- A printed header: the loop stops in its name, or comes out behind it; either way it has read
what was read after the header the first time. -/
theorem reads_printed {key value : Bytes} {sets : List (Bytes × Bytes)}
    (htailed : Tailed ((key, value) :: sets)) (h : ∀ p ∈ (key, value) :: sets, Printable p) :
    (∀ t, Reads (key ++ colon :: sp :: (value ++ crlf ++ t)) ((key, value) :: sets)) ∨
    ∃ tails, tails ⊆ sets ∧ ∀ t rest, Reads t rest →
      Reads (key ++ colon :: sp :: (value ++ crlf ++ t)) ((key, value) :: (tails ++ rest)) := by
  induction sets generalizing key value with
  | nil =>
      have hp := h (key, value) (by simp)
      by_cases hkey : NoCrlf key
      · exact .inr ⟨[], by simp, fun t rest hrest => reads_line hp.colon hkey hp.value hrest⟩
      · obtain ⟨first, key, rfl, hfirst⟩ := exists_first_line hkey
        rcases htailed.1 first key rfl hfirst with ⟨hblank, -⟩ | ⟨-, sets', hsets⟩
        · exact .inl fun t => reads_lines hp hfirst (.stop (atEnd_append_colon.mpr hblank))
        · cases hsets
  | cons q sets ih =>
      have hp := h (key, value) (by simp)
      by_cases hkey : NoCrlf key
      · exact .inr ⟨[], by simp, fun t rest hrest => reads_line hp.colon hkey hp.value hrest⟩
      · obtain ⟨first, key, rfl, hfirst⟩ := exists_first_line hkey
        rcases htailed.1 first key rfl hfirst with ⟨-, hsets⟩ | ⟨-, sets', hsets⟩
        · cases hsets
        · cases hsets
          rcases ih htailed.2 fun p hp => h p (by simp [hp]) with hstop | ⟨tails, hsub, hgo⟩
          · exact .inl fun t => reads_lines hp hfirst (hstop t)
          · refine .inr ⟨(key, value) :: tails, ?_, ?_⟩
            · exact List.cons_subset_cons _ hsub
            · intro t rest hrest
              exact reads_lines hp hfirst (hgo t rest hrest)

/-- **What is left in the end is read back**: the headers that are printed may be read as more
headers, but the last of each name are the same. -/
theorem reads_keepLast {sets : List (Bytes × Bytes)} (htailed : Tailed sets)
    (h : ∀ p ∈ sets, Printable p) :
    ∃ sets', Reads (renderHeaders (keepLast sets)) sets' ∧ keepLast sets' = keepLast sets := by
  induction sets with
  | nil => exact ⟨[], .stop (.inr ⟨[], rfl⟩), rfl⟩
  | cons p sets ih =>
      obtain ⟨rest, hread, hrest⟩ := ih htailed.2 fun q hq => h q (by simp [hq])
      obtain ⟨key, value⟩ := p
      rw [keepLast]
      split
      · exact ⟨rest, hread, hrest⟩
      · next hlast =>
        rw [renderHeaders_cons]
        rcases reads_printed htailed h with hstop | ⟨tails, hsub, hgo⟩
        · refine ⟨_, hstop _, ?_⟩
          rw [keepLast, if_neg hlast]
        · refine ⟨_, hgo _ _ hread, ?_⟩
          have hkeys : ∀ k, k ∈ rest.map Prod.fst ↔ k ∈ sets.map Prod.fst := by
            intro k
            rw [← mem_keys_keepLast, hrest, mem_keys_keepLast]
          have htails : ∀ q ∈ tails, q.1 ∈ rest.map Prod.fst := fun q hq =>
            (hkeys q.1).mpr (List.mem_map.mpr ⟨q, hsub hq, rfl⟩)
          have hnew : key ∉ (tails ++ rest).map Prod.fst := by
            rw [List.map_append, List.mem_append, not_or]
            refine ⟨fun hmem => ?_, fun hmem => hlast ((hkeys key).mp hmem)⟩
            obtain ⟨q, hq, heq⟩ := List.mem_map.mp hmem
            exact hlast (List.mem_map.mpr ⟨q, hsub hq, heq⟩)
          rw [keepLast, if_neg hnew, keepLast_append_of_subset htails, hrest]

theorem length_renderHeaders_le {hs : List (Bytes × Bytes)} {n : Nat}
    (h : ∀ p ∈ hs, p.1.length + p.2.length + 4 ≤ n) :
    (renderHeaders hs).length ≤ hs.length * n + 2 := by
  induction hs with
  | nil => simp [renderHeaders]
  | cons p hs ih =>
      have hp := h p (by simp)
      have hrest := ih fun q hq => h q (by simp [hq])
      rw [renderHeaders_cons, List.length_cons, Nat.add_mul]
      simp only [List.length_append, List.length_cons, length_crlf]
      omega

theorem length_renderHeaders_snoc (hs : List (Bytes × Bytes)) (p : Bytes × Bytes) :
    (renderHeaders (hs ++ [p])).length = (renderHeaders hs).length + (renderHeader p).length := by
  simp only [renderHeaders, List.flatMap_append, List.flatMap_singleton, List.length_append]
  omega

theorem length_renderHeaders_mono {hs hs' : List (Bytes × Bytes)} (h : hs'.Sublist hs) :
    (renderHeaders hs').length ≤ (renderHeaders hs).length := by
  induction h with
  | slnil => exact Nat.le_refl _
  | @cons hs' hs p _ ih =>
      rw [renderHeaders_cons]
      simp only [List.length_append, List.length_cons, length_crlf]
      omega
  | @cons_cons hs' hs p _ ih =>
      rw [renderHeaders_cons, renderHeaders_cons]
      simp only [List.length_append, List.length_cons, length_crlf]
      omega

/-- The headers of a short text are not much longer when they are printed again. -/
theorem Reads.length_render_le {t : Bytes} {sets : List (Bytes × Bytes)} (h : Reads t sets)
    (hlen : t.length ≤ 65535) : (renderHeaders (keepLast sets)).length ≤ 21845 * 65535 + 2 := by
  obtain ⟨hcount, hsize⟩ := h.length_le
  have hsub := keepLast_sublist sets
  calc (renderHeaders (keepLast sets)).length
      ≤ (keepLast sets).length * 65535 + 2 := by
        apply length_renderHeaders_le
        intro p hp
        exact le_trans (hsize p (hsub.mem hp)) hlen
    _ ≤ 21845 * 65535 + 2 := by
        have := hsub.length_le
        have : (keepLast sets).length ≤ 21845 := by omega
        omega

end NetworkProjects.Proxy
