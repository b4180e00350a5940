import NetworkProjects.Proxy.RoundTrip

/-!
# How the parser sees a buffer

A buffer is a text and what stands behind its first NUL; the text is a request line, header lines,
an empty line, and a body: `Layout`. Every text with an empty line can be taken apart in this way
(`exists_layout`), and no other gets past the first check (`parse_unended`).

The header loop goes from line to line (`headerLoop_isLine`), but a header is looked for in all
that follows: the colon may be found on a later line or in the body, and the end of the value
behind that. `Closes` says whether there is one. As long as there are colons in the header lines
there always is (`closes_of_mem_lines`).
-/

namespace NetworkProjects.Proxy

open NetworkProjects.Lib

/-! ## Layouts

The text is cut at its line ends up to the first empty line. The parser only sees a buffer that has
such a layout, and the layout is the only one. -/

/-- Header lines, each with its end. -/
def linesText (ls : List Bytes) : Bytes := ls.flatMap (· ++ crlf)

/-- The text behind the request line. -/
def headersText (ls : List Bytes) (body : Bytes) : Bytes := linesText ls ++ crlf ++ body

theorem headersText_nil (body : Bytes) : headersText [] body = crlf ++ body := rfl

theorem headersText_cons (l : Bytes) (ls : List Bytes) (body : Bytes) :
    headersText (l :: ls) body = l ++ crlf ++ headersText ls body := by
  simp [headersText, linesText]

/-- A header line is one line, and not empty. -/
def IsLine (l : Bytes) : Prop := l ≠ [] ∧ NoCrlf l

/-- The buffer holds this request line, these header lines and this body; `post` stands behind the
first NUL, which is the one the parser puts there unless the buffer has one of its own. -/
structure Layout (buf line : Bytes) (ls : List Bytes) (body post : Bytes) : Prop where
  memory : buf ++ [0] = line ++ crlf ++ headersText ls body ++ 0 :: post
  nul : 0 ∉ line ++ crlf ++ headersText ls body
  line : NoCrlf line
  lines : ∀ l ∈ ls, IsLine l

/-- Behind a line that is not followed by an empty one, the empty line comes later. -/
theorem blank_behind_line {line t : Bytes} (hline : NoCrlf line)
    (h : crlf ++ crlf <:+: line ++ crlf ++ t) : crlf <+: t ∨ crlf ++ crlf <:+: t := by
  obtain ⟨before, after, heq⟩ := h
  by_cases hbefore : NoCrlf before
  · have hsplit : before ++ crlf ++ (crlf ++ after) = line ++ crlf ++ t := by
      rw [← heq]
      simp
    obtain ⟨-, rfl⟩ := crlf_split_unique hbefore hline hsplit
    exact .inl ⟨after, rfl⟩
  · obtain ⟨first, rest, rfl, hfirst⟩ := exists_first_line hbefore
    have hsplit : first ++ crlf ++ (rest ++ (crlf ++ crlf) ++ after) = line ++ crlf ++ t := by
      rw [← heq]
      simp
    obtain ⟨-, rfl⟩ := crlf_split_unique hfirst hline hsplit
    exact .inr ⟨rest, after, rfl⟩

/-- What is in front of an empty line is header lines. -/
theorem exists_headersText {t : Bytes} (h : crlf <+: t ∨ crlf ++ crlf <:+: t) :
    ∃ ls body, t = headersText ls body ∧ ∀ l ∈ ls, IsLine l := by
  -- the first line is cut off until the empty line is the first one
  induction hn : t.length using Nat.strongRecOn generalizing t with
  | _ n ih =>
    by_cases hstart : crlf <+: t
    · obtain ⟨body, rfl⟩ := hstart
      exact ⟨[], body, rfl, by simp⟩
    · have hblank := h.resolve_left hstart
      have hlines : ¬ NoCrlf t := fun hno => hno (List.IsInfix.trans ⟨[], crlf, rfl⟩ hblank)
      obtain ⟨l, rest, rfl, hl⟩ := exists_first_line hlines
      have hne : l ≠ [] := by
        rintro rfl
        exact hstart ⟨rest, rfl⟩
      obtain ⟨ls, body, rfl, hls⟩ := ih rest.length (by
        rw [← hn]
        simp only [List.length_append, length_crlf]
        omega) (blank_behind_line hl hblank) rfl
      refine ⟨l :: ls, body, (headersText_cons l ls body).symm, ?_⟩
      intro l' hl'
      rcases List.mem_cons.mp hl' with rfl | hl'
      · exact ⟨hne, hl⟩
      · exact hls l' hl'

/-- The text in front of the first NUL. -/
theorem exists_text (buf : Bytes) : ∃ s post, buf ++ [0] = s ++ 0 :: post ∧ 0 ∉ s := by
  induction buf with
  | nil => exact ⟨[], [], rfl, by simp⟩
  | cons c buf ih =>
      by_cases hc : c = 0
      · exact ⟨[], buf ++ [0], by rw [hc]; rfl, by simp⟩
      · obtain ⟨s, post, heq, hs⟩ := ih
        refine ⟨c :: s, post, by rw [List.cons_append, heq]; rfl, ?_⟩
        simp only [List.mem_cons, not_or]
        exact ⟨Ne.symm hc, hs⟩

/-- **Every text with an empty line has a layout**: a first line, header lines that are not empty,
and what stands behind the empty line. -/
theorem exists_layout {buf s post : Bytes} (hbuf : buf ++ [0] = s ++ 0 :: post) (hnul : 0 ∉ s)
    (h : crlf ++ crlf <:+: s) : ∃ line ls body, Layout buf line ls body post := by
  have hlines : ¬ NoCrlf s := fun hno => hno (List.IsInfix.trans ⟨[], crlf, rfl⟩ h)
  obtain ⟨line, t, rfl, hline⟩ := exists_first_line hlines
  obtain ⟨ls, body, rfl, hls⟩ := exists_headersText (blank_behind_line hline h)
  exact ⟨line, ls, body, hbuf, hnul, hline, hls⟩

/-- Header lines and body are determined by the text. -/
theorem headersText_unique {ls ls' : List Bytes} {body body' : Bytes} (hls : ∀ l ∈ ls, IsLine l)
    (hls' : ∀ l ∈ ls', IsLine l) (h : headersText ls body = headersText ls' body') :
    ls = ls' ∧ body = body' := by
  induction ls generalizing ls' with
  | nil =>
      cases ls' with
      | nil => exact ⟨rfl, List.append_cancel_left h⟩
      | cons l' ls' =>
          have hl' := hls' l' List.mem_cons_self
          rw [headersText_cons] at h
          exact absurd (crlf_split_unique noCrlf_nil hl'.2 h).1.symm hl'.1
  | cons l ls ih =>
      obtain ⟨hl, hls⟩ := List.forall_mem_cons.mp hls
      cases ls' with
      | nil =>
          rw [headersText_cons] at h
          exact absurd (crlf_split_unique hl.2 noCrlf_nil h).1 hl.1
      | cons l' ls' =>
          obtain ⟨hl', hrest'⟩ := List.forall_mem_cons.mp hls'
          rw [headersText_cons, headersText_cons] at h
          obtain ⟨rfl, hrest⟩ := crlf_split_unique hl.2 hl'.2 h
          obtain ⟨rfl, rfl⟩ := ih hls hrest' hrest
          exact ⟨rfl, rfl⟩

/-- A buffer has one layout. -/
theorem Layout.unique {buf line line' body body' post post' : Bytes} {ls ls' : List Bytes}
    (h : Layout buf line ls body post) (h' : Layout buf line' ls' body' post') :
    line = line' ∧ ls = ls' ∧ body = body' ∧ post = post' := by
  obtain ⟨htext, rfl⟩ := index_split_unique h.nul h'.nul (h.memory.symm.trans h'.memory)
  rw [List.append_assoc, List.append_assoc, ← List.append_assoc, ← List.append_assoc] at htext
  obtain ⟨rfl, hheaders⟩ := crlf_split_unique h.line h'.line htext
  obtain ⟨rfl, rfl⟩ := headersText_unique h.lines h'.lines hheaders
  exact ⟨rfl, rfl, rfl, rfl⟩

section Parse

variable {strtol : Bytes → Int × Bool} {buf line body post s : Bytes} {ls : List Bytes}

/-- A buffer whose length is refused, or whose text has no empty line, is not looked at. -/
theorem parse_unended (hbuf : buf ++ [0] = s ++ 0 :: post) (hnul : 0 ∉ s)
    (h : ¬ (minReqLen ≤ buf.length ∧ buf.length ≤ maxReqLen) ∨ ¬ crlf ++ crlf <:+: s) :
    parsedRequestParse strtol parsedRequestCreate buf = .ok (-1, parsedRequestCreate) := by
  by_cases hlen : buf.length < minReqLen ∨ maxReqLen < buf.length
  · simp [parsedRequestParse, parsedRequestCreate, hlen]
  · have hblank : strstr (crlf ++ crlf) s = none := by
      rw [← Option.not_isSome_iff_eq_none, strstr_isSome]
      exact h.resolve_left fun hno => hno (by omega)
    simp [parsedRequestParse, parsedRequestCreate, hlen, hbuf, cstr_append hnul, hblank]

/-- A buffer without a layout, or one that is too long, is not looked at. -/
theorem parse_unlaid
    (h : ¬ ∃ line ls body post, Layout buf line ls body post ∧ buf.length ≤ maxReqLen) :
    parsedRequestParse strtol parsedRequestCreate buf = .ok (-1, parsedRequestCreate) := by
  obtain ⟨s, post, hbuf, hnul⟩ := exists_text buf
  refine parse_unended hbuf hnul ?_
  by_contra hlook
  rw [not_or, not_not, not_not] at hlook
  obtain ⟨line, ls, body, hlayout⟩ := exists_layout hbuf hnul hlook.2
  exact h ⟨line, ls, body, post, hlayout, hlook.1.2⟩

namespace Layout

theorem blank (h : Layout buf line ls body post) :
    crlf ++ crlf <:+: line ++ crlf ++ headersText ls body := by
  have hlast : crlf ++ crlf <:+: crlf ++ headersText ls body := by
    cases ls using List.reverseRecOn with
    | nil => exact ⟨[], body, by simp [headersText_nil]⟩
    | append_singleton ls l =>
        exact ⟨crlf ++ linesText ls ++ l, body, by simp [headersText, linesText]⟩
  exact hlast.trans ⟨line, [], by simp⟩

theorem minReqLen_le (h : Layout buf line ls body post) : minReqLen ≤ buf.length := by
  have hlen := congrArg List.length h.memory
  have hblank := h.blank.length_le
  simp only [List.length_append, List.length_cons, List.length_nil, length_crlf] at hlen hblank
  rw [minReqLen]
  omega

theorem nul_headers (h : Layout buf line ls body post) : 0 ∉ headersText ls body :=
  fun hmem => h.nul (List.mem_append_right _ hmem)

theorem nul_line (h : Layout buf line ls body post) : 0 ∉ line :=
  fun hmem => h.nul (List.mem_append_left _ (List.mem_append_left _ hmem))

/-- The parser on a layout. -/
theorem parse_eq (h : Layout buf line ls body post) (hmax : buf.length ≤ maxReqLen) :
    parsedRequestParse strtol parsedRequestCreate buf
      = match parseRequestLine strtol (withLine line) (line ++ [0]) with
        | .error (.fault f) => .error f
        | .error (.reject parse) => .ok (-1, parse)
        | .ok parse => headerLoop (buf.length + 1) parse (headersText ls body ++ 0 :: post) :=
  parsedRequestParse_text h.memory h.nul h.minReqLen_le hmax h.blank rfl h.line

/-- The loop has enough fuel. -/
theorem fuel (h : Layout buf line ls body post) :
    (headersText ls body).length < buf.length + 1 := by
  have hlen := congrArg List.length h.memory
  simp only [List.length_append, List.length_cons, List.length_nil] at hlen
  omega

/-- An accepted request line leaves an object with an empty header table. -/
theorem parse_accepted (h : Layout buf line ls body post) (hmax : buf.length ≤ maxReqLen)
    {x : Spelling} (hx : x.Ok strtol) (hline : x.line = line) :
    ∃ pr, parseRequestLine strtol (withLine line) (line ++ [0]) = .ok pr ∧ pr.Holds x.fields ∧
      pr.headers = [] ∧ TableOk pr ∧
      parsedRequestParse strtol parsedRequestCreate buf
        = headerLoop (buf.length + 1) pr (headersText ls body ++ 0 :: post) := by
  subst hline
  obtain ⟨pr, hparse, hholds, hheaders, hheaderslen⟩ :=
    parseRequestLine_eq hx h.nul_line (withLine x.line)
  refine ⟨pr, hparse, hholds, hheaders, tableOk_create.congr hheaders hheaderslen, ?_⟩
  rw [h.parse_eq hmax, hparse]

end Layout

end Parse

/-! ## One header

The string functions see everything up to the NUL, not the line alone. What they do depends on where
the first colon is, and on what stands two bytes behind it. -/

/-- The value of a header ends: there is a line end in what stands two bytes behind the colon.
`rest` is what follows the colon in the text; when the colon is the last byte of the text, the
search goes on behind the NUL. -/
def Closes (post : Bytes) : Bytes → Prop
  | _ :: value => ¬ NoCrlf value
  | [] => ∃ u, cstr post = some u ∧ ¬ NoCrlf u

section Header

variable {pr : ParsedRequest} {t key rest post : Bytes}

/-- Without a colon in all that follows the header is refused. -/
theorem parsedHeaderParse_noColon (hnul : 0 ∉ t) (h : colon ∉ t) :
    parsedHeaderParse pr (t ++ 0 :: post) = .ok (-1, pr) := by
  have hindex : index t colon = none := by
    rw [index, List.findIdx?_eq_none_iff]
    intro c hc
    exact beq_eq_false_iff_ne.mpr fun heq => h (heq ▸ hc)
  simp only [parsedHeaderParse, cstr_append hnul, hindex]

/-- With one, a value that ends is set, and one that does not is a fault. -/
theorem parsedHeaderParse_colon (post : Bytes) (hok : TableOk pr) (hnul : 0 ∉ t)
    (ht : t = key ++ colon :: rest) (hkey : colon ∉ key) :
    (Closes post rest ∧
        ∃ pr', parsedHeaderParse pr (t ++ 0 :: post) = .ok (0, pr') ∧ TableOk pr') ∨
      (¬ Closes post rest ∧ ∃ f, parsedHeaderParse pr (t ++ 0 :: post) = .error f) := by
  have hindex : index t colon = some key.length := index_eq_some.mpr ⟨key, rest, ht, hkey, rfl⟩
  have hdrop : (t ++ 0 :: post).drop (key.length + 2) = (rest ++ 0 :: post).drop 1 := by
    rw [← List.drop_drop, ht, List.append_assoc, List.drop_left]
    rfl
  -- what is searched for the end of the value
  have hvalue : Closes post rest ↔
      ∃ u, cstr ((rest ++ 0 :: post).drop 1) = some u ∧ ¬ NoCrlf u := by
    cases rest with
    | nil => rfl
    | cons x value =>
        have hnul' : 0 ∉ value := fun hmem => hnul (by simp [ht, hmem])
        show ¬ NoCrlf value ↔ ∃ u, cstr (value ++ 0 :: post) = some u ∧ ¬ NoCrlf u
        rw [cstr_append hnul']
        simp
  rw [hvalue]
  unfold parsedHeaderParse
  simp only [cstr_append hnul, hindex, hdrop]
  cases hu : cstr ((rest ++ 0 :: post).drop 1) with
  | none => exact .inr ⟨by simp, _, rfl⟩
  | some u =>
      by_cases hno : NoCrlf u
      · have hend : strstr crlf u = none := by
          rw [← Option.not_isSome_iff_eq_none, strstr_isSome]
          exact hno
        refine .inr ⟨?_, .badLength, by simp only [hend]⟩
        rintro ⟨u', hu', hcrlf⟩
        cases hu'
        exact hcrlf hno
      · obtain ⟨i, hi⟩ := Option.isSome_iff_exists.mp (strstr_isSome.mpr (not_not.mp hno))
        obtain ⟨pr', hset, hrebound⟩ := rebound_set hok (t.take key.length) (u.take i)
        refine .inl ⟨⟨u, rfl, hno⟩, pr', ?_, hrebound.tableOk⟩
        simp only [hi, hset]

end Header

/-! ## Where the colon is found

On a header line, or in the body if the lines have none. -/

section Colon

variable {ls : List Bytes} {body key rest : Bytes}

theorem exists_first_colon {t : Bytes} (h : colon ∈ t) :
    ∃ key rest, t = key ++ colon :: rest ∧ colon ∉ key :=
  List.eq_append_cons_of_mem h

/-- Up to the body, a colon stands on a line. -/
theorem colon_not_mem_lines (hls : ∀ l ∈ ls, colon ∉ l) : colon ∉ linesText ls ++ crlf := by
  simp only [linesText, List.mem_append, List.mem_flatMap, not_or]
  refine ⟨?_, by decide⟩
  rintro ⟨l, hl, hmem | hmem⟩
  · exact hls l hl hmem
  · exact absurd hmem (by decide)

/-- Behind lines without a colon, the first one is the first of the body. -/
theorem body_split (hls : ∀ l ∈ ls, colon ∉ l) (h : headersText ls body = key ++ colon :: rest)
    (hkey : colon ∉ key) : ∃ front, body = front ++ colon :: rest ∧ colon ∉ front := by
  have hlines := colon_not_mem_lines hls
  have hbody : colon ∈ body := by
    have hmem : colon ∈ headersText ls body := by
      rw [h]
      simp
    exact (List.mem_append.mp hmem).resolve_left hlines
  obtain ⟨front, rest', rfl, hfront⟩ := exists_first_colon hbody
  have hall : colon ∉ linesText ls ++ crlf ++ front := by
    rw [List.mem_append, not_or]
    exact ⟨hlines, hfront⟩
  have hsplit : key ++ colon :: rest = linesText ls ++ crlf ++ front ++ colon :: rest' := by
    rw [← h]
    simp [headersText]
  obtain ⟨-, rfl⟩ := index_split_unique hkey hall hsplit
  exact ⟨front, rfl, hfront⟩

/-- Behind the first colon stands what is behind any other. -/
theorem suffix_of_first_colon {front back : Bytes}
    (h : key ++ colon :: rest = front ++ colon :: back) (hkey : colon ∉ key) : back <:+ rest := by
  rcases List.append_eq_append_iff.mp h with ⟨q, rfl, hq⟩ | ⟨q, rfl, hq⟩
  · cases q with
    | nil =>
        cases hq
        exact List.suffix_refl _
    | cons c q =>
        rw [List.cons_append, List.cons.injEq] at hq
        exact ⟨q ++ [colon], by rw [hq.2]; simp⟩
  · cases q with
    | nil =>
        cases hq
        exact List.suffix_refl _
    | cons c q =>
        rw [List.cons_append, List.cons.injEq] at hq
        exact absurd (by simp [hq.1]) hkey

/-- While a header line has a colon, the value ends at its line end or before. -/
theorem closes_of_mem_lines {post : Bytes} (hls : ∃ l ∈ ls, colon ∈ l)
    (h : headersText ls body = key ++ colon :: rest) (hkey : colon ∉ key) : Closes post rest := by
  obtain ⟨l, hl, hcolon⟩ := hls
  obtain ⟨before, after, rfl⟩ := List.append_of_mem hl
  obtain ⟨name, v, rfl, -⟩ := exists_first_colon hcolon
  have hback : v ++ crlf ++ headersText after body <:+ rest := by
    have hfirst : key ++ colon :: rest
        = linesText before ++ name ++ colon :: (v ++ crlf ++ headersText after body) := by
      rw [← h]
      simp [headersText, linesText]
    exact suffix_of_first_colon hfirst hkey
  -- the byte behind the colon is not needed for the line end
  have hend : ∃ x value, v ++ crlf ++ headersText after body = x :: value ∧ crlf <:+: value := by
    cases v with
    | cons x v => exact ⟨x, _, rfl, v, headersText after body, rfl⟩
    | nil => exact ⟨13, _, rfl, 10 :: linesText after, body, by simp [headersText]⟩
  obtain ⟨x, value, heq, hcrlf⟩ := hend
  obtain ⟨front, rfl⟩ := hback
  rw [heq]
  cases front with
  | nil => exact fun hno => hno hcrlf
  | cons c front =>
      exact fun hno => hno (hcrlf.trans ⟨front ++ [x], [], by simp⟩)

end Colon

/-! ## The loop over the header lines -/

section Loop

variable {pr : ParsedRequest} {l next post : Bytes}

theorem IsLine.not_atEnd (hl : IsLine l) (next : Bytes) : ¬ AtEnd (l ++ crlf ++ next) := by
  obtain ⟨hne, hno⟩ := hl
  rintro (hnil | ⟨rest, hrest⟩)
  · simp [hne] at hnil
  · have hsplit : [] ++ crlf ++ rest = l ++ crlf ++ next := hrest
    exact hne (crlf_split_unique noCrlf_nil hno hsplit).1.symm

/-- A round of the loop on a header line. -/
theorem headerLoop_isLine (pr : ParsedRequest) (fuel : Nat) (post : Bytes) (hl : IsLine l)
    (hnul : 0 ∉ l ++ crlf ++ next) :
    headerLoop (fuel + 1) pr (l ++ crlf ++ next ++ 0 :: post) =
      match parsedHeaderParse pr (l ++ crlf ++ next ++ 0 :: post) with
      | .error f => .error f
      | .ok (ret, pr₁) =>
          if ret ≠ 0 then .ok (-1, pr₁) else headerLoop fuel pr₁ (next ++ 0 :: post) :=
  headerLoop_round hnul (hl.not_atEnd next) rfl hl.2

end Loop

end NetworkProjects.Proxy
