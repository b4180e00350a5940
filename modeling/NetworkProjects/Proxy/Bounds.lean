import NetworkProjects.Proxy.Layout

/-!
# Where the parser leaves its buffers

`parse->buf` ends with a NUL, so the calls of `strtok_r` stay inside (`Terminated.strtokR`), and
so does every pointer that is computed from their results but one: the version is looked for one
byte behind the end of the address, and that is outside if nothing follows the address. Once there
is a version, its five bytes make room for the remainder behind `"://"`.

In the header loop a value whose end is not found is copied with a negative length. That takes a
colon behind the last line end: `Runaway`. The two together are all there is (`staysInside_iff`).
-/

namespace NetworkProjects.Proxy

open NetworkProjects.Lib

/-! ## Stages that refuse -/

/-- The stage refuses the line; it does not fault. -/
def Refuses : Exit → Prop
  | .fault _ => False
  | .reject _ => True

section Stages

variable {α : Type} {strtol : Bytes → Int × Bool} {parse : ParsedRequest} {line b : Bytes}

theorem ends_inside {o : Option α} {a : α} (h : o = some a) : Ends (· = a) Refuses (inside o) := by
  rw [h]
  rfl

theorem ends_require (parse : ParsedRequest) (o : Option Nat) :
    Ends (o = some ·) Refuses (require parse o) := by
  cases o with
  | none => trivial
  | some start => rfl

theorem ends_rejectIf (c : Prop) [Decidable c] (parse : ParsedRequest) :
    Ends (fun _ => ¬ c) Refuses (rejectIf c parse) := by
  unfold rejectIf
  split
  · trivial
  · next hc => exact hc

/-- A call of `strtok_r` inside the buffer. -/
theorem ends_strtokR (h : Terminated b) {off : Nat} (hoff : off < b.length) (delim : Bytes) :
    Ends (fun r => Terminated r.1 ∧ r.1.length = b.length ∧ r.2.2 < b.length ∧
      ∀ i ∈ r.2.1, i < b.length) Refuses (inside (strtokR b off delim)) := by
  obtain ⟨b', start, save, hr, hb', hlen, hsave, hstart⟩ := h.strtokR hoff delim
  rw [hr]
  exact ⟨hb', hlen, hsave, hstart⟩

/-- A string inside the buffer. -/
theorem ends_cstrAt (h : Terminated b) {off : Nat} (hoff : off < b.length) :
    Ends (fun s => cstrAt b off = some s) Refuses (inside (cstrAt b off)) := by
  obtain ⟨s, hs⟩ := h.exists_cstrAt hoff
  rw [hs]
  rfl

/-! ## The request line

Stage by stage: where the buffer ends, and which pointers are still inside it. The stages refuse
what they cannot go on with, and the version is the one read that nothing guards. -/

/-- Nothing stands behind the address, not even a space. -/
def VersionMissing (line : Bytes) : Prop :=
  ∃ lead gap addr, line = lead ++ get ++ sp :: (gap ++ addr) ∧ (∀ c ∈ lead, c = sp) ∧
    (∀ c ∈ gap, c = sp) ∧ addr ≠ [] ∧ ∀ c ∈ addr, c ≠ sp

/-- Behind the address at `fullAddr` there is room for `"HTTP/"`. -/
def Room (b : Bytes) (fullAddr : Nat) : Prop :=
  Terminated b ∧ ∃ addr, cstrAt b fullAddr = some addr ∧ fullAddr + addr.length + 6 < b.length

theorem parseMethod_missing (hnul : 0 ∉ line) (h : VersionMissing line) :
    parseMethod parse (line ++ [0]) = .error (.fault .outOfBounds) := by
  obtain ⟨lead, gap, addr, rfl, hlead, hgap, hne, haddr⟩ := h
  have hline : cstrAt (lead ++ get ++ sp :: (gap ++ addr) ++ [0]) 0
      = some (lead ++ get ++ sp :: (gap ++ addr)) := by
    rw [cstrAt_zero, cstr_append hnul]
  obtain ⟨b₁, hr₁, -, ht₁⟩ := strtokR_token [sp] hline (by simpa using hlead) (by decide)
    (by simp [get, sp]) (by simp)
  have hget : cstrAt b₁ (0 + lead.length) = some get := ht₁.token
  have hrest : cstrAt b₁ (0 + lead.length + get.length + min 1 (sp :: (gap ++ addr)).length)
      = some (gap ++ addr ++ []) := by simpa using ht₁.rest
  obtain ⟨b₂, hr₂, -, ht₂⟩ := strtokR_token [sp] hrest (by simpa using hgap) hne
    (by simpa using haddr) (by simp)
  have haddr₂ := ht₂.token
  -- the version would start behind the NUL that ends the copy of the line
  have hversion : cstrAt b₂ (0 + lead.length + get.length + min 1 (sp :: (gap ++ addr)).length
      + gap.length + addr.length + 1) = none := by
    rw [Option.eq_none_iff_forall_not_mem]
    intro s hs
    have hlt := cstrAt_lt hs
    rw [ht₂.length, ht₁.length] at hlt
    simp only [List.length_append, List.length_cons, List.length_nil] at hlt
    omega
  simp only [parseMethod, hr₁, hr₂, hget, haddr₂, hversion, inside, require, rejectIf, bind,
    Except.bind, ne_eq, not_true_eq_false, if_false]

theorem parseMethod_inside (hnul : 0 ∉ line) (h : ¬ VersionMissing line) :
    Ends (fun r => Room r.2.1 r.2.2) Refuses (parseMethod parse (line ++ [0])) := by
  have hb := terminated_append line
  have hline : cstrAt (line ++ [0]) 0 = some line := by
    rw [cstrAt_zero, cstr_append hnul]
  -- the method is the first token, and the address the second
  obtain ⟨b₁, start₁, save₁, hr₁, hb₁, -, hsave₁, -⟩ := hb.strtokR (show 0 < _ by simp) [sp]
  unfold parseMethod
  refine (ends_inside hr₁).bind ?_
  rintro _ rfl
  refine (ends_require _ _).bind ?_
  rintro m rfl
  obtain ⟨lead, tok₁, tail₁, rfl, hlead, -, -, hhead₁, -, hsave_eq₁, ht₁⟩ :=
    strtokR_eq_some hline hr₁
  refine (ends_inside ht₁.token).bind ?_
  rintro method rfl
  refine (ends_rejectIf _ _).bind ?_
  intro _ hget
  have hget : method = get := not_not.mp hget
  subst hget
  obtain ⟨b₂, start₂, save₂, hr₂, hb₂, hlen₂, -⟩ :=
    hb₁.strtokR (show save₁ < _ by rw [ht₁.length]; exact hsave₁) [sp]
  refine (ends_inside hr₂).bind ?_
  rintro _ rfl
  refine (ends_require _ _).bind ?_
  rintro a rfl
  obtain ⟨gap, addr, tail₂, hrest, hgap, hne, haddr, hhead₂, rfl, hsave_eq₂, ht₂⟩ :=
    strtokR_eq_some ht₁.rest hr₂
  refine (ends_inside ht₂.token).bind ?_
  rintro addr rfl
  -- only a line that ends with its address leaves nothing for the version, and `h` excludes it
  have htail : tail₂ ≠ [] := by
    rintro rfl
    cases tail₁ with
    | nil => simp [hne] at hrest
    | cons d rest =>
        have hd : d = sp := by simpa using hhead₁ d rfl
        have hrest : rest = gap ++ addr := by simpa using hrest
        subst hd hrest
        exact h ⟨lead, gap, addr, by simp, by simpa using hlead, by simpa using hgap, hne,
          by simpa using haddr⟩
  obtain ⟨d, version, rfl⟩ := List.exists_cons_of_ne_nil htail
  have hversion : cstrAt b₂ (save₁ + gap.length + addr.length + 1) = some version := by
    have hmin : min 1 (d :: version).length = 1 := by simp
    rw [← hmin, ← hsave_eq₂]
    exact ht₂.rest
  refine (ends_inside hversion).bind ?_
  rintro version rfl
  refine (ends_rejectIf _ _).bind ?_
  intro _ hhttp
  -- `HTTP/` was compared, so the version holds five bytes that are not the terminator
  have hfive : 5 ≤ version.length := by
    have hlen := congrArg List.length (not_not.mp hhttp)
    simp only [http, List.length_take, List.length_cons, List.length_nil] at hlen
    omega
  have hlt := cstrAt_lt hversion
  exact ⟨hb₂, addr, ht₂.token, by dsimp only; omega⟩

theorem parseAddress_inside {fullAddr : Nat} (h : Room b fullAddr) :
    Ends (fun r => Terminated r.2.1 ∧ r.2.2.1 < r.2.1.length ∧ r.2.2.2 < r.2.1.length) Refuses
      (parseAddress parse b fullAddr) := by
  obtain ⟨hb, addr, haddr, hroom⟩ := h
  obtain ⟨b₁, start, save₁, hr₁, hb₁, hlen₁, hsave₁, -⟩ :=
    hb.strtokR (show fullAddr < b.length by omega) [colon, slash]
  unfold parseAddress
  refine (ends_inside hr₁).bind ?_
  rintro _ rfl
  refine (ends_require _ _).bind ?_
  rintro p rfl
  obtain ⟨seps, protocol, tail, rfl, -, -, -, -, -, -, ht₁⟩ := strtokR_eq_some haddr hr₁
  refine (ends_inside ht₁.token).bind ?_
  rintro _ rfl
  simp only [List.length_append] at hroom
  -- `rem` starts at most three bytes past the protocol, still inside
  refine (ends_cstrAt hb₁ (by simp only [schemeSep, List.length_cons, List.length_nil]; omega)).bind
    ?_
  intro absUri _
  refine (ends_strtokR hb₁ (by omega) [slash]).bind ?_
  rintro ⟨b₂, host, save₂⟩ ⟨hb₂, hlen₂, hsave₂, hhost⟩
  refine (ends_require _ _).bind ?_
  rintro i rfl
  have hi : i < b₂.length := by
    rw [hlen₂]
    exact hhost i rfl
  refine (ends_cstrAt hb₂ hi).bind ?_
  intro text _
  refine (ends_rejectIf _ _).bind ?_
  intro _ _
  exact ⟨hb₂, hi, hlen₂ ▸ hsave₂⟩

theorem parsePath_inside (hb : Terminated b) {saveptr : Nat} (hsave : saveptr < b.length) :
    Ends (fun r => Terminated r.2 ∧ r.2.length = b.length) Refuses (parsePath parse b saveptr) := by
  unfold parsePath
  refine (ends_strtokR hb hsave [sp]).bind ?_
  rintro ⟨b₁, path, save₁⟩ ⟨hb₁, hlen₁, -, hpath⟩
  cases path with
  | none => exact ⟨hb₁, hlen₁⟩
  | some path =>
      refine (ends_cstrAt hb₁ (by rw [hlen₁]; exact hpath path rfl)).bind ?_
      intro text _
      refine (ends_rejectIf _ _).bind ?_
      intro _ _
      exact ⟨hb₁, hlen₁⟩

theorem parseHostPort_inside (hb : Terminated b) {host : Nat} (hhost : host < b.length) :
    Ends (fun _ => True) Refuses (parseHostPort strtol parse b host) := by
  unfold parseHostPort
  refine (ends_strtokR hb hhost [colon]).bind ?_
  rintro ⟨b₁, host, save₁⟩ ⟨hb₁, hlen₁, hsave₁, -⟩
  refine (ends_strtokR hb₁ (hlen₁ ▸ hsave₁) [slash]).bind ?_
  rintro ⟨b₂, port, save₂⟩ ⟨hb₂, hlen₂, -, hport⟩
  refine (ends_require _ _).bind ?_
  intro _ _
  cases port with
  | none => trivial
  | some port =>
      refine (ends_cstrAt hb₂ (by rw [hlen₂]; exact hport port rfl)).bind ?_
      intro text _
      refine (ends_rejectIf _ _).bind ?_
      intro _ _
      trivial

/-- **A line with something behind the address is read without a fault**, whatever `strtol` does
with the port: the parser accepts it or refuses it. -/
theorem parseRequestLine_inside (strtol : Bytes → Int × Bool) (parse : ParsedRequest)
    (hnul : 0 ∉ line) (h : ¬ VersionMissing line) :
    Ends (fun _ => True) Refuses (parseRequestLine strtol parse (line ++ [0])) := by
  unfold parseRequestLine
  refine (parseMethod_inside hnul h).bind ?_
  rintro ⟨parse₁, b₁, fullAddr⟩ hroom
  refine (parseAddress_inside hroom).bind ?_
  rintro ⟨parse₂, b₂, host, saveptr⟩ ⟨hb₂, hhost, hsave⟩
  refine (parsePath_inside hb₂ hsave).bind ?_
  rintro ⟨parse₃, b₃⟩ ⟨hb₃, hlen₃⟩
  exact parseHostPort_inside hb₃ (by rw [hlen₃]; exact hhost)

theorem parseRequestLine_missing (hnul : 0 ∉ line) (h : VersionMissing line) :
    parseRequestLine strtol parse (line ++ [0]) = .error (.fault .outOfBounds) := by
  simp only [parseRequestLine, parseMethod_missing hnul h, bind, Except.bind]

end Stages

/-! ## The headers

The loop over the header lines by induction on the lines. Each line is read, refused, or runs away,
and what it does depends on the text to the end. -/

/-- The last header line has no colon, but the body has one, and the value behind it does not
end. -/
def Runaway (ls : List Bytes) (body post : Bytes) : Prop :=
  (∃ l ∈ ls.getLast?, colon ∉ l) ∧
    ∃ key rest, body = key ++ colon :: rest ∧ colon ∉ key ∧ ¬ Closes post rest

section Headers

variable {pr : ParsedRequest} {l key rest body post : Bytes} {ls : List Bytes}

/-- The value of the first line is runaway only if that of the last is. -/
theorem runaway_of_not_closes (h : headersText (l :: ls) body = key ++ colon :: rest)
    (hkey : colon ∉ key) (hopen : ¬ Closes post rest) : Runaway (l :: ls) body post := by
  have hls : ∀ l' ∈ l :: ls, colon ∉ l' := fun l' hl' hmem =>
    hopen (closes_of_mem_lines ⟨l', hl', hmem⟩ h hkey)
  obtain ⟨front, rfl, hfront⟩ := body_split hls h hkey
  refine ⟨⟨_, List.getLast?_eq_some_getLast (List.cons_ne_nil l ls), ?_⟩, front, rest, rfl, hfront,
    hopen⟩
  exact hls _ (List.getLast_mem _)

/-- A first line whose value ends does not matter. -/
theorem runaway_cons_of_closes (h : headersText (l :: ls) body = key ++ colon :: rest)
    (hkey : colon ∉ key) (hcloses : Closes post rest) :
    Runaway (l :: ls) body post ↔ Runaway ls body post := by
  cases ls with
  | cons l' ls => simp only [Runaway, List.getLast?_cons_cons]
  | nil =>
      refine iff_of_false ?_ ?_
      · rintro ⟨⟨l', hl', hcolon⟩, front, back, rfl, hfront, hopen⟩
        cases hl'
        obtain ⟨front', heq, hfront'⟩ := body_split (by simpa using hcolon) h hkey
        obtain ⟨-, rfl⟩ := index_split_unique hfront hfront' heq
        exact hopen hcloses
      · rintro ⟨⟨l', hl', -⟩, -⟩
        cases hl'

/-- The last header line has no colon, and neither has the body. -/
def ColonFree (ls : List Bytes) (body : Bytes) : Prop :=
  (∃ l ∈ ls.getLast?, colon ∉ l) ∧ colon ∉ body

theorem colonFree_of_not_mem (h : colon ∉ headersText (l :: ls) body) :
    ColonFree (l :: ls) body := by
  have hlast := List.getLast_mem (List.cons_ne_nil l ls)
  refine ⟨⟨_, List.getLast?_eq_some_getLast (List.cons_ne_nil l ls), fun hmem => h ?_⟩,
    fun hmem => h (List.mem_append_right _ hmem)⟩
  refine List.mem_append_left _ (List.mem_append_left _ (List.mem_flatMap.mpr ⟨_, hlast, ?_⟩))
  exact List.mem_append_left _ hmem

/-- A first line does not matter if there is a colon in all that follows its start. -/
theorem colonFree_cons (h : colon ∈ headersText (l :: ls) body) :
    ColonFree (l :: ls) body ↔ ColonFree ls body := by
  cases ls with
  | cons l' ls => simp only [ColonFree, List.getLast?_cons_cons]
  | nil =>
      refine iff_of_false ?_ ?_
      · rintro ⟨⟨l', hl', hcolon⟩, hbody⟩
        cases hl'
        have hlines : colon ∉ linesText [l] ++ crlf := colon_not_mem_lines (by simpa using hcolon)
        exact (List.mem_append.mp h).elim hlines hbody
      · rintro ⟨⟨l', hl', -⟩, -⟩
        cases hl'

/-- **How the loop ends** depends on the last header line and the body: in a fault, with -1, or
with 0. -/
theorem headerLoop_ends (post : Bytes) (hls : ∀ l ∈ ls, IsLine l) {fuel : Nat} (hok : TableOk pr)
    (hnul : 0 ∉ headersText ls body) (hfuel : (headersText ls body).length < fuel) :
    (Runaway ls body post ∧ ∃ f, headerLoop fuel pr (headersText ls body ++ 0 :: post) = .error f) ∨
      (ColonFree ls body ∧ ∃ pr',
        headerLoop fuel pr (headersText ls body ++ 0 :: post) = .ok (-1, pr')) ∨
      (¬ Runaway ls body post ∧ ¬ ColonFree ls body ∧ ∃ pr',
        headerLoop fuel pr (headersText ls body ++ 0 :: post) = .ok (0, pr')) := by
  induction ls generalizing pr fuel with
  | nil =>
      obtain ⟨fuel, rfl⟩ : ∃ n, fuel = n + 1 := ⟨fuel - 1, by omega⟩
      refine .inr (.inr ⟨?_, ?_, pr, headerLoop_stop (.inr ⟨body, rfl⟩)⟩)
      · rintro ⟨⟨l, hl, -⟩, -⟩
        cases hl
      · rintro ⟨⟨l, hl, -⟩, -⟩
        cases hl
  | cons l ls ih =>
      obtain ⟨fuel, rfl⟩ : ∃ n, fuel = n + 1 := ⟨fuel - 1, by omega⟩
      obtain ⟨hl, hls⟩ := List.forall_mem_cons.mp hls
      have hnul' : 0 ∉ l ++ crlf ++ headersText ls body := by rwa [← headersText_cons]
      have hround := headerLoop_isLine pr fuel post hl hnul'
      rw [← headersText_cons] at hround
      rw [hround]
      -- a colon found in a later line counts for this one, as in the source
      by_cases hcolon : colon ∈ headersText (l :: ls) body
      · obtain ⟨key, rest, ht, hkey⟩ := exists_first_colon hcolon
        rcases parsedHeaderParse_colon post hok hnul ht hkey with
          ⟨hcloses, pr', hparse, hok'⟩ | ⟨hopen, f, hparse⟩
        · rw [runaway_cons_of_closes ht hkey hcloses, colonFree_cons hcolon, hparse]
          rw [headersText_cons] at hfuel
          simp only [List.length_append, length_crlf] at hfuel
          exact ih hls hok' (fun hmem => hnul' (List.mem_append_right _ hmem)) (by omega)
        · rw [hparse]
          exact .inl ⟨runaway_of_not_closes ht hkey hopen, f, rfl⟩
      · -- no header at all: the loop returns -1
        rw [parsedHeaderParse_noColon hnul hcolon]
        exact .inr (.inl ⟨colonFree_of_not_mem hcolon, pr, rfl⟩)

theorem not_runaway_of_colonFree (h : ColonFree ls body) : ¬ Runaway ls body post := by
  rintro ⟨-, key, rest, rfl, -⟩
  exact h.2 (by simp)

end Headers

/-! ## The whole request -/

/-- The parser returns 0 or -1: nothing is read outside its buffers, no failed search is used and
no length is negative. -/
def StaysInside (strtol : Bytes → Int × Bool) (buf : Bytes) : Prop :=
  ∃ ret pr, parsedRequestParse strtol parsedRequestCreate buf = .ok (ret, pr) ∧
    (ret = 0 ∨ ret = -1)

/-- A request with nothing behind the address, or with a request line that is accepted and a
runaway header. -/
def Strays (strtol : Bytes → Int × Bool) (buf : Bytes) : Prop :=
  ∃ line ls body post, Layout buf line ls body post ∧ buf.length ≤ maxReqLen ∧
    (VersionMissing line ∨ (∃ x : Spelling, x.line = line ∧ x.Ok strtol) ∧ Runaway ls body post)

section Request

variable {strtol : Bytes → Int × Bool} {buf line body post : Bytes} {ls : List Bytes}

/-- What follows an accepted request line. -/
theorem staysInside_accepted (h : Layout buf line ls body post) (hmax : buf.length ≤ maxReqLen)
    {x : Spelling} (hx : x.Ok strtol) (hline : x.line = line) :
    StaysInside strtol buf ↔ ¬ Runaway ls body post := by
  obtain ⟨pr, -, -, -, hok, hparse⟩ := h.parse_accepted hmax hx hline
  unfold StaysInside
  rw [hparse]
  rcases headerLoop_ends post h.lines hok h.nul_headers h.fuel with
    ⟨hrunaway, f, hloop⟩ | ⟨hfree, pr', hloop⟩ | ⟨hrunaway, -, pr', hloop⟩
  · rw [hloop]
    simp [hrunaway]
  · exact iff_of_true ⟨-1, pr', hloop, .inr rfl⟩ (not_runaway_of_colonFree hfree)
  · exact iff_of_true ⟨0, pr', hloop, .inl rfl⟩ hrunaway

/-- A request line that is not accepted is refused, unless the version is missing. -/
theorem staysInside_refused (h : Layout buf line ls body post) (hmax : buf.length ≤ maxReqLen)
    (hline : ¬ ∃ x : Spelling, x.line = line ∧ x.Ok strtol) :
    StaysInside strtol buf ↔ ¬ VersionMissing line := by
  unfold StaysInside
  rw [h.parse_eq hmax]
  by_cases hmissing : VersionMissing line
  · rw [parseRequestLine_missing h.nul_line hmissing]
    simp [hmissing]
  · refine iff_of_true ?_ hmissing
    have hends := parseRequestLine_inside strtol (withLine line) h.nul_line
      hmissing
    cases hparse : parseRequestLine strtol (withLine line) (line ++ [0]) with
    | ok pr => exact absurd (exists_spelling h.nul_line hparse) hline
    | error e =>
        cases e with
        | fault f => exact absurd (hends.error hparse) id
        | reject pr => exact ⟨-1, pr, rfl, .inr rfl⟩

/-- An accepted line has a version. -/
theorem not_versionMissing {x : Spelling} (hx : x.Ok strtol) (hnul : 0 ∉ x.line) :
    ¬ VersionMissing x.line := by
  intro hmissing
  obtain ⟨pr, hparse, -⟩ := parseRequestLine_eq hx hnul parsedRequestCreate
  rw [parseRequestLine_missing hnul hmissing] at hparse
  cases hparse

/-- **The parser stays inside its buffers** unless the request is one of these two kinds. -/
theorem staysInside_iff (strtol : Bytes → Int × Bool) (buf : Bytes) :
    StaysInside strtol buf ↔ ¬ Strays strtol buf := by
  by_cases hlaid : ∃ line ls body post, Layout buf line ls body post ∧ buf.length ≤ maxReqLen
  · obtain ⟨line, ls, body, post, h, hmax⟩ := hlaid
    have hstrays : Strays strtol buf ↔ VersionMissing line ∨
        (∃ x : Spelling, x.line = line ∧ x.Ok strtol) ∧ Runaway ls body post := by
      constructor
      · rintro ⟨line', ls', body', post', h', -, hwhy⟩
        obtain ⟨rfl, rfl, rfl, rfl⟩ := h.unique h'
        exact hwhy
      · exact fun hwhy => ⟨line, ls, body, post, h, hmax, hwhy⟩
    rw [hstrays]
    by_cases haccepted : ∃ x : Spelling, x.line = line ∧ x.Ok strtol
    · obtain ⟨x, rfl, hx⟩ := haccepted
      have hmissing := not_versionMissing hx h.nul_line
      rw [staysInside_accepted h hmax hx rfl]
      simp only [hmissing, false_or, not_and]
      exact ⟨fun hrunaway _ => hrunaway, fun hall => hall ⟨x, rfl, hx⟩⟩
    · rw [staysInside_refused h hmax haccepted]
      simp only [haccepted, false_and, or_false]
  · refine iff_of_true ⟨-1, _, parse_unlaid hlaid, .inr rfl⟩ ?_
    rintro ⟨line, ls, body, post, h, hmax, -⟩
    exact hlaid ⟨line, ls, body, post, h, hmax⟩

end Request

/-- `GET http://h/` and nothing behind it. -/
def noVersionRequest : Bytes :=
  [71, 69, 84, 32, 104, 116, 116, 112, 58, 47, 47, 104, 47] ++ crlf ++ crlf

/-- `GET http://h/x HTTP/1.0` with the header line `A` and the body `b:c`. -/
def runawayRequest : Bytes :=
  [71, 69, 84, 32, 104, 116, 116, 112, 58, 47, 47, 104, 47, 120, 32, 72, 84, 84, 80, 47, 49, 46, 48]
    ++ crlf ++ [65] ++ crlf ++ crlf ++ [98, 58, 99]

/-- The version is read behind `parse->buf`; the length of a value is computed from a null
pointer. -/
theorem not_staysInside :
    parsedRequestParse (strtol false) parsedRequestCreate noVersionRequest = .error .outOfBounds ∧
    parsedRequestParse (strtol false) parsedRequestCreate runawayRequest = .error .badLength ∧
    ¬ ∀ buf : Bytes, StaysInside (strtol false) buf := by
  have hversion : parsedRequestParse (strtol false) parsedRequestCreate noVersionRequest
      = .error .outOfBounds := by decide +kernel
  have hrunaway : parsedRequestParse (strtol false) parsedRequestCreate runawayRequest
      = .error .badLength := by decide +kernel
  refine ⟨hversion, hrunaway, fun hall => ?_⟩
  obtain ⟨ret, pr, hparse, -⟩ := hall noVersionRequest
  rw [hversion] at hparse
  cases hparse

end NetworkProjects.Proxy
