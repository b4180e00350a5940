import NetworkProjects.Proxy.RequestLine
import NetworkProjects.Proxy.Headers
import NetworkProjects.Lib.Run

/-!
# Printing and parsing whole requests

An accepted text is a request line and headers, `IsRequest`, and determines the object up to
the layout of `buf` and of the table (`parse_sound`, `parse_complete`). A canonical text is
printed as it was; any other accepted text is printed as one that is read the same way.
-/

namespace NetworkProjects.Proxy

open NetworkProjects.Lib

/-! ## Accepted texts

Soundness and completeness: what is accepted is a request line with headers, and such a text is
accepted. -/

/-- The text `s` is a request line with these fields, and headers that lead to these calls. -/
structure IsRequest (strtol : Bytes → Int × Bool) (s line : Bytes) (f : Fields)
    (sets : List (Bytes × Bytes)) : Prop where
  accepted : Accepted strtol f
  noCrlf : NoCrlf line
  tail : ∃ t, s = line ++ crlf ++ t ∧ Reads t sets

section Parse

variable {strtol : Bytes → Int × Bool} {s line t : Bytes} {pr : ParsedRequest} {f : Fields}
  {sets : List (Bytes × Bytes)}

/-- The object the request line is parsed into. -/
def withLine (line : Bytes) : ParsedRequest :=
  { parsedRequestCreate with buf := some (line ++ [0]), buflen := line.length + 1 }

/-- The parser sees the text `s` in front of the first NUL, and the headers what stands behind
it. -/
theorem parsedRequestParse_text {buf post : Bytes} (hbuf : buf ++ [0] = s ++ 0 :: post)
    (hnul : 0 ∉ s) (hmin : minReqLen ≤ buf.length) (hmax : buf.length ≤ maxReqLen)
    (hend : crlf ++ crlf <:+: s) (hs : s = line ++ crlf ++ t) (hline : NoCrlf line) :
    parsedRequestParse strtol parsedRequestCreate buf
      = match parseRequestLine strtol (withLine line) (line ++ [0]) with
        | .error (.fault f) => .error f
        | .error (.reject parse) => .ok (-1, parse)
        | .ok parse => headerLoop (buf.length + 1) parse (t ++ 0 :: post) := by
  have hlen : ¬ (buf.length < minReqLen ∨ maxReqLen < buf.length) := by omega
  obtain ⟨i, hi⟩ := Option.isSome_iff_exists.mp (strstr_isSome.mpr hend)
  have hfirst : strstr crlf s = some line.length :=
    strstr_crlf_eq_some.mpr ⟨line, t, hs, hline, rfl⟩
  have htake : s.take line.length = line := by
    rw [hs, List.append_assoc, List.take_left]
  have hdrop : (s ++ 0 :: post).drop (line.length + 2) = t ++ 0 :: post := by
    rw [← List.drop_drop, hs, List.append_assoc, List.append_assoc, List.drop_left]
    rfl
  have htotal : (s ++ 0 :: post).length = buf.length + 1 := by
    rw [← hbuf, List.length_append]
    rfl
  simp only [parsedRequestParse, parsedRequestCreate, ne_eq, not_true_eq_false, if_false, hlen,
    hbuf, cstr_append hnul, hi, hfirst, htake, hdrop, htotal]
  rfl

theorem parsedRequestParse_eq (hnul : 0 ∉ s) (hmin : minReqLen ≤ s.length)
    (hmax : s.length ≤ maxReqLen) (hend : crlf ++ crlf <:+: s) (hs : s = line ++ crlf ++ t)
    (hline : NoCrlf line) :
    parsedRequestParse strtol parsedRequestCreate s
      = match parseRequestLine strtol (withLine line) (line ++ [0]) with
        | .error (.fault f) => .error f
        | .error (.reject parse) => .ok (-1, parse)
        | .ok parse => headerLoop (s.length + 1) parse (t ++ [0]) :=
  parsedRequestParse_text rfl hnul hmin hmax hend hs hline

/-- Only texts of a certain length with an empty line are looked at. -/
theorem parse_bounds (hnul : 0 ∉ s)
    (h : parsedRequestParse strtol parsedRequestCreate s = .ok (0, pr)) :
    minReqLen ≤ s.length ∧ s.length ≤ maxReqLen ∧ crlf ++ crlf <:+: s := by
  by_cases hlen : s.length < minReqLen ∨ maxReqLen < s.length
  · simp [parsedRequestParse, parsedRequestCreate, hlen] at h
  · refine ⟨by omega, by omega, ?_⟩
    rw [← strstr_isSome]
    by_contra hblank
    have hblank : strstr (crlf ++ crlf) s = none := by simpa using hblank
    simp [parsedRequestParse, parsedRequestCreate, hlen, cstr_append hnul, hblank] at h

/-- An accepted text can be taken apart: the spelling of its first line, and its headers. -/
theorem exists_spelling_of_parse (hnul : 0 ∉ s)
    (h : parsedRequestParse strtol parsedRequestCreate s = .ok (0, pr)) :
    ∃ (x : Spelling) (t : Bytes) (sets : List (Bytes × Bytes)), s = x.line ++ crlf ++ t ∧
      NoCrlf x.line ∧ x.Ok strtol ∧ Reads t sets ∧ pr.Holds x.fields ∧
      live pr.headers = keepLast sets ∧ TableOk pr := by
  obtain ⟨hmin, hmax, hend⟩ := parse_bounds hnul h
  have hlines : ¬ NoCrlf s := fun hno => hno (List.IsInfix.trans ⟨[], crlf, rfl⟩ hend)
  obtain ⟨line, t, rfl, hline⟩ := exists_first_line hlines
  rw [parsedRequestParse_eq hnul hmin hmax hend rfl hline] at h
  have hnulline : 0 ∉ line := fun hmem => hnul (by simp [hmem])
  have hnult : 0 ∉ t := fun hmem => hnul (by simp [hmem])
  split at h
  · cases h
  · cases h
  · next pr₀ hparse =>
    obtain ⟨x, rfl, hx⟩ := exists_spelling hnulline hparse
    obtain ⟨pr₀', hparse', hholds, hheaders, hheaderslen⟩ :=
      parseRequestLine_eq hx hnulline (withLine x.line)
    cases hparse.symm.trans hparse'
    have hok : TableOk pr₀ := tableOk_create.congr hheaders hheaderslen
    -- the headers that the loop has read, and the run of the loop on them
    obtain ⟨sets, hreads⟩ := reads_of_headerLoop hok hnult h
    have hfuel : t.length < (x.line ++ crlf ++ t).length + 1 := by
      simp only [List.length_append]
      omega
    obtain ⟨pr', hloop, hsets⟩ := headerLoop_reads hreads hok hnult hfuel
    cases h.symm.trans hloop
    refine ⟨x, t, sets, rfl, hline, hx, hreads, hsets.holds hholds, ?_, hsets.tableOk⟩
    rw [hsets.live, hheaders]
    exact foldl_setLast sets

/-- **What is accepted is a request**: its fields are pieces of the first line, and the table holds
the last of the headers that have been read. -/
theorem parse_sound (hnul : 0 ∉ s)
    (h : parsedRequestParse strtol parsedRequestCreate s = .ok (0, pr)) :
    ∃ line f sets, f.Within line ∧ IsRequest strtol s line f sets ∧ pr.Holds f ∧
      live pr.headers = keepLast sets ∧ TableOk pr := by
  obtain ⟨x, t, sets, rfl, hline, hx, hreads, hholds, hlive, hok⟩ :=
    exists_spelling_of_parse hnul h
  have haccepted := hx.accepted fun hmem => hnul (by simp [hmem])
  exact ⟨x.line, x.fields, sets, x.within, ⟨haccepted, hline, t, rfl, hreads⟩, hholds, hlive, hok⟩

/-- How long an accepted request can be when it is printed again. -/
def maxRenderLen : Nat := 21845 * 65535 + 5 * 65535 + 14

theorem IsRequest.length_render_le (h : IsRequest strtol s line f sets) (hin : f.Within line)
    (hmax : s.length ≤ maxReqLen) : (render f (keepLast sets)).length ≤ maxRenderLen := by
  obtain ⟨t, rfl, hreads⟩ := h.tail
  have hline := hin.length_renderLine_le h.accepted
  simp only [List.length_append, length_crlf, maxReqLen] at hmax
  have hheaders := hreads.length_render_le (by omega)
  rw [length_render, maxRenderLen]
  omega

/-- A text with a line that is spelled as it should be, and headers that can be read. -/
theorem parse_spelled {x : Spelling} (hx : x.Ok strtol) (hline : NoCrlf x.line)
    (hreads : Reads t sets) (hnul : 0 ∉ x.line ++ crlf ++ t)
    (hmax : (x.line ++ crlf ++ t).length ≤ maxReqLen)
    (hend : crlf ++ crlf <:+: x.line ++ crlf ++ t) :
    ∃ pr, parsedRequestParse strtol parsedRequestCreate (x.line ++ crlf ++ t) = .ok (0, pr) ∧
      pr.Holds x.fields ∧ live pr.headers = keepLast sets := by
  have hmin : minReqLen ≤ (x.line ++ crlf ++ t).length := by
    simp only [Spelling.line, get, minReqLen, List.length_append, List.length_cons]
    omega
  obtain ⟨pr₀, hparse, hholds, hheaders, hheaderslen⟩ :=
    parseRequestLine_eq hx (fun hmem => hnul (by simp [hmem])) (withLine x.line)
  have hok : TableOk pr₀ := tableOk_create.congr hheaders hheaderslen
  have hfuel : t.length < (x.line ++ crlf ++ t).length + 1 := by
    simp only [List.length_append]
    omega
  obtain ⟨pr, hloop, hsets⟩ :=
    headerLoop_reads hreads hok (fun hmem => hnul (by simp [hmem])) hfuel
  refine ⟨pr, ?_, hsets.holds hholds, ?_⟩
  · rw [parsedRequestParse_eq hnul hmin hmax hend rfl hline, hparse]
    exact hloop
  · rw [hsets.live, hheaders]
    exact foldl_setLast sets

/-- **A request is accepted**, if its first line is printed as usual and it has an empty line; the
object then holds its fields and its headers. -/
theorem parse_complete (h : IsRequest strtol s (renderLine f) f sets) (hnul : 0 ∉ s)
    (hmax : s.length ≤ maxReqLen) (hend : crlf ++ crlf <:+: s) :
    ∃ pr, parsedRequestParse strtol parsedRequestCreate s = .ok (0, pr) ∧ pr.Holds f ∧
      live pr.headers = keepLast sets := by
  obtain ⟨haccepted, hline, t, rfl, hreads⟩ := h
  rw [← Fields.line_spelling haccepted] at hline hnul hmax hend ⊢
  have hparse := parse_spelled haccepted.spelling_ok hline hreads hnul hmax hend
  rwa [Fields.fields_spelling haccepted] at hparse

/-! ## Printed texts -/

theorem crlf_crlf_infix_render (f : Fields) (hs : List (Bytes × Bytes)) :
    crlf ++ crlf <:+: render f hs := by
  have hheaders : crlf ++ crlf <:+: crlf ++ renderHeaders hs := by
    induction hs with
    | nil => exact List.infix_refl _
    | cons p hs ih =>
        refine ih.trans ⟨crlf ++ p.1 ++ [colon, sp] ++ p.2, [], ?_⟩
        simp [renderHeaders, renderHeader]
  refine hheaders.trans ⟨renderLine f, [], ?_⟩
  simp [render]

theorem not_mem_render (h : Accepted strtol f) {hs : List (Bytes × Bytes)}
    (hhs : ∀ p ∈ hs, 0 ∉ p.1 ∧ 0 ∉ p.2) : 0 ∉ render f hs := by
  have hheaders : 0 ∉ renderHeaders hs := by
    induction hs with
    | nil => decide
    | cons p hs ih =>
        have hp := hhs p (by simp)
        have hrest := ih fun q hq => hhs q (by simp [hq])
        rw [renderHeaders_cons]
        simp [hp, hrest, colon, sp, crlf]
  simp [render, not_mem_renderLine h, hheaders, crlf]

theorem isRequest_render (h : Accepted strtol f) (hline : NoCrlf (renderLine f))
    {hs : List (Bytes × Bytes)} (hreads : Reads (renderHeaders hs) sets) :
    IsRequest strtol (render f hs) (renderLine f) f sets :=
  ⟨h, hline, _, rfl, hreads⟩

end Parse

/-! ## Printing a canonical text

A canonical request is printed exactly as it was written, so the text comes back and not only its
meaning. -/

/-- The fields of a canonical request line. -/
structure Canonical (f : Fields) : Prop where
  method : f.method = get
  protocol_ne : f.protocol ≠ []
  protocol : ∀ c ∈ f.protocol, c ≠ colon ∧ c ≠ slash ∧ c ≠ sp ∧ c ≠ 13 ∧ c ≠ 10
  host_ne : f.host ≠ []
  host : ∀ c ∈ f.host, c ≠ colon ∧ c ≠ slash ∧ c ≠ sp ∧ c ≠ 13 ∧ c ≠ 10
  port : ∀ p ∈ f.port, p ≠ [] ∧ (∀ c ∈ p, isDigit c) ∧ 0 < digitsValue p
  path : ∃ rest, f.path = slash :: rest ∧ rest.head? ≠ some slash ∧
    ∀ c ∈ rest, c ≠ sp ∧ c ≠ 13 ∧ c ≠ 10
  version : f.version.take http.length = http
  version_line : ∀ c ∈ f.version, c ≠ 13 ∧ c ≠ 10

/-- The headers of a canonical request. -/
structure CanonicalHeaders (hs : List (Bytes × Bytes)) : Prop where
  nodup : (hs.map Prod.fst).Nodup
  key_ne : ∀ p ∈ hs, p.1 ≠ []
  key : ∀ p ∈ hs, ∀ c ∈ p.1, c ≠ colon ∧ c ≠ 13 ∧ c ≠ 10
  value : ∀ p ∈ hs, NoCrlf p.2

/-- `strtol` takes a string of digits for a number. -/
theorem portOk_of_digits {p : Bytes} (setsEinval : Bool) (hne : p ≠ [])
    (hdigit : ∀ c ∈ p, isDigit c) : PortOk (strtol setsEinval) p := by
  obtain ⟨c, p, rfl⟩ := List.exists_cons_of_ne_nil hne
  have hc : isDigit c = true := hdigit c (by simp)
  have hspace : isSpace c = false := by
    simp only [isDigit, isSpace, decide_eq_true_eq, decide_eq_false_iff_not,
      UInt8.le_iff_toNat_le, ← UInt8.toNat_inj, UInt8.toNat_ofNat] at hc ⊢
    omega
  have hminus : c ≠ 45 := by
    rintro rfl
    exact absurd hc (by decide)
  have hplus : c ≠ 43 := by
    rintro rfl
    exact absurd hc (by decide)
  have hdigits : (strtol setsEinval (c :: p)).2 = false := by
    have htake : (c :: p).takeWhile isDigit = c :: p := List.takeWhile_eq_self_iff.mpr hdigit
    simp only [strtol, List.dropWhile_cons, hspace, Bool.false_eq_true, if_false]
    split
    · next h => exact absurd (List.cons.inj h).1 hminus
    · next h => exact absurd (List.cons.inj h).1 hplus
    · simp [htake]
  rintro ⟨-, herr⟩
  rw [hdigits] at herr
  cases herr

theorem within_renderLine (f : Fields) : f.Within (renderLine f) where
  protocol := ⟨f.method ++ [sp], schemeSep ++ f.host ++ renderPort f.port ++ f.path ++ [sp]
    ++ f.version, by simp [renderLine]⟩
  host := ⟨f.method ++ [sp] ++ f.protocol ++ schemeSep, renderPort f.port ++ f.path ++ [sp]
    ++ f.version, by simp [renderLine]⟩
  port p hp := by
    rw [Option.mem_def] at hp
    exact ⟨f.method ++ [sp] ++ f.protocol ++ schemeSep ++ f.host ++ [colon], f.path ++ [sp]
      ++ f.version, by simp [renderLine, renderPort, hp]⟩
  path := by
    apply (List.tail_suffix f.path).isInfix.trans
    exact ⟨f.method ++ [sp] ++ f.protocol ++ schemeSep ++ f.host ++ renderPort f.port, [sp]
      ++ f.version, by simp [renderLine]⟩
  version := ⟨f.method ++ [sp] ++ f.protocol ++ schemeSep ++ f.host ++ renderPort f.port
    ++ f.path ++ [sp], [], by simp [renderLine]⟩

theorem Canonical.accepted {f : Fields} (h : Canonical f) (setsEinval : Bool)
    (hnul : 0 ∉ renderLine f) : Accepted (strtol setsEinval) f := by
  have hin := within_renderLine f
  have hne : ∀ {s : Bytes}, s <:+: renderLine f → ∀ c ∈ s, c ≠ 0 := fun hs c hc h0 =>
    hnul (h0 ▸ hs.mem hc)
  obtain ⟨rest, hpath, hslash, hrest⟩ := h.path
  refine ⟨h.method, h.protocol_ne, ?_, h.host_ne, ?_, fun p hp => (h.port p hp).1, ?_, ?_,
    ⟨rest, hpath, hslash, ?_⟩, h.version, fun hmem => hnul (hin.version.mem hmem)⟩
  · intro c hc
    obtain ⟨hcolon, hslash, hsp, -⟩ := h.protocol c hc
    exact ⟨hne hin.protocol c hc, hsp, hcolon, hslash⟩
  · intro c hc
    obtain ⟨hcolon, hslash, hsp, -⟩ := h.host c hc
    exact ⟨hne hin.host c hc, hsp, hcolon, hslash⟩
  · intro p hp c hc
    have hdigit := (h.port p hp).2.1 c hc
    refine ⟨hne (hin.port p hp) c hc, ?_, ?_⟩
    · rintro rfl
      exact absurd hdigit (by decide)
    · rintro rfl
      exact absurd hdigit (by decide)
  · exact fun p hp => portOk_of_digits setsEinval (h.port p hp).1 (h.port p hp).2.1
  · intro c hc
    have hmem : c ∈ f.path.tail := by simpa [hpath] using hc
    exact ⟨hne hin.path c hmem, (hrest c hc).1⟩

theorem Canonical.noCrlf {f : Fields} (h : Canonical f) {setsEinval : Bool}
    (haccepted : Accepted (strtol setsEinval) f) : NoCrlf (renderLine f) := by
  obtain ⟨rest, hpath, -, hrest⟩ := h.path
  apply noCrlf_renderLine haccepted
  · exact noCrlf_of_not_mem fun hmem => (h.protocol 13 hmem).2.2.2.1 rfl
  · exact noCrlf_of_not_mem fun hmem => (h.host 13 hmem).2.2.2.1 rfl
  · intro p hp
    exact noCrlf_of_not_mem fun hmem => absurd ((h.port p hp).2.1 13 hmem) (by decide)
  · rw [hpath, List.tail_cons]
    exact noCrlf_of_not_mem fun hmem => (hrest 13 hmem).2.1 rfl
  · exact noCrlf_of_not_mem fun hmem => (h.version_line 13 hmem).1 rfl

/-- **Parsing and printing a canonical request** gives it back byte for byte, with the length that
`ParsedRequest_totalLen` has announced. -/
theorem canonical_round_trip (setsEinval : Bool) (f : Fields) (hs : List (Bytes × Bytes))
    (hf : Canonical f) (hhs : CanonicalHeaders hs) (hnul : 0 ∉ render f hs)
    (hlen : (render f hs).length ≤ 65535) :
    ∃ pr, parsedRequestParse (strtol setsEinval) parsedRequestCreate (render f hs) = .ok (0, pr) ∧
      parsedRequestTotalLen pr = .ok (render f hs).length ∧
      parsedRequestUnparse pr (render f hs).length = .ok (0, render f hs) := by
  have hnulline : 0 ∉ renderLine f := fun hmem => hnul (by simp [render, hmem])
  have haccepted := hf.accepted setsEinval hnulline
  have hreads : Reads (renderHeaders hs) hs := by
    refine reads_render (.inr ⟨[], rfl⟩) fun p hp => ⟨?_, ?_, hhs.value p hp⟩
    · exact fun hmem => (hhs.key p hp colon hmem).1 rfl
    · exact noCrlf_of_not_mem fun hmem => (hhs.key p hp 13 hmem).2.1 rfl
  have hreq := isRequest_render haccepted (hf.noCrlf haccepted) hreads
  obtain ⟨pr, hparse, hholds, hlive⟩ :=
    parse_complete hreq hnul hlen (crlf_crlf_infix_render f hs)
  rw [keepLast_of_nodup hhs.nodup] at hlive
  rw [← hlive] at hlen
  have hshort : (render f (live pr.headers)).length < 2 ^ 31 := by omega
  refine ⟨pr, hparse, ?_, ?_⟩
  · rw [← hlive]
    exact totalLen_eq hholds hshort
  · rw [← hlive]
    exact unparse_eq hholds hshort

/-- `GET http://a.b:80/c HTTP/1.0`, as fields. -/
def plainFields : Fields where
  method := get
  protocol := [104, 116, 116, 112]
  host := [97, 46, 98]
  port := some [56, 48]
  path := [47, 99]
  version := [72, 84, 84, 80, 47, 49, 46, 48]

/-- `Host: a.b` and `X: `. -/
def plainHeaders : List (Bytes × Bytes) :=
  [([72, 111, 115, 116], [97, 46, 98]), ([88], [])]

theorem canonical_round_trip_plain : ∃ pr,
    parsedRequestParse (strtol false) parsedRequestCreate (render plainFields plainHeaders)
      = .ok (0, pr) ∧
    parsedRequestTotalLen pr = .ok 48 ∧
    parsedRequestUnparse pr 48 = .ok (0, render plainFields plainHeaders) := by
  have hf : Canonical plainFields := by
    refine ⟨rfl, by decide, by decide +kernel, by decide, by decide +kernel, ?_, ?_, by decide,
      by decide +kernel⟩
    · rintro p ⟨⟩
      decide +kernel
    · exact ⟨[99], rfl, by decide, by decide +kernel⟩
  have hhs : CanonicalHeaders plainHeaders :=
    ⟨by decide, by decide, by decide +kernel, by decide⟩
  exact canonical_round_trip false plainFields plainHeaders hf hhs (by decide) (by decide)

/-! ## Printing what has been parsed

Any accepted request is printed in the usual spelling, and that is accepted as the same request. -/

/-- **Parsing what is printed.** A request that has been accepted is printed as a text that is
accepted as the same request, however it was spelled. -/
theorem reparse_stable (strtol : Bytes → Int × Bool) (s : Bytes) (pr : ParsedRequest) (n : Nat)
    (hnul : 0 ∉ s) (hparse : parsedRequestParse strtol parsedRequestCreate s = .ok (0, pr))
    (htotal : parsedRequestTotalLen pr = .ok n) (hn : n ≤ 65535) :
    ∃ text pr', parsedRequestUnparse pr n = .ok (0, text) ∧
      parsedRequestParse strtol parsedRequestCreate text = .ok (0, pr') ∧
      (∃ f, pr.Holds f ∧ pr'.Holds f) ∧ live pr'.headers = live pr.headers ∧
      parsedRequestTotalLen pr' = .ok n ∧ parsedRequestUnparse pr' n = .ok (0, text) := by
  obtain ⟨hmin, hmax, -⟩ := parse_bounds hnul hparse
  obtain ⟨line, f, sets, hin, hreq, hholds, hlive, -⟩ := parse_sound hnul hparse
  have hshort : (render f (keepLast sets)).length < 2 ^ 31 :=
    Nat.lt_of_le_of_lt (hreq.length_render_le hin hmax) (by decide)
  obtain ⟨t, rfl, hreads⟩ := hreq.tail
  have hnult : 0 ∉ t := fun hmem => hnul (by simp [hmem])
  have hprintable := hreads.printable hnult
  rw [← hlive] at hshort
  cases htotal.symm.trans (totalLen_eq hholds hshort)
  -- the printed headers are read as another sequence of calls, with the same outcome
  obtain ⟨sets', hreads', hkeep⟩ := reads_keepLast hreads.tailed hprintable
  have hreq' := isRequest_render hreq.accepted (hin.noCrlf hreq.accepted hreq.noCrlf) hreads'
  have hnul' : 0 ∉ render f (keepLast sets) := by
    apply not_mem_render hreq.accepted
    intro p hp
    exact (hprintable p ((keepLast_sublist sets).mem hp)).nul
  rw [hlive] at hshort hn ⊢
  obtain ⟨pr', hparse', hholds', hlive'⟩ :=
    parse_complete hreq' hnul' hn (crlf_crlf_infix_render f _)
  rw [hkeep] at hlive'
  refine ⟨render f (keepLast sets), pr', ?_, hparse', ⟨f, hholds, hholds'⟩, hlive', ?_, ?_⟩
  · rw [← hlive] at hshort ⊢
    exact unparse_eq hholds hshort
  · rw [← hlive'] at hshort ⊢
    exact totalLen_eq hholds' hshort
  · rw [← hlive'] at hshort ⊢
    exact unparse_eq hholds' hshort

/-- A request with a single slash, a name on two lines, a name set twice and a value that starts
in the middle of a line end. -/
def oddRequest : Bytes :=
  [32, 71, 69, 84, 32, 32, 104, 116, 116, 112, 58, 47, 104, 58, 56, 47, 120, 32, 72, 84, 84, 80,
   47, 49, 13, 10, 65, 13, 10, 66, 58, 120, 49, 13, 10, 66, 58, 13, 10, 50, 13, 10, 67, 58, 32,
   58, 13, 10, 13, 10]

theorem reparse_stable_oddRequest : ∃ pr text pr',
    parsedRequestParse (strtol true) parsedRequestCreate oddRequest = .ok (0, pr) ∧
    parsedRequestUnparse pr 58 = .ok (0, text) ∧
    parsedRequestParse (strtol true) parsedRequestCreate text = .ok (0, pr') ∧
    (∃ f, pr.Holds f ∧ pr'.Holds f) ∧ live pr'.headers = live pr.headers ∧
    parsedRequestTotalLen pr' = .ok 58 ∧ parsedRequestUnparse pr' 58 = .ok (0, text) := by
  have hparse : ∃ r, parsedRequestParse (strtol true) parsedRequestCreate oddRequest = .ok r ∧
      decide (r.1 = 0 ∧ parsedRequestTotalLen r.2 = .ok 58) = true :=
    exists_ok_of_check (by decide +kernel)
  obtain ⟨⟨ret, pr⟩, hparse, hcheck⟩ := hparse
  simp only [decide_eq_true_eq] at hcheck
  obtain ⟨rfl, htotal⟩ := hcheck
  obtain ⟨text, pr', h⟩ :=
    reparse_stable (strtol true) oddRequest pr 58 (by decide) hparse htotal (by decide)
  exact ⟨pr, text, pr', hparse, h⟩

end NetworkProjects.Proxy
