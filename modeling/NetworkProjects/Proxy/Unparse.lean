import NetworkProjects.Proxy.ParsedRequest

/-!
# Printing a request

`ParsedRequest_unparse` and the lengths it checks. The header length is summed up in an `int`,
so it is taken modulo `2 ^ 32` and sign-extended when it is returned as a `size_t`.

`unparse_eq` is what callers need: an object whose fields have the texts of `f` prints as
`renderLine f` and `renderHeaders` of its live headers, if the total length is below `2 ^ 31`.
-/

namespace NetworkProjects.Proxy

open NetworkProjects.Lib

/-! ## Texts -/

/-- `"GET"`. -/
def get : Bytes := [71, 69, 84]
/-- `"HTTP/"`. -/
def http : Bytes := [72, 84, 84, 80, 47]
/-- `' '`. -/
def sp : UInt8 := 32
/-- `'/'`. -/
def slash : UInt8 := 47
/-- `':'`. -/
def colon : UInt8 := 58
/-- `"://"`. -/
def schemeSep : Bytes := [colon, slash, slash]

/-! ## Lengths and printing (`proxy_parse.c`) -/

/-- `ParsedRequest_requestLineLen`. -/
def parsedRequestRequestLineLen (pr : ParsedRequest) : Except Fault Nat := do
  if pr.buf = none then return 0
  let method ← pr.text pr.method
  let protocol ← pr.text pr.protocol
  let host ← pr.text pr.host
  let version ← pr.text pr.version
  let len := method.length + 1 + protocol.length + 3 + host.length + 1 + version.length + 2
  let len ← if pr.port ≠ .null then do
      let port ← pr.text pr.port
      pure (len + (port.length + 1))
    else pure len
  let path ← pr.text pr.path
  return len + path.length

/-- `ParsedHeader_lineLen`. -/
def parsedHeaderLineLen (ph : ParsedHeader) : Nat :=
  match ph.key with
  | some key => key.length + ph.value.length + 4
  | none => 0

/-- `return len;` with an `int` that holds `n`, from a function of type `size_t`. -/
def sizeOfInt (n : Nat) : Nat :=
  if n % 2 ^ 32 < 2 ^ 31 then n % 2 ^ 32 else 2 ^ 64 - 2 ^ 32 + n % 2 ^ 32

/-- `ParsedHeader_headersLen`. -/
def parsedHeaderHeadersLen (pr : ParsedRequest) : Nat :=
  if pr.buf = none then 0 else sizeOfInt ((pr.headers.map parsedHeaderLineLen).sum + 2)

/-- `ParsedRequest_totalLen`. -/
def parsedRequestTotalLen (pr : ParsedRequest) : Except Fault Nat := do
  if pr.buf = none then return 0
  let len ← parsedRequestRequestLineLen pr
  return (len + parsedHeaderHeadersLen pr) % 2 ^ 64

/-- `ParsedRequest_printRequestLine`: the return value and what is written. -/
def parsedRequestPrintRequestLine (pr : ParsedRequest) (buflen : Nat) :
    Except Fault (Int × Bytes) := do
  let len ← parsedRequestRequestLineLen pr
  if buflen < len then return (-1, [])
  let method ← pr.text pr.method
  let protocol ← pr.text pr.protocol
  let host ← pr.text pr.host
  let current := method ++ [sp] ++ protocol ++ schemeSep ++ host
  let current ← if pr.port ≠ .null then do
      let port ← pr.text pr.port
      pure (current ++ [colon] ++ port)
    else pure current
  let path ← pr.text pr.path
  let version ← pr.text pr.version
  return (0, current ++ path ++ [sp] ++ version ++ crlf)

/-- One header as `ParsedHeader_printHeaders` prints it. -/
def renderHeader (p : Bytes × Bytes) : Bytes := p.1 ++ [colon, sp] ++ p.2 ++ crlf

/-- `ParsedHeader_printHeaders` into a buffer with `len` bytes left. -/
def parsedHeaderPrintHeaders (pr : ParsedRequest) (len : Nat) : Except Fault (Int × Bytes) :=
  if len < parsedHeaderHeadersLen pr then .ok (-1, [])
  else
    let text := (live pr.headers).flatMap renderHeader ++ crlf
    if len < text.length then .error .outOfBounds else .ok (0, text)

/-- `ParsedRequest_unparse` into a buffer of `buflen` bytes. -/
def parsedRequestUnparse (pr : ParsedRequest) (buflen : Nat) : Except Fault (Int × Bytes) := do
  if pr.buf = none then return (-1, [])
  let (ret, line) ← parsedRequestPrintRequestLine pr buflen
  if ret < 0 then return (-1, line)
  let (ret, headers) ← parsedHeaderPrintHeaders pr (buflen - line.length)
  if ret < 0 then return (-1, line ++ headers)
  return (0, line ++ headers)

/-! ## What is printed

The functions print the fields and headers that the object holds. `Fields` are the texts, apart from
where they stand in memory. -/

/-- The texts of the fields of a request line. -/
structure Fields where
  method : Bytes
  protocol : Bytes
  host : Bytes
  port : Option Bytes
  path : Bytes
  version : Bytes
  deriving DecidableEq, Repr

/-- The fields of the object have these texts. -/
structure ParsedRequest.Holds (pr : ParsedRequest) (f : Fields) : Prop where
  buf : pr.buf ≠ none
  method : pr.text pr.method = .ok f.method
  protocol : pr.text pr.protocol = .ok f.protocol
  host : pr.text pr.host = .ok f.host
  port : f.port.elim (pr.port = .null) fun p => pr.port ≠ .null ∧ pr.text pr.port = .ok p
  path : pr.text pr.path = .ok f.path
  version : pr.text pr.version = .ok f.version

/-- `":" port`, if there is a port. -/
def renderPort (port : Option Bytes) : Bytes := port.elim [] fun p => colon :: p

/-- The request line without its line end. -/
def renderLine (f : Fields) : Bytes :=
  f.method ++ [sp] ++ f.protocol ++ schemeSep ++ f.host ++ renderPort f.port ++ f.path ++ [sp]
    ++ f.version

/-- The header lines and the empty line. -/
def renderHeaders (hs : List (Bytes × Bytes)) : Bytes := hs.flatMap renderHeader ++ crlf

/-- The whole request. -/
def render (f : Fields) (hs : List (Bytes × Bytes)) : Bytes :=
  renderLine f ++ crlf ++ renderHeaders hs

theorem length_render (f : Fields) (hs : List (Bytes × Bytes)) :
    (render f hs).length = (renderLine f).length + 2 + (renderHeaders hs).length := by
  simp [render]
  omega

theorem sum_lineLen (headers : List ParsedHeader) :
    (headers.map parsedHeaderLineLen).sum + 2 = (renderHeaders (live headers)).length := by
  induction headers with
  | nil => rfl
  | cons ph headers ih =>
      rw [List.map_cons, List.sum_cons, Nat.add_assoc, ih]
      cases hk : ph.key with
      | none => simp [parsedHeaderLineLen, live, hk]
      | some key =>
          simp only [parsedHeaderLineLen, hk, live, List.filterMap_cons, Option.map_some,
            renderHeaders, List.flatMap_cons, renderHeader, crlf, List.length_append,
            List.length_cons, List.length_nil]
          omega

theorem sizeOfInt_eq {n : Nat} (h : n < 2 ^ 31) : sizeOfInt n = n := by
  simp only [sizeOfInt, Nat.reducePow] at h ⊢
  rw [Nat.mod_eq_of_lt (by omega), if_pos h]

section Printing

variable {pr : ParsedRequest} {f : Fields}

theorem headersLen_eq (hbuf : pr.buf ≠ none)
    (hlen : (renderHeaders (live pr.headers)).length < 2 ^ 31) :
    parsedHeaderHeadersLen pr = (renderHeaders (live pr.headers)).length := by
  rw [parsedHeaderHeadersLen, if_neg hbuf, sum_lineLen, sizeOfInt_eq hlen]

theorem requestLineLen_eq (h : pr.Holds f) :
    parsedRequestRequestLineLen pr = .ok ((renderLine f).length + 2) := by
  have hport := h.port
  cases hp : f.port with
  | none =>
      rw [hp, Option.elim_none] at hport
      simp only [parsedRequestRequestLineLen, h.buf, h.method, h.protocol, h.host, h.version,
        h.path, hport, bind, Except.bind, pure, Except.pure, if_false, ne_eq, not_true_eq_false,
        Except.ok.injEq, renderLine, hp, renderPort, Option.elim_none, schemeSep,
        List.length_append, List.length_cons, List.length_nil]
      omega
  | some port =>
      rw [hp, Option.elim_some] at hport
      simp only [parsedRequestRequestLineLen, h.buf, h.method, h.protocol, h.host, h.version,
        h.path, hport.1, hport.2, bind, Except.bind, pure, Except.pure, if_false, if_true, ne_eq,
        not_false_eq_true, Except.ok.injEq, renderLine, hp, renderPort, Option.elim_some,
        schemeSep, List.length_append, List.length_cons, List.length_nil]
      omega

theorem printRequestLine_eq (h : pr.Holds f) {buflen : Nat}
    (hlen : (renderLine f).length + 2 ≤ buflen) :
    parsedRequestPrintRequestLine pr buflen = .ok (0, renderLine f ++ crlf) := by
  have hport := h.port
  have hfits : ¬ buflen < (renderLine f).length + 2 := Nat.not_lt.mpr hlen
  cases hp : f.port with
  | none =>
      rw [hp, Option.elim_none] at hport
      simp only [parsedRequestPrintRequestLine, requestLineLen_eq h, if_neg hfits, h.method,
        h.protocol, h.host, h.version, h.path, hport, bind, Except.bind, pure, Except.pure]
      simp [renderLine, hp, renderPort]
  | some port =>
      rw [hp, Option.elim_some] at hport
      simp only [parsedRequestPrintRequestLine, requestLineLen_eq h, if_neg hfits, h.method,
        h.protocol, h.host, h.version, h.path, hport.2, bind, Except.bind, pure, Except.pure]
      simp [renderLine, hp, renderPort, hport.1]

/-- A buffer that does not hold the request line is not written to. -/
theorem printRequestLine_short (h : pr.Holds f) {buflen : Nat}
    (hlen : buflen < (renderLine f).length + 2) :
    parsedRequestPrintRequestLine pr buflen = .ok (-1, []) := by
  simp only [parsedRequestPrintRequestLine, requestLineLen_eq h, if_pos hlen, bind, Except.bind,
    pure, Except.pure]

/-- The total length, if the header lines do not overflow the `int`. -/
theorem totalLen_of_headers (h : pr.Holds f)
    (hheaders : (renderHeaders (live pr.headers)).length < 2 ^ 31)
    (hline : (renderLine f).length < 2 ^ 31) :
    parsedRequestTotalLen pr = .ok (render f (live pr.headers)).length := by
  rw [length_render]
  simp only [parsedRequestTotalLen, h.buf, requestLineLen_eq h, headersLen_eq h.buf hheaders, bind,
    Except.bind, pure, Except.pure, if_false, Except.ok.injEq]
  simp only [Nat.reducePow] at hheaders hline ⊢
  exact Nat.mod_eq_of_lt (by omega)

/-- **The total length** is that of the request as it is printed, if that does not overflow the
`int`. -/
theorem totalLen_eq (h : pr.Holds f) (hlen : (render f (live pr.headers)).length < 2 ^ 31) :
    parsedRequestTotalLen pr = .ok (render f (live pr.headers)).length := by
  have htotal := length_render f (live pr.headers)
  exact totalLen_of_headers h (by omega) (by omega)

/-- **What is printed** into a buffer that is long enough is the line, the headers that are set, and
the empty line. -/
theorem unparse_fits (h : pr.Holds f)
    (hlen : (renderHeaders (live pr.headers)).length < 2 ^ 31) {buflen : Nat}
    (hfits : (render f (live pr.headers)).length ≤ buflen) :
    parsedRequestUnparse pr buflen = .ok (0, render f (live pr.headers)) := by
  rw [length_render] at hfits
  have hline : parsedRequestPrintRequestLine pr buflen = .ok (0, renderLine f ++ crlf) :=
    printRequestLine_eq h (by omega)
  have hrest : (renderHeaders (live pr.headers)).length
      ≤ buflen - (renderLine f ++ crlf).length := by
    rw [List.length_append, length_crlf]
    omega
  have hprint : parsedHeaderPrintHeaders pr (buflen - (renderLine f ++ crlf).length)
      = .ok (0, renderHeaders (live pr.headers)) := by
    rw [parsedHeaderPrintHeaders, headersLen_eq h.buf hlen, if_neg (Nat.not_lt.mpr hrest)]
    exact if_neg (Nat.not_lt.mpr hrest)
  simp only [parsedRequestUnparse, h.buf, hline, hprint, bind, Except.bind, pure, Except.pure]
  simp [render]

/-- What is printed into a buffer of that length. -/
theorem unparse_eq (h : pr.Holds f) (hlen : (render f (live pr.headers)).length < 2 ^ 31) :
    parsedRequestUnparse pr (render f (live pr.headers)).length
      = .ok (0, render f (live pr.headers)) := by
  have htotal := length_render f (live pr.headers)
  exact unparse_fits h (by omega) (Nat.le_refl _)

/-- A buffer that is too short gets the request line, or nothing. -/
theorem unparse_short (h : pr.Holds f)
    (hlen : (renderHeaders (live pr.headers)).length < 2 ^ 31) {buflen : Nat}
    (hshort : buflen < (render f (live pr.headers)).length) :
    ∃ text, parsedRequestUnparse pr buflen = .ok (-1, text) ∧ text.length ≤ buflen := by
  rw [length_render] at hshort
  by_cases hline : (renderLine f).length + 2 ≤ buflen
  · refine ⟨renderLine f ++ crlf, ?_, ?_⟩
    · have hprint : parsedHeaderPrintHeaders pr (buflen - (renderLine f ++ crlf).length)
          = .ok (-1, []) := by
        rw [parsedHeaderPrintHeaders, headersLen_eq h.buf hlen, if_pos]
        rw [List.length_append, length_crlf]
        omega
      simp only [parsedRequestUnparse, h.buf, printRequestLine_eq h hline, hprint, bind,
        Except.bind, pure, Except.pure]
      simp
    · rw [List.length_append, length_crlf]
      exact hline
  · refine ⟨[], ?_, Nat.zero_le _⟩
    simp only [parsedRequestUnparse, h.buf, printRequestLine_short h (Nat.not_le.mp hline), bind,
      Except.bind, pure, Except.pure]
    simp

end Printing

end NetworkProjects.Proxy
