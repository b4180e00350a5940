import NetworkProjects.Proxy.HeaderLines

/-!
# Request lines with an absolute URI

The parser is meant for lines such as `GET http://h:80/x HTTP/1.0`. It splits the address with
`strtok_r`, for which `"://"` is a set of delimiters, so it accepts many others, and calls whatever
is second the host. A line has one spelling (`Spelling.unique`), so a line is of the right form if
and only if its spelling is `Plain`: the delimiters between scheme and host are those of `"://"`,
there are none in front of either, a slash follows the host, and the port is a number.

`Accepts` says in terms of the buffer which requests are accepted; those that are not plain are the
ones that should not be (`onlyAbsoluteGet_iff`).
-/

namespace NetworkProjects.Proxy

open NetworkProjects.Lib

/-! ## Lines of the right form

The form is stated on the line itself, with no mention of delimiters that `strtok_r` skips. -/

/-- A scheme or a host. -/
def IsName (s : Bytes) : Prop := s ≠ [] ∧ ∀ c ∈ s, c ≠ colon ∧ c ≠ slash ∧ c ≠ sp

/-- A decimal number from 1 to 65535. -/
def PortNumber (p : Bytes) : Prop :=
  p ≠ [] ∧ (∀ c ∈ p, isDigit c) ∧ 1 ≤ digitsValue p ∧ digitsValue p ≤ 65535

/-- The line is a `GET` request with an absolute URI, and the fields of the object are its parts. -/
def AbsoluteGet (line : Bytes) (pr : ParsedRequest) : Prop :=
  ∃ lead gap scheme host port path version,
    line = lead ++ get ++ sp :: (gap ++ (scheme ++ schemeSep ++ host ++ renderPort port
      ++ slash :: path) ++ sp :: version) ∧
    (∀ c ∈ lead, c = sp) ∧ (∀ c ∈ gap, c = sp) ∧ IsName scheme ∧ IsName host ∧
    (∀ p ∈ port, PortNumber p) ∧ version.take http.length = http ∧
    pr.Holds ⟨get, scheme, host, port, slash :: path, version⟩

/-! ## A line has one spelling

Two spellings of one line are compared from the left, one piece after the other. -/

/-- The parts of the spelling are where they are looked for. -/
structure Spelling.Shaped (x : Spelling) : Prop where
  lead : ∀ c ∈ x.lead, c = sp
  gap : ∀ c ∈ x.gap, c = sp
  addr : ∀ c ∈ x.addr, c ≠ sp
  seps : ∀ c ∈ x.seps, c = colon ∨ c = slash
  protocol_ne : x.protocol ≠ []
  protocol : ∀ c ∈ x.protocol, c ≠ colon ∧ c ≠ slash
  sep : x.sep = colon ∨ x.sep = slash
  slashes : ∀ c ∈ x.slashes, c = slash
  colons : ∀ c ∈ x.colons, c = colon
  host_ne : x.host ≠ []
  host : ∀ c ∈ x.host, c ≠ colon
  hostPort : ∀ c ∈ x.hostPort, c ≠ slash

theorem Spelling.Ok.shaped {strtol : Bytes → Int × Bool} {x : Spelling} (h : x.Ok strtol) :
    x.Shaped :=
  ⟨h.lead, h.gap, h.addr, h.seps, h.protocol_ne, h.protocol, h.sep, h.slashes, h.colons, h.host_ne,
    fun c hc => (h.host c hc).1, h.hostPort_slash⟩

theorem renderPath_inj {path path' : Option Bytes} (h : renderPath path = renderPath path') :
    path = path' := by
  cases path <;> cases path' <;> simp_all [renderPath]

theorem renderPort_inj {port port' : Option Bytes} (h : renderPort port = renderPort port') :
    port = port' := by
  cases port <;> cases port' <;> simp_all [renderPort]

/-- The first byte of a part that is not empty. -/
theorem mem_of_head {s rest : Bytes} {c : UInt8} (hne : s ≠ []) (h : c ∈ (s ++ rest).head?) :
    c ∈ s := by
  obtain ⟨d, s, rfl⟩ := List.exists_cons_of_ne_nil hne
  cases h
  exact List.mem_cons_self

section Unique

variable {x y : Spelling}

theorem Spelling.Shaped.hostPort_ne (h : x.Shaped) : x.hostPort ≠ [] := by
  simp [Spelling.hostPort, h.host_ne]

theorem Spelling.hostPort_eq (x : Spelling) :
    x.hostPort = x.colons ++ (x.host ++ renderPort x.port) := by
  rw [Spelling.hostPort, List.append_assoc]

theorem Spelling.addr_eq (x : Spelling) : x.addr
    = x.seps ++ (x.protocol ++ x.sep :: (x.slashes ++ (x.hostPort ++ renderPath x.path))) := by
  simp [Spelling.addr]

theorem Spelling.line_eq (x : Spelling) :
    x.line = x.lead ++ (get ++ sp :: (x.gap ++ (x.addr ++ sp :: x.version))) := by
  simp [Spelling.line]

theorem Spelling.Shaped.hostPort_unique (hx : x.Shaped) (hy : y.Shaped)
    (h : x.hostPort = y.hostPort) : x.colons = y.colons ∧ x.host = y.host ∧ x.port = y.port := by
  rw [x.hostPort_eq, y.hostPort_eq] at h
  obtain ⟨hcolons, h⟩ := span_unique (p := (· = colon)) hx.colons hy.colons
    (fun c hc => hx.host c (mem_of_head hx.host_ne hc))
    (fun c hc => hy.host c (mem_of_head hy.host_ne hc)) h
  obtain ⟨hhost, h⟩ := span_unique (p := (· ≠ colon)) hx.host hy.host
    (by cases x.port <;> simp [renderPort]) (by cases y.port <;> simp [renderPort]) h
  exact ⟨hcolons, hhost, renderPort_inj h⟩

theorem Spelling.Shaped.addr_unique (hx : x.Shaped) (hy : y.Shaped) (h : x.addr = y.addr) :
    x.seps = y.seps ∧ x.protocol = y.protocol ∧ x.sep = y.sep ∧ x.slashes = y.slashes ∧
      x.hostPort = y.hostPort ∧ x.path = y.path := by
  rw [x.addr_eq, y.addr_eq] at h
  obtain ⟨hseps, h⟩ := span_unique (p := fun c => c = colon ∨ c = slash) hx.seps hy.seps
    (fun c hc => not_or.mpr (hx.protocol c (mem_of_head hx.protocol_ne hc)))
    (fun c hc => not_or.mpr (hy.protocol c (mem_of_head hy.protocol_ne hc))) h
  obtain ⟨hprotocol, h⟩ := span_unique (p := fun c => c ≠ colon ∧ c ≠ slash) hx.protocol hy.protocol
    (by rintro c ⟨⟩; exact fun hc => hx.sep.elim hc.1 hc.2)
    (by rintro c ⟨⟩; exact fun hc => hy.sep.elim hc.1 hc.2) h
  obtain ⟨hsep, h⟩ := List.cons.inj h
  obtain ⟨hslashes, h⟩ := span_unique (p := (· = slash)) hx.slashes hy.slashes
    (fun c hc => hx.hostPort c (mem_of_head hx.hostPort_ne hc))
    (fun c hc => hy.hostPort c (mem_of_head hy.hostPort_ne hc)) h
  obtain ⟨hhp, h⟩ := span_unique (p := (· ≠ slash)) hx.hostPort hy.hostPort
    (by cases x.path <;> simp [renderPath]) (by cases y.path <;> simp [renderPath]) h
  exact ⟨hseps, hprotocol, hsep, hslashes, hhp, renderPath_inj h⟩

theorem Spelling.line_unique (hx : x.Shaped) (hy : y.Shaped) (h : x.line = y.line) :
    x.lead = y.lead ∧ x.gap = y.gap ∧ x.addr = y.addr ∧ x.version = y.version := by
  rw [x.line_eq, y.line_eq] at h
  obtain ⟨hlead, h⟩ := span_unique (p := (· = sp)) hx.lead hy.lead
    (by rintro c ⟨⟩; decide) (by rintro c ⟨⟩; decide) h
  have h := (List.cons.inj (List.append_cancel_left h)).2
  obtain ⟨hgap, h⟩ := span_unique (p := (· = sp)) hx.gap hy.gap
    (fun c hc => hx.addr c (mem_of_head x.addr_ne hc))
    (fun c hc => hy.addr c (mem_of_head y.addr_ne hc)) h
  obtain ⟨haddr, h⟩ := span_unique (p := (· ≠ sp)) hx.addr hy.addr
    (by rintro c ⟨⟩; exact not_not.mpr rfl) (by rintro c ⟨⟩; exact not_not.mpr rfl) h
  exact ⟨hlead, hgap, haddr, (List.cons.inj h).2⟩

/-- **A line has one spelling**: the pieces are determined by what may stand in each of them. -/
theorem Spelling.unique (hx : x.Shaped) (hy : y.Shaped) (h : x.line = y.line) : x = y := by
  obtain ⟨hlead, hgap, haddr, hversion⟩ := Spelling.line_unique hx hy h
  obtain ⟨hseps, hprotocol, hsep, hslashes, hhp, hpath⟩ := hx.addr_unique hy haddr
  obtain ⟨hcolons, hhost, hport⟩ := hx.hostPort_unique hy hhp
  cases x with | mk lead gap seps protocol sep slashes colons host port path version =>
  cases y with | mk lead' gap' seps' protocol' sep' slashes' colons' host' port' path' version' =>
  simp only at hlead hgap hversion hseps hprotocol hsep hslashes hpath hcolons hhost hport
  subst hlead hgap hversion hseps hprotocol hsep hslashes hpath hcolons hhost hport
  rfl

end Unique

/-! ## Plain spellings

A line of the right form has its one spelling without repeated or mixed delimiters, and the other
way round. -/

/-- The spelling of a line of the right form. -/
structure Spelling.Plain (x : Spelling) : Prop where
  seps : x.seps = []
  sep : x.sep = colon
  slashes : x.slashes = [slash, slash]
  colons : x.colons = []
  path : x.path ≠ none
  port : ∀ p ∈ x.port, PortNumber p

/-- The fields of an object are determined. -/
theorem ParsedRequest.Holds.unique {pr : ParsedRequest} {f g : Fields} (hf : pr.Holds f)
    (hg : pr.Holds g) : f = g := by
  -- a null port is no string, so the two texts agree on whether there is a port
  have hport : f.port = g.port := by
    have hf := hf.port
    have hg := hg.port
    cases hfp : f.port with
    | none =>
        cases hgp : g.port with
        | none => rfl
        | some q =>
            rw [hfp] at hf
            rw [hgp] at hg
            exact absurd hf hg.1
    | some p =>
        rw [hfp] at hf
        cases hgp : g.port with
        | none =>
            rw [hgp] at hg
            exact absurd hg hf.1
        | some q =>
            rw [hgp] at hg
            rw [Except.ok.inj (hf.2.symm.trans hg.2)]
  obtain ⟨method, protocol, host, port, path, version⟩ := f
  obtain ⟨method', protocol', host', port', path', version'⟩ := g
  cases hf.method.symm.trans hg.method
  cases hf.protocol.symm.trans hg.protocol
  cases hf.host.symm.trans hg.host
  cases hf.path.symm.trans hg.path
  cases hf.version.symm.trans hg.version
  cases hport
  rfl

section Plain

variable {strtol : Bytes → Int × Bool} {x : Spelling} {pr : ParsedRequest}

/-- A line with a plain spelling is of the right form. -/
theorem Spelling.Plain.absoluteGet (h : x.Plain) (hx : x.Ok strtol) (hholds : pr.Holds x.fields) :
    AbsoluteGet x.line pr := by
  obtain ⟨path, hpath⟩ := Option.ne_none_iff_exists'.mp h.path
  have hport : x.port.filter (· ≠ []) = x.port := by
    cases hp : x.port with
    | none => rfl
    | some p => simpa [Option.filter] using (h.port p hp).1
  have hname : ∀ c ∈ x.host ++ x.protocol, c ≠ sp := by
    intro c hc
    refine hx.addr c ?_
    simp only [Spelling.addr, Spelling.hostPort, List.mem_append, List.mem_cons] at hc ⊢
    tauto
  refine ⟨x.lead, x.gap, x.protocol, x.host, x.port, path, x.version, ?_, hx.lead, hx.gap,
    ⟨hx.protocol_ne, fun c hc => ?_⟩, ⟨hx.host_ne, fun c hc => ?_⟩, h.port, hx.version, ?_⟩
  · simp [Spelling.line, Spelling.addr, Spelling.hostPort, h.seps, h.sep, h.slashes, h.colons,
      hpath, renderPath, schemeSep]
  · exact ⟨(hx.protocol c hc).1, (hx.protocol c hc).2, hname c (List.mem_append_right _ hc)⟩
  · exact ⟨(hx.host c hc).1, (hx.host c hc).2, hname c (List.mem_append_left _ hc)⟩
  · have hfields : x.fields = ⟨get, x.protocol, x.host, x.port, slash :: path, x.version⟩ := by
      rw [Spelling.fields, hport, hpath]
      rfl
    rwa [← hfields]

/-- A number contains no delimiter. -/
theorem PortNumber.not_mem {p : Bytes} (h : PortNumber p) : ∀ c ∈ p, c ≠ slash ∧ c ≠ sp := by
  intro c hc
  have hdigit := h.2.1 c hc
  constructor <;>
  · rintro rfl
    exact absurd hdigit (by decide)

/-- The spelling of a line of the right form. -/
def plainSpelling (lead gap scheme host : Bytes) (port : Option Bytes) (path version : Bytes) :
    Spelling :=
  ⟨lead, gap, [], scheme, colon, [slash, slash], [], host, port, some path, version⟩

theorem plainSpelling_shaped {lead gap scheme host path : Bytes} {port : Option Bytes}
    (version : Bytes) (hlead : ∀ c ∈ lead, c = sp) (hgap : ∀ c ∈ gap, c = sp)
    (hscheme : IsName scheme) (hhost : IsName host) (hport : ∀ p ∈ port, PortNumber p)
    (hpath : ∀ c ∈ path, c ≠ sp) :
    (plainSpelling lead gap scheme host port path version).Shaped := by
  -- the port is a colon and digits
  have hrender : ∀ c ∈ renderPort port, c ≠ slash ∧ c ≠ sp := by
    intro c hc
    cases hp : port with
    | none => simp [hp, renderPort] at hc
    | some p =>
        simp only [hp, renderPort, Option.elim_some, List.mem_cons] at hc
        rcases hc with rfl | hc
        · decide
        · exact (hport p hp).not_mem c hc
  have hhp : ∀ c ∈ [] ++ host ++ renderPort port, c ≠ slash ∧ c ≠ sp := by
    intro c hc
    rcases List.mem_append.mp hc with hc | hc
    · exact (hhost.2 c hc).2
    · exact hrender c hc
  refine ⟨hlead, hgap, ?_, by simp [plainSpelling], hscheme.1,
    fun c hc => ⟨(hscheme.2 c hc).1, (hscheme.2 c hc).2.1⟩, .inl rfl, by simp [plainSpelling],
    by simp [plainSpelling], hhost.1, fun c hc => (hhost.2 c hc).1, fun c hc => (hhp c hc).1⟩
  intro c hc
  rw [Spelling.addr_eq] at hc
  simp only [plainSpelling, List.nil_append, List.mem_append, List.mem_cons] at hc
  rcases hc with hc | rfl | (rfl | rfl | hc) | hc | hc
  · exact (hscheme.2 c hc).2.2
  · decide
  · decide
  · decide
  · cases hc
  · exact (hhp c hc).2
  · rcases List.mem_cons.mp hc with rfl | hc
    · decide
    · exact hpath c hc

/-- **A line is of the right form** if and only if its spelling is plain. -/
theorem absoluteGet_line_iff (hx : x.Ok strtol) (hholds : pr.Holds x.fields) :
    AbsoluteGet x.line pr ↔ x.Plain := by
  refine ⟨?_, fun h => h.absoluteGet hx hholds⟩
  rintro ⟨lead, gap, scheme, host, port, path, version, hline, hlead, hgap, hscheme, hhost, hport,
    -, hholds'⟩
  -- the path is the one that is read, so there is no space in it
  have hpath : x.path.getD [] = path :=
    (List.cons.inj (congrArg Fields.path (hholds.unique hholds'))).2
  have hshaped := plainSpelling_shaped version hlead hgap hscheme hhost hport
    fun c hc => hx.addr c (x.path_infix.mem (hpath ▸ hc))
  have heq : x = plainSpelling lead gap scheme host port path version := by
    refine Spelling.unique hx.shaped hshaped ?_
    rw [hline]
    simp [Spelling.line, Spelling.addr, Spelling.hostPort, plainSpelling, renderPath, schemeSep]
  rw [heq]
  exact ⟨rfl, rfl, rfl, rfl, by simp [plainSpelling], hport⟩

end Plain

/-! ## Requests that are accepted -/

/-- The buffer holds a request with a line of this spelling that is accepted: it is not too long,
no value is copied with a negative length, and a colon follows where a header is looked for. -/
def Accepts (strtol : Bytes → Int × Bool) (buf : Bytes) (x : Spelling) : Prop :=
  ∃ ls body post, Layout buf x.line ls body post ∧ buf.length ≤ maxReqLen ∧ x.Ok strtol ∧
    ¬ Runaway ls body post ∧ ¬ ColonFree ls body

/-- Only lines of the right form are accepted. -/
def OnlyAbsoluteGet (strtol : Bytes → Int × Bool) (buf : Bytes) : Prop :=
  ∀ pr, parsedRequestParse strtol parsedRequestCreate buf = .ok (0, pr) →
    ∃ line rest, buf = line ++ crlf ++ rest ∧ NoCrlf line ∧ AbsoluteGet line pr

section Request

variable {strtol : Bytes → Int × Bool} {buf line body post : Bytes} {ls : List Bytes}
  {x : Spelling} {pr : ParsedRequest}

/-- The request line in the buffer itself. -/
theorem Layout.first_line (h : Layout buf line ls body post) :
    ∃ rest, buf = line ++ crlf ++ rest := by
  refine ⟨(headersText ls body ++ 0 :: post).dropLast, ?_⟩
  have hmemory := congrArg List.dropLast h.memory
  rw [List.dropLast_concat, List.append_assoc, List.dropLast_append_of_ne_nil (by simp)] at hmemory
  exact hmemory

/-- Such requests are accepted, -/
theorem Accepts.parse (h : Accepts strtol buf x) :
    ∃ pr, parsedRequestParse strtol parsedRequestCreate buf = .ok (0, pr) ∧ pr.Holds x.fields := by
  obtain ⟨ls, body, post, hlayout, hmax, hx, hrunaway, hfree⟩ := h
  obtain ⟨pr₀, -, hholds, -, htable, hparse⟩ := hlayout.parse_accepted hmax hx rfl
  obtain ⟨-, -, pr, hloop⟩ :=
    ((headerLoop_ends post hlayout.lines htable hlayout.nul_headers hlayout.fuel).resolve_left
      fun h => hrunaway h.1).resolve_left fun h => hfree h.1
  exact ⟨pr, hparse.trans hloop, (tableOnly_headerLoop hloop).holds hholds⟩

/-- and no others. -/
theorem exists_accepts (h : parsedRequestParse strtol parsedRequestCreate buf = .ok (0, pr)) :
    ∃ x, Accepts strtol buf x ∧ pr.Holds x.fields := by
  by_cases hlaid : ∃ line ls body post, Layout buf line ls body post ∧ buf.length ≤ maxReqLen
  · obtain ⟨line, ls, body, post, hlayout, hmax⟩ := hlaid
    have hline : ∃ pr₀, parseRequestLine strtol (withLine line) (line ++ [0]) = .ok pr₀ := by
      rw [hlayout.parse_eq hmax] at h
      split at h
      · cases h
      · cases h
      · next pr₀ hline => exact ⟨pr₀, hline⟩
    obtain ⟨pr₀, hline⟩ := hline
    obtain ⟨x, rfl, hx⟩ := exists_spelling hlayout.nul_line hline
    obtain ⟨pr₀', -, hholds, -, htable, hparse⟩ := hlayout.parse_accepted hmax hx rfl
    rw [hparse] at h
    refine ⟨x, ?_, (tableOnly_headerLoop h).holds hholds⟩
    rcases headerLoop_ends post hlayout.lines htable hlayout.nul_headers hlayout.fuel with
      ⟨-, f, hloop⟩ | ⟨-, pr', hloop⟩ | ⟨hrunaway, hfree, -⟩
    · cases hloop.symm.trans h
    · cases hloop.symm.trans h
    · exact ⟨ls, body, post, hlayout, hmax, hx, hrunaway, hfree⟩
  · rw [parse_unlaid hlaid] at h
    cases h

/-- **Only absolute requests are accepted** if and only if the spelling of the request line is plain
where it is accepted. -/
theorem onlyAbsoluteGet_iff (strtol : Bytes → Int × Bool) (buf : Bytes) :
    OnlyAbsoluteGet strtol buf ↔ ∀ x, Accepts strtol buf x → x.Plain := by
  constructor
  · intro h x hx
    obtain ⟨pr, hparse, hholds⟩ := hx.parse
    obtain ⟨ls, body, post, hlayout, -, hok, -⟩ := hx
    obtain ⟨line, rest, hbuf, hline, habsolute⟩ := h pr hparse
    obtain ⟨rest', hbuf'⟩ := hlayout.first_line
    obtain ⟨rfl, -⟩ := crlf_split_unique hline hlayout.line (hbuf.symm.trans hbuf')
    exact (absoluteGet_line_iff hok hholds).mp habsolute
  · intro h pr hparse
    obtain ⟨x, hx, hholds⟩ := exists_accepts hparse
    have hplain := h x hx
    obtain ⟨ls, body, post, hlayout, -, hok, -⟩ := hx
    obtain ⟨rest, hbuf⟩ := hlayout.first_line
    exact ⟨x.line, rest, hbuf, hlayout.line, (absoluteGet_line_iff hok hholds).mpr hplain⟩

end Request

/-- `GET /a/b/c HTTP/1.0`. -/
def originRequest : Bytes :=
  [71, 69, 84, 32, 47, 97, 47, 98, 47, 99, 32, 72, 84, 84, 80, 47, 49, 46, 48] ++ crlf ++ crlf

/-- `GET http:/h/xy HTTP/1.0`. -/
def singleSlashRequest : Bytes :=
  [71, 69, 84, 32, 104, 116, 116, 112, 58, 47, 104, 47, 120, 121, 32, 72, 84, 84, 80, 47, 49, 46,
    48] ++ crlf ++ crlf

/-- Both are accepted; the host of the first is the second name of its path. -/
theorem not_onlyAbsoluteGet :
    (∃ pr, parsedRequestParse (strtol false) parsedRequestCreate originRequest = .ok (0, pr) ∧
      pr.text pr.protocol = .ok [97] ∧ pr.text pr.host = .ok [98]) ∧
    (∃ pr, parsedRequestParse (strtol false) parsedRequestCreate singleSlashRequest = .ok (0, pr)) ∧
    ¬ ∀ buf : Bytes, OnlyAbsoluteGet (strtol false) buf := by
  obtain ⟨⟨ret, pr⟩, hparse, hcheck⟩ : ∃ r,
      parsedRequestParse (strtol false) parsedRequestCreate originRequest = .ok r ∧
        decide (r.1 = 0 ∧ r.2.text r.2.protocol = .ok [97] ∧ r.2.text r.2.host = .ok [98]) = true :=
    exists_ok_of_check (by decide +kernel)
  obtain ⟨⟨ret', pr'⟩, hparse', hcheck'⟩ : ∃ r,
      parsedRequestParse (strtol false) parsedRequestCreate singleSlashRequest = .ok r ∧
        decide (r.1 = 0) = true := exists_ok_of_check (by decide +kernel)
  simp only [decide_eq_true_eq] at hcheck hcheck'
  obtain ⟨rfl, hprotocol, hhost⟩ := hcheck
  subst hcheck'
  refine ⟨⟨pr, hparse, hprotocol, hhost⟩, ⟨pr', hparse'⟩, fun hall => ?_⟩
  obtain ⟨line, rest, hbuf, hline, lead, gap, scheme, host, port, path, version, heq, -⟩ :=
    hall originRequest pr hparse
  -- there is no colon in the request, and a scheme would be followed by one
  have hcolon : colon ∈ originRequest := by
    rw [hbuf, heq]
    simp [schemeSep]
  exact absurd hcolon (by decide)

end NetworkProjects.Proxy
