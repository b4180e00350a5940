import NetworkProjects.Proxy.Spelling

/-!
# Request lines that are accepted

`Accepted strtol f` says which fields can come out of the request line parser. It accepts the
line that prints such fields and reads the same fields from it (`parseRequestLine_render`), and
whatever line it accepts, it reads such fields from it (`parseRequestLine_sound`). Oddly
spelled lines are accepted too: the second theorem says that nothing of the spelling is left.
-/

namespace NetworkProjects.Proxy

open NetworkProjects.Lib

/-! ## The fields of an accepted line -/

/-- The fields can stand in a request line, each where it is read from. -/
structure Accepted (strtol : Bytes → Int × Bool) (f : Fields) : Prop where
  method : f.method = get
  protocol_ne : f.protocol ≠ []
  protocol : ∀ c ∈ f.protocol, c ≠ 0 ∧ c ≠ sp ∧ c ≠ colon ∧ c ≠ slash
  host_ne : f.host ≠ []
  host : ∀ c ∈ f.host, c ≠ 0 ∧ c ≠ sp ∧ c ≠ colon ∧ c ≠ slash
  port_ne : ∀ p ∈ f.port, p ≠ []
  port : ∀ p ∈ f.port, ∀ c ∈ p, c ≠ 0 ∧ c ≠ sp ∧ c ≠ slash
  port_ok : ∀ p ∈ f.port, PortOk strtol p
  path : ∃ rest, f.path = slash :: rest ∧ rest.head? ≠ some slash ∧ ∀ c ∈ rest, c ≠ 0 ∧ c ≠ sp
  version : f.version.take http.length = http
  version_nul : 0 ∉ f.version

variable {strtol : Bytes → Int × Bool} {f : Fields} {parse : ParsedRequest}

/-! ## Reading back a printed line -/

/-- What stands between the spaces of a request line. -/
def renderAddr (f : Fields) : Bytes :=
  f.protocol ++ schemeSep ++ f.host ++ renderPort f.port ++ f.path

theorem renderLine_eq (f : Fields) :
    renderLine f = f.method ++ sp :: (renderAddr f ++ sp :: f.version) := by
  simp [renderLine, renderAddr]


theorem not_mem_renderAddr (h : Accepted strtol f) : ∀ c ∈ renderAddr f, c ≠ 0 ∧ c ≠ sp := by
  obtain ⟨rest, hpath, -, hrest⟩ := h.path
  intro c hc
  simp only [renderAddr, hpath, schemeSep, List.mem_append, List.mem_cons] at hc
  rcases hc with (((hc | hc) | hc) | hc) | hc
  · exact ⟨(h.protocol c hc).1, (h.protocol c hc).2.1⟩
  · rcases hc with rfl | rfl | rfl | hc
    · decide
    · decide
    · decide
    · cases hc
  · exact ⟨(h.host c hc).1, (h.host c hc).2.1⟩
  · cases hp : f.port with
    | none => simp [hp, renderPort] at hc
    | some port =>
        simp only [hp, renderPort, Option.elim_some, List.mem_cons] at hc
        rcases hc with rfl | hc
        · decide
        · exact ⟨(h.port port hp c hc).1, (h.port port hp c hc).2.1⟩
  · rcases hc with rfl | hc
    · decide
    · exact hrest c hc

theorem not_mem_renderLine (h : Accepted strtol f) : 0 ∉ renderLine f := by
  rw [renderLine_eq, h.method]
  simp only [List.mem_append, List.mem_cons, not_or]
  exact ⟨by decide, by decide, fun hc => (not_mem_renderAddr h 0 hc).1 rfl, by decide,
    h.version_nul⟩

/-- The usual spelling. -/
def Fields.spelling (f : Fields) : Spelling :=
  ⟨[], [], [], f.protocol, colon, [slash, slash], [], f.host, f.port, some f.path.tail, f.version⟩

theorem Fields.line_spelling (h : Accepted strtol f) : f.spelling.line = renderLine f := by
  obtain ⟨rest, hpath, -⟩ := h.path
  simp [Spelling.line, Spelling.addr, Spelling.hostPort, Fields.spelling, renderPath, renderLine,
    schemeSep, h.method, hpath]

theorem Fields.addr_spelling (h : Accepted strtol f) : f.spelling.addr = renderAddr f := by
  obtain ⟨rest, hpath, -⟩ := h.path
  simp [Spelling.addr, Spelling.hostPort, Fields.spelling, renderPath, renderAddr, schemeSep, hpath]

theorem Fields.fields_spelling (h : Accepted strtol f) : f.spelling.fields = f := by
  obtain ⟨rest, hpath, -⟩ := h.path
  have hmethod := h.method
  have hport : f.port.filter (· ≠ []) = f.port := by
    cases hp : f.port with
    | none => rfl
    | some port => simpa [Option.filter] using h.port_ne port hp
  obtain ⟨method, protocol, host, port, path, version⟩ := f
  simp only at hpath hmethod hport
  simp only [Spelling.fields, Fields.spelling, hpath, hmethod, hport, List.tail_cons,
    Option.getD_some]

/-- What can come out is read from its usual spelling. -/
theorem Accepted.spelling_ok (h : Accepted strtol f) : f.spelling.Ok strtol := by
  obtain ⟨rest, hpath, hslash, hrest⟩ := h.path
  refine ⟨by simp [Fields.spelling], by simp [Fields.spelling], ?_, by simp [Fields.spelling],
    h.protocol_ne, fun c hc => (h.protocol c hc).2.2, .inl rfl, by simp [Fields.spelling],
    by simp [Fields.spelling], h.host_ne, fun c hc => (h.host c hc).2.2, ?_, ?_, h.version, ?_⟩
  · rw [Fields.addr_spelling h]
    exact fun c hc => (not_mem_renderAddr h c hc).2
  · exact fun p hp => ⟨fun c hc => (h.port p hp c hc).2.2, fun _ => h.port_ok p hp⟩
  · rintro p ⟨⟩
    rwa [hpath]
  · have hlen : f.spelling.addr.length
        = f.protocol.length + 3 + f.spelling.hostPort.length + (rest.length + 1) := by
      simp [Spelling.addr, Fields.spelling, renderPath, hpath]
      omega
    have hseps : ¬ 3 ≤ f.spelling.seps.length := by simp [Fields.spelling]
    have hfits : f.spelling.protocol.length + 3 ≤ f.spelling.addr.length := by
      rw [hlen]
      simp only [Fields.spelling]
      omega
    rw [absUriLen, if_neg hseps, if_pos hfits, hlen]
    simp only [Fields.spelling]
    omega

/-- **A printed line is read back** as the fields it was printed from, and the header table is not
touched. -/
theorem parseRequestLine_render (h : Accepted strtol f) (parse : ParsedRequest) :
    ∃ pr, parseRequestLine strtol parse (renderLine f ++ [0]) = .ok pr ∧ pr.Holds f ∧
      pr.headers = parse.headers ∧ pr.headerslen = parse.headerslen := by
  have hnul := not_mem_renderLine h
  rw [← Fields.line_spelling h] at hnul ⊢
  obtain ⟨pr, hparse, hholds, hrest⟩ := parseRequestLine_eq h.spelling_ok hnul parse
  rw [Fields.fields_spelling h] at hholds
  exact ⟨pr, hparse, hholds, hrest⟩

/-- A printed line is one line, if its fields are. -/
theorem noCrlf_renderLine (h : Accepted strtol f) (hprotocol : NoCrlf f.protocol)
    (hhost : NoCrlf f.host) (hport : ∀ p ∈ f.port, NoCrlf p) (hpath : NoCrlf f.path.tail)
    (hversion : NoCrlf f.version) : NoCrlf (renderLine f) := by
  obtain ⟨rest, hp, -, -⟩ := h.path
  have hsplit : renderLine f = get ++ sp :: (f.protocol ++ colon :: ([] ++ slash :: ([] ++
      slash :: ((f.host ++ renderPort f.port) ++ slash :: (rest ++ sp :: f.version))))) := by
    simp [renderLine, schemeSep, hp, h.method]
  have hhp : NoCrlf (f.host ++ renderPort f.port) := by
    cases hport' : f.port with
    | none => simpa [renderPort] using hhost
    | some port =>
        rw [renderPort, Option.elim_some, noCrlf_append_cons (by decide) (by decide)]
        exact ⟨hhost, hport port hport'⟩
  rw [hp, List.tail_cons] at hpath
  rw [hsplit]
  repeat rw [noCrlf_append_cons (by decide) (by decide)]
  exact ⟨by decide, hprotocol, noCrlf_nil, noCrlf_nil, hhp, hpath, hversion⟩

/-! ## What an accepted line is made of

The fields are pieces of the line, so they are not longer than it, and have no line end. -/

/-- The fields stand in the line. -/
structure Fields.Within (f : Fields) (line : Bytes) : Prop where
  protocol : f.protocol <:+: line
  host : f.host <:+: line
  port : ∀ p ∈ f.port, p <:+: line
  path : f.path.tail <:+: line
  version : f.version <:+: line

theorem Fields.Within.length_renderLine_le {line : Bytes} (hin : f.Within line)
    (h : Accepted strtol f) : (renderLine f).length ≤ 5 * line.length + 10 := by
  obtain ⟨rest, hp, -, -⟩ := h.path
  have hpath := hin.path.length_le
  have hport : (renderPort f.port).length ≤ line.length + 1 := by
    cases hport' : f.port with
    | none => simp [renderPort]
    | some port => simpa [renderPort] using (hin.port port hport').length_le
  have hprotocol := hin.protocol.length_le
  have hhost := hin.host.length_le
  have hversion := hin.version.length_le
  simp only [hp, List.tail_cons] at hpath
  simp only [renderLine, h.method, hp, get, schemeSep, List.length_append, List.length_cons,
    List.length_nil]
  omega

theorem Fields.Within.noCrlf {line : Bytes} (hin : f.Within line) (h : Accepted strtol f)
    (hline : NoCrlf line) : NoCrlf (renderLine f) :=
  noCrlf_renderLine h (hline.of_infix hin.protocol) (hline.of_infix hin.host)
    (fun p hp => hline.of_infix (hin.port p hp)) (hline.of_infix hin.path)
    (hline.of_infix hin.version)

theorem Spelling.addr_infix (x : Spelling) : x.addr <:+: x.line :=
  ⟨x.lead ++ get ++ sp :: x.gap, sp :: x.version, by simp [Spelling.line]⟩

theorem Spelling.hostPort_infix (x : Spelling) : x.hostPort <:+: x.addr :=
  ⟨x.seps ++ x.protocol ++ x.sep :: x.slashes, renderPath x.path, by simp [Spelling.addr]⟩

theorem Spelling.port_infix {x : Spelling} {p : Bytes} (hp : p ∈ x.fields.port) :
    p <:+: x.hostPort := by
  have hport : x.port = some p := (Option.filter_eq_some_iff.mp hp).1
  exact ⟨x.colons ++ x.host ++ [colon], [], by simp [Spelling.hostPort, renderPort, hport]⟩

/-- The fields of a spelling stand in its line. -/
theorem Spelling.within (x : Spelling) : x.fields.Within x.line where
  protocol := List.IsInfix.trans ⟨x.seps, _, rfl⟩ x.addr_infix
  host := List.IsInfix.trans ⟨x.colons, _, rfl⟩ (x.hostPort_infix.trans x.addr_infix)
  port _ hp := (Spelling.port_infix hp).trans (x.hostPort_infix.trans x.addr_infix)
  path := x.path_infix.trans x.addr_infix
  version := ⟨x.lead ++ get ++ sp :: (x.gap ++ x.addr ++ [sp]), [], by
    simp [Spelling.line, Spelling.fields]⟩

theorem Spelling.Ok.accepted {x : Spelling} (h : x.Ok strtol) (hnul : 0 ∉ x.line) :
    Accepted strtol x.fields := by
  have haddr : ∀ {s : Bytes}, s <:+: x.addr → ∀ c ∈ s, c ≠ 0 ∧ c ≠ sp := fun hs c hc =>
    ⟨fun h0 => hnul (h0 ▸ (hs.trans x.addr_infix).mem hc), h.addr c (hs.mem hc)⟩
  have hprotocol : x.protocol <:+: x.addr := ⟨x.seps, _, rfl⟩
  have hhost : x.host <:+: x.addr := List.IsInfix.trans ⟨x.colons, _, rfl⟩ x.hostPort_infix
  refine ⟨rfl, h.protocol_ne, ?_, h.host_ne, ?_, ?_, ?_, ?_, ?_, h.version,
    fun hmem => hnul (x.within.version.mem hmem)⟩
  · intro c hc
    exact ⟨(haddr hprotocol c hc).1, (haddr hprotocol c hc).2, h.protocol c hc⟩
  · intro c hc
    exact ⟨(haddr hhost c hc).1, (haddr hhost c hc).2, h.host c hc⟩
  · intro p hp
    simpa using (Option.filter_eq_some_iff.mp hp).2
  · intro p hp c hc
    have hc' := haddr ((Spelling.port_infix hp).trans x.hostPort_infix) c hc
    exact ⟨hc'.1, hc'.2, (h.port p (Option.filter_eq_some_iff.mp hp).1).1 c hc⟩
  · intro p hp
    obtain ⟨hport, hne⟩ := Option.filter_eq_some_iff.mp hp
    exact (h.port p hport).2 (by simpa using hne)
  · refine ⟨x.path.getD [], rfl, ?_, haddr x.path_infix⟩
    cases hp : x.path with
    | none => simp
    | some p => exact h.path p hp

/-- **What is accepted can stand in a line**, and was read from this one. -/
theorem parseRequestLine_sound {pr : ParsedRequest} {line : Bytes} (hnul : 0 ∉ line)
    (h : parseRequestLine strtol parse (line ++ [0]) = .ok pr) :
    ∃ f : Fields, Accepted strtol f ∧ f.Within line ∧ pr.Holds f ∧
      pr.headers = parse.headers ∧ pr.headerslen = parse.headerslen := by
  obtain ⟨x, rfl, hok⟩ := exists_spelling hnul h
  obtain ⟨pr', hparse, hholds, hrest⟩ := parseRequestLine_eq hok hnul parse
  cases h.symm.trans hparse
  exact ⟨x.fields, hok.accepted hnul, x.within, hholds, hrest⟩

end NetworkProjects.Proxy
