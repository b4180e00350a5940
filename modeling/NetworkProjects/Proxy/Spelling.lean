import NetworkProjects.Proxy.Parse
import NetworkProjects.Lib.Run

/-!
# How an accepted request line is spelled

`strtok_r` skips delimiters in front of a token, so a request line can be spelled in many ways. A
`Spelling` is a line taken apart: the fields, and the delimiters around them. The parser accepts
the lines with a spelling that is `Ok`, and no others (`parseRequestLine_iff`), and reads the
fields of the spelling from them (`parseRequestLine_eq`).

The four stages of the parser have two lemmas each: what a stage does with a part of the line that
is taken apart (`_eq`), and that the part can be taken apart so if the stage succeeds (`_spelled`).
-/

namespace NetworkProjects.Proxy

open NetworkProjects.Lib

/-! ## Steps that succeed

The parser is a chain of steps that can refuse or fault. These lemmas take a chain that succeeded
apart. -/

theorem map_eq_ok {α β : Type} {x : Except Exit α} {f : α → β} {r : β} :
    f <$> x = .ok r ↔ ∃ a, x = .ok a ∧ f a = r := by
  cases x with
  | error e => simp [Functor.map, Except.map]
  | ok a => simp [Functor.map, Except.map]

@[simp] theorem inside_eq_ok {α : Type} {o : Option α} {a : α} : inside o = .ok a ↔ o = some a := by
  cases o <;> simp [inside]

@[simp] theorem require_eq_ok {parse : ParsedRequest} {o : Option Nat} {start : Nat} :
    require parse o = .ok start ↔ o = some start := by
  cases o <;> simp [require, reject]

@[simp] theorem rejectIf_eq_ok {c : Prop} [Decidable c] {parse : ParsedRequest} {u : Unit} :
    rejectIf c parse = .ok u ↔ ¬ c := by
  unfold rejectIf reject
  split <;> simp [*]

/-- `strtol` does not report the port as bad. -/
def PortOk (strtol : Bytes → Int × Bool) (port : Bytes) : Prop :=
  ¬ ((strtol port).1 % 2 ^ 32 = 0 ∧ (strtol port).2)

variable {strtol : Bytes → Int × Bool} {parse : ParsedRequest}

/-! ## How a line is spelled

A spelling has a field for each run of delimiters that `strtok_r` skips. `Ok` says which characters
may stand where, and what the two comparisons of lengths and numbers demand. -/

/-- `"/" path`, if there is a slash. -/
def renderPath (path : Option Bytes) : Bytes := path.elim [] fun p => slash :: p

/-- A request line, taken apart. -/
structure Spelling where
  /-- The spaces in front of the method. -/
  lead : Bytes
  /-- The spaces in front of the address, but for the one that ends the method. -/
  gap : Bytes
  /-- The colons and slashes in front of the protocol. -/
  seps : Bytes
  protocol : Bytes
  /-- The colon or slash that ends the protocol. -/
  sep : UInt8
  /-- The slashes in front of the host. -/
  slashes : Bytes
  /-- The colons in front of the host. -/
  colons : Bytes
  host : Bytes
  /-- What stands behind the colon that ends the host. -/
  port : Option Bytes
  /-- What stands behind the slash that ends host and port. -/
  path : Option Bytes
  version : Bytes

/-- The host with its port, one token at first. -/
def Spelling.hostPort (x : Spelling) : Bytes := x.colons ++ x.host ++ renderPort x.port

def Spelling.addr (x : Spelling) : Bytes :=
  x.seps ++ x.protocol ++ x.sep :: (x.slashes ++ x.hostPort ++ renderPath x.path)

def Spelling.line (x : Spelling) : Bytes :=
  x.lead ++ get ++ sp :: (x.gap ++ x.addr ++ sp :: x.version)

/-- What is read from the line. -/
def Spelling.fields (x : Spelling) : Fields :=
  ⟨get, x.protocol, x.host, x.port.filter (· ≠ []), slash :: x.path.getD [], x.version⟩

/-- `abs_uri_len`: the length of what stands `strlen(protocol) + 3` bytes behind the start of the
address. With delimiters in front of the protocol that is not what follows `"://"`. -/
def absUriLen (seps protocol addr version : Bytes) : Nat :=
  if 3 ≤ seps.length then seps.length - 3
  else if protocol.length + 3 ≤ addr.length then addr.length - (protocol.length + 3)
  else version.length

/-- The spelling is that of a line the parser accepts. -/
structure Spelling.Ok (strtol : Bytes → Int × Bool) (x : Spelling) : Prop where
  lead : ∀ c ∈ x.lead, c = sp
  gap : ∀ c ∈ x.gap, c = sp
  addr : ∀ c ∈ x.addr, c ≠ sp
  seps : ∀ c ∈ x.seps, c = colon ∨ c = slash
  protocol_ne : x.protocol ≠ []
  protocol : ∀ c ∈ x.protocol, c ≠ colon ∧ c ≠ slash
  sep : x.sep = colon ∨ x.sep = slash
  slashes : ∀ c ∈ x.slashes, c = slash
  colons : ∀ c ∈ x.colons, c = colon
  host_ne : x.host ≠ []
  host : ∀ c ∈ x.host, c ≠ colon ∧ c ≠ slash
  port : ∀ p ∈ x.port, (∀ c ∈ p, c ≠ slash) ∧ (p ≠ [] → PortOk strtol p)
  path : ∀ p ∈ x.path, p.head? ≠ some slash
  version : x.version.take http.length = http
  /-- `strlen(parse->host) == abs_uri_len` is a missing path. -/
  abs : x.hostPort.length ≠ absUriLen x.seps x.protocol x.addr x.version

/-! ## The stages on a line that is taken apart

Method, address, path, host with port: each stage cuts one piece off, and leaves the strings that
the later ones need. -/

theorem parseMethod_eq {b lead gap addr version : Bytes} {fa : Nat}
    (hline : cstrAt b 0 = some (lead ++ get ++ sp :: (gap ++ addr ++ sp :: version)))
    (hlead : ∀ c ∈ lead, c = sp) (hgap : ∀ c ∈ gap, c = sp) (hne : addr ≠ [])
    (haddr : ∀ c ∈ addr, c ≠ sp) (hversion : version.take http.length = http)
    (hfa : fa = lead.length + 4 + gap.length) :
    ∃ b', (∀ parse, parseMethod parse b = .ok ({ parse with
        buf := some b', method := .inBuf lead.length, version := .inBuf (fa + addr.length + 1) },
        b', fa)) ∧
      cstrAt b' lead.length = some get ∧ cstrAt b' fa = some addr ∧
      cstrAt b' (fa + addr.length + 1) = some version := by
  obtain ⟨b₁, hr₁, -, ht₁⟩ := strtokR_token [sp] hline (by simpa using hlead) (by decide)
    (by simp [get, sp]) (by simp)
  have hsave : 0 + lead.length + get.length
      + min 1 (sp :: (gap ++ addr ++ sp :: version)).length = lead.length + 4 := by simp [get]
  rw [hsave, Nat.zero_add] at hr₁ ht₁
  have hget₁ : cstrAt b₁ lead.length = some get := ht₁.token
  have h1 : cstrAt b₁ (lead.length + 4) = some (gap ++ addr ++ sp :: version) := ht₁.rest
  obtain ⟨b₂, hr₂, -, ht₂⟩ := strtokR_token [sp] h1 (by simpa using hgap) hne
    (by simpa using haddr) (by simp)
  rw [← hfa] at hr₂ ht₂
  have hget : cstrAt b₂ lead.length = some get :=
    ht₂.frame _ get hget₁ (.inl (by simp only [get, List.length_cons, List.length_nil]; omega))
  have haddr₂ : cstrAt b₂ fa = some addr := ht₂.token
  have hversion₂ : cstrAt b₂ (fa + addr.length + 1) = some version := by simpa using ht₂.rest
  refine ⟨b₂, ?_, hget, haddr₂, hversion₂⟩
  simp [parseMethod, bind_eq_ok, map_eq_ok, hr₁, hr₂, hget₁, haddr₂, hversion₂, hversion, ptrOf]

/-- What `rem` points at, once the protocol has been cut off. -/
theorem cstrAt_rem {b seps protocol rest version : Bytes} {d : UInt8} {fa : Nat}
    (hne : rest ≠ []) (hscan : cstrAt b fa = some (seps ++ protocol))
    (hrest : cstrAt b (fa + seps.length + protocol.length + 1) = some rest)
    (hversion : cstrAt b (fa + (seps ++ protocol ++ d :: rest).length + 1) = some version) :
    ∃ u, cstrAt b (fa + protocol.length + 3) = some u ∧
      u.length = absUriLen seps protocol (seps ++ protocol ++ d :: rest) version := by
  have hpos := List.length_pos_iff.mpr hne
  simp only [List.length_append, List.length_cons] at hversion
  unfold absUriLen
  simp only [List.length_append, List.length_cons]
  split
  · next hthree =>
    -- still in what was scanned for the protocol
    rw [← List.take_append_drop (protocol.length + 3) (seps ++ protocol)] at hscan
    have hu := cstrAt_drop hscan
    have hlen : ((seps ++ protocol).take (protocol.length + 3)).length = protocol.length + 3 := by
      simp
      omega
    rw [hlen, ← Nat.add_assoc] at hu
    refine ⟨_, hu, ?_⟩
    simp
    omega
  · split
    · next hfits =>
      rw [← List.take_append_drop (2 - seps.length) rest] at hrest
      have hu := cstrAt_drop hrest
      have hlen : (rest.take (2 - seps.length)).length = 2 - seps.length := by
        simp
        omega
      have hoff : fa + seps.length + protocol.length + 1 + (2 - seps.length)
          = fa + protocol.length + 3 := by omega
      rw [hlen, hoff] at hu
      refine ⟨_, hu, ?_⟩
      simp
      omega
    · -- a host of one byte, behind a single delimiter: the version is next
      have hoff : fa + (seps.length + protocol.length + (rest.length + 1)) + 1
          = fa + protocol.length + 3 := by omega
      rw [hoff] at hversion
      exact ⟨version, hversion, rfl⟩

theorem parseAddress_eq {b seps protocol slashes hp tail version : Bytes} {d : UInt8}
    {fa hoff save : Nat}
    (haddr : cstrAt b fa = some (seps ++ protocol ++ d :: (slashes ++ hp ++ tail)))
    (hversion : cstrAt b (fa + (seps ++ protocol ++ d :: (slashes ++ hp ++ tail)).length + 1)
      = some version)
    (hseps : ∀ c ∈ seps, c = colon ∨ c = slash) (hpne : protocol ≠ [])
    (hprotocol : ∀ c ∈ protocol, c ≠ colon ∧ c ≠ slash) (hd : d = colon ∨ d = slash)
    (hslashes : ∀ c ∈ slashes, c = slash) (hhne : hp ≠ []) (hhost : ∀ c ∈ hp, c ≠ slash)
    (htail : ∀ c ∈ tail.head?, c = slash)
    (habs : hp.length
      ≠ absUriLen seps protocol (seps ++ protocol ++ d :: (slashes ++ hp ++ tail)) version)
    (hhoff : hoff = fa + seps.length + protocol.length + 1 + slashes.length)
    (hsave : save = hoff + hp.length + min 1 tail.length) :
    ∃ b', (∀ parse, parseAddress parse b fa = .ok ({ parse with
        buf := some b', protocol := .inBuf (fa + seps.length), host := .inBuf hoff }, b', hoff,
        save)) ∧
      cstrAt b' (fa + seps.length) = some protocol ∧ cstrAt b' hoff = some hp ∧
      cstrAt b' save = some tail.tail ∧
      ∀ o u, cstrAt b o = some u →
        o + u.length < fa ∨ fa + (seps ++ protocol ++ d :: (slashes ++ hp ++ tail)).length < o →
        cstrAt b' o = some u := by
  -- the protocol is cut off at the colon, and the host at the next slash
  obtain ⟨b₁, hr₁, hscan, ht₁⟩ := strtokR_token [colon, slash] haddr (by simpa using hseps) hpne
    (by simpa using hprotocol) (by simpa using hd)
  have hmin : min 1 (d :: (slashes ++ hp ++ tail)).length = 1 := by simp
  rw [hmin] at hr₁ ht₁
  have hprotocol₁ : cstrAt b₁ (fa + seps.length) = some protocol := ht₁.token
  have h1 : cstrAt b₁ (fa + seps.length + protocol.length + 1) = some (slashes ++ hp ++ tail) :=
    ht₁.rest
  -- `rem` is found again with `strstr`, in the text that the first cut has left
  obtain ⟨u, hu, hulen⟩ := cstrAt_rem (by simp [hhne]) hscan h1
    (ht₁.frame _ _ hversion (.inr (by omega)))
  obtain ⟨b₂, hr₂, -, ht₂⟩ := strtokR_token [slash] h1 (by simpa using hslashes) hhne
    (by simpa using hhost) (by simpa using htail)
  rw [← hhoff, ← hsave] at hr₂ ht₂
  have hprotocol₂ : cstrAt b₂ (fa + seps.length) = some protocol :=
    ht₂.frame _ protocol hprotocol₁ (.inl (by omega))
  have hhost₂ : cstrAt b₂ hoff = some hp := ht₂.token
  rw [← hulen] at habs
  refine ⟨b₂, ?_, hprotocol₂, hhost₂, ht₂.rest, ?_⟩
  · simp [parseAddress, bind_eq_ok, map_eq_ok, hr₁, hr₂, hprotocol₁, schemeSep, hu, hhost₂, habs,
      ptrOf]
  · -- what lies outside the address is untouched by both cuts
    intro o u hu hdisj
    simp only [List.length_append, List.length_cons] at hdisj
    refine ht₂.frame o u (ht₁.frame o u hu ?_) ?_ <;>
      simp only [List.length_append, List.length_cons] <;> omega

theorem parsePath_eq {b rest : Bytes} {saveptr : Nat}
    (hrest : cstrAt b saveptr = some rest) (hsp : ∀ c ∈ rest, c ≠ sp)
    (hslash : rest.head? ≠ some slash) :
    ∃ b', (∀ parse, parsePath parse b saveptr
        = .ok ({ parse with buf := some b', path := .heap (slash :: rest) }, b')) ∧
      ∀ o u, cstrAt b o = some u →
        rest = [] ∨ o + u.length < saveptr ∨ saveptr + rest.length < o → cstrAt b' o = some u := by
  cases rest with
  | nil =>
      have hr := strtokR_none [sp] hrest (by simp)
      refine ⟨b, ?_, fun o u hu _ => hu⟩
      simp [parsePath, bind_eq_ok, hr, pure, Except.pure]
  | cons c rest =>
      have h0 : cstrAt b saveptr = some ([] ++ (c :: rest) ++ []) := by simpa using hrest
      obtain ⟨b₁, hr, -, ht⟩ :=
        strtokR_token [sp] h0 (by simp) (by simp) (by simpa using hsp) (by simp)
      have hpath : cstrAt b₁ saveptr = some (c :: rest) := ht.token
      have hc : ¬ c = slash := by simpa using hslash
      refine ⟨b₁, ?_, fun o u hu hdisj => ht.frame o u hu (by simpa using hdisj)⟩
      simp [parsePath, bind_eq_ok, map_eq_ok, hr, hpath, hc]

theorem parseHostPort_eq {b colons host : Bytes} {port : Option Bytes} {off hoff : Nat}
    (hhp : cstrAt b off = some (colons ++ host ++ renderPort port))
    (hcolons : ∀ c ∈ colons, c = colon) (hne : host ≠ []) (hhost : ∀ c ∈ host, c ≠ colon)
    (hport : ∀ p ∈ port, (∀ c ∈ p, c ≠ slash) ∧ (p ≠ [] → PortOk strtol p))
    (hhoff : hoff = off + colons.length) :
    ∃ b', (∀ parse, parseHostPort strtol parse b off = .ok { parse with
        buf := some b', host := .inBuf hoff,
        port := (port.filter (· ≠ [])).elim .null fun _ => .inBuf (hoff + host.length + 1) }) ∧
      cstrAt b' hoff = some host ∧
      (∀ p ∈ port.filter (· ≠ []), cstrAt b' (hoff + host.length + 1) = some p) ∧
      ∀ o u, cstrAt b o = some u →
        o + u.length < off ∨ off + (colons ++ host ++ renderPort port).length < o →
        cstrAt b' o = some u := by
  obtain ⟨b₁, hr₁, -, ht₁⟩ := strtokR_token [colon] hhp (by simpa using hcolons) hne
    (by simpa using hhost) (by cases port <;> simp [renderPort])
  rw [← hhoff] at hr₁ ht₁
  have hhost₁ : cstrAt b₁ hoff = some host := ht₁.token
  cases port with
  | none =>
      -- no colon: the second `strtok_r` finds the end of the text and gives a null pointer
      have h1 : cstrAt b₁ (hoff + host.length) = some [] := by simpa [renderPort] using ht₁.rest
      have hr₂ := strtokR_none [slash] h1 (by simp)
      refine ⟨b₁, ?_, hhost₁, by simp, ht₁.frame⟩
      simp [parseHostPort, bind_eq_ok, hr₁, hr₂, renderPort, ptrOf, pure, Except.pure]
  | some port =>
      have h1 : cstrAt b₁ (hoff + host.length + 1) = some port := by
        simpa [renderPort] using ht₁.rest
      obtain ⟨hslash, hok⟩ := hport port rfl
      by_cases hempty : port = []
      · -- a colon that nothing follows
        subst hempty
        have hr₂ := strtokR_none [slash] h1 (by simp)
        refine ⟨b₁, ?_, hhost₁, by simp, ht₁.frame⟩
        simp [parseHostPort, bind_eq_ok, hr₁, hr₂, renderPort, ptrOf, pure, Except.pure,
          Option.filter]
      · have h1' : cstrAt b₁ (hoff + host.length + 1) = some ([] ++ port ++ []) := by simpa using h1
        obtain ⟨b₂, hr₂, -, ht₂⟩ := strtokR_token [slash] h1' (by simp) hempty
          (by simpa using hslash) (by simp)
        have hport₂ : cstrAt b₂ (hoff + host.length + 1) = some port := ht₂.token
        have hhost₂ : cstrAt b₂ hoff = some host := ht₂.frame hoff host hhost₁ (.inl (by omega))
        have hr₂' : strtokR b₁ (hoff + host.length + 1) [slash]
            = some (b₂, some (hoff + host.length + 1), hoff + host.length + 1 + port.length) := by
          simpa using hr₂
        have hgood : (strtol port).1 % 4294967296 = 0 → (strtol port).2 = false := by
          simpa [PortOk] using hok hempty
        refine ⟨b₂, ?_, hhost₂, by simpa [hempty] using hport₂, ?_⟩
        · intro parse
          simpa [parseHostPort, bind_eq_ok, map_eq_ok, hr₁, hr₂', hport₂, renderPort, ptrOf, hempty,
            Option.filter] using hgood
        · intro o u hu hdisj
          refine ht₂.frame o u (ht₁.frame o u hu hdisj) ?_
          simp [renderPort] at hdisj ⊢
          omega

/-! ## A line that is taken apart

The four stages one after the other, with the strings that survive. -/

section Spelled

variable {x : Spelling}

theorem Spelling.addr_ne (x : Spelling) : x.addr ≠ [] := by simp [Spelling.addr]

theorem Spelling.Ok.hostPort_slash (h : x.Ok strtol) : ∀ c ∈ x.hostPort, c ≠ slash := by
  intro c hc
  simp only [Spelling.hostPort, List.mem_append] at hc
  rcases hc with (hc | hc) | hc
  · rw [h.colons c hc]
    decide
  · exact (h.host c hc).2
  · cases hp : x.port with
    | none => simp [hp, renderPort] at hc
    | some port =>
        simp only [hp, renderPort, Option.elim_some, List.mem_cons] at hc
        rcases hc with rfl | hc
        · decide
        · exact (h.port port hp).1 c hc

theorem Spelling.path_infix (x : Spelling) : x.path.getD [] <:+: x.addr := by
  have htail : (renderPath x.path).tail = x.path.getD [] := by
    cases x.path <;> simp [renderPath]
  rw [← htail]
  refine List.IsInfix.trans (List.tail_suffix _).isInfix ?_
  exact ⟨x.seps ++ x.protocol ++ x.sep :: (x.slashes ++ x.hostPort), [], by simp [Spelling.addr]⟩

/-- **What the parser reads from a line that is spelled so** are the fields of the spelling, and it
does not touch the header table. -/
theorem parseRequestLine_eq (h : x.Ok strtol) (hnul : 0 ∉ x.line) (parse : ParsedRequest) :
    ∃ pr, parseRequestLine strtol parse (x.line ++ [0]) = .ok pr ∧ pr.Holds x.fields ∧
      pr.headers = parse.headers ∧ pr.headerslen = parse.headerslen := by
  have hline : cstrAt (x.line ++ [0]) 0
      = some (x.lead ++ get ++ sp :: (x.gap ++ x.addr ++ sp :: x.version)) := by
    rw [cstrAt_zero, cstr_append hnul]
    rfl
  have hhpne : x.hostPort ≠ [] := by simp [Spelling.hostPort, h.host_ne]
  have hrest : (renderPath x.path).tail = x.path.getD [] := by
    cases x.path <;> simp [renderPath]
  have hslash : (x.path.getD []).head? ≠ some slash := by
    cases hp : x.path with
    | none => simp
    | some p => exact h.path p hp
  obtain ⟨fa, hfa⟩ : ∃ fa, fa = x.lead.length + 4 + x.gap.length := ⟨_, rfl⟩
  obtain ⟨off, hoff⟩ : ∃ off, off = fa + x.seps.length + x.protocol.length + 1 + x.slashes.length :=
    ⟨_, rfl⟩
  obtain ⟨hostOff, hhostOff⟩ : ∃ hostOff, hostOff = off + x.colons.length := ⟨_, rfl⟩
  -- the four stages, each on the strings the one before it leaves behind
  obtain ⟨b₁, hr₁, hget₁, haddr₁, hversion₁⟩ :=
    parseMethod_eq hline h.lead h.gap x.addr_ne h.addr h.version hfa
  obtain ⟨b₂, hr₂, hprotocol₂, hhost₂, hrest₂, hframe₂⟩ := parseAddress_eq haddr₁ hversion₁ h.seps
    h.protocol_ne h.protocol h.sep h.slashes hhpne h.hostPort_slash
    (by cases x.path <;> simp [renderPath]) h.abs hoff rfl
  rw [hrest] at hrest₂
  obtain ⟨b₃, hr₃, hframe₃⟩ :=
    parsePath_eq hrest₂ (fun c hc => h.addr c (x.path_infix.mem hc)) hslash
  have hbehind : x.path.getD [] = [] ∨ min 1 (renderPath x.path).length = 1 := by
    cases x.path <;> simp [renderPath]
  have hhost₃ := hframe₃ _ _ hhost₂ (hbehind.imp_right fun hmin => .inl (by omega))
  obtain ⟨b₄, hr₄, hhost₄, hport₄, hframe₄⟩ := parseHostPort_eq hhost₃ h.colons h.host_ne
    (fun c hc => (h.host c hc).1) h.port hhostOff
  -- the strings cut off earlier stand outside what is cut up later
  have haddrlen : (x.seps ++ x.protocol ++ x.sep :: (x.slashes ++ x.hostPort
      ++ renderPath x.path)).length = x.addr.length := rfl
  have hhplen : (x.colons ++ x.host ++ renderPort x.port).length = x.hostPort.length := rfl
  have hlen : x.addr.length = x.seps.length + x.protocol.length + 1 + x.slashes.length
      + x.hostPort.length + (renderPath x.path).length := by
    simp only [Spelling.addr, List.length_append, List.length_cons]
    omega
  have hpathlen : (x.path.getD []).length + min 1 (renderPath x.path).length
      = (renderPath x.path).length := by
    cases x.path <;> simp [renderPath]
  rw [haddrlen] at hframe₂
  rw [hhplen] at hframe₄
  have hget₄ : cstrAt b₄ x.lead.length = some get := by
    refine hframe₄ _ _ (hframe₃ _ _ (hframe₂ _ _ hget₁ (.inl ?_)) (.inr (.inl ?_))) (.inl ?_) <;>
      simp only [get, List.length_cons, List.length_nil] <;> omega
  have hprotocol₄ := hframe₄ _ _ (hframe₃ _ _ hprotocol₂ (.inr (.inl (by omega)))) (.inl (by omega))
  have hversion₄ := hframe₄ _ _ (hframe₃ _ _ (hframe₂ _ _ hversion₁ (.inr (by omega)))
    (.inr (.inr (by omega)))) (.inr (by omega))
  refine ⟨{ parse with
      buf := some b₄, method := .inBuf x.lead.length, version := .inBuf (fa + x.addr.length + 1),
      protocol := .inBuf (fa + x.seps.length), path := .heap (slash :: x.path.getD []),
      host := .inBuf hostOff,
      port := (x.port.filter (· ≠ [])).elim .null fun _ => .inBuf (hostOff + x.host.length + 1) },
    ?_, ?_, rfl, rfl⟩
  · simp only [parseRequestLine, bind, Except.bind, hr₁, hr₂, hr₃, hr₄]
  · refine ⟨by simp, ?_, ?_, ?_, ?_, rfl, ?_⟩
    · simp only [ParsedRequest.text, hget₄, Spelling.fields]
    · simp only [ParsedRequest.text, hprotocol₄, Spelling.fields]
    · simp only [ParsedRequest.text, hhost₄, Spelling.fields]
    · simp only [Spelling.fields]
      cases hp : x.port.filter (· ≠ []) with
      | none => rfl
      | some port => exact ⟨by simp, by simp [ParsedRequest.text, hport₄ port hp]⟩
    · simp only [ParsedRequest.text, hversion₄, Spelling.fields]

/-! ## Every accepted line can be taken apart

The other direction: what a stage has found when it succeeds is a piece of a spelling. -/

theorem parseMethod_spelled {b line : Bytes} {r : ParsedRequest × Bytes × Nat}
    (hline : cstrAt b 0 = some line) (hlen : b.length = line.length + 1)
    (h : parseMethod parse b = .ok r) :
    ∃ lead gap addr version, line = lead ++ get ++ sp :: (gap ++ addr ++ sp :: version) ∧
      (∀ c ∈ lead, c = sp) ∧ (∀ c ∈ gap, c = sp) ∧ addr ≠ [] ∧ (∀ c ∈ addr, c ≠ sp) ∧
      version.take http.length = http := by
  simp only [parseMethod, bind_eq_ok, inside_eq_ok, require_eq_ok, rejectIf_eq_ok, Prod.exists] at h
  obtain ⟨b₁, _, save₁, hr₁, m, rfl, text, htext, -, hget, b₂, _, save₂, hr₂, a, rfl, addr, haddr,
    version, hversion, -, hhttp, -⟩ := h
  obtain ⟨lead, tok₁, tail₁, rfl, hlead, -, -, hhead₁, hm, hsave₁, ht₁⟩ :=
    strtokR_eq_some hline hr₁
  obtain ⟨gap, tok₂, tail₂, hrest, hgap, hne₂, htok₂, hhead₂, ha, hsave₂, ht₂⟩ :=
    strtokR_eq_some ht₁.rest hr₂
  have hget : tok₁ = get := by
    rw [← Option.some.inj (ht₁.token.symm.trans htext)] at hget
    exact not_not.mp hget
  have haddr_eq : tok₂ = addr := Option.some.inj (ht₂.token.symm.trans haddr)
  subst hget haddr_eq
  have hlen₂ : b₂.length = lead.length + get.length + tail₁.length + 1 := by
    rw [ht₂.length, ht₁.length, hlen, List.length_append, List.length_append]
  have hhere := cstrAt_lt hversion
  cases tail₁ with
  | nil =>
      -- nothing follows the method: there is no second token
      simp only [List.tail_nil, eq_comm, List.append_eq_nil_iff] at hrest
      exact absurd hrest.1.2 hne₂
  | cons d₁ rest₁ =>
      simp only [List.tail_cons] at hrest
      subst hrest
      have hd₁ : d₁ = sp := by simpa using hhead₁ d₁ rfl
      have hmin : min 1 (d₁ :: (gap ++ tok₂ ++ tail₂)).length = 1 := by simp
      rw [hmin] at hsave₁
      cases tail₂ with
      | nil =>
          -- nothing follows the address: the version would lie behind the buffer
          simp only [List.length_append, List.length_cons, List.length_nil] at hlen₂
          omega
      | cons d₂ rest₂ =>
          have hd₂ : d₂ = sp := by simpa using hhead₂ d₂ rfl
          have hmin₂ : min 1 (d₂ :: rest₂).length = 1 := by simp
          rw [hmin₂] at hsave₂
          have hversion_eq : rest₂ = version := by
            have := ht₂.rest
            rw [hsave₂, hversion] at this
            exact (Option.some.inj this).symm
          subst hd₁ hd₂ hversion_eq
          exact ⟨lead, gap, tok₂, rest₂, rfl, by simpa using hlead, by simpa using hgap, hne₂,
            by simpa using htok₂, not_not.mp hhttp⟩

theorem parseAddress_spelled {b addr version : Bytes} {fa : Nat}
    {r : ParsedRequest × Bytes × Nat × Nat} (haddr : cstrAt b fa = some addr)
    (hversion : cstrAt b (fa + addr.length + 1) = some version)
    (h : parseAddress parse b fa = .ok r) :
    ∃ seps protocol d slashes hp path,
      addr = seps ++ protocol ++ d :: (slashes ++ hp ++ renderPath path) ∧
      (∀ c ∈ seps, c = colon ∨ c = slash) ∧ protocol ≠ [] ∧
      (∀ c ∈ protocol, c ≠ colon ∧ c ≠ slash) ∧ (d = colon ∨ d = slash) ∧
      (∀ c ∈ slashes, c = slash) ∧ hp ≠ [] ∧ (∀ c ∈ hp, c ≠ slash) ∧
      hp.length ≠ absUriLen seps protocol addr version := by
  simp only [parseAddress, bind_eq_ok, inside_eq_ok, require_eq_ok, rejectIf_eq_ok,
    Prod.exists] at h
  obtain ⟨b₁, _, save₁, hr₁, poff, rfl, text, htext, abs, habs, b₂, _, save₂, hr₂, hoff, rfl, host,
    hhost, -, hlen, -⟩ := h
  obtain ⟨seps, protocol, tail₁, rfl, hseps, hne₁, htok₁, hhead₁, hpoff, hsave₁, ht₁⟩ :=
    strtokR_eq_some haddr hr₁
  obtain ⟨slashes, hp, tail₂, hrest, hslashes, hne₂, htok₂, hhead₂, -, -, ht₂⟩ :=
    strtokR_eq_some ht₁.rest hr₂
  have hprotocol : protocol = text := Option.some.inj (ht₁.token.symm.trans htext)
  have hhp : hp = host := Option.some.inj (ht₂.token.symm.trans hhost)
  subst hprotocol hhp
  cases tail₁ with
  | nil =>
      -- nothing follows the protocol: there is no second token
      simp only [List.tail_nil, eq_comm, List.append_eq_nil_iff] at hrest
      exact absurd hrest.1.2 hne₂
  | cons d rest₁ =>
      simp only [List.tail_cons] at hrest
      subst hrest
      obtain ⟨path, rfl⟩ : ∃ path, tail₂ = renderPath path := by
        cases tail₂ with
        | nil => exact ⟨none, rfl⟩
        | cons e rest₂ =>
            have he : e = slash := by simpa using hhead₂ e rfl
            exact ⟨some rest₂, by rw [he]; rfl⟩
      -- the length the host's is compared with
      have hmin : min 1 (d :: (slashes ++ hp ++ renderPath path)).length = 1 := by simp
      rw [hmin] at hsave₁
      have hscan : cstrAt b₁ fa = some (seps ++ protocol) := by
        obtain ⟨b₁', hr₁', hscan, -⟩ := strtokR_token [colon, slash] haddr hseps hne₁ htok₁ hhead₁
        rw [hr₁'] at hr₁
        cases hr₁
        exact hscan
      obtain ⟨u, hu, hulen⟩ := cstrAt_rem (by simp [hne₂]) hscan
        (by rw [← hpoff, ← hsave₁]; exact ht₁.rest) (ht₁.frame _ _ hversion (.inr (by omega)))
      have habs_eq : u = abs := by
        rw [← Option.some_inj, ← hu]
        exact habs
      refine ⟨seps, protocol, d, slashes, hp, path, rfl, by simpa using hseps, hne₁,
        by simpa using htok₁, by simpa using hhead₁ d rfl, by simpa using hslashes, hne₂,
        by simpa using htok₂, ?_⟩
      rw [← hulen, habs_eq]
      exact hlen

theorem parsePath_spelled {b rest : Bytes} {saveptr : Nat} {r : ParsedRequest × Bytes}
    (hrest : cstrAt b saveptr = some rest) (hsp : ∀ c ∈ rest, c ≠ sp)
    (h : parsePath parse b saveptr = .ok r) : rest.head? ≠ some slash := by
  intro hslash
  cases rest with
  | nil => cases hslash
  | cons c rest =>
      cases hslash
      -- the path would be one token, and be refused for its first byte
      have h0 : cstrAt b saveptr = some ([] ++ (slash :: rest) ++ []) := by simpa using hrest
      obtain ⟨b₁, hr, -, ht⟩ := strtokR_token [sp] h0 (by simp) (by simp) (by simpa using hsp)
        (by simp)
      have hpath : cstrAt b₁ saveptr = some (slash :: rest) := ht.token
      simp [parsePath, bind_eq_ok, map_eq_ok, hr, hpath] at h

theorem parseHostPort_spelled {pr : ParsedRequest} {b hp : Bytes} {off : Nat}
    (hhp : cstrAt b off = some hp) (hslash : ∀ c ∈ hp, c ≠ slash)
    (h : parseHostPort strtol parse b off = .ok pr) :
    ∃ colons host port, hp = colons ++ host ++ renderPort port ∧ (∀ c ∈ colons, c = colon) ∧
      host ≠ [] ∧ (∀ c ∈ host, c ≠ colon) ∧ ∀ p ∈ port, p ≠ [] → PortOk strtol p := by
  simp only [parseHostPort, bind_eq_ok, inside_eq_ok, require_eq_ok, Prod.exists] at h
  obtain ⟨b₁, _, save₁, hr₁, b₂, port?, save₂, hr₂, hoff, rfl, h⟩ := h
  obtain ⟨colons, host, tail₁, rfl, hcolons, hne₁, htok₁, hhead₁, hhoff, hsave₁, ht₁⟩ :=
    strtokR_eq_some hhp hr₁
  cases tail₁ with
  | nil =>
      exact ⟨colons, host, none, rfl, by simpa using hcolons, hne₁, by simpa using htok₁, by simp⟩
  | cons d port =>
      have hd : d = colon := by simpa using hhead₁ d rfl
      subst hd
      refine ⟨colons, host, some port, rfl, by simpa using hcolons, hne₁, by simpa using htok₁, ?_⟩
      rintro p ⟨⟩ hne
      -- there is no slash in what follows the host, so all of it is the port
      have hrest : ∀ c ∈ port, c ∉ [slash] := fun c hc => by simpa using hslash c (by simp [hc])
      cases port? with
      | none =>
          obtain ⟨-, -, hall⟩ := strtokR_eq_none ht₁.rest hr₂
          obtain ⟨c, rest, rfl⟩ := List.exists_cons_of_ne_nil hne
          exact absurd (hall c (by simp)) (hrest c (by simp))
      | some q =>
          simp only [bind_eq_ok, inside_eq_ok, rejectIf_eq_ok] at h
          obtain ⟨text, htext, -, hok, -⟩ := h
          obtain ⟨-, -, ht₂⟩ := strtokR_whole ht₁.rest hrest hr₂
          rwa [← Option.some.inj (ht₂.token.symm.trans htext)] at hok

/-- **A line that is accepted has a spelling**: each stage of the parser has found the delimiters
and the token that the spelling has there. -/
theorem exists_spelling {pr : ParsedRequest} {line : Bytes} (hnul : 0 ∉ line)
    (h : parseRequestLine strtol parse (line ++ [0]) = .ok pr) :
    ∃ x : Spelling, x.line = line ∧ x.Ok strtol := by
  simp only [parseRequestLine, bind_eq_ok, Prod.exists] at h
  obtain ⟨parse₁, b₁, fa, hr₁, parse₂, b₂, off, save, hr₂, parse₃, b₃, hr₃, hr₄⟩ := h
  have hline : cstrAt (line ++ [0]) 0 = some line := by
    rw [cstrAt_zero, cstr_append hnul]
  -- each part of the parse gives back its piece of the line; the pieces are then put together
  obtain ⟨lead, gap, addr, version, rfl, hlead, hgap, hne, hsp, hhttp⟩ :=
    parseMethod_spelled hline (by simp) hr₁
  obtain ⟨b₁', hrun₁, -, haddr₁, hversion₁⟩ := parseMethod_eq hline hlead hgap hne hsp hhttp rfl
  cases hr₁.symm.trans (hrun₁ parse)
  obtain ⟨seps, protocol, d, slashes, hp, path, rfl, hseps, hpne, hprotocol, hd, hslashes, hhpne,
    hhp, habs⟩ := parseAddress_spelled haddr₁ hversion₁ hr₂
  obtain ⟨b₂', hrun₂, -, hhost₂, hrest₂, -⟩ := parseAddress_eq haddr₁ hversion₁ hseps hpne hprotocol
    hd hslashes hhpne hhp (by cases path <;> simp [renderPath]) habs rfl rfl
  cases hr₂.symm.trans (hrun₂ _)
  have hrestsp : ∀ c ∈ (renderPath path).tail, c ≠ sp := fun c hc =>
    hsp c (by simp [List.mem_of_mem_tail hc])
  have hslash := parsePath_spelled hrest₂ hrestsp hr₃
  obtain ⟨b₃', hrun₃, hframe₃⟩ := parsePath_eq hrest₂ hrestsp hslash
  cases hr₃.symm.trans (hrun₃ _)
  -- the path is cut behind the host, which stays as it was
  have hhost₃ := hframe₃ _ _ hhost₂ (by
    cases path with
    | none => exact .inl rfl
    | some p => exact .inr (.inl (by simp [renderPath])))
  obtain ⟨colons, host, port, rfl, hcolons, hhne, hhost, hport⟩ :=
    parseHostPort_spelled hhost₃ hhp hr₄
  refine ⟨⟨lead, gap, seps, protocol, d, slashes, colons, host, port, path, version⟩, rfl, hlead,
    hgap, hsp, hseps, hpne, hprotocol, hd, hslashes, hcolons, hhne, ?_, ?_, ?_, hhttp, habs⟩
  · exact fun c hc => ⟨hhost c hc, hhp c (by simp [hc])⟩
  · rintro p (hp : port = some p)
    exact ⟨fun c hc => hhp c (by simp [renderPort, hp, hc]), hport p hp⟩
  · rintro p (hp : path = some p)
    simpa [renderPath, hp] using hslash

/-- **The lines the parser accepts** are those with a spelling that is `Ok`; the delimiters may be
repeated and mixed as `strtok_r` allows. -/
theorem parseRequestLine_iff {line : Bytes} (hnul : 0 ∉ line) (parse : ParsedRequest) :
    (∃ pr, parseRequestLine strtol parse (line ++ [0]) = .ok pr) ↔
      ∃ x : Spelling, x.line = line ∧ x.Ok strtol := by
  constructor
  · rintro ⟨pr, h⟩
    exact exists_spelling hnul h
  · rintro ⟨x, rfl, hok⟩
    obtain ⟨pr, hparse, -⟩ := parseRequestLine_eq hok hnul parse
    exact ⟨pr, hparse⟩

end Spelled

end NetworkProjects.Proxy
