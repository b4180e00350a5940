import NetworkProjects.Proxy.Bounds
import Mathlib.Data.List.Forall2

/-!
# Headers, line by line

A header should be read from one header line: the text before the first colon is the name, and the
rest of the line is the value, but for a space at its start. The loop does go from line to line,
but the colon and the line end are looked for in all that follows, and the byte behind the colon is
skipped whatever it is.

`headerLoopWith` is the loop with the call of `ParsedHeader_set` left open. With that call it is the
code's loop (`headerLoopWith_setHeader`), and with a list it writes down the calls that the loop
makes (`headerCalls`); what the loop leaves is what these calls leave (`run_headerCalls`).

When all header lines have a colon there is one call a line, with a value that has lost its first
byte, or has been looked for from the middle of the line end on (`headerCalls_called`); so the value
is right if it is written behind a space. When a line has none, what is returned depends on what
stands further down (`headerLoop_ends`).
-/

namespace NetworkProjects.Proxy

open NetworkProjects.Lib

/-! ## The calls of `ParsedHeader_set` -/

section With

variable {σ : Type} (set : σ → Bytes × Bytes → Except Fault σ)

/-- `ParsedHeader_parse`, for any way to set a header. -/
def headerParseWith (s : σ) (line : Bytes) : Except Fault (Int × σ) :=
  match cstr line with
  | none => .error .outOfBounds
  | some text =>
      match index text colon with
      | none => .ok (-1, s)
      | some index1 =>
          match cstr (line.drop (index1 + 2)) with
          | none => .error .outOfBounds
          | some rest =>
              match strstr crlf rest with
              | none => .error .badLength
              | some index2 => (set s (text.take index1, rest.take index2)).map ((0, ·))

/-- The loop over the header lines, for any way to set a header. -/
def headerLoopWith : Nat → σ → Bytes → Except Fault (Int × σ)
  | _, _, [] => .error .outOfBounds
  | 0, _, _ => .error .outOfBounds
  | fuel + 1, s, c :: rest =>
      if c = 0 ∨ (c = 13 ∧ rest.head? = some 10) then .ok (0, s)
      else
        match headerParseWith set s (c :: rest) with
        | .error f => .error f
        | .ok (ret, s) =>
            if ret ≠ 0 then .ok (-1, s)
            else
              match cstr (c :: rest) with
              | none => .error .outOfBounds
              | some text =>
                  match strstr crlf text with
                  | none => .ok (0, s)
                  | some n =>
                      if text.length - n < 2 then .ok (0, s)
                      else headerLoopWith fuel s ((c :: rest).drop (n + 2))

end With

/-- `ParsedHeader_set` as a step. -/
def setHeader (pr : ParsedRequest) (call : Bytes × Bytes) : Except Fault ParsedRequest :=
  (parsedHeaderSet pr call.1 call.2).map Prod.snd

/-- A call is only written down. -/
def recordCall (calls : List (Bytes × Bytes)) (call : Bytes × Bytes) :
    Except Fault (List (Bytes × Bytes)) := .ok (calls ++ [call])

/-- The calls the loop over the header lines makes, if it comes to an end. -/
def headerCalls (fuel : Nat) (t : Bytes) : List (Bytes × Bytes) :=
  match headerLoopWith recordCall fuel [] t with
  | .ok (_, calls) => calls
  | .error _ => []

theorem headerParseWith_setHeader (pr : ParsedRequest) (line : Bytes) :
    headerParseWith setHeader pr line = parsedHeaderParse pr line := by
  unfold headerParseWith parsedHeaderParse setHeader
  cases cstr line with
  | none => rfl
  | some text =>
      dsimp only
      cases index text colon with
      | none => rfl
      | some i =>
          dsimp only
          cases cstr (line.drop (i + 2)) with
          | none => rfl
          | some rest =>
              dsimp only
              cases strstr crlf rest with
              | none => rfl
              | some n =>
                  dsimp only
                  cases parsedHeaderSet pr (text.take i) (rest.take n) <;> rfl

/-- **The code's loop** is the one that sets headers with `ParsedHeader_set`, so what is shown for
any way to set a header holds for it. -/
theorem headerLoopWith_setHeader (fuel : Nat) (pr : ParsedRequest) (t : Bytes) :
    headerLoopWith setHeader fuel pr t = headerLoop fuel pr t := by
  induction fuel generalizing pr t with
  | zero => cases t <;> rfl
  | succ fuel ih =>
      cases t with
      | nil => rfl
      | cons c rest =>
          simp only [headerLoopWith, headerLoop, headerParseWith_setHeader, ih]
          split
          · rfl
          cases parsedHeaderParse pr (c :: rest) with
          | error f => rfl
          | ok r =>
              cases cstr (c :: rest) with
              | none => rfl
              | some text => cases strstr crlf text <;> rfl

section Recorded

variable {σ : Type} {set : σ → Bytes × Bytes → Except Fault σ} {s s' : σ} {ret : Int}

/-- A header line is refused without a call, or there is one, whatever is done with it. -/
theorem headerParseWith_call {line : Bytes} (h : headerParseWith set s line = .ok (ret, s')) :
    (ret = -1 ∧ s' = s ∧ ∀ acc, headerParseWith recordCall acc line = .ok (-1, acc)) ∨
      ∃ call, ret = 0 ∧ set s call = .ok s' ∧
        ∀ acc, headerParseWith recordCall acc line = .ok (0, acc ++ [call]) := by
  unfold headerParseWith at h ⊢
  cases htext : cstr line with
  | none => simp only [htext, reduceCtorEq] at h
  | some text =>
      simp only [htext] at h ⊢
      cases hindex : index text colon with
      | none =>
          simp only [hindex] at h
          cases h
          exact .inl ⟨rfl, rfl, fun _ => rfl⟩
      | some i =>
          simp only [hindex] at h ⊢
          cases hrest : cstr (line.drop (i + 2)) with
          | none => simp only [hrest, reduceCtorEq] at h
          | some rest =>
              simp only [hrest] at h ⊢
              cases hend : strstr crlf rest with
              | none => simp only [hend, reduceCtorEq] at h
              | some n =>
                  simp only [hend] at h ⊢
                  -- the one way to return 0 is through the call
                  cases hset : set s (text.take i, rest.take n) with
                  | error f => simp only [hset, Except.map, reduceCtorEq] at h
                  | ok s₁ =>
                      rw [hset] at h
                      cases h
                      exact .inr ⟨_, rfl, hset, fun _ => rfl⟩

/-- **What the loop leaves is what its calls leave**, whatever is done with them. -/
theorem headerLoopWith_calls {fuel : Nat} {t : Bytes}
    (h : headerLoopWith set fuel s t = .ok (ret, s')) (acc : List (Bytes × Bytes)) :
    ∃ calls, headerLoopWith recordCall fuel acc t = .ok (ret, acc ++ calls) ∧
      run set s calls = .ok s' := by
  induction fuel generalizing s t acc with
  | zero => cases t <;> simp [headerLoopWith] at h
  | succ fuel ih =>
      cases t with
      | nil => simp [headerLoopWith] at h
      | cons c rest =>
          simp only [headerLoopWith] at h ⊢
          split at h
          · next hend =>
            cases h
            exact ⟨[], by rw [if_pos hend, List.append_nil], rfl⟩
          next hend =>
          rw [if_neg hend]
          split at h
          · cases h
          next ret₁ s₁ hparse =>
          rcases headerParseWith_call hparse with
            ⟨rfl, rfl, hrecord⟩ | ⟨call, rfl, hset, hrecord⟩
          · -- the line is refused
            cases h
            exact ⟨[], by simp [hrecord acc], rfl⟩
          -- one call for this line; the rest of the list comes from the lines behind it
          have hlast : run set s [call] = .ok s₁ := by
            rw [run_cons]
            exact ⟨s₁, hset, rfl⟩
          simp only [ne_eq, not_true_eq_false, if_false, hrecord acc] at h ⊢
          cases htext : cstr (c :: rest) with
          | none => simp only [htext, reduceCtorEq] at h
          | some text =>
              simp only [htext] at h ⊢
              cases hcrlf : strstr crlf text with
              | none =>
                  simp only [hcrlf] at h ⊢
                  cases h
                  exact ⟨[call], rfl, hlast⟩
              | some n =>
                  simp only [hcrlf] at h ⊢
                  by_cases hshort : text.length - n < 2
                  · rw [if_pos hshort] at h ⊢
                    cases h
                    exact ⟨[call], rfl, hlast⟩
                  · rw [if_neg hshort] at h ⊢
                    obtain ⟨calls, hcalls, hrun⟩ := ih h (acc ++ [call])
                    refine ⟨call :: calls, ?_, run_cons.mpr ⟨s₁, hset, hrun⟩⟩
                    rw [hcalls, List.append_assoc]
                    rfl

end Recorded

/-- What the code's loop leaves is what its calls of `ParsedHeader_set` leave. -/
theorem run_headerCalls {fuel : Nat} {pr pr' : ParsedRequest} {t : Bytes} {ret : Int}
    (h : headerLoop fuel pr t = .ok (ret, pr')) :
    run setHeader pr (headerCalls fuel t) = .ok pr' := by
  rw [← headerLoopWith_setHeader] at h
  obtain ⟨calls, hcalls, hrun⟩ := headerLoopWith_calls h []
  rw [headerCalls, hcalls]
  exact hrun

/-! ## One call a line -/

/-- The header that stands on a line: at most one leading space of the value is dropped. -/
def HeaderOf (l : Bytes) (call : Bytes × Bytes) : Prop :=
  ∃ v, l = call.1 ++ colon :: v ∧ colon ∉ call.1 ∧ (v = call.2 ∨ v = sp :: call.2)

/-- The header that the loop makes of a line with a colon: the value has lost its first byte; where
there is none, the line end has. -/
def CalledOn (l : Bytes) (call : Bytes × Bytes) : Prop :=
  ∃ v, l = call.1 ++ colon :: v ∧ colon ∉ call.1 ∧
    ((∃ x, v = x :: call.2) ∨ (v = [] ∧ call.2 ≠ []))

/-- The value is written behind a space. -/
def Spaced (l : Bytes) : Prop := ∃ key v, l = key ++ colon :: sp :: v ∧ colon ∉ key

theorem Spaced.colon_mem {l : Bytes} (h : Spaced l) : colon ∈ l := by
  obtain ⟨key, v, rfl, -⟩ := h
  simp

/-- The loop's header is the one that stands there if and only if that is written so. -/
theorem CalledOn.headerOf_iff {l : Bytes} {call : Bytes × Bytes} (h : CalledOn l call) :
    HeaderOf l call ↔ Spaced l := by
  obtain ⟨v, rfl, hkey, hvalue⟩ := h
  constructor
  · rintro ⟨v', heq, hkey', hvalue'⟩
    obtain ⟨-, rfl⟩ := index_split_unique hkey hkey' heq
    rcases hvalue with ⟨x, rfl⟩ | ⟨rfl, hne⟩
    · rcases hvalue' with heq | heq
      · have hlen := congrArg List.length heq
        simp at hlen
      · exact ⟨call.1, call.2, by rw [heq], hkey⟩
    · rcases hvalue' with heq | heq
      · exact absurd heq.symm hne
      · cases heq
  · rintro ⟨key, v', heq, hkey'⟩
    obtain ⟨-, rfl⟩ := index_split_unique hkey hkey' heq
    rcases hvalue with ⟨x, heq⟩ | ⟨heq, -⟩
    · exact ⟨_, rfl, hkey, .inr (by rw [(List.cons.inj heq).2])⟩
    · cases heq

theorem forall₂_headerOf {ls : List Bytes} {calls : List (Bytes × Bytes)}
    (h : List.Forall₂ CalledOn ls calls) :
    List.Forall₂ HeaderOf ls calls ↔ ∀ l ∈ ls, Spaced l := by
  induction h with
  | nil => exact iff_of_true .nil (by simp)
  | cons hcall _ ih => rw [List.forall₂_cons, List.forall_mem_cons, hcall.headerOf_iff, ih]

section Calls

variable {l next body post : Bytes} {ls : List Bytes} {acc : List (Bytes × Bytes)}

/-- The loop stops at the empty line. -/
theorem headerLoopWith_stop {fuel : Nat} (acc : List (Bytes × Bytes)) (body : Bytes) :
    headerLoopWith recordCall (fuel + 1) acc (crlf ++ body) = .ok (0, acc) := by
  simp [headerLoopWith, crlf]

/-- A round of the loop on a header line that leads to a call. -/
theorem headerLoopWith_isLine {fuel : Nat} (hl : IsLine l) (hnul : 0 ∉ l ++ crlf ++ next)
    {call : Bytes × Bytes} (hcall : headerParseWith recordCall acc (l ++ crlf ++ next ++ 0 :: post)
      = .ok (0, acc ++ [call])) :
    headerLoopWith recordCall (fuel + 1) acc (l ++ crlf ++ next ++ 0 :: post)
      = headerLoopWith recordCall fuel (acc ++ [call]) (next ++ 0 :: post) := by
  obtain ⟨c, rest, hcons⟩ := List.exists_cons_of_ne_nil (List.append_ne_nil_of_left_ne_nil
    (List.append_ne_nil_of_left_ne_nil hl.1 crlf) next)
  have hend : strstr crlf (l ++ crlf ++ next) = some l.length :=
    strstr_crlf_eq_some.mpr ⟨l, next, rfl, hl.2, rfl⟩
  have hdrop : (l ++ crlf ++ next ++ 0 :: post).drop (l.length + 2) = next ++ 0 :: post := by
    rw [← List.drop_drop, List.append_assoc, List.append_assoc, List.drop_left]
    rfl
  have hlen : ¬ (l ++ crlf ++ next).length - l.length < 2 := by
    simp only [List.length_append, length_crlf]
    omega
  have hstr := cstr_append hnul post
  have hgo := hl.not_atEnd next
  rw [hcons] at hend hdrop hlen hstr hgo hnul hcall ⊢
  have hc := head_of_not_atEnd post hnul hgo
  rw [List.cons_append] at hstr hdrop hcall ⊢
  simp only [headerLoopWith, if_neg hc, hcall, hstr, hend, if_neg hlen, hdrop, ne_eq,
    not_true_eq_false, if_false]

theorem headerParseWith_eq {t key value after : Bytes} {x : UInt8} (hnul : 0 ∉ t)
    (ht : t = key ++ colon :: x :: (value ++ crlf ++ after)) (hkey : colon ∉ key)
    (hvalue : NoCrlf value) (acc : List (Bytes × Bytes)) :
    headerParseWith recordCall acc (t ++ 0 :: post) = .ok (0, acc ++ [(key, value)]) := by
  obtain ⟨hindex, hname, hstr, hend, htext⟩ := line_parts post hnul ht hkey hvalue
  simp only [headerParseWith, cstr_append hnul, hindex, hname, hstr, hend, htext]
  rfl

/-- The call for a line with a colon, if another line end follows. -/
theorem headerParseWith_called (post : Bytes) (hl : IsLine l) (hnul : 0 ∉ l ++ crlf ++ next)
    (hcolon : colon ∈ l) (hnext : ¬ NoCrlf next) :
    ∃ call, (∀ acc, headerParseWith recordCall acc (l ++ crlf ++ next ++ 0 :: post)
      = .ok (0, acc ++ [call])) ∧ CalledOn l call := by
  obtain ⟨key, v, rfl, hkey⟩ := exists_first_colon hcolon
  cases v with
  | cons x value =>
      have hvalue : NoCrlf value := NoCrlf.of_infix hl.2 ⟨key ++ [colon, x], [], by simp⟩
      have ht : key ++ colon :: x :: value ++ crlf ++ next
          = key ++ colon :: x :: (value ++ crlf ++ next) := by simp
      exact ⟨(key, value), headerParseWith_eq hnul ht hkey hvalue, _, rfl, hkey, .inl ⟨x, rfl⟩⟩
  | nil =>
      -- the value is looked for from the second byte of the line end on
      have hlines : ¬ NoCrlf (10 :: next) := fun hno =>
        hnext (NoCrlf.of_infix hno ⟨[10], [], by simp⟩)
      obtain ⟨value, after, heq, hvalue⟩ := exists_first_line hlines
      have ht : key ++ [colon] ++ crlf ++ next
          = key ++ colon :: 13 :: (value ++ crlf ++ after) := by
        rw [← heq]
        simp [crlf]
      refine ⟨(key, value), headerParseWith_eq hnul ht hkey hvalue, _, rfl, hkey, .inr ⟨rfl, ?_⟩⟩
      rintro (rfl : value = [])
      cases heq

theorem not_noCrlf_headersText (ls : List Bytes) (body : Bytes) :
    ¬ NoCrlf (headersText ls body) :=
  fun hno => hno ⟨linesText ls, body, rfl⟩

/-- **Where every line has a colon, every line leads to a call**, with the name and the value that
the code finds in the line. -/
theorem headerLoopWith_called (post : Bytes) (hls : ∀ l ∈ ls, IsLine l)
    (hcolon : ∀ l ∈ ls, colon ∈ l) {fuel : Nat} (hnul : 0 ∉ headersText ls body)
    (hfuel : (headersText ls body).length < fuel) (acc : List (Bytes × Bytes)) :
    ∃ calls, headerLoopWith recordCall fuel acc (headersText ls body ++ 0 :: post)
      = .ok (0, acc ++ calls) ∧ List.Forall₂ CalledOn ls calls := by
  induction ls generalizing fuel acc with
  | nil =>
      obtain ⟨fuel, rfl⟩ : ∃ n, fuel = n + 1 := ⟨fuel - 1, by omega⟩
      refine ⟨[], ?_, .nil⟩
      rw [headersText_nil, List.append_assoc, headerLoopWith_stop, List.append_nil]
  | cons l ls ih =>
      obtain ⟨fuel, rfl⟩ : ∃ n, fuel = n + 1 := ⟨fuel - 1, by omega⟩
      obtain ⟨hl, hls⟩ := List.forall_mem_cons.mp hls
      obtain ⟨hl', hcolon⟩ := List.forall_mem_cons.mp hcolon
      rw [headersText_cons] at hnul hfuel ⊢
      simp only [List.length_append, length_crlf] at hfuel
      obtain ⟨call, hcall, hcalled⟩ :=
        headerParseWith_called post hl hnul hl' (not_noCrlf_headersText ls body)
      have hfuel' : (headersText ls body).length < fuel := by omega
      obtain ⟨calls, hcalls, hall⟩ :=
        ih hls hcolon (fun hmem => hnul (List.mem_append_right _ hmem)) hfuel' (acc ++ [call])
      refine ⟨call :: calls, ?_, .cons hcalled hall⟩
      rw [headerLoopWith_isLine hl hnul (hcall acc), hcalls, List.append_assoc]
      rfl

theorem headerCalls_called (post : Bytes) (hls : ∀ l ∈ ls, IsLine l) (hcolon : ∀ l ∈ ls, colon ∈ l)
    {fuel : Nat} (hnul : 0 ∉ headersText ls body) (hfuel : (headersText ls body).length < fuel) :
    List.Forall₂ CalledOn ls (headerCalls fuel (headersText ls body ++ 0 :: post)) := by
  obtain ⟨calls, hcalls, hall⟩ := headerLoopWith_called post hls hcolon hnul hfuel []
  rw [headerCalls, hcalls]
  exact hall

end Calls

/-! ## The whole request -/

/-- Headers are read line by line: the parser returns 0 if and only if every header line has a
colon, and then it has made one call of `ParsedHeader_set` a line, in order, for the header that
stands there; these calls have made the object. -/
def LineByLine (strtol : Bytes → Int × Bool) (buf line : Bytes) (ls : List Bytes)
    (pr₀ : ParsedRequest) : Prop :=
  ∃ ret pr, parsedRequestParse strtol parsedRequestCreate buf = .ok (ret, pr) ∧
    (ret = 0 ↔ ∀ l ∈ ls, colon ∈ l) ∧
    (ret = 0 → ∃ calls, calls = headerCalls (buf.length + 1) ((buf ++ [0]).drop (line.length + 2)) ∧
      run setHeader pr₀ calls = .ok pr ∧ List.Forall₂ HeaderOf ls calls)

section Request

variable {strtol : Bytes → Int × Bool} {buf line body post : Bytes} {ls : List Bytes}
  {pr₀ : ParsedRequest}

/-- **Headers are read line by line** if and only if every value is written behind a space, or the
last header line has no colon and neither has the body. -/
theorem lineByLine_iff (strtol : Bytes → Int × Bool) (h : Layout buf line ls body post)
    (hmax : buf.length ≤ maxReqLen)
    (hline : parseRequestLine strtol (withLine line) (line ++ [0]) = .ok pr₀) :
    LineByLine strtol buf line ls pr₀ ↔ (∀ l ∈ ls, Spaced l) ∨ ColonFree ls body := by
  -- the request line is accepted, so the parse is the loop over what follows it
  obtain ⟨x, hx, hok⟩ := exists_spelling h.nul_line hline
  obtain ⟨pr₀', hline', -, -, htable, hparse⟩ := h.parse_accepted hmax hok hx
  cases hline.symm.trans hline'
  have hdrop : (buf ++ [0]).drop (line.length + 2) = headersText ls body ++ 0 :: post := by
    rw [h.memory, ← List.drop_drop, List.append_assoc, List.append_assoc, List.drop_left]
    rfl
  have hends := headerLoop_ends post h.lines htable h.nul_headers h.fuel
  unfold LineByLine
  rw [hparse, hdrop]
  by_cases hcolon : ∀ l ∈ ls, colon ∈ l
  · -- there is no fault, and 0 is returned: what matters is the calls
    have hlast : ¬ ∃ l ∈ ls.getLast?, colon ∉ l := by
      rintro ⟨l, hl, hno⟩
      exact hno (hcolon l (List.mem_of_getLast? hl))
    have hfree : ¬ ColonFree ls body := fun hfree => hlast hfree.1
    obtain ⟨-, -, pr, hloop⟩ :=
      (hends.resolve_left fun hrunaway => hlast hrunaway.1.1).resolve_left fun hneg => hfree hneg.1
    have hcalls := forall₂_headerOf (headerCalls_called post h.lines hcolon h.nul_headers h.fuel)
    rw [or_iff_left hfree, ← hcalls]
    constructor
    · rintro ⟨ret, pr', hloop', -, hmade⟩
      cases hloop.symm.trans hloop'
      obtain ⟨calls, rfl, -, hheaders⟩ := hmade rfl
      exact hheaders
    · intro hheaders
      exact ⟨0, pr, hloop, iff_of_true rfl hcolon,
        fun _ => ⟨_, rfl, run_headerCalls hloop, hheaders⟩⟩
  · -- some line has no colon: what matters is that -1 is returned
    have hspaced : ¬ ∀ l ∈ ls, Spaced l := fun hall => hcolon fun l hl => (hall l hl).colon_mem
    rw [or_iff_right hspaced]
    rcases hends with ⟨hrunaway, f, hfault⟩ | ⟨hfree, pr, hloop⟩ | ⟨-, hfree, pr, hloop⟩
    · refine iff_of_false ?_ fun hfree => not_runaway_of_colonFree hfree hrunaway
      rintro ⟨ret, pr, hloop, -⟩
      cases hfault.symm.trans hloop
    · refine iff_of_true ?_ hfree
      exact ⟨-1, pr, hloop, iff_of_false (by decide) hcolon, fun hzero => absurd hzero (by decide)⟩
    · refine iff_of_false ?_ hfree
      rintro ⟨ret, pr', hloop', hiff, -⟩
      cases hloop.symm.trans hloop'
      exact hcolon (hiff.mp rfl)

end Request

/-- The header lines of a plain request. -/
def plainLines : List Bytes := [[72, 111, 115, 116, 58, 32, 97, 46, 98], [88, 58, 32]]

theorem parseRequestLine_plain : ∃ pr₀,
    parseRequestLine (strtol false) (withLine (renderLine plainFields))
      (renderLine plainFields ++ [0]) = .ok pr₀ := by
  obtain ⟨pr₀, hline, -⟩ : ∃ r, parseRequestLine (strtol false) (withLine (renderLine plainFields))
      (renderLine plainFields ++ [0]) = .ok r ∧ (fun _ => true) r = true :=
    exists_ok_of_check (by decide +kernel)
  exact ⟨pr₀, hline⟩

theorem lineByLine_plain : ∃ pr₀,
    parseRequestLine (strtol false) (withLine (renderLine plainFields))
      (renderLine plainFields ++ [0]) = .ok pr₀ ∧
    LineByLine (strtol false) (render plainFields plainHeaders) (renderLine plainFields) plainLines
      pr₀ := by
  obtain ⟨pr₀, hline⟩ := parseRequestLine_plain
  have hlayout : Layout (render plainFields plainHeaders) (renderLine plainFields) plainLines []
      [] := by
    refine ⟨by decide, by decide, by decide, fun l hl => ?_⟩
    rcases List.mem_pair.mp hl with rfl | rfl
    · exact ⟨by decide, by decide⟩
    · exact ⟨by decide, by decide⟩
  refine ⟨pr₀, hline, (lineByLine_iff (strtol false) hlayout (by decide) hline).mpr (.inl ?_)⟩
  intro l hl
  rcases List.mem_pair.mp hl with rfl | rfl
  · exact ⟨[72, 111, 115, 116], [97, 46, 98], rfl, by decide⟩
  · exact ⟨[88], [], rfl, by decide⟩

/-- A plain request line, and the header line `A:b`. -/
def unspacedRequest : Bytes := renderLine plainFields ++ crlf ++ [65, 58, 98] ++ crlf ++ crlf

/-- The request is accepted, and the value of `A` is empty. -/
theorem not_lineByLine_unspaced :
    (∃ pr, parsedRequestParse (strtol false) parsedRequestCreate unspacedRequest = .ok (0, pr) ∧
      live pr.headers = [([65], [])]) ∧
    ¬ ∀ (buf line body post : Bytes) (ls : List Bytes) (pr₀ : ParsedRequest),
      Layout buf line ls body post → buf.length ≤ maxReqLen →
      parseRequestLine (strtol false) (withLine line) (line ++ [0]) = .ok pr₀ →
      LineByLine (strtol false) buf line ls pr₀ := by
  obtain ⟨⟨ret, pr⟩, hparse, hcheck⟩ : ∃ r,
      parsedRequestParse (strtol false) parsedRequestCreate unspacedRequest = .ok r ∧
        decide (r.1 = 0 ∧ live r.2.headers = [([65], [])]) = true :=
    exists_ok_of_check (by decide +kernel)
  simp only [decide_eq_true_eq] at hcheck
  obtain ⟨rfl, hlive⟩ := hcheck
  refine ⟨⟨pr, hparse, hlive⟩, fun hall => ?_⟩
  obtain ⟨pr₀, hline⟩ := parseRequestLine_plain
  have hlayout : Layout unspacedRequest (renderLine plainFields) [[65, 58, 98]] [] [] := by
    refine ⟨by decide, by decide, by decide, fun l hl => ?_⟩
    rw [List.mem_singleton.mp hl]
    exact ⟨by decide, by decide⟩
  obtain ⟨ret, pr', hparse', -, hmade⟩ := hall _ _ _ _ _ pr₀ hlayout (by decide) hline
  cases hparse.symm.trans hparse'
  obtain ⟨calls, hcalls, -, hheaders⟩ := hmade rfl
  have hcall : calls = [([65], [])] := by
    rw [hcalls]
    decide +kernel
  subst hcall
  -- neither `b` nor ` b` is read as the empty value
  obtain ⟨⟨v, heq, -, hvalue⟩, -⟩ := List.forall₂_cons.mp hheaders
  cases heq
  rcases hvalue with hvalue | hvalue <;> cases hvalue

end NetworkProjects.Proxy
