import NetworkProjects.Proxy.Serve

/-!
# Requests that are not accepted

The child reports a failed parse and goes on with the object as the parser has left it: it sets a
header, prints what there is, and compares the method. The last of these reads a null pointer if
the parser has not looked at the request line, one into a released buffer if it has refused that,
and `"GET"` if it has refused a header; then the request is handed to `process_server`. So a request
is handled as it should be if and only if it is accepted (`errorsHandled_iff`), and `Acceptable`
says which requests are.

All of this is about `main` up to the call that depends on the method (`childCall`). Whether
`process_server` can go on from there is another matter: it cannot if the request has no port, and
the requests of that kind that are accepted count as handled.

By defined behaviour the 501 is never sent (`childCall_ne_notImplemented`): a method that could be
something else than `"GET"` has been released when it is compared. The released bytes are usually
still there, and then a client that asks for `POST` does get its 501; but nothing in the program
makes that so.
-/

namespace NetworkProjects.Proxy

open NetworkProjects.Lib

/-! ## Accepted requests

The texts that the parser returns 0 for, described without the parser. -/

/-- A text that the parser accepts: not too long, with an empty line; the first line is spelled as
it should be, and the headers can be read. -/
structure Acceptable (strtol : Bytes → Int × Bool) (s : Bytes) : Prop where
  short : s.length ≤ maxReqLen
  blank : crlf ++ crlf <:+: s
  request : ∃ (x : Spelling) (t : Bytes) (sets : List (Bytes × Bytes)),
    s = x.line ++ crlf ++ t ∧ NoCrlf x.line ∧ x.Ok strtol ∧ Reads t sets

section Accepted

variable {strtol : Bytes → Int × Bool} {s : Bytes}

/-- The parser returns 0 for the acceptable texts, and for no others. -/
theorem parse_zero_iff (hnul : 0 ∉ s) :
    (∃ pr, parsedRequestParse strtol parsedRequestCreate s = .ok (0, pr)) ↔
      Acceptable strtol s := by
  constructor
  · rintro ⟨pr, hparse⟩
    obtain ⟨-, hmax, hend⟩ := parse_bounds hnul hparse
    obtain ⟨x, t, sets, hs, hline, hx, hreads, -⟩ := exists_spelling_of_parse hnul hparse
    exact ⟨hmax, hend, x, t, sets, hs, hline, hx, hreads⟩
  · rintro ⟨hmax, hend, x, t, sets, rfl, hline, hx, hreads⟩
    obtain ⟨pr, hparse, -⟩ := parse_spelled hx hline hreads hnul hmax hend
    exact ⟨pr, hparse⟩

end Accepted

/-! ## What a failed parse leaves

Every exit of the parser is behind the same few writes to the object. `Cut` keeps track of them, and
the exits in the middle release the buffer. -/

/-- The method is what `strtok_r` has returned. -/
def Tokened (pr : ParsedRequest) : Prop := ∃ start, pr.method = ptrOf start

/-- What the parser does to the object until it accepts or refuses a request line: it has looked
for the method, and it has not touched the header table. -/
structure Cut (parse pr : ParsedRequest) : Prop where
  method : Tokened pr
  headers : pr.headers = parse.headers
  headerslen : pr.headerslen = parse.headerslen

/-- If the line is refused, the buffer is released. -/
def Exit.Cuts (parse : ParsedRequest) : Exit → Prop
  | .fault _ => True
  | .reject pr => pr.buf = none ∧ Cut parse pr

section Stages

variable {parse pr : ParsedRequest}

theorem cuts_inside {α : Type} (o : Option α) :
    Ends (fun _ => True) (Exit.Cuts parse) (inside o) := by
  cases o <;> trivial

theorem cuts_require (h : Cut parse pr) (o : Option Nat) :
    Ends (fun _ => True) (Exit.Cuts parse) (require pr o) := by
  cases o with
  | none => exact ⟨rfl, h.method, h.headers, h.headerslen⟩
  | some start => trivial

theorem cuts_rejectIf (h : Cut parse pr) (c : Prop) [Decidable c] :
    Ends (fun _ => True) (Exit.Cuts parse) (rejectIf c pr) := by
  unfold rejectIf
  split
  · exact ⟨rfl, h.method, h.headers, h.headerslen⟩
  · trivial

theorem cuts_parseMethod (parse : ParsedRequest) (b : Bytes) :
    Ends (fun r => Cut parse r.1) (Exit.Cuts parse) (parseMethod parse b) := by
  unfold parseMethod
  refine Ends.bind (cuts_inside _) fun ⟨b, method, saveptr⟩ _ => ?_
  refine Ends.bind (cuts_require ?_ _) fun _ _ => ?_
  · exact ⟨⟨method, rfl⟩, rfl, rfl⟩
  refine Ends.bind (cuts_inside _) fun text _ => ?_
  refine Ends.bind (cuts_rejectIf ?_ _) fun _ _ => ?_
  · exact ⟨⟨method, rfl⟩, rfl, rfl⟩
  refine Ends.bind (cuts_inside _) fun ⟨b, fullAddr, _⟩ _ => ?_
  refine Ends.bind (cuts_require ?_ _) fun _ _ => ?_
  · exact ⟨⟨method, rfl⟩, rfl, rfl⟩
  refine Ends.bind (cuts_inside _) fun addr _ => ?_
  refine Ends.bind (cuts_inside _) fun text _ => ?_
  refine Ends.bind (cuts_rejectIf ?_ _) fun _ _ => ?_
  · exact ⟨⟨method, rfl⟩, rfl, rfl⟩
  exact ⟨⟨method, rfl⟩, rfl, rfl⟩

theorem cuts_parseAddress (h : Cut parse pr) (b : Bytes) (fullAddr : Nat) :
    Ends (fun r => Cut parse r.1) (Exit.Cuts parse) (parseAddress pr b fullAddr) := by
  obtain ⟨hmethod, hheaders, hheaderslen⟩ := h
  unfold parseAddress
  refine Ends.bind (cuts_inside _) fun ⟨b, protocol, saveptr⟩ _ => ?_
  refine Ends.bind (cuts_require ?_ _) fun _ _ => ?_
  · exact ⟨hmethod, hheaders, hheaderslen⟩
  refine Ends.bind (cuts_inside _) fun text _ => ?_
  refine Ends.bind (cuts_inside _) fun absUri _ => ?_
  refine Ends.bind (cuts_inside _) fun ⟨b, host, saveptr⟩ _ => ?_
  refine Ends.bind (cuts_require ?_ _) fun _ _ => ?_
  · exact ⟨hmethod, hheaders, hheaderslen⟩
  refine Ends.bind (cuts_inside _) fun text _ => ?_
  refine Ends.bind (cuts_rejectIf ?_ _) fun _ _ => ?_
  · exact ⟨hmethod, hheaders, hheaderslen⟩
  exact ⟨hmethod, hheaders, hheaderslen⟩

theorem cuts_parsePath (h : Cut parse pr) (b : Bytes) (saveptr : Nat) :
    Ends (fun r => Cut parse r.1) (Exit.Cuts parse) (parsePath pr b saveptr) := by
  obtain ⟨hmethod, hheaders, hheaderslen⟩ := h
  unfold parsePath
  refine Ends.bind (cuts_inside _) fun ⟨b, path, _⟩ _ => ?_
  cases path with
  | none => exact ⟨hmethod, hheaders, hheaderslen⟩
  | some path =>
      refine Ends.bind (cuts_inside _) fun text _ => ?_
      refine Ends.bind (cuts_rejectIf ?_ _) fun _ _ => ?_
      · exact ⟨hmethod, hheaders, hheaderslen⟩
      exact ⟨hmethod, hheaders, hheaderslen⟩

theorem cuts_parseHostPort {strtol : Bytes → Int × Bool} (h : Cut parse pr) (b : Bytes)
    (host : Nat) : Ends (Cut parse) (Exit.Cuts parse) (parseHostPort strtol pr b host) := by
  obtain ⟨hmethod, hheaders, hheaderslen⟩ := h
  unfold parseHostPort
  refine Ends.bind (cuts_inside _) fun ⟨b, host, saveptr⟩ _ => ?_
  refine Ends.bind (cuts_inside _) fun ⟨b, port, _⟩ _ => ?_
  refine Ends.bind (cuts_require ?_ _) fun _ _ => ?_
  · exact ⟨hmethod, hheaders, hheaderslen⟩
  cases port with
  | none => exact ⟨hmethod, hheaders, hheaderslen⟩
  | some port =>
      refine Ends.bind (cuts_inside _) fun text _ => ?_
      refine Ends.bind (cuts_rejectIf ?_ _) fun _ _ => ?_
      · exact ⟨hmethod, hheaders, hheaderslen⟩
      exact ⟨hmethod, hheaders, hheaderslen⟩

theorem cuts_parseRequestLine (strtol : Bytes → Int × Bool) (parse : ParsedRequest) (b : Bytes) :
    Ends (Cut parse) (Exit.Cuts parse) (parseRequestLine strtol parse b) := by
  unfold parseRequestLine
  refine (cuts_parseMethod parse b).bind fun ⟨pr, b, fullAddr⟩ h => ?_
  refine (cuts_parseAddress h b fullAddr).bind fun ⟨pr, b, host, saveptr⟩ h => ?_
  refine (cuts_parsePath h b saveptr).bind fun ⟨pr, b⟩ h => ?_
  exact cuts_parseHostPort h b host

end Stages

/-- What `main` compares with `"GET"`. -/
def ParsedRequest.methodText (pr : ParsedRequest) : Except Fault Bytes := pr.text pr.method

/-- A method that is null or released cannot be read. -/
theorem methodText_refused {pr : ParsedRequest} (hbuf : pr.buf = none) (h : Tokened pr) :
    ∃ f, pr.methodText = .error f := by
  obtain ⟨start, h⟩ := h
  cases start with
  | none => exact ⟨.null, by simp [ParsedRequest.methodText, h, ptrOf, ParsedRequest.text]⟩
  | some off =>
      exact ⟨.released, by simp [ParsedRequest.methodText, h, ptrOf, ParsedRequest.text, hbuf]⟩

theorem TableOnly.methodText {pr pr' : ParsedRequest} (h : TableOnly pr pr') :
    pr'.methodText = pr.methodText := by
  obtain ⟨hs, n, rfl⟩ := h
  rfl

/-- However the parse ends, the method is `"GET"` or cannot be read. -/
theorem methodText_parse {strtol : Bytes → Int × Bool} {s : Bytes} {ret : Int}
    {pr : ParsedRequest} (hnul : 0 ∉ s)
    (h : parsedRequestParse strtol parsedRequestCreate s = .ok (ret, pr)) :
    (∃ f, pr.methodText = .error f) ∨ pr.methodText = .ok get := by
  unfold parsedRequestParse at h
  split at h
  · cases h
    exact .inl ⟨.null, rfl⟩
  split at h
  · cases h
    exact .inl ⟨.null, rfl⟩
  dsimp only at h
  rw [cstr_append hnul []] at h
  dsimp only at h
  split at h
  · cases h
    exact .inl ⟨.null, rfl⟩
  · cases h
  next _ n _ _ =>
  have hline : 0 ∉ s.take n := fun hmem => hnul (List.mem_of_mem_take hmem)
  split at h
  · cases h
  · -- the request line is refused
    next refused hrefused =>
    cases h
    obtain ⟨hbuf, hcut⟩ := (cuts_parseRequestLine strtol _ _).error hrefused
    exact .inl (methodText_refused hbuf hcut.method)
  · -- it is accepted, and the headers do not touch the method
    next accepted haccepted =>
    obtain ⟨x, hx, hok⟩ := exists_spelling hline haccepted
    rw [← hx] at hline haccepted
    obtain ⟨pr', hparse, hholds, -⟩ := parseRequestLine_eq hok hline _
    cases haccepted.symm.trans hparse
    exact .inr ((tableOnly_headerLoop h).methodText.trans hholds.method)

/-! ## The child

The child goes on whatever the parser has returned, so what it does depends on the method that was
left in the object. -/

section Child

variable {strtol : Bytes → Int × Bool} {received s : Bytes}

/-- What the child should do with a request: hand it to `process_server` only if the parse has
succeeded; if it has failed, the object is as `ParsedRequest_create` has made it and the client is
sent a 501. -/
def ErrorsHandled (strtol : Bytes → Int × Bool) (received : Bytes) : Prop :=
  ∃ s ret pr call, cstr (readBuffer received) = some s ∧
    parsedRequestParse strtol parsedRequestCreate s = .ok (ret, pr) ∧
    childCall strtol received = .ok call ∧
    (∀ req sendData, call = .processServer req sendData → ret = 0) ∧
    (ret ≠ 0 → pr = parsedRequestCreate ∧ call = .sendResponseHeader501)

/-- The method of an object that is as it was created is a null pointer. -/
theorem childCall_created {ret : Int} (hne : received ≠ [])
    (hread : cstr (readBuffer received) = some s)
    (hparse : parsedRequestParse strtol parsedRequestCreate s = .ok (ret, parsedRequestCreate)) :
    childCall strtol received = .error .null := by
  simp only [childCall, if_neg hne, hread, hparse, bind, Except.bind]
  rfl

/-- **Errors are handled when there are none**: the child does what it should do for the requests
that are acceptable, and for no others. For the others it is not only that no 501 is sent: a failed
parse that leaves the object alone leaves a null method too, which the child then compares. -/
theorem errorsHandled_iff (strtol : Bytes → Int × Bool) (hne : received ≠ []) :
    ErrorsHandled strtol received ↔
      ∃ s, cstr (readBuffer received) = some s ∧ Acceptable strtol s := by
  constructor
  · rintro ⟨s, ret, pr, call, hread, hparse, hcall, -, hfailed⟩
    obtain ⟨-, -, hnul⟩ := cstr_eq_some.mp hread
    by_cases hret : ret = 0
    · subst hret
      exact ⟨s, hread, (parse_zero_iff hnul).mp ⟨pr, hparse⟩⟩
    · -- the object would be as it was created, and then the child crashes
      obtain ⟨rfl, -⟩ := hfailed hret
      rw [childCall_created hne hread hparse] at hcall
      cases hcall
  · rintro ⟨s, hread, hacceptable⟩
    obtain ⟨-, -, hnul⟩ := cstr_eq_some.mp hread
    obtain ⟨pr, hparse⟩ := (parse_zero_iff hnul).mpr hacceptable
    obtain ⟨line, f, sets, req, text, -, -, -, -, -, -, hcall⟩ := childCall_accepted hread hparse
    exact ⟨s, 0, pr, _, hread, hparse, hcall, fun _ _ _ => rfl, fun h => absurd rfl h⟩

end Child

theorem errorsHandled_repeatedRequest : ErrorsHandled (strtol false) repeatedRequest := by
  obtain ⟨⟨ret, pr⟩, hparse, hcheck⟩ := parse_repeatedRequest
  obtain ⟨rfl, -⟩ := of_decide_eq_true hcheck
  have hacceptable : Acceptable (strtol false) repeatedRequest :=
    (parse_zero_iff (by decide)).mp ⟨pr, hparse⟩
  exact (errorsHandled_iff (strtol false) (by decide)).mpr
    ⟨repeatedRequest, cstr_readBuffer (by decide) (by decide), hacceptable⟩

/-! ## Requests that are refused -/

/-- **No client is sent the 501.** The method that is compared is the one the parser has left, and
that is `"GET"` or cannot be read. -/
theorem childCall_ne_notImplemented (strtol : Bytes → Int × Bool) (received : Bytes) :
    childCall strtol received ≠ .ok .sendResponseHeader501 := by
  intro h
  unfold childCall at h
  split at h
  · cases h
  split at h
  · cases h
  next s hread =>
  obtain ⟨-, -, hnul⟩ := cstr_eq_some.mp hread
  simp only [bind_eq_ok, Prod.exists] at h
  obtain ⟨ret, pr, hparse, ret', req, hset, total, htotal, h⟩ := h
  split at h
  · -- the text would be too long
    simp only [bind, Except.bind] at h
    cases h
  simp only [bind_eq_ok] at h
  obtain ⟨printed, -, method, hmethod, h⟩ := h
  -- `Connection` is set in the table, and the method is not in it
  have hkept : req.methodText = pr.methodText :=
    ((tableOnly_remove pr connection).trans (tableOnly_set hset)).methodText
  have hread : pr.methodText = .ok method := hkept.symm.trans hmethod
  rcases methodText_parse hnul hparse with ⟨f, herror⟩ | hget
  · cases hread.symm.trans herror
  cases hread.symm.trans hget
  rw [if_pos rfl] at h
  split at h
  · simp only [bind, Except.bind] at h
    cases h
  · cases h

/-- A request with a header that has no colon. -/
def noColonRequest : Bytes := repeatedLine ++ crlf ++ [65] ++ crlf ++ crlf

/-- A request with another method, `POST`. -/
def postRequest : Bytes :=
  [80, 79, 83, 84, 32, 104, 116, 116, 112, 58, 47, 47, 104, 47, 32, 72, 84, 84, 80, 47, 49, 46, 48]
    ++ crlf ++ crlf

/-- Behind a refused header the request is handed on; behind a refused request line the released
method is compared. -/
theorem not_errorsHandled_refused :
    (∃ s pr req sendData, cstr (readBuffer noColonRequest) = some s ∧
      parsedRequestParse (strtol false) parsedRequestCreate s = .ok (-1, pr) ∧
      pr ≠ parsedRequestCreate ∧
      childCall (strtol false) noColonRequest = .ok (.processServer req sendData)) ∧
    (∃ s pr, cstr (readBuffer postRequest) = some s ∧
      parsedRequestParse (strtol false) parsedRequestCreate s = .ok (-1, pr) ∧
      pr ≠ parsedRequestCreate ∧ childCall (strtol false) postRequest = .error .released) ∧
    ¬ ∀ received : Bytes, received ≠ [] → ErrorsHandled (strtol false) received := by
  have hread : cstr (readBuffer noColonRequest) = some noColonRequest :=
    cstr_readBuffer (by decide) (by decide)
  have hreadPost : cstr (readBuffer postRequest) = some postRequest :=
    cstr_readBuffer (by decide) (by decide)
  -- both parses answer -1 and leave a request behind that is not the fresh one
  obtain ⟨⟨ret, pr⟩, hparse, hcheck⟩ : ∃ r,
      parsedRequestParse (strtol false) parsedRequestCreate noColonRequest = .ok r ∧
        decide (r.1 = -1 ∧ r.2 ≠ parsedRequestCreate) = true :=
    exists_ok_of_check (by decide +kernel)
  obtain ⟨⟨ret', pr'⟩, hparsePost, hcheckPost⟩ : ∃ r,
      parsedRequestParse (strtol false) parsedRequestCreate postRequest = .ok r ∧
        decide (r.1 = -1 ∧ r.2 ≠ parsedRequestCreate) = true :=
    exists_ok_of_check (by decide +kernel)
  -- the child goes on as if the first had been accepted, and faults on the second
  obtain ⟨call, hcall, hhanded⟩ : ∃ call,
      childCall (strtol false) noColonRequest = .ok call ∧
        (match call with
          | .processServer _ _ => true
          | _ => false) = true := exists_ok_of_check (by decide +kernel)
  have hcallPost : childCall (strtol false) postRequest = .error .released := by decide +kernel
  simp only [decide_eq_true_eq] at hcheck hcheckPost
  obtain ⟨rfl, hleft⟩ := hcheck
  obtain ⟨rfl, hleftPost⟩ := hcheckPost
  cases call with
  | readError => cases hhanded
  | sendResponseHeader501 => cases hhanded
  | processServer req sendData =>
      refine ⟨⟨_, pr, req, sendData, hread, hparse, hleft, hcall⟩, ⟨_, pr', hreadPost, hparsePost,
        hleftPost, hcallPost⟩, fun hall => ?_⟩
      obtain ⟨s, ret, pr'', call, -, -, hcall', -, -⟩ := hall postRequest (by decide)
      rw [hcallPost] at hcall'
      cases hcall'

end NetworkProjects.Proxy
