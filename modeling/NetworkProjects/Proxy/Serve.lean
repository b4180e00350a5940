import NetworkProjects.Proxy.RoundTrip

/-!
# The proxy's child process (`proxy.cpp`)

`childCall` is what `main` does in the child with the bytes one `read` has returned: parse,
replace the `Connection` header, print, and look at the method to decide whom to call. `serveChild`
goes on into `process_server`, up to the connection and the text that is sent. What follows, the
answer that is passed back, does not depend on the request any more.

`process_server` knows that a request may have no port, and wants to use 80 then. But the array it
stores a pointer to belongs to the block of the `if`, so `atoi` reads an array that does not exist
any more. That is a fault here (`Fault.outOfScope`), and results about what is sent upstream are
about requests that name a port. What `main` hands over does not depend on that.

`ParsedHeader_set` replaces the header of that name, for the parser's calls as well as for
`main`'s. So of several headers with one name the last one is sent, and names that differ in
the case of a letter are different names (`serveChild_accepted`).
-/

namespace NetworkProjects.Proxy

open NetworkProjects.Lib

/-! ## The child

The call that depends on the method is a value of its own. So what the child hands over can be said
without what becomes of it, which for a request without a port is undefined. -/

/-- `BUF_SIZE`. -/
def bufSize : Nat := 8192

/-- `"Connection"`. -/
def connection : Bytes := [67, 111, 110, 110, 101, 99, 116, 105, 111, 110]
/-- `"close"`. -/
def close : Bytes := [99, 108, 111, 115, 101]

/-- `buffer`, which is cleared before it is read into. -/
def readBuffer (received : Bytes) : Bytes :=
  received.take bufSize ++ List.replicate (bufSize - received.length) 0

/-- What `process_server` connects to and sends. -/
structure Upstream where
  host : Bytes
  port : Bytes
  sendData : Bytes
  deriving DecidableEq, Repr

/-- What `main` does in the child when it has looked at the method. -/
inductive Call
  /-- `error("ERROR reading from socket")`. -/
  | readError
  /-- `process_server(b, newsockfd)`, with the global `req` as it is then. -/
  | processServer (req : ParsedRequest) (sendData : Bytes)
  | sendResponseHeader501
  deriving DecidableEq, Repr

/-- How the child answers. -/
inductive Outcome
  /-- `error("ERROR reading from socket")`. -/
  | readError
  | upstream (u : Upstream)
  /-- `send_response_header_501`. -/
  | notImplemented
  deriving DecidableEq, Repr

/-- `process_server`, up to the answer, with a host that is found and a server that answers. -/
def processServer (req : ParsedRequest) (sendData : Bytes) : Except Fault Upstream := do
  let host ← req.text req.host
  -- a null port has been made to point at `p`, which is gone when `atoi` reads it
  if req.port = .null then throw .outOfScope
  let port ← req.text req.port
  match cstr sendData with
  | none => .error .outOfBounds
  | some text => return { host, port, sendData := text }

/-- The child up to the call that depends on the method, when `read` has returned `received`. A
failed parse is only reported. -/
def childCall (strtol : Bytes → Int × Bool) (received : Bytes) : Except Fault Call :=
  if received = [] then .ok .readError
  else
    match cstr (readBuffer received) with
    | none => .error .outOfBounds
    | some buffer => do
        let (_, req) ← parsedRequestParse strtol parsedRequestCreate buffer
        let (_, req) := parsedHeaderRemove req connection
        let (_, req) ← parsedHeaderSet req connection close
        let total ← parsedRequestTotalLen req
        -- `int rlen`, and `malloc(rlen+1)` of what is converted back
        if 2 ^ 31 ≤ total % 2 ^ 32 then throw .badLength
        let rlen := total % 2 ^ 32
        let (_, b) ← parsedRequestUnparse req rlen
        let method ← req.text req.method
        if method = get then
          -- the bytes that have not been printed are as `malloc` left them
          if b.length < rlen then throw .uninitialised
          return .processServer req (b ++ [0])
        else return .sendResponseHeader501

/-- The child, with the call. -/
def serveChild (strtol : Bytes → Int × Bool) (received : Bytes) : Except Fault Outcome := do
  match ← childCall strtol received with
  | .readError => return .readError
  | .processServer req sendData => return .upstream (← processServer req sendData)
  | .sendResponseHeader501 => return .notImplemented

/-! ## The request that is sent

The parser keeps the last header of each name. `main` replaces `Connection`, and the printer writes
the rest in the order of the table. -/

/-- What is sent, as fields and headers. -/
structure Upstream.Sends (u : Upstream) (f : Fields) (hs : List (Bytes × Bytes)) : Prop where
  host : u.host = f.host
  port : f.port = some u.port
  sendData : u.sendData = render f hs

theorem ParsedRequest.Holds.port_ne {pr : ParsedRequest} {f : Fields} (h : pr.Holds f)
    (hport : pr.port ≠ .null) : f.port ≠ none := by
  intro hnone
  have hnull := h.port
  rw [hnone, Option.elim_none] at hnull
  exact hport hnull

/-- A request without a port is not sent. -/
theorem processServer_noPort {req : ParsedRequest} {f : Fields} (h : req.Holds f)
    (hport : f.port = none) (sendData : Bytes) :
    processServer req sendData = .error .outOfScope := by
  have hnull := h.port
  rw [hport, Option.elim_none] at hnull
  simp only [processServer, h.host, hnull, bind, Except.bind, if_true]
  rfl

theorem processServer_eq {req : ParsedRequest} {f : Fields} {port : Bytes} (h : req.Holds f)
    (hport : f.port = some port) {text : Bytes} (hnul : 0 ∉ text) :
    processServer req (text ++ [0]) = .ok ⟨f.host, port, text⟩ := by
  have hset := h.port
  rw [hport, Option.elim_some] at hset
  simp only [processServer, h.host, hset.1, hset.2, cstr_append hnul, bind, Except.bind, pure,
    Except.pure, if_false]

/-- What the child does is what becomes of its call. -/
theorem serveChild_processServer {strtol : Bytes → Int × Bool} {received sendData : Bytes}
    {req : ParsedRequest} (h : childCall strtol received = .ok (.processServer req sendData)) :
    serveChild strtol received = (processServer req sendData).map .upstream := by
  simp only [serveChild, h, bind, Except.bind]
  cases processServer req sendData <;> rfl

/-- `main` removes the `Connection` header and sets its own. -/
theorem connection_replaced {pr : ParsedRequest} (h : TableOk pr) :
    ∃ req, parsedHeaderSet (parsedHeaderRemove pr connection).2 connection close = .ok (0, req) ∧
      Rebound pr ((live pr.headers).filter (fun p => p.1 ≠ connection) ++ [(connection, close)])
        req := by
  have hremoved := rebound_remove h connection
  obtain ⟨req, hset, hrebound⟩ := rebound_set hremoved.tableOk connection close
  rw [hremoved.live, setLast_filter] at hrebound
  exact ⟨req, hset, hremoved.trans hrebound⟩

/-- What the child prints, it hands over. -/
theorem childCall_eq {strtol : Bytes → Int × Bool} {received s : Bytes} {pr req : ParsedRequest}
    {f : Fields} (hread : cstr (readBuffer received) = some s)
    (hparse : parsedRequestParse strtol parsedRequestCreate s = .ok (0, pr))
    (hset : parsedHeaderSet (parsedHeaderRemove pr connection).2 connection close = .ok (0, req))
    (hreq : req.Holds f) (hmethod : f.method = get)
    (hlen : (render f (live req.headers)).length < 2 ^ 31) :
    childCall strtol received
      = .ok (.processServer req (render f (live req.headers) ++ [0])) := by
  have hne : received ≠ [] := by
    rintro rfl
    have hempty : cstr (readBuffer []) = some [] := by decide
    rw [hempty] at hread
    cases hread
    simp [parsedRequestParse, parsedRequestCreate, minReqLen] at hparse
  have htotal := totalLen_eq hreq hlen
  have hunparse := unparse_eq hreq hlen
  have hmod : (render f (live req.headers)).length % 2 ^ 32
      = (render f (live req.headers)).length := Nat.mod_eq_of_lt (by omega)
  have hpositive : ¬ 2 ^ 31 ≤ (render f (live req.headers)).length := Nat.not_le.mpr hlen
  have hremove : parsedHeaderRemove pr connection
      = ((parsedHeaderRemove pr connection).1, (parsedHeaderRemove pr connection).2) := rfl
  simp only [childCall, if_neg hne, hread, hparse, hset, htotal, hmod, if_neg hpositive, hunparse,
    hreq.method, hmethod, bind, Except.bind, pure, Except.pure, Nat.lt_irrefl, if_true, if_false]

/-- Every request the parser accepts is handed to `process_server`, with the fields it was read as
and a text that is printed from these and from the headers. -/
theorem childCall_accepted {strtol : Bytes → Int × Bool} {received s : Bytes} {pr : ParsedRequest}
    (hread : cstr (readBuffer received) = some s)
    (hparse : parsedRequestParse strtol parsedRequestCreate s = .ok (0, pr)) :
    ∃ line f sets req text, IsRequest strtol s line f sets ∧ f.Within line ∧ pr.Holds f ∧
      req.Holds f ∧
      text = render f ((keepLast sets).filter (fun p => p.1 ≠ connection) ++ [(connection, close)]) ∧
      0 ∉ text ∧ childCall strtol received = .ok (.processServer req (text ++ [0])) := by
  obtain ⟨post, hbuffer, hnul⟩ := cstr_eq_some.mp hread
  obtain ⟨hmin, hmax, -⟩ := parse_bounds hnul hparse
  obtain ⟨line, f, sets, hin, hreq, hholds, hlive, hok⟩ := parse_sound hnul hparse
  have hshort := hreq.length_render_le hin hmax
  obtain ⟨t, heq, hreads⟩ := hreq.tail
  obtain ⟨req, hset, hrebound⟩ := connection_replaced hok
  have hsent := hrebound.live
  rw [hlive] at hsent
  -- `Connection: close` is all that can be longer than what was received
  have hlen : (render f (live req.headers)).length < 2 ^ 31 := by
    have hkept : (renderHeaders ((keepLast sets).filter fun p => p.1 ≠ connection)).length
        ≤ (renderHeaders (keepLast sets)).length := length_renderHeaders_mono List.filter_sublist
    have hclose : (renderHeader (connection, close)).length = 19 := by decide
    rw [length_render, maxRenderLen] at hshort
    rw [hsent, length_render, length_renderHeaders_snoc, hclose]
    omega
  -- the buffer has no NUL in it, so the printed text is sent as a whole
  have hnulsent : 0 ∉ render f (live req.headers) := by
    apply not_mem_render hreq.accepted
    intro p hp
    rw [hsent] at hp
    rcases List.mem_append.mp hp with hp | hp
    · refine (hreads.printable (fun hmem => hnul ?_) p ?_).nul
      · rw [heq]
        simp [hmem]
      · exact (keepLast_sublist sets).mem (List.mem_filter.mp hp).1
    · rw [List.mem_singleton.mp hp]
      decide
  have hcall := childCall_eq hread hparse hset (hrebound.holds hholds) hreq.accepted.method hlen
  rw [hsent] at hcall hnulsent
  exact ⟨line, f, sets, req, _, hreq, hin, hholds, hrebound.holds hholds, rfl, hnulsent, hcall⟩

/-- If the request names a port, the text that was handed to `process_server` is sent to the host
and the port it names. Without a port the call reads an array that has gone out of scope. -/
theorem serveChild_sends {strtol : Bytes → Int × Bool} {received text : Bytes} {req : ParsedRequest}
    {f : Fields} (hreq : req.Holds f) (hnul : 0 ∉ text) (hport : f.port ≠ none)
    (hcall : childCall strtol received = .ok (.processServer req (text ++ [0]))) :
    ∃ port, f.port = some port ∧
      serveChild strtol received = .ok (.upstream ⟨f.host, port, text⟩) := by
  obtain ⟨port, hsome⟩ := Option.ne_none_iff_exists'.mp hport
  refine ⟨port, hsome, ?_⟩
  rw [serveChild_processServer hcall, processServer_eq hreq hsome hnul]
  rfl

/-- **An accepted request is handed on** with the last header of each name except `Connection`,
in the order they came in, and one `Connection` header behind them; and it is sent so if it names a
port. -/
theorem serveChild_accepted (strtol : Bytes → Int × Bool) (received s line body : Bytes)
    (hs : List (Bytes × Bytes)) (pr : ParsedRequest)
    (hread : cstr (readBuffer received) = some s)
    (hparse : parsedRequestParse strtol parsedRequestCreate s = .ok (0, pr))
    (hsplit : s = line ++ crlf ++ (hs.flatMap renderHeader ++ (crlf ++ body)))
    (hline : NoCrlf line) (hheaders : ∀ p ∈ hs, colon ∉ p.1 ∧ NoCrlf p.1 ∧ NoCrlf p.2) :
    ∃ f req sendData, pr.Holds f ∧
      childCall strtol received = .ok (.processServer req sendData) ∧
      cstr sendData = some (render f
        ((keepLast hs).filter (fun p => p.1 ≠ connection) ++ [(connection, close)])) ∧
      (f.port ≠ none → ∃ u, serveChild strtol received = .ok (.upstream u) ∧
        u.Sends f ((keepLast hs).filter (fun p => p.1 ≠ connection) ++ [(connection, close)])) := by
  obtain ⟨line', f, sets, req, text, hreq, -, hholds, hholds', htext, hnul, hcall⟩ :=
    childCall_accepted hread hparse
  -- a text has one first line and one reading of its headers
  obtain ⟨t, heq, hreads⟩ := hreq.tail
  obtain ⟨rfl, rfl⟩ := crlf_split_unique hline hreq.noCrlf (hsplit.symm.trans heq)
  have hsets : sets = hs := (reads_render (.inr ⟨body, rfl⟩) hheaders).unique hreads
  subst hsets
  refine ⟨f, req, _, hholds, hcall, by rw [cstr_append hnul, htext], fun hport => ?_⟩
  obtain ⟨port, hsome, hserve⟩ := serveChild_sends hholds' hnul hport hcall
  exact ⟨_, hserve, rfl, hsome, htext⟩

/-! ## Repeated names -/

theorem cstr_readBuffer {s : Bytes} (hnul : 0 ∉ s) (hlen : s.length < bufSize) :
    cstr (readBuffer s) = some s := by
  obtain ⟨n, hn⟩ : ∃ n, bufSize - s.length = n + 1 := ⟨bufSize - s.length - 1, by omega⟩
  rw [readBuffer, List.take_of_length_le (Nat.le_of_lt hlen), hn, List.replicate_succ]
  exact cstr_append hnul _

/-- `GET http://h:1/ HTTP/1.0`. -/
def repeatedLine : Bytes :=
  [71, 69, 84, 32, 104, 116, 116, 112, 58, 47, 47, 104, 58, 49, 47, 32, 72, 84, 84, 80, 47, 49, 46,
    48]

def repeatedHeaders : List (Bytes × Bytes) :=
  [([65], [49]), ([65], [50]),
   ([99, 111, 110, 110, 101, 99, 116, 105, 111, 110],
    [107, 101, 101, 112, 45, 97, 108, 105, 118, 101])]

/-- A request that repeats a name and spells `Connection` another way. -/
def repeatedRequest : Bytes :=
  repeatedLine ++ crlf ++ (repeatedHeaders.flatMap renderHeader ++ (crlf ++ []))

theorem parse_repeatedRequest : ∃ r,
    parsedRequestParse (strtol false) parsedRequestCreate repeatedRequest = .ok r ∧
      decide (r.1 = 0 ∧ r.2.port ≠ .null) = true :=
  exists_ok_of_check (by decide +kernel)

theorem serveChild_accepted_repeated : ∃ f u,
    serveChild (strtol false) repeatedRequest = .ok (.upstream u) ∧
      u.Sends f [([65], [50]),
        ([99, 111, 110, 110, 101, 99, 116, 105, 111, 110],
          [107, 101, 101, 112, 45, 97, 108, 105, 118, 101]),
        (connection, close)] := by
  obtain ⟨⟨ret, pr⟩, hparse, hcheck⟩ := parse_repeatedRequest
  obtain ⟨rfl, hport⟩ := of_decide_eq_true hcheck
  obtain ⟨f, req, sendData, hholds, -, -, hsent⟩ := serveChild_accepted (strtol false)
    repeatedRequest repeatedRequest repeatedLine [] repeatedHeaders pr
    (cstr_readBuffer (by decide) (by decide)) hparse rfl (by decide) (by decide)
  obtain ⟨u, hserve, hsends⟩ := hsent (hholds.port_ne hport)
  exact ⟨f, u, hserve, hsends⟩

/-- A letter without its case. -/
def lower (c : UInt8) : UInt8 := if 65 ≤ c ∧ c ≤ 90 then c + 32 else c

/-- Two names are equal except for the case of their letters. -/
def SameName (a b : Bytes) : Prop := a.map lower = b.map lower

instance (a b : Bytes) : Decidable (SameName a b) := inferInstanceAs (Decidable (_ = _))

/-- All headers of the request are sent, in their order, with one `Connection` header instead of
those of that name. -/
def Faithful (hs sent : List (Bytes × Bytes)) : Prop :=
  ∃ name, SameName name connection ∧
    sent = hs.filter (fun p => ¬ SameName p.1 connection) ++ [(name, close)]

/-- The first of two headers is lost. -/
theorem repeated_not_faithful : ∃ pr u,
    cstr (readBuffer repeatedRequest) = some repeatedRequest ∧
    parsedRequestParse (strtol false) parsedRequestCreate repeatedRequest = .ok (0, pr) ∧
    serveChild (strtol false) repeatedRequest = .ok (.upstream u) ∧
    ¬ ∃ sent, Faithful repeatedHeaders sent ∧ renderHeaders sent <:+ u.sendData := by
  obtain ⟨⟨ret, pr⟩, hparse, hcheck⟩ := parse_repeatedRequest
  obtain ⟨rfl, -⟩ := of_decide_eq_true hcheck
  have hserve : ∃ o, serveChild (strtol false) repeatedRequest = .ok o ∧
      (match o with
        | .upstream u => decide (¬ renderHeader ([65], [49]) <:+: u.sendData)
        | _ => false) = true := exists_ok_of_check (by decide +kernel)
  obtain ⟨o, hserve, hcheck⟩ := hserve
  cases o with
  | readError => cases hcheck
  | notImplemented => cases hcheck
  | upstream u =>
      have hlost := of_decide_eq_true hcheck
      refine ⟨pr, u, cstr_readBuffer (by decide) (by decide), hparse, hserve, ?_⟩
      rintro ⟨sent, ⟨name, -, rfl⟩, hsuffix⟩
      -- a faithful list starts with that header
      have hfirst : repeatedHeaders.filter (fun p => ¬ SameName p.1 connection)
          = [([65], [49]), ([65], [50])] := by decide
      rw [hfirst] at hsuffix
      refine hlost (List.IsInfix.trans ?_ hsuffix.isInfix)
      exact ⟨[], renderHeaders [([65], [50]), (name, close)], by simp [renderHeaders]⟩

end NetworkProjects.Proxy
