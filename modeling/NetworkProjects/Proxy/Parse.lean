import NetworkProjects.Proxy.Unparse

/-!
# `ParsedRequest_parse` (`proxy_parse.c`)

The request line is copied into `parse->buf` and cut up there by seven calls of `strtok_r`; the
headers are read out of `tmp_buf`. Each stage of the request line is a function that returns
the object so far, or leaves through `Exit`: a fault, or the error return, which releases `buf`.

`strtol` is a parameter of the parser, as a function from the text to the result and whether
`errno` is `EINVAL` afterwards; `strtol` below is what the standard says it is.
-/

namespace NetworkProjects.Proxy

open NetworkProjects.Lib

/-! ## Early exits -/

/-- How a stage ends early. -/
inductive Exit
  | fault (f : Fault)
  /-- `return -1`, with the object as it is left. -/
  | reject (parse : ParsedRequest)

/-- The error return: `free(tmp_buf); free(parse->buf); parse->buf = NULL; return -1`. -/
def reject {α : Type} (parse : ParsedRequest) : Except Exit α :=
  .error (.reject { parse with buf := none })

/-- The result of a search or a scan that must stay inside its buffer. -/
def inside {α : Type} : Option α → Except Exit α
  | none => .error (.fault .outOfBounds)
  | some a => .ok a

/-- A token that must be there. -/
def require (parse : ParsedRequest) : Option Nat → Except Exit Nat
  | none => reject parse
  | some start => .ok start

/-- A test that must not succeed. -/
def rejectIf (c : Prop) [Decidable c] (parse : ParsedRequest) : Except Exit Unit :=
  if c then reject parse else .ok ()

/-- What `strtok_r` returns, as a field. -/
def ptrOf : Option Nat → Ptr
  | none => .null
  | some start => .inBuf start

/-! ## `strtol` -/

/-- `isspace`. -/
def isSpace (c : UInt8) : Bool := c = 32 ∨ (9 ≤ c ∧ c ≤ 13)

def isDigit (c : UInt8) : Bool := 48 ≤ c ∧ c ≤ 57

/-- The number a string of digits stands for. -/
def digitsValue (ds : Bytes) : Nat := ds.foldl (fun n c => 10 * n + (c.toNat - 48)) 0

/-- `strtol(s, NULL, 10)`, clamped to `long`. Whether `errno` becomes `EINVAL` when there is no
number is up to the implementation; before the call it is taken not to be `EINVAL`. -/
def strtol (setsEinval : Bool) (s : Bytes) : Int × Bool :=
  let s := s.dropWhile isSpace
  let (neg, s) :=
    match s with
    | 45 :: rest => (true, rest)
    | 43 :: rest => (false, rest)
    | _ => (false, s)
  let digits := s.takeWhile isDigit
  if digits = [] then (0, setsEinval)
  else
    let n : Int := if neg then -(digitsValue digits : Int) else digitsValue digits
    (max (-2 ^ 63) (min n (2 ^ 63 - 1)), false)

/-! ## The request line -/

/-- The method, the address and the version; the address is returned. -/
def parseMethod (parse : ParsedRequest) (b : Bytes) :
    Except Exit (ParsedRequest × Bytes × Nat) := do
  let (b, method, saveptr) ← inside (strtokR b 0 [sp])
  let parse := { parse with buf := some b, method := ptrOf method }
  let method ← require parse method
  let text ← inside (cstrAt b method)
  rejectIf (text ≠ get) parse
  let (b, fullAddr, _) ← inside (strtokR b saveptr [sp])
  let parse := { parse with buf := some b }
  let fullAddr ← require parse fullAddr
  let addr ← inside (cstrAt b fullAddr)
  let version := fullAddr + addr.length + 1
  let parse := { parse with version := .inBuf version }
  let text ← inside (cstrAt b version)
  rejectIf (text.take http.length ≠ http) parse
  return (parse, b, fullAddr)

/-- The protocol, and the host with its port; where the host starts and what follows it are
returned. The remainder behind `"://"` is looked for behind as many bytes as the protocol has,
wherever that starts. -/
def parseAddress (parse : ParsedRequest) (b : Bytes) (fullAddr : Nat) :
    Except Exit (ParsedRequest × Bytes × Nat × Nat) := do
  let (b, protocol, saveptr) ← inside (strtokR b fullAddr [colon, slash])
  let parse := { parse with buf := some b, protocol := ptrOf protocol }
  let protocol ← require parse protocol
  let text ← inside (cstrAt b protocol)
  let rem := fullAddr + text.length + schemeSep.length
  let absUri ← inside (cstrAt b rem)
  let (b, host, saveptr) ← inside (strtokR b saveptr [slash])
  let parse := { parse with buf := some b, host := ptrOf host }
  let host ← require parse host
  let text ← inside (cstrAt b host)
  rejectIf (text.length = absUri.length) parse
  return (parse, b, host, saveptr)

/-- The path, which is allocated on its own. -/
def parsePath (parse : ParsedRequest) (b : Bytes) (saveptr : Nat) :
    Except Exit (ParsedRequest × Bytes) := do
  let (b, path, _) ← inside (strtokR b saveptr [sp])
  let parse := { parse with buf := some b }
  match path with
  | none => return ({ parse with path := .heap [slash] }, b)
  | some path =>
      let text ← inside (cstrAt b path)
      rejectIf (text.take 1 = [slash]) { parse with path := .null }
      return ({ parse with path := .heap (slash :: text) }, b)

/-- Host and port, which were one token so far. -/
def parseHostPort (strtol : Bytes → Int × Bool) (parse : ParsedRequest) (b : Bytes) (host : Nat) :
    Except Exit ParsedRequest := do
  let (b, host, saveptr) ← inside (strtokR b host [colon])
  let (b, port, _) ← inside (strtokR b saveptr [slash])
  let parse := { parse with buf := some b, host := ptrOf host, port := ptrOf port }
  let _ ← require { parse with path := .null } host
  match port with
  | none => return parse
  | some port =>
      let text ← inside (cstrAt b port)
      -- `int port` keeps the low 32 bits of the `long`
      rejectIf ((strtol text).1 % 2 ^ 32 = 0 ∧ (strtol text).2) { parse with path := .null }
      return parse

/-- The request line, a copy of which is in `b`. -/
def parseRequestLine (strtol : Bytes → Int × Bool) (parse : ParsedRequest) (b : Bytes) :
    Except Exit ParsedRequest := do
  let (parse, b, fullAddr) ← parseMethod parse b
  let (parse, b, host, saveptr) ← parseAddress parse b fullAddr
  let (parse, b) ← parsePath parse b saveptr
  parseHostPort strtol parse b host

/-! ## The headers -/

/-- `ParsedHeader_parse`, on what `line` points at. Two bytes are skipped behind the key: the
colon, and whatever follows it. -/
def parsedHeaderParse (pr : ParsedRequest) (line : Bytes) : Except Fault (Int × ParsedRequest) :=
  match cstr line with
  | none => .error .outOfBounds
  | some text =>
      match index text colon with
      | none => .ok (-1, pr)
      | some index1 =>
          let key := text.take index1
          match cstr (line.drop (index1 + 2)) with
          | none => .error .outOfBounds
          | some text =>
              match strstr crlf text with
              | none => .error .badLength
              | some index2 =>
                  match parsedHeaderSet pr key (text.take index2) with
                  | .error f => .error f
                  | .ok (_, pr) => .ok (0, pr)

/-- The loop over the header lines. Each round takes a byte of what is left, so its length is
enough fuel. -/
def headerLoop : Nat → ParsedRequest → Bytes → Except Fault (Int × ParsedRequest)
  | _, _, [] => .error .outOfBounds
  | 0, _, _ => .error .outOfBounds
  | fuel + 1, parse, c :: rest =>
      if c = 0 ∨ (c = 13 ∧ rest.head? = some 10) then .ok (0, parse)
      else
        match parsedHeaderParse parse (c :: rest) with
        | .error f => .error f
        | .ok (ret, parse) =>
            if ret ≠ 0 then .ok (-1, parse)
            else
              match cstr (c :: rest) with
              | none => .error .outOfBounds
              | some text =>
                  match strstr crlf text with
                  | none => .ok (0, parse)
                  | some n =>
                      if text.length - n < 2 then .ok (0, parse)
                      else headerLoop fuel parse ((c :: rest).drop (n + 2))

/-! ## The whole request -/

def minReqLen : Nat := 4
def maxReqLen : Nat := 65535

/-- `ParsedRequest_parse`: the return value and the object afterwards. -/
def parsedRequestParse (strtol : Bytes → Int × Bool) (parse : ParsedRequest) (buf : Bytes) :
    Except Fault (Int × ParsedRequest) :=
  if parse.buf ≠ none then .ok (-1, parse)
  else if buf.length < minReqLen ∨ maxReqLen < buf.length then .ok (-1, parse)
  else
    let tmpBuf := buf ++ [0]
    match cstr tmpBuf with
    | none => .error .outOfBounds
    | some text =>
        match strstr (crlf ++ crlf) text, strstr crlf text with
        | none, _ => .ok (-1, parse)
        | some _, none => .error .badLength
        | some _, some index =>
            let line := text.take index ++ [0]
            let parse := { parse with buf := some line, buflen := index + 1 }
            match parseRequestLine strtol parse line with
            | .error (.fault f) => .error f
            | .error (.reject parse) => .ok (-1, parse)
            | .ok parse => headerLoop tmpBuf.length parse (tmpBuf.drop (index + 2))

end NetworkProjects.Proxy
