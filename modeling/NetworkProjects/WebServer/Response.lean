import NetworkProjects.WebServer.FileOpen
import NetworkProjects.Lib.Decimal
import Mathlib.Data.List.DropRight

/-!
# The answer (`server1.cpp`)

The child opens the file a request names, writes a header with what `ftell` returned for its
length, and sends the file in pieces of 8192 bytes. What a client reads of it is a head, up to an
empty line, and a body: the body is the file, and the length in the head is the length of the
body as long as that is an `int` (`serveChild_answers`).
-/

namespace NetworkProjects.WebServer

open NetworkProjects.Lib

/-- The bytes of a string constant. -/
def ascii (s : String) : Bytes := s.toList.map fun c => UInt8.ofNat c.toNat

/-- `"\r\n"`. -/
def crlf : Bytes := [13, 10]

/-- A date as `strftime` writes it into an array of 1000 characters. -/
abbrev DateText := { date : Bytes // date.length < 1000 ∧ 0 ∉ date ∧ 10 ∉ date }

/-- The clock and the files of the server. Every path that can be opened is a file that can be read
to its end. The code relies on that: `fopen` opens a directory for reading, too, and then `feof`
never holds, `fread` returns nothing, and the loop that sends the file does not come to an end. -/
structure Site where
  now : DateText
  /-- `fopen(path, "rb")`: what is in the file, if there is one. -/
  fopen : Bytes → Option Bytes

/-- Why no answer is sent. -/
inductive SendFault
  | request (fault : Fault)
  /-- The header does not fit in `Headers`, with a NUL behind it. -/
  | outOfHeaders
  deriving DecidableEq, Repr

/-! ## The header

The lines of a header are put together as a `string`, copied into an array, and written up to the
first NUL in it. -/

/-- `date_time_header`. -/
def dateTimeHeader (site : Site) : Bytes := ascii "Date: " ++ site.now.val ++ crlf

/-- `fn.substr(fn.find_last_of(".") + 1)`, which is all of a name without a dot. -/
def extension (fn : Bytes) : Bytes := fn.rtakeWhile (· ≠ 46)

/-- `type_of_content`. -/
def typeOfContent (fn : Bytes) : Bytes :=
  if extension fn = ascii "html" then ascii "Content-Type: text/html\r\n"
  else if extension fn = ascii "htm" then ascii "Content-Type: text/html\r\n"
  else if extension fn = ascii "txt" then ascii "Content-Type: text/plain\r\n"
  else if extension fn = ascii "jpeg" then ascii "Content-Type: image/jpeg\r\n"
  else if extension fn = ascii "jpg" then ascii "Content-Type: image/jpeg\r\n"
  else if extension fn = ascii "gif" then ascii "Content-Type: image/gif\r\n"
  else if extension fn = ascii "pdf" then ascii "Content-Type: Application/pdf\r\n"
  else ascii "Content-Type: text/html\r\n"

/-- `status_msg`. -/
def statusMsg : Nat → Bytes
  | 200 => ascii "200 OK\r\n"
  | 400 => ascii "400 Bad Request\r\n"
  | 404 => ascii "404 Not Found\r\n"
  | 500 => ascii "500 Internal Server Error\r\n"
  | 501 => ascii "501 Not Implemeted\r\n"
  | _ => ascii "200 OK\r\n"

def httpVersion : Bytes := ascii "HTTP/1.1 "
def server : Bytes := ascii "Server: localhost:Neeraj,IITK\r\n"
def connectionTyp : Bytes := ascii "Connection: Keep-Alive\r\n"

/-- `sprintf(buf, "%d", n)`. -/
def sprintfInt (n : Int) : Bytes :=
  if n < 0 then 45 :: decimal n.natAbs else decimal n.natAbs

/-- What `write` is given of `headers`, which are copied into a cleared array: `strlen(Headers)`
bytes of it. -/
def writeHeaders (headers : Bytes) : Except SendFault Bytes :=
  if 4024 < headers.length then .error .outOfHeaders
  else
    match cstr (headers ++ List.replicate (4024 - headers.length) 0) with
    | none => .error .outOfHeaders
    | some text => .ok text

/-- `send_response_header_404`. -/
def sendResponseHeader404 (site : Site) : Except SendFault Bytes :=
  writeHeaders (httpVersion ++ statusMsg 404 ++ dateTimeHeader site ++ server ++ crlf)

/-- `send_response_header`. -/
def sendResponseHeader (site : Site) (contentLength : Int) (contentType : Bytes) :
    Except SendFault Bytes :=
  let contentLength := ascii "Content-Length: " ++ sprintfInt contentLength ++ crlf
  writeHeaders (httpVersion ++ statusMsg 200 ++ dateTimeHeader site ++ server ++ contentLength
    ++ connectionTyp ++ contentType ++ crlf)

/-! ## The file

The loop reads and sends until `feof`, and a file of whole buffers costs one more round that finds
nothing. -/

/-- The sending loop: `feof` is true after a `fread` that has found fewer than `BUF_SIZE` bytes, so
a file of whole buffers ends with an empty `send`. -/
def sendLoop (f : Bytes) : List Bytes :=
  if f.length < bufSize then [f] else f.take bufSize :: sendLoop (f.drop bufSize)
termination_by f.length
decreasing_by
  rw [List.length_drop, bufSize] at *
  omega

/-- What the child writes for a file name, call after call. -/
def serveFile (site : Site) (filename : Bytes) : Except SendFault (List Bytes) :=
  match fileOpen filename with
  | .error fault => .error (.request fault)
  | .ok path =>
      match site.fopen path with
      | none => do return [← sendResponseHeader404 site]
      | some f => do
          let header ← sendResponseHeader site (intOfLong f.length) (typeOfContent filename)
          return header :: sendLoop f

/-- What the child writes when `read` has returned these bytes. -/
def serveChild (site : Site) (received : Bytes) : Except SendFault (List Bytes) :=
  if received = [] then .ok []
  else
    match tokenise (readBuffer received) with
    | .error fault => .error (.request fault)
    | .ok request => serveFile site (target request)

/-! ## The client

The client knows nothing of the server. It splits what it gets at the first empty line, and reads
the fields from the lines before it. -/

/-- A message as a client reads it. -/
structure HttpMessage where
  status : Bytes
  fields : List Bytes
  body : Bytes
  deriving DecidableEq, Repr

/-- The lines in front of the empty line are the status and the fields. -/
def readMessage (text : Bytes) : Option HttpMessage :=
  match headBody 10 crlf text with
  | (status :: fields, body) => some ⟨status, fields, body⟩
  | ([], _) => none

/-- The number in a `Content-Length` field. -/
def lengthField (field : Bytes) : Option Nat :=
  if ascii "Content-Length: " <+: field then
    let number := field.drop (ascii "Content-Length: ").length
    let digits := number.takeWhile isDecimal
    if digits ≠ [] ∧ number.drop digits.length = crlf then some (decimalValue digits) else none
  else none

/-- The length the head gives. -/
def HttpMessage.contentLength (m : HttpMessage) : Option Nat := m.fields.findSome? lengthField

/-! ## What is sent

The pieces are the file, and the header is a list of lines. Its length is bounded line by line, so
it fits. -/

section Sent

variable {site : Site} {headers fn f : Bytes} {n : Int}

/-- The pieces are the file. -/
theorem flatten_sendLoop (f : Bytes) : (sendLoop f).flatten = f := by
  induction f using sendLoop.induct with
  | case1 f hshort => rw [sendLoop, if_pos hshort, List.flatten_singleton]
  | case2 f hlong ih =>
      rw [sendLoop, if_neg hlong, List.flatten_cons, ih, List.take_append_drop]

/-- A header that fits is written as a whole. -/
theorem writeHeaders_eq (hnul : 0 ∉ headers) (hlen : headers.length < 4024) :
    writeHeaders headers = .ok headers := by
  obtain ⟨k, hk⟩ : ∃ k, 4024 - headers.length = k + 1 := ⟨4024 - headers.length - 1, by omega⟩
  rw [writeHeaders, if_neg (by omega), hk, List.replicate_succ, cstr_append hnul]

/-- What `type_of_content` chooses from. -/
def contentTypes : List Bytes :=
  [ascii "Content-Type: text/html\r\n", ascii "Content-Type: text/plain\r\n",
    ascii "Content-Type: image/jpeg\r\n", ascii "Content-Type: image/gif\r\n",
    ascii "Content-Type: Application/pdf\r\n"]

theorem typeOfContent_mem (fn : Bytes) : typeOfContent fn ∈ contentTypes := by
  unfold typeOfContent contentTypes
  split_ifs <;> simp

/-- A line of a head, with no NUL in it. -/
structure HeadLine (line : Bytes) : Prop where
  isLine : IsLine 10 line
  ne_crlf : line ≠ crlf
  noNul : 0 ∉ line

/-- The fields with a value of their own in every answer. -/
def fieldNames : List Bytes := [ascii "Date: ", ascii "Content-Length: "]

theorem headLine_field {name value : Bytes} (hname : name ∈ fieldNames) (hnl : 10 ∉ value)
    (hnul : 0 ∉ value) : HeadLine (name ++ value ++ crlf) := by
  have hall : ∀ name ∈ fieldNames, name ≠ [] ∧ 10 ∉ name ∧ 0 ∉ name := by decide
  obtain ⟨hne, hnameNl, hnameNul⟩ := hall name hname
  refine ⟨⟨name ++ value ++ [13], by rw [crlf]; simp, ?_⟩, ?_, ?_⟩
  · simp only [List.mem_append, not_or]
    exact ⟨⟨hnameNl, hnl⟩, by decide⟩
  -- a line with a name in front is longer than the empty line
  · intro h
    exact hne (List.append_eq_nil_iff.mp (List.append_left_eq_self.mp h)).1
  · simp only [List.mem_append, not_or]
    exact ⟨⟨hnameNul, hnul⟩, by decide⟩

/-- The lines that are the same in every answer. -/
def constantLines : List Bytes :=
  [httpVersion ++ statusMsg 200, httpVersion ++ statusMsg 404, server, connectionTyp]
    ++ contentTypes

theorem headLine_constant {line : Bytes} (h : line ∈ constantLines) : HeadLine line := by
  have hall : ∀ line ∈ constantLines, line.dropLast ++ [10] = line ∧ 10 ∉ line.dropLast ∧
      line ≠ crlf ∧ 0 ∉ line := by
    decide
  obtain ⟨hline, hnl, hne, hnul⟩ := hall line h
  exact ⟨⟨line.dropLast, hline.symm, hnl⟩, hne, hnul⟩

theorem noNul_of_headLines {ls : List Bytes} (h : ∀ line ∈ ls, HeadLine line) :
    0 ∉ ls.flatten ++ crlf := by
  rw [List.mem_append, List.mem_flatten, not_or]
  refine ⟨?_, by decide⟩
  rintro ⟨line, hline, hmem⟩
  exact (h line hline).noNul hmem

theorem headLine_date (site : Site) : HeadLine (dateTimeHeader site) := by
  obtain ⟨-, hnul, hnl⟩ := site.now.property
  exact headLine_field (by simp [fieldNames]) hnl hnul

theorem mem_sprintfInt {c : UInt8} (h : c ∈ sprintfInt n) : c = 45 ∨ isDecimal c = true := by
  rw [sprintfInt] at h
  split at h
  · exact (List.mem_cons.mp h).imp_right (isDecimal_decimal _ c)
  · exact .inr (isDecimal_decimal _ c h)

/-- The `Content-Length` line. -/
def lengthLine (n : Int) : Bytes := ascii "Content-Length: " ++ sprintfInt n ++ crlf

theorem headLine_length (n : Int) : HeadLine (lengthLine n) := by
  have hother : ∀ c ∈ sprintfInt n, c ≠ 10 ∧ c ≠ 0 := by
    intro c hc
    rcases mem_sprintfInt hc with rfl | hdigit
    · decide
    · constructor
      · rintro rfl
        exact absurd hdigit (by decide)
      · rintro rfl
        exact absurd hdigit (by decide)
  exact headLine_field (by simp [fieldNames]) (fun h => (hother 10 h).1 rfl)
    (fun h => (hother 0 h).2 rfl)

theorem headLine_type (fn : Bytes) : HeadLine (typeOfContent fn) :=
  headLine_constant (List.mem_append_right _ (typeOfContent_mem fn))

/-- The lines of a header for a file. -/
def headLines (site : Site) (n : Int) (contentType : Bytes) : List Bytes :=
  [httpVersion ++ statusMsg 200, dateTimeHeader site, server, lengthLine n, connectionTyp,
    contentType]

theorem headLine_headLines (site : Site) (n : Int) (fn : Bytes) :
    ∀ line ∈ headLines site n (typeOfContent fn), HeadLine line := by
  intro line hline
  simp only [headLines, List.mem_cons, List.not_mem_nil, or_false] at hline
  rcases hline with rfl | rfl | rfl | rfl | rfl | rfl
  · exact headLine_constant (by simp [constantLines])
  · exact headLine_date site
  · exact headLine_constant (by simp [constantLines])
  · exact headLine_length n
  · exact headLine_constant (by simp [constantLines])
  · exact headLine_type fn

/-- The lines of a header for a missing file. -/
theorem headLine_headLines404 (site : Site) :
    ∀ line ∈ [httpVersion ++ statusMsg 404, dateTimeHeader site, server], HeadLine line := by
  intro line hline
  simp only [List.mem_cons, List.not_mem_nil, or_false] at hline
  rcases hline with rfl | rfl | rfl
  · exact headLine_constant (by simp [constantLines])
  · exact headLine_date site
  · exact headLine_constant (by simp [constantLines])

theorem length_dateTimeHeader_lt (site : Site) : (dateTimeHeader site).length < 1008 := by
  have hdate := site.now.property.1
  have hname : (ascii "Date: ").length = 6 := by decide
  rw [dateTimeHeader, List.length_append, List.length_append, hname, crlf, List.length_cons,
    List.length_cons, List.length_nil]
  omega

/-- A length that is an `int` has at most eleven characters. -/
theorem length_lengthLine_le (hn : -2 ^ 31 ≤ n ∧ n < 2 ^ 31) : (lengthLine n).length ≤ 29 := by
  have hdigits : (decimal n.natAbs).length ≤ 10 := length_decimal_le (by decide) (by omega)
  have hname : (ascii "Content-Length: ").length = 16 := by decide
  have hnumber : (sprintfInt n).length ≤ 11 := by
    rw [sprintfInt]
    split
    · rw [List.length_cons]
      omega
    · omega
  rw [lengthLine, List.length_append, List.length_append, hname, crlf, List.length_cons,
    List.length_cons, List.length_nil]
  omega

theorem length_typeOfContent_le (fn : Bytes) : (typeOfContent fn).length ≤ 31 := by
  have hall : ∀ line ∈ contentTypes, line.length ≤ 31 := by decide
  exact hall _ (typeOfContent_mem fn)

/-- **The header for a file** fits in `Headers`, and is its lines and an empty line. -/
theorem sendResponseHeader_eq (site : Site) (fn : Bytes) (hn : -2 ^ 31 ≤ n ∧ n < 2 ^ 31) :
    sendResponseHeader site n (typeOfContent fn)
      = .ok ((headLines site n (typeOfContent fn)).flatten ++ crlf) := by
  have hflat : httpVersion ++ statusMsg 200 ++ dateTimeHeader site ++ server
      ++ (ascii "Content-Length: " ++ sprintfInt n ++ crlf) ++ connectionTyp ++ typeOfContent fn
      ++ crlf = (headLines site n (typeOfContent fn)).flatten ++ crlf := by
    simp only [headLines, lengthLine, List.flatten_cons, List.flatten_nil, List.append_nil,
      List.append_assoc]
  rw [sendResponseHeader, hflat]
  apply writeHeaders_eq
  · exact noNul_of_headLines (headLine_headLines site n fn)
  · have hdate := length_dateTimeHeader_lt site
    have hlength := length_lengthLine_le hn
    have htype := length_typeOfContent_le fn
    have hstatus : (httpVersion ++ statusMsg 200).length = 17 := by decide
    have hserver : server.length = 31 := by decide
    have hconnection : connectionTyp.length = 24 := by decide
    simp only [headLines, List.flatten_cons, List.flatten_nil, List.append_nil, crlf,
      List.length_append, hserver, hconnection, List.length_cons, List.length_nil] at hstatus ⊢
    omega

/-- **The header for a missing file** fits as well, and names no length: the answer ends with it. -/
theorem sendResponseHeader404_eq (site : Site) : sendResponseHeader404 site
    = .ok ([httpVersion ++ statusMsg 404, dateTimeHeader site, server].flatten ++ crlf) := by
  have hflat : httpVersion ++ statusMsg 404 ++ dateTimeHeader site ++ server ++ crlf
      = [httpVersion ++ statusMsg 404, dateTimeHeader site, server].flatten ++ crlf := by
    simp only [List.flatten_cons, List.flatten_nil, List.append_nil, List.append_assoc]
  rw [sendResponseHeader404, hflat]
  apply writeHeaders_eq
  · exact noNul_of_headLines (headLine_headLines404 site)
  · have hdate := length_dateTimeHeader_lt site
    have hstatus : (httpVersion ++ statusMsg 404).length = 24 := by decide
    have hserver : server.length = 31 := by decide
    rw [← hflat, List.length_append, List.length_append, List.length_append, hstatus, hserver, crlf,
      List.length_cons, List.length_cons, List.length_nil]
    omega

end Sent

/-! ## What is read

A head made of lines with no line end in them is read back whatever the body is. -/

section Read

variable {site : Site} {received s fn f : Bytes} {n : Int}

/-- **A head of lines and a body are read back**, whatever is in the body. -/
theorem readMessage_append {status : Bytes} {fields : List Bytes}
    (h : ∀ line ∈ status :: fields, HeadLine line) (body : Bytes) :
    readMessage ((status :: fields).flatten ++ crlf ++ body) = some ⟨status, fields, body⟩ := by
  have hblank : IsLine 10 crlf := ⟨[13], rfl, by decide⟩
  have hread := headBody_append (fun line hline => ⟨(h line hline).isLine, (h line hline).ne_crlf⟩)
    hblank body
  rw [readMessage, List.append_assoc, hread]

theorem isDecimal_13 : isDecimal 13 = false := rfl

/-- The length of a `Content-Length` line, if it is not negative. -/
theorem lengthField_lengthLine (n : Int) :
    lengthField (lengthLine n) = if n < 0 then none else some n.natAbs := by
  have hprefix : ascii "Content-Length: " <+: lengthLine n :=
    ⟨sprintfInt n ++ crlf, by rw [lengthLine, List.append_assoc]⟩
  have hdrop : (lengthLine n).drop (ascii "Content-Length: ").length = sprintfInt n ++ crlf := by
    rw [lengthLine, List.append_assoc, List.drop_left]
  rw [lengthField, if_pos hprefix]
  simp only [hdrop]
  by_cases hn : n < 0
  · have hminus : isDecimal 45 = false := rfl
    rw [if_pos hn, sprintfInt, if_pos hn, List.cons_append,
      List.takeWhile_cons_of_neg (by simp [hminus]), if_neg (fun h => h.1 rfl)]
  · have htake : (decimal n.natAbs ++ crlf).takeWhile isDecimal = decimal n.natAbs := by
      rw [List.takeWhile_append_of_pos (isDecimal_decimal n.natAbs), crlf,
        List.takeWhile_cons_of_neg (by simp [isDecimal_13]), List.append_nil]
    rw [if_neg hn, sprintfInt, if_neg hn, htake, if_pos, decimalValue_decimal]
    exact ⟨decimal_ne_nil n.natAbs, List.drop_left⟩

theorem lengthField_other {line : Bytes} (h : line.head? ≠ some 67) : lengthField line = none := by
  rw [lengthField, if_neg]
  rintro ⟨t, rfl⟩
  apply h
  have hfirst : (ascii "Content-Length: ").head? = some 67 := by decide
  rw [List.head?_append, hfirst]
  rfl

/-- A length as an `int`. -/
theorem intOfLong_length (n : Nat) : -2 ^ 31 ≤ intOfLong n ∧ intOfLong n < 2 ^ 31 ∧
    (n < 2 ^ 31 → intOfLong n = n) := by
  rw [intOfLong, Int.bmod]
  omega

/-- Only one of the fields gives a length. -/
theorem findSome?_third {α β : Type} {g : α → Option β} {a b d e : α} (c : α) (ha : g a = none)
    (hb : g b = none) (hd : g d = none) (he : g e = none) :
    [a, b, c, d, e].findSome? g = g c := by
  simp only [List.findSome?_cons, List.findSome?_nil, ha, hb, hd, he]
  cases g c <;> rfl

/-- The length in the head is that of the file if it is an `int`. -/
theorem contentLength_headLines (site : Site) (fn f : Bytes) :
    HttpMessage.contentLength ⟨httpVersion ++ statusMsg 200,
        (headLines site (intOfLong f.length) (typeOfContent fn)).tail, f⟩ = some f.length
      ↔ f.length < 2 ^ 31 := by
  have hdate : lengthField (dateTimeHeader site) = none := by
    have hfirst : (ascii "Date: ").head? = some 68 := by decide
    apply lengthField_other
    rw [dateTimeHeader, List.append_assoc, List.head?_append, hfirst, Option.some_or]
    decide
  have hserver : lengthField server = none := by decide
  have hconnection : lengthField connectionTyp = none := by decide
  have htype : lengthField (typeOfContent fn) = none := by
    have hall : ∀ line ∈ contentTypes, lengthField line = none := by decide
    exact hall _ (typeOfContent_mem fn)
  have hthird := findSome?_third (lengthLine (intOfLong f.length)) hdate hserver hconnection htype
  obtain ⟨-, hlt, hself⟩ := intOfLong_length f.length
  rw [HttpMessage.contentLength, headLines, List.tail_cons, hthird, lengthField_lengthLine]
  -- a longer file wraps around: to a negative number, which is no length, or to another length
  by_cases hneg : intOfLong f.length < 0
  · simp only [if_pos hneg, reduceCtorEq, false_iff]
    omega
  · simp only [if_neg hneg, Option.some.injEq]
    omega

/-- **Every request of 2 to 100 words is answered**: with a head only if there is no such file, and
else with a head and the file. The length in the head is the length of the file if that is an
`int`, and only then. -/
theorem serveChild_answers (site : Site) (hs : cstr (readBuffer received) = some s)
    (htwo : 2 ≤ (words s).length) (hroom : (words s).length ≤ requestSize) :
    ∃ path writes, fileOpen (target (words s)) = .ok path ∧ serveChild site received = .ok writes ∧
      match site.fopen path with
      | none => readMessage writes.flatten
          = some ⟨httpVersion ++ statusMsg 404, [dateTimeHeader site, server], []⟩
      | some f => ∃ m, readMessage writes.flatten = some m ∧
          m.status = httpVersion ++ statusMsg 200 ∧ typeOfContent (target (words s)) ∈ m.fields ∧
          m.body = f ∧ (m.contentLength = some f.length ↔ f.length < 2 ^ 31) := by
  have hne : received ≠ [] := by
    rintro rfl
    have hempty : cstr (readBuffer []) = some [] := cstr_readBuffer (by decide) (by decide)
    rw [hs, Option.some.injEq] at hempty
    rw [hempty] at htwo
    exact absurd htwo (by decide)
  obtain ⟨c, rest, htarget⟩ := List.exists_cons_of_ne_nil (target_words_ne.mpr htwo)
  have hopen := fileOpen_cons c rest
  rw [← htarget] at hopen
  -- which path it is does not matter for what is sent
  generalize (if rest.getLast?.getD c = slash then rest ++ indexHtml else rest) = path at hopen
  rw [serveChild, if_neg hne, tokenise_text hs, if_pos hroom]
  simp only [serveFile, hopen]
  cases hfile : site.fopen path with
  | none =>
      refine ⟨path, _, rfl, by rw [sendResponseHeader404_eq]; rfl, ?_⟩
      rw [hfile]
      have hread := readMessage_append (headLine_headLines404 site) []
      rw [List.append_nil] at hread
      rw [List.flatten_singleton]
      exact hread
  | some f =>
      obtain ⟨hlow, hhigh, -⟩ := intOfLong_length f.length
      have hhead := sendResponseHeader_eq site (target (words s)) ⟨hlow, hhigh⟩
      refine ⟨path, _, rfl, by dsimp only; rw [hhead]; rfl, ?_⟩
      rw [hfile, List.flatten_cons, flatten_sendLoop]
      exact ⟨_, readMessage_append (headLine_headLines site _ (target (words s))) f, rfl,
        by simp, rfl, contentLength_headLines site (target (words s)) f⟩

end Read

/-- A site with one file. -/
def oneFileSite : Site where
  now := ⟨ascii "Thu, 01 Jan 1970 00:00:00 GMT", by decide⟩
  fopen path := if path = ascii "a.txt" then some (ascii "hi") else none

def getTxt : Bytes := ascii "GET /a.txt HTTP/1.1\r\n\r\n"

/-- The file is asked for. -/
theorem serveChild_answers_getTxt :
    ∃ path writes, fileOpen (target (words getTxt)) = .ok path ∧
      serveChild oneFileSite getTxt = .ok writes ∧
      match oneFileSite.fopen path with
      | none => readMessage writes.flatten
          = some ⟨httpVersion ++ statusMsg 404, [dateTimeHeader oneFileSite, server], []⟩
      | some f => ∃ m, readMessage writes.flatten = some m ∧
          m.status = httpVersion ++ statusMsg 200 ∧ typeOfContent (target (words getTxt)) ∈ m.fields ∧
          m.body = f ∧ (m.contentLength = some f.length ↔ f.length < 2 ^ 31) :=
  serveChild_answers oneFileSite (cstr_readBuffer (by decide) (by decide))
    (by decide) (by decide)

end NetworkProjects.WebServer
