import NetworkProjects.Router.Routes
import NetworkProjects.Lib.ByteOrder
import NetworkProjects.Lib.Lines
import Mathlib.Data.List.TakeWhile

/-!
# Loading the routing table

`sr_load_rt` of `sr_rt.c`: the file is read by `fgets` into a buffer, `sscanf` takes up to four
fields from it, `inet_aton` reads three of them as addresses, and `sr_add_rt_entry` appends a
node. `sscanf` leaves alone the buffers it has no field for, so a short line is loaded with fields
of the lines before it. The old table is dropped at the first entry and not put back when a
later line is refused.

The table is a linked list, so a node keeps the address `malloc` gave it: that the table is the
old one is a statement about its nodes.
-/

namespace NetworkProjects.Router

open NetworkProjects.Lib

/-! ## The C library

`isspace`, `strtoul` and `inet_aton` as the standard has them: a number may be octal or hexadecimal,
and an address may have fewer than four parts. -/

/-- `isspace`, in the C locale. -/
def isspace (c : UInt8) : Bool := c == 32 || (9 ≤ c && c ≤ 13)

/-- `isdigit`. -/
def isdigit (c : UInt8) : Bool := 48 ≤ c && c ≤ 57

/-- What a digit or a letter counts for in a number. -/
def digitValue (c : UInt8) : Option Nat :=
  if isdigit c then some (c.toNat - 48)
  else if 97 ≤ c ∧ c ≤ 102 then some (c.toNat - 87)
  else if 65 ≤ c ∧ c ≤ 70 then some (c.toNat - 55)
  else none

/-- The digits of a number to `base`, after those that make up `n`; and what stands behind. -/
def strtoulDigits (base : Nat) : Nat → Bytes → Nat × Bytes
  | n, [] => (n, [])
  | n, c :: rest =>
      match digitValue c with
      | some d => if d < base then strtoulDigits base (n * base + d) rest else (n, c :: rest)
      | none => (n, c :: rest)

/-- `strtoul(cp, &endp, 0)`, on a string that begins with a digit. -/
def strtoul : Bytes → Nat × Bytes
  | 48 :: x :: h :: rest =>
      if (x = 120 ∨ x = 88) ∧ (digitValue h).isSome then strtoulDigits 16 0 (h :: rest)
      else strtoulDigits 8 0 (x :: h :: rest)
  | 48 :: rest => strtoulDigits 8 0 rest
  | s => strtoulDigits 10 0 s

/-- A part of an address, which must be a number as a whole. -/
def inetPart (part : Bytes) : Option Nat :=
  if isdigit (byteAt part 0) then
    match strtoul part with
    | (n, []) => some n
    | _ => none
  else none

/-- The address of one to four parts: the last one takes the bytes that are left. -/
def inetParts : List Nat → Option Nat
  | [a] => if a < 2 ^ 32 then some a else none
  | [a, b] => if a < 256 ∧ b < 2 ^ 24 then some (a * 2 ^ 24 + b) else none
  | [a, b, c] =>
      if a < 256 ∧ b < 256 ∧ c < 2 ^ 16 then some (a * 2 ^ 24 + b * 2 ^ 16 + c) else none
  | [a, b, c, d] =>
      if a < 256 ∧ b < 256 ∧ c < 256 ∧ d < 256 then
        some (a * 2 ^ 24 + b * 2 ^ 16 + c * 2 ^ 8 + d)
      else none
  | _ => none

/-- `inet_aton`. White space ends the address. -/
def inetAton (cp : Bytes) : Option InAddr :=
  let parts := (cp.takeWhile fun c => !isspace c).splitOnP fun c => c == 46
  ((parts.mapM inetPart).bind inetParts).map fun addr =>
    ByteOrder.htonl .little (UInt32.ofNat addr)

example : inetAton [49, 48, 46, 48, 46, 49, 46, 49, 48, 48] = some (dotted 10 0 1 100) := by
  decide +kernel

/-! ## `sr_load_rt` -/

/-- `BUFSIZ`. -/
def bufsiz : Nat := 8192

/-- `'\n'`. -/
def newline : UInt8 := 10

/-- What `fgets(line, BUFSIZ, fp)` returns, call after call. -/
def fgets (text : Bytes) : List Bytes := pieces (bufsiz - 1) newline [] text

/-- The strings in `dest`, `gw`, `mask` and `iface`. -/
structure RtBuffers where
  dest : Bytes
  gw : Bytes
  mask : Bytes
  iface : Bytes
  deriving DecidableEq

/-- The fields found go into the first buffers, the others keep what they hold. -/
def RtBuffers.fill (b : RtBuffers) : List Bytes → RtBuffers
  | [] => b
  | [dest] => { b with dest := dest }
  | [dest, gw] => { b with dest := dest, gw := gw }
  | [dest, gw, mask] => { b with dest := dest, gw := gw, mask := mask }
  | dest :: gw :: mask :: iface :: _ => ⟨dest, gw, mask, iface⟩

/-- `sscanf(line, "%s %s %s %s", dest, gw, mask, iface)`, into arrays of 32 characters. -/
def sscanfRt (line : Bytes) (b : RtBuffers) : Except Fault RtBuffers :=
  let found := (fields isspace (line.takeWhile (· ≠ 0))).take 4
  if found.any fun field => 32 ≤ field.length then .error .outOfBounds else .ok (b.fill found)

/-- A node of the routing table, with the address `malloc` gave it. -/
structure SrRtNode where
  addr : Nat
  entry : SrRt
  deriving DecidableEq

/-- `sr_add_rt_entry`; `brk` is the address `malloc` returns. -/
def srAddRtEntry (brk : Nat) (entry : SrRt) : List SrRtNode → List SrRtNode
  | [] => [⟨brk, entry⟩]
  | rtWalker :: next => rtWalker :: srAddRtEntry brk entry next

/-- The loop of `sr_load_rt`. -/
def srLoadRtLoop : List Bytes → RtBuffers → (clearRoutingTable : Bool) → (brk : Nat) →
    List SrRtNode → Except Fault (Int × List SrRtNode)
  | [], _, _, _, table => .ok (0, table)
  | line :: rest, b, clearRoutingTable, brk, table =>
      match sscanfRt line b with
      | .error e => .error e
      | .ok b =>
          match inetAton b.dest with
          | none => .ok (-1, table)
          | some dest =>
              match inetAton b.gw with
              | none => .ok (-1, table)
              | some gw =>
                  match inetAton b.mask with
                  | none => .ok (-1, table)
                  | some mask =>
                      let table := if clearRoutingTable then table else []
                      srLoadRtLoop rest b true (brk + 1)
                        (srAddRtEntry brk
                          ⟨dest, gw, mask, nameText (b.iface.take srIfaceNamelen)⟩ table)

/-- `sr_load_rt`: what it returns, and the table. `none` is a file that cannot be read, and
`stack` what the four buffers hold when the function is entered. -/
def srLoadRt (file : Option Bytes) (stack : RtBuffers) (brk : Nat) (table : List SrRtNode) :
    Except Fault (Int × List SrRtNode) :=
  match file with
  | none => .ok (-1, table)
  | some text => srLoadRtLoop (fgets text) stack false brk table

theorem srAddRtEntry_eq (brk : Nat) (entry : SrRt) (table : List SrRtNode) :
    srAddRtEntry brk entry table = table ++ [⟨brk, entry⟩] := by
  induction table with
  | nil => rfl
  | cons rtWalker next ih => rw [srAddRtEntry, ih, List.cons_append]

/-! ## What a line says

The entry a line should give, whatever the buffers held before. A line without four fields, three of
them addresses, is bad. -/

/-- A text file with tokens that fit in the buffers. -/
structure RtFile (text : Bytes) : Prop where
  noNul : 0 ∉ text
  tokens : ∀ field ∈ fields isspace text, field.length ≤ 31

/-- The entry written on a line: four fields, three of them addresses. What follows them is not
looked at. -/
def lineEntry (line : Bytes) : Option SrRt :=
  match fields isspace line with
  | dest :: gw :: mask :: iface :: _ => do
      return ⟨← inetAton dest, ← inetAton gw, ← inetAton mask, nameText iface⟩
  | _ => none

/-- The entry the loop makes of the buffers. -/
def RtBuffers.entry (b : RtBuffers) : Option SrRt := do
  return ⟨← inetAton b.dest, ← inetAton b.gw, ← inetAton b.mask,
    nameText (b.iface.take srIfaceNamelen)⟩

/-- Loading is faithful and atomic: each line of the file has become an entry, or a line is bad
and the table is the old one. -/
def LoadedFaithfully (text : Bytes) (before : List SrRtNode) (r : Int × List SrRtNode) : Prop :=
  r.1 = 0 ∧ r.2.map (fun node => some node.entry) = (lines newline text).map lineEntry ∨
    r.1 = -1 ∧ (∃ line ∈ lines newline text, lineEntry line = none) ∧ r.2 = before

section Pieces

variable {text piece : Bytes}

/-- A part of a file is scanned without a fault. -/
theorem RtFile.sscanfRt (file : RtFile text) (hpiece : piece <:+: text) (b : RtBuffers) :
    sscanfRt piece b = .ok (b.fill ((fields isspace piece).take 4)) := by
  have hnul : piece.takeWhile (· ≠ 0) = piece := by
    rw [List.takeWhile_eq_self_iff]
    intro c hc
    exact decide_eq_true fun h => file.noNul (hpiece.subset (h ▸ hc))
  have hfit : ((fields isspace piece).take 4).any (fun field => 32 ≤ field.length) = false := by
    rw [List.any_eq_false]
    intro field hfield
    have := fields_length_le file.tokens hpiece field (List.mem_of_mem_take hfield)
    simp only [decide_eq_true_eq]
    omega
  rw [Router.sscanfRt, hnul]
  simp only [hfit, Bool.false_eq_true, if_false]

/-- Four fields fill every buffer, so the entry is the one on the line. -/
theorem RtFile.entry_fill (file : RtFile text) (hpiece : piece <:+: text) (b : RtBuffers)
    (hfour : (lineEntry piece).isSome) :
    (b.fill ((fields isspace piece).take 4)).entry = lineEntry piece := by
  have hfit := fields_length_le file.tokens hpiece
  unfold lineEntry at hfour ⊢
  match hfields : fields isspace piece with
  | dest :: gw :: mask :: iface :: _ =>
      rw [hfields] at hfit
      have hiface := hfit iface (by simp)
      simp only [List.take_succ_cons, List.take_zero, RtBuffers.fill, RtBuffers.entry]
      rw [List.take_of_length_le (by rw [srIfaceNamelen]; omega)]
  | [] => simp [hfields] at hfour
  | [_] => simp [hfields] at hfour
  | [_, _] => simp [hfields] at hfour
  | [_, _, _] => simp [hfields] at hfour

theorem infix_of_mem_fgets (h : piece ∈ fgets text) : piece <:+: text := by
  have hflat : (fgets text).flatten = text := flatten_pieces [] text
  rw [← hflat]
  exact List.infix_of_mem_flatten h

end Pieces

/-! ## What the loop does

One line at a time: a line of four fields fills every buffer, so what came before does not matter.
-/

section Loop

variable {text line : Bytes} {rest : List Bytes} {b : RtBuffers} {brk : Nat}
  {table : List SrRtNode}

/-- One line: refused, or one more node. -/
theorem srLoadRtLoop_cons (file : RtFile text) (hline : line <:+: text)
    (clearRoutingTable : Bool) :
    srLoadRtLoop (line :: rest) b clearRoutingTable brk table =
      match (b.fill ((fields isspace line).take 4)).entry with
      | none => .ok (-1, table)
      | some entry => srLoadRtLoop rest (b.fill ((fields isspace line).take 4)) true (brk + 1)
          ((if clearRoutingTable then table else []) ++ [⟨brk, entry⟩]) := by
  simp only [srLoadRtLoop, file.sscanfRt hline b, RtBuffers.entry, srAddRtEntry_eq]
  cases inetAton (b.fill ((fields isspace line).take 4)).dest with
  | none => rfl
  | some dest =>
      cases inetAton (b.fill ((fields isspace line).take 4)).gw with
      | none => rfl
      | some gw =>
          cases inetAton (b.fill ((fields isspace line).take 4)).mask with
          | none => rfl
          | some mask => rfl

/-- Once the table is cleared the loop only appends, and returns 0 after one node a line. -/
theorem srLoadRtLoop_appends (file : RtFile text) (lns : List Bytes)
    (hlines : ∀ line ∈ lns, line <:+: text) (b : RtBuffers) (brk : Nat) (table : List SrRtNode) :
    ∃ ret added, srLoadRtLoop lns b true brk table = .ok (ret, table ++ added) ∧
      (ret = 0 ∧ added.length = lns.length ∨ ret = -1) := by
  induction lns generalizing b brk table with
  | nil => exact ⟨0, [], by simp [srLoadRtLoop], .inl ⟨rfl, rfl⟩⟩
  | cons line rest ih =>
      rw [srLoadRtLoop_cons file (hlines line List.mem_cons_self)]
      split
      · exact ⟨-1, [], by simp, .inr rfl⟩
      · next entry _ =>
        obtain ⟨ret, added, hloop, hret⟩ := ih (fun l hl => hlines l (List.mem_cons_of_mem _ hl))
          (b.fill ((fields isspace line).take 4)) (brk + 1) (table ++ [⟨brk, entry⟩])
        refine ⟨ret, ⟨brk, entry⟩ :: added, ?_, ?_⟩
        · rw [if_pos rfl, hloop, List.append_assoc]
          rfl
        · rcases hret with ⟨hret, hlen⟩ | hret
          · exact .inl ⟨hret, by simp [hlen]⟩
          · exact .inr hret

/-- Good lines are loaded one by one. -/
theorem srLoadRtLoop_good (file : RtFile text) (lns : List Bytes)
    (hlines : ∀ line ∈ lns, line <:+: text ∧ (lineEntry line).isSome) (b : RtBuffers) (brk : Nat)
    (table : List SrRtNode) :
    ∃ added, srLoadRtLoop lns b true brk table = .ok (0, table ++ added) ∧
      added.map (fun node => some node.entry) = lns.map lineEntry := by
  induction lns generalizing b brk table with
  | nil => exact ⟨[], by simp [srLoadRtLoop], rfl⟩
  | cons line rest ih =>
      obtain ⟨hin, hgood⟩ := hlines line List.mem_cons_self
      obtain ⟨entry, hentry⟩ := Option.isSome_iff_exists.mp hgood
      rw [srLoadRtLoop_cons file hin, file.entry_fill hin b hgood, hentry]
      obtain ⟨added, hloop, hadded⟩ := ih (fun l hl => hlines l (List.mem_cons_of_mem _ hl))
        (b.fill ((fields isspace line).take 4)) (brk + 1) (table ++ [⟨brk, entry⟩])
      refine ⟨⟨brk, entry⟩ :: added, ?_, ?_⟩
      · show srLoadRtLoop rest _ true _ ((if true then table else []) ++ _) = _
        rw [if_pos rfl, hloop, List.append_assoc]
        rfl
      · rw [List.map_cons, List.map_cons, hadded, hentry]

end Loop

/-! ## When loading is faithful

Two cases: the first piece is refused, and then nothing has been touched; or it is accepted, and
then the old table is gone and all the lines have to be good. -/

/-- Every line fits in the buffer and has four fields with three valid addresses, and there is a
line unless there is no old table. -/
def AllLinesGood (text : Bytes) (before : List SrRtNode) : Prop :=
  (∀ line ∈ lines newline text, line.length ≤ bufsiz - 1 ∧ (lineEntry line).isSome) ∧
    (text = [] → before = [])

/-- Some line is bad, and the first thing `fgets` returns is refused already: `inet_aton` takes
one of the first three fields for no address, or what the stack held in place of a missing one. -/
def RefusedAtOnce (text : Bytes) (stack : RtBuffers) : Prop :=
  (∃ line ∈ lines newline text, lineEntry line = none) ∧
    ∃ first rest, fgets text = first :: rest ∧
      (stack.fill ((fields isspace first).take 4)).entry = none

section Faithful

variable {text : Bytes} {before : List SrRtNode} {stack : RtBuffers} {brk : Nat}

/-- As many pieces as lines. -/
theorem fgets_eq_lines_of_length (h : (fgets text).length = (lines newline text).length) :
    fgets text = lines newline text :=
  pieces_eq_lines_of_length (by decide) h

theorem fgets_eq_lines_iff :
    fgets text = lines newline text ↔ ∀ line ∈ lines newline text, line.length ≤ bufsiz - 1 :=
  pieces_eq_lines_iff (by decide)

/-- A first line that is accepted costs the old table; what follows is one node a line, or a
return with nodes that are not the old ones. -/
theorem srLoadRt_accepted (brk : Nat) (before : List SrRtNode) (file : RtFile text) {first : Bytes}
    {rest : List Bytes} {entry : SrRt}
    (hfgets : fgets text = first :: rest)
    (hentry : (stack.fill ((fields isspace first).take 4)).entry = some entry) :
    ∃ ret added, srLoadRt (some text) stack brk before = .ok (ret, ⟨brk, entry⟩ :: added) ∧
      (ret = 0 ∧ added.length = rest.length ∨ ret = -1) := by
  have hin : ∀ line ∈ first :: rest, line <:+: text := fun line hline =>
    infix_of_mem_fgets (hfgets ▸ hline)
  rw [srLoadRt, hfgets, srLoadRtLoop_cons file (hin first List.mem_cons_self), hentry]
  exact srLoadRtLoop_appends file rest (fun l hl => hin l (List.mem_cons_of_mem _ hl)) _ _ _

/-- A file of good lines that fit is loaded as a whole. -/
theorem srLoadRt_good (stack : RtBuffers) (brk : Nat) (file : RtFile text)
    (h : AllLinesGood text before) :
    ∃ table, srLoadRt (some text) stack brk before = .ok (0, table) ∧
      table.map (fun node => some node.entry) = (lines newline text).map lineEntry := by
  obtain ⟨hgood, hempty⟩ := h
  have hfgets : fgets text = lines newline text :=
    fgets_eq_lines_iff.mpr fun line hline => (hgood line hline).1
  cases hlines : lines newline text with
  | nil =>
      refine ⟨before, by rw [srLoadRt, hfgets, hlines]; rfl, ?_⟩
      rw [hempty (lines_eq_nil.mp hlines)]
      rfl
  | cons first rest =>
      have hline : ∀ line ∈ first :: rest, line <:+: text ∧ (lineEntry line).isSome := by
        intro line hline
        rw [← hlines] at hline
        exact ⟨infix_of_mem_fgets (hfgets ▸ hline), (hgood line hline).2⟩
      obtain ⟨hin, hfirst⟩ := hline first List.mem_cons_self
      obtain ⟨entry, hentry⟩ := Option.isSome_iff_exists.mp hfirst
      rw [srLoadRt, hfgets, hlines, srLoadRtLoop_cons file hin,
        file.entry_fill hin stack hfirst, hentry]
      obtain ⟨added, hloop, hadded⟩ := srLoadRtLoop_good file rest
        (fun l hl => hline l (List.mem_cons_of_mem _ hl)) _ (brk + 1) [⟨brk, entry⟩]
      refine ⟨_, hloop, ?_⟩
      rw [List.map_cons, hentry, ← hadded]
      rfl

/-- A refused first line leaves the table alone. -/
theorem srLoadRt_refused (file : RtFile text) {first : Bytes} {rest : List Bytes}
    (hfgets : fgets text = first :: rest)
    (hentry : (stack.fill ((fields isspace first).take 4)).entry = none) :
    srLoadRt (some text) stack brk before = .ok (-1, before) := by
  have hin : first <:+: text := infix_of_mem_fgets (by rw [hfgets]; exact List.mem_cons_self)
  rw [srLoadRt, hfgets, srLoadRtLoop_cons file hin, hentry]

theorem fgets_eq_nil : fgets text = [] ↔ text = [] := by
  constructor
  · intro h
    have hflat : (fgets text).flatten = text := flatten_pieces [] text
    rw [← hflat, h]
    rfl
  · rintro rfl
    rfl

/-- A faithful load of an accepted first line has read good lines only. -/
theorem allLinesGood_of_loaded {table : List SrRtNode}
    (hcount : table.length = (fgets text).length) (htext : text ≠ [])
    (hloaded : table.map (fun node => some node.entry) = (lines newline text).map lineEntry) :
    AllLinesGood text before := by
  have hlength := congrArg List.length hloaded
  rw [List.length_map, List.length_map, hcount] at hlength
  have hfit := fgets_eq_lines_iff.mp (fgets_eq_lines_of_length hlength)
  refine ⟨fun line hline => ⟨hfit line hline, ?_⟩, fun h => absurd h htext⟩
  have hmem : lineEntry line ∈ (lines newline text).map lineEntry := List.mem_map_of_mem hline
  rw [← hloaded] at hmem
  obtain ⟨node, -, hnode⟩ := List.mem_map.mp hmem
  rw [← hnode]
  rfl

/-- A load of good lines is faithful, whatever else is known of it. -/
theorem AllLinesGood.loadedFaithfully (file : RtFile text) (h : AllLinesGood text before)
    {r : Int × List SrRtNode} (hload : srLoadRt (some text) stack brk before = .ok r) :
    LoadedFaithfully text before r := by
  obtain ⟨table, htable, hloaded⟩ := srLoadRt_good stack brk file h
  cases htable.symm.trans hload
  exact .inl ⟨rfl, hloaded⟩

/-- An empty file is faithful to an empty table only. -/
theorem loadedFaithfully_empty (before : List SrRtNode) (stack : RtBuffers) :
    LoadedFaithfully [] before (0, before) ↔ AllLinesGood [] before ∨ RefusedAtOnce [] stack := by
  constructor
  · rintro (⟨-, hloaded⟩ | ⟨hret, -, -⟩)
    · refine .inl ⟨?_, fun _ => List.map_eq_nil_iff.mp hloaded⟩
      intro line hline
      cases hline
    · cases hret
  · rintro (⟨-, hempty⟩ | ⟨-, first, rest, hcons, -⟩)
    · rw [hempty rfl]
      exact .inl ⟨rfl, rfl⟩
    · cases hcons

/-- A first piece that is refused: all of the file would have had to be good. -/
theorem loadedFaithfully_refused (file : RtFile text) (brk : Nat) (before : List SrRtNode)
    {first : Bytes} {rest : List Bytes} (hfgets : fgets text = first :: rest)
    (hentry : (stack.fill ((fields isspace first).take 4)).entry = none) :
    LoadedFaithfully text before (-1, before) ↔
      AllLinesGood text before ∨ RefusedAtOnce text stack := by
  have hload : srLoadRt (some text) stack brk before = .ok (-1, before) :=
    srLoadRt_refused file hfgets hentry
  constructor
  · rintro (⟨hret, -⟩ | ⟨-, hbad, -⟩)
    · cases hret
    · exact .inr ⟨hbad, first, rest, hfgets, hentry⟩
  · rintro (h | ⟨hbad, -⟩)
    · exact h.loadedFaithfully file hload
    · exact .inr ⟨rfl, hbad, rfl⟩

/-- A first piece that is accepted costs the old table, so all of the file has to be good. -/
theorem loadedFaithfully_accepted (file : RtFile text) (old : ∀ node ∈ before, node.addr < brk)
    {first : Bytes} {rest : List Bytes} {entry : SrRt} (hfgets : fgets text = first :: rest)
    (hentry : (stack.fill ((fields isspace first).take 4)).entry = some entry) :
    ∃ r, srLoadRt (some text) stack brk before = .ok r ∧
      (LoadedFaithfully text before r ↔ AllLinesGood text before ∨ RefusedAtOnce text stack) := by
  obtain ⟨ret, added, hload, hret⟩ := srLoadRt_accepted brk before file hfgets hentry
  refine ⟨_, hload, ⟨?_, ?_⟩⟩
  · rintro (⟨hzero, hloaded⟩ | ⟨-, -, hsame⟩)
    · rcases hret with ⟨-, hlen⟩ | hret
      · have htext : text ≠ [] := by
          rintro rfl
          cases hfgets
        exact .inl (allLinesGood_of_loaded (by simp [hfgets, hlen]) htext hloaded)
      · rw [hret] at hzero
        cases hzero
    · -- the first node is a new one
      have hlt := old ⟨brk, entry⟩ (hsame ▸ List.mem_cons_self)
      exact absurd hlt (Nat.lt_irrefl brk)
  · rintro (h | ⟨-, first', rest', hcons, hrefused⟩)
    · exact h.loadedFaithfully file hload
    · rw [hfgets] at hcons
      cases hcons
      rw [hentry] at hrefused
      cases hrefused

/-- **When loading is faithful and atomic**: the file is good as a whole, or it is refused before
anything of it is taken over. -/
theorem loadedFaithfully_iff (file : RtFile text) (old : ∀ node ∈ before, node.addr < brk) :
    ∃ r, srLoadRt (some text) stack brk before = .ok r ∧
      (LoadedFaithfully text before r ↔
        AllLinesGood text before ∨ RefusedAtOnce text stack) := by
  cases hfgets : fgets text with
  | nil =>
      obtain rfl := fgets_eq_nil.mp hfgets
      exact ⟨(0, before), rfl, loadedFaithfully_empty before stack⟩
  | cons first rest =>
      cases hentry : (stack.fill ((fields isspace first).take 4)).entry with
      | none =>
          exact ⟨(-1, before), srLoadRt_refused file hfgets hentry,
            loadedFaithfully_refused file brk before hfgets hentry⟩
      | some entry => exact loadedFaithfully_accepted file old hfgets hentry

end Faithful

/-- The file `rtable`. -/
def rtableText : Bytes := nameBytes
  "10.0.1.100  10.0.1.100  255.255.255.255 eth3\n192.168.2.2 192.168.2.2 255.255.255.255 eth1
172.64.3.10  172.64.3.10  255.255.255.255 eth2\n"

/-- It is loaded over any table. -/
theorem loadedFaithfully_rtable : ∃ r,
    srLoadRt (some rtableText) ⟨[], [], [], []⟩ 1 [⟨0, hostRoute 0 "eth0"⟩] = .ok r ∧
      LoadedFaithfully rtableText [⟨0, hostRoute 0 "eth0"⟩] r := by
  have file : RtFile rtableText := ⟨by decide +kernel, by decide +kernel⟩
  obtain ⟨r, hr, hiff⟩ : ∃ r,
      srLoadRt (some rtableText) ⟨[], [], [], []⟩ 1 [⟨0, hostRoute 0 "eth0"⟩] = .ok r ∧
        (LoadedFaithfully rtableText [⟨0, hostRoute 0 "eth0"⟩] r ↔
          AllLinesGood rtableText [⟨0, hostRoute 0 "eth0"⟩] ∨
            RefusedAtOnce rtableText ⟨[], [], [], []⟩) := loadedFaithfully_iff file (by decide)
  exact ⟨r, hr, hiff.mpr (.inl ⟨by decide +kernel, by decide +kernel⟩)⟩

example : (srLoadRt (some rtableText) ⟨[], [], [], []⟩ 0 []).toOption.map
      (fun r => (r.1, r.2.map SrRtNode.entry))
    = some (0, rtableConfig.routingTable) := by
  decide +kernel

/-- A file that ends in a blank line. -/
def blankLineText : Bytes := nameBytes "10.0.1.100 10.0.1.100 255.255.255.255 eth3\n\n"

/-- The blank line is loaded as a second copy of the line before it. -/
theorem not_loadedFaithfully_blankLine :
    ¬ ∀ text before stack brk, RtFile text → (∀ node ∈ before, node.addr < brk) →
      ∃ r, srLoadRt (some text) stack brk before = .ok r ∧ LoadedFaithfully text before r := by
  intro h
  have file : RtFile blankLineText := ⟨by decide +kernel, by decide +kernel⟩
  obtain ⟨r, hr, hloaded⟩ := h blankLineText [] ⟨[], [], [], []⟩ 0 file (by decide)
  have hload : srLoadRt (some blankLineText) ⟨[], [], [], []⟩ 0 []
      = .ok (0, [⟨0, hostRoute (dotted 10 0 1 100) "eth3"⟩,
          ⟨1, hostRoute (dotted 10 0 1 100) "eth3"⟩]) := by
    decide +kernel
  cases hload.symm.trans hr
  rcases hloaded with ⟨-, hentries⟩ | ⟨hret, -⟩
  · exact absurd hentries (by decide +kernel)
  · cases hret

end NetworkProjects.Router
