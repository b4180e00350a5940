import NetworkProjects.Router.LoadRt
import NetworkProjects.Router.VnsMessages
import NetworkProjects.Lib.Decimal

/-!
# Printing the routing table

`sr_print_routing_table` and `sr_print_routing_entry` of `sr_rt.c`: a heading, and a line for each
entry with its addresses as `inet_ntoa` writes them.

The lines of the entries are a routing table again: `sr_load_rt` reads back the entries that were
printed. The heading is not an entry, so a listing as a whole is refused, before the table that is
there is touched.
-/

namespace NetworkProjects.Router

open NetworkProjects.Lib

/-- `'\t'`. -/
def tab : UInt8 := 9

/-- `inet_ntoa`: the bytes of the address in memory. -/
def inetNtoa (addr : InAddr) : Bytes :=
  [46].intercalate ((bytes32 addr).map fun byte => decimal byte.toNat)

/-- `sr_print_routing_entry`. -/
def srPrintRoutingEntry (entry : SrRt) : Bytes :=
  inetNtoa entry.dest ++ tab :: tab :: (inetNtoa entry.gw ++ tab :: (inetNtoa entry.mask
    ++ tab :: (nameBytes entry.interface ++ [newline])))

/-- `sr_print_routing_table`. -/
def srPrintRoutingTable : List SrRt → Bytes
  | [] => nameBytes " *warning* Routing table empty \n"
  | rtWalker :: next =>
      nameBytes "Destination\tGateway\t\tMask\tIface\n"
        ++ (rtWalker :: next).flatMap srPrintRoutingEntry

example : srPrintRoutingEntry (hostRoute (dotted 10 0 1 100) "eth3")
    = nameBytes "10.0.1.100\t\t10.0.1.100\t255.255.255.255\teth3\n" := by
  decide +kernel

/-! ## Addresses

`inet_ntoa` writes four decimal numbers without leading zeros, so `inet_aton` takes none of them for
octal. -/

section Addresses

theorem isdigit_eq_isDecimal (c : UInt8) : isdigit c = isDecimal c := by
  rw [isdigit, isDecimal, Bool.decide_and]

/-- A number is read to its end. -/
theorem strtoulDigits_of_digits {s : Bytes} (hs : ∀ c ∈ s, isDecimal c = true) (n : Nat) :
    strtoulDigits 10 n s = (s.foldl (fun n c => 10 * n + (c.toNat - 48)) n, []) := by
  induction s generalizing n with
  | nil => rfl
  | cons c s ih =>
      have hc := hs c List.mem_cons_self
      have hrange := isDecimal_iff.mp hc
      have hvalue : digitValue c = some (c.toNat - 48) := by
        rw [digitValue, if_pos (by rw [isdigit_eq_isDecimal, hc])]
      rw [strtoulDigits, hvalue]
      dsimp only
      rw [if_pos (by omega), ih fun x hx => hs x (List.mem_cons_of_mem c hx), List.foldl_cons,
        Nat.mul_comm n 10]

/-- So nothing is taken for an octal number. -/
theorem strtoul_decimal (n : Nat) : strtoul (decimal n) = (n, []) := by
  by_cases hn : n = 0
  · subst hn
    rfl
  · obtain ⟨c, rest, hdecimal, hc⟩ := head_decimal hn
    have hten : strtoul (c :: rest) = strtoulDigits 10 0 (c :: rest) := by
      unfold strtoul
      split
      · next heq => exact absurd (List.cons.inj heq).1 hc
      · next heq => exact absurd (List.cons.inj heq).1 hc
      · rfl
    rw [hdecimal, hten, ← hdecimal, strtoulDigits_of_digits (isDecimal_decimal n)]
    exact congrArg (·, []) (decimalValue_decimal n)

theorem inetPart_decimal (n : Nat) : inetPart (decimal n) = some n := by
  have hfirst : isdigit (byteAt (decimal n) 0) = true := by
    cases hdecimal : decimal n with
    | nil => exact absurd hdecimal (decimal_ne_nil n)
    | cons c rest =>
        rw [isdigit_eq_isDecimal]
        exact isDecimal_decimal n c (hdecimal ▸ List.mem_cons_self)
  rw [inetPart, if_pos hfirst, strtoul_decimal]

/-- An address is digits and dots. -/
theorem mem_inetNtoa {addr : InAddr} {c : UInt8} (h : c ∈ inetNtoa addr) :
    isDecimal c = true ∨ c = 46 := by
  simp only [inetNtoa, bytes32, List.map_cons, List.map_nil, List.intercalate, List.intersperse,
    List.flatten_cons, List.flatten_nil, List.append_nil, List.mem_append,
    List.mem_singleton] at h
  rcases h with h | h | h | h | h | h | h
  · exact .inl (isDecimal_decimal _ c h)
  · exact .inr h
  · exact .inl (isDecimal_decimal _ c h)
  · exact .inr h
  · exact .inl (isDecimal_decimal _ c h)
  · exact .inr h
  · exact .inl (isDecimal_decimal _ c h)

theorem not_isspace_inetNtoa {addr : InAddr} {c : UInt8} (h : c ∈ inetNtoa addr) :
    isspace c = false := by
  rcases mem_inetNtoa h with hdigit | rfl
  · have hrange := isDecimal_iff.mp hdigit
    rw [isspace, Bool.or_eq_false_iff, beq_eq_false_iff_ne, Bool.and_eq_false_imp]
    refine ⟨fun h => ?_, fun _ => decide_eq_false fun h => ?_⟩
    · subst h
      simp only [UInt8.reduceToNat] at hrange
      omega
    · have hle := UInt8.le_iff_toNat_le.mp h
      simp only [UInt8.reduceToNat] at hle
      omega
  · rfl

/-- **An address is read back** from the four numbers that `inet_ntoa` has written. -/
theorem inetAton_inetNtoa (addr : InAddr) : inetAton (inetNtoa addr) = some addr := by
  have hall : (inetNtoa addr).takeWhile (fun c => !isspace c) = inetNtoa addr := by
    rw [List.takeWhile_eq_self_iff]
    intro c hc
    rw [not_isspace_inetNtoa hc, Bool.not_false]
  have hsplit : (inetNtoa addr).splitOnP (fun c => c == 46)
      = (bytes32 addr).map fun byte => decimal byte.toNat := by
    have hdot : ∀ part ∈ (bytes32 addr).map fun byte => decimal byte.toNat, (46 : UInt8) ∉ part := by
      intro part hpart h
      obtain ⟨byte, -, rfl⟩ := List.mem_map.mp hpart
      exact absurd (isDecimal_decimal byte.toNat 46 h) (by decide)
    rw [← List.splitOn_eq_splitOnP]
    exact List.splitOn_intercalate 46 hdot (List.cons_ne_nil _ _)
  have hparts : ((bytes32 addr).map fun byte => decimal byte.toNat).mapM inetPart
      = some ((bytes32 addr).map UInt8.toNat) := by
    simp only [bytes32, List.map_cons, List.map_nil, List.mapM_cons, List.mapM_nil,
      inetPart_decimal]
    rfl
  obtain ⟨a, b, c, d, ha, hb, hc, hd, haddr⟩ := ByteOrder.exists_bytes addr
  have hbytes : (bytes32 addr).map UInt8.toNat = [a, b, c, d] := by
    simp only [bytes32, List.map_cons, List.map_nil, UInt8.toNat_ofNat', haddr, Nat.reducePow]
    have h0 : (a + 256 * b + 65536 * c + 16777216 * d) % 256 = a := by omega
    have h1 : (a + 256 * b + 65536 * c + 16777216 * d) / 256 % 256 = b := by omega
    have h2 : (a + 256 * b + 65536 * c + 16777216 * d) / 65536 % 256 = c := by omega
    have h3 : (a + 256 * b + 65536 * c + 16777216 * d) / 16777216 % 256 = d := by omega
    rw [h0, h1, h2, h3]
  -- four numbers below 256 are accepted as they stand
  have hnumber : inetParts [a, b, c, d] = some (a * 2 ^ 24 + b * 2 ^ 16 + c * 2 ^ 8 + d) := by
    rw [inetParts, if_pos ⟨ha, hb, hc, hd⟩]
  rw [inetAton, hall, hsplit, hparts, hbytes, Option.bind_some, hnumber, Option.map_some]
  have hword : (UInt32.ofNat (a * 2 ^ 24 + b * 2 ^ 16 + c * 2 ^ 8 + d)).toNat
      = d + 256 * c + 65536 * b + 16777216 * a := by
    rw [UInt32.toNat_ofNat', Nat.mod_eq_of_lt (by omega)]
    omega
  congr 1
  apply UInt32.toNat_inj.mp
  rw [ByteOrder.toNat_htonl_little hd hc hb ha hword, haddr]

end Addresses

/-! ## Entries

A printed line has four fields and is short, if the interface has a name that `%s` can read. -/

/-- A name that `%s` reads as one field of at most 31 characters. -/
def PrintableName (name : String) : Prop :=
  ∃ bs : Bytes, name = nameText bs ∧ bs ≠ [] ∧ bs.length ≤ 31 ∧ 0 ∉ bs ∧
    ∀ c ∈ bs, isspace c = false

section Entries

variable {entry : SrRt}

theorem length_inetNtoa_le (addr : InAddr) : (inetNtoa addr).length ≤ 15 := by
  have hbyte : ∀ byte : UInt8, (decimal byte.toNat).length ≤ 3 := fun byte =>
    length_decimal_le (by decide) (Nat.lt_trans byte.toNat_lt (by decide))
  simp only [inetNtoa, bytes32, List.map_cons, List.map_nil, List.intercalate, List.intersperse,
    List.flatten_cons, List.flatten_nil, List.length_append, List.length_cons, List.length_nil]
  have h0 := hbyte (UInt8.ofNat addr.toNat)
  have h1 := hbyte (UInt8.ofNat (addr.toNat / 256))
  have h2 := hbyte (UInt8.ofNat (addr.toNat / 65536))
  have h3 := hbyte (UInt8.ofNat (addr.toNat / 16777216))
  omega

theorem fields_inetNtoa (addr : InAddr) : fields isspace (inetNtoa addr) = [inetNtoa addr] := by
  apply fields_of_forall_not _ fun c hc => not_isspace_inetNtoa hc
  intro h
  have hread := inetAton_inetNtoa addr
  rw [h] at hread
  cases hread

/-- The fields of a printed line, and of what follows it. -/
theorem fields_srPrintRoutingEntry (entry : SrRt) (hname : PrintableName entry.interface)
    (more : Bytes) :
    fields isspace (srPrintRoutingEntry entry ++ more)
      = [inetNtoa entry.dest, inetNtoa entry.gw, inetNtoa entry.mask, nameBytes entry.interface]
        ++ fields isspace more := by
  obtain ⟨bs, hbs, hne, -, -, hfield⟩ := hname
  have hiface : fields isspace (nameBytes entry.interface) = [nameBytes entry.interface] := by
    rw [hbs, nameBytes_nameText]
    exact fields_of_forall_not hne hfield
  have htab : isspace tab = true := rfl
  have hsecond := fields_append_cons [] (inetNtoa entry.gw ++ tab :: (inetNtoa entry.mask
    ++ tab :: (nameBytes entry.interface ++ newline :: more))) htab
  rw [List.nil_append] at hsecond
  simp only [srPrintRoutingEntry, List.append_assoc, List.cons_append, List.nil_append]
  rw [fields_append_cons _ _ htab, hsecond, fields_append_cons _ _ htab,
    fields_append_cons _ _ htab, fields_append_cons _ _ (by rfl : isspace newline = true)]
  simp only [fields_inetNtoa, hiface]
  rfl

/-- **A printed line is an entry again**, if the name of the interface can be read as a field. -/
theorem lineEntry_srPrintRoutingEntry (hname : PrintableName entry.interface) :
    lineEntry (srPrintRoutingEntry entry) = some entry := by
  have hfields := fields_srPrintRoutingEntry entry hname []
  obtain ⟨bs, hbs, -⟩ := hname
  rw [List.append_nil] at hfields
  rw [lineEntry, hfields]
  simp only [List.cons_append, inetAton_inetNtoa, hbs, nameBytes_nameText]
  rw [← hbs]
  rfl

/-- A printed line is one line, and short. -/
theorem srPrintRoutingEntry_line (hname : PrintableName entry.interface) :
    ∃ front, srPrintRoutingEntry entry = front ++ [newline] ∧ newline ∉ front ∧ 0 ∉ front ∧
      front.length ≤ 80 := by
  obtain ⟨bs, hbs, -, hlen, hnul, hfield⟩ := hname
  refine ⟨inetNtoa entry.dest ++ tab :: tab :: (inetNtoa entry.gw ++ tab :: (inetNtoa entry.mask
    ++ tab :: bs)), ?_, ?_, ?_, ?_⟩
  · simp only [srPrintRoutingEntry, hbs, nameBytes_nameText, List.append_assoc, List.cons_append]
  · have haddr : ∀ addr, newline ∉ inetNtoa addr := fun addr h =>
      absurd (not_isspace_inetNtoa h) (by decide)
    have hbs' : newline ∉ bs := fun h => absurd (hfield newline h) (by decide)
    have htab : newline ≠ tab := by decide
    simp only [List.mem_append, List.mem_cons, not_or]
    exact ⟨haddr _, htab, htab, haddr _, htab, haddr _, htab, hbs'⟩
  · have haddr : ∀ addr, (0 : UInt8) ∉ inetNtoa addr := fun addr h =>
      absurd (mem_inetNtoa h) (by decide)
    have htab : (0 : UInt8) ≠ tab := by decide
    simp only [List.mem_append, List.mem_cons, not_or]
    exact ⟨haddr _, htab, htab, haddr _, htab, haddr _, htab, hnul⟩
  · have hdest := length_inetNtoa_le entry.dest
    have hgw := length_inetNtoa_le entry.gw
    have hmask := length_inetNtoa_le entry.mask
    simp only [List.length_append, List.length_cons]
    omega

variable {table : List SrRt}

theorem lines_printed (hnames : ∀ rt ∈ table, PrintableName rt.interface) :
    lines newline (table.flatMap srPrintRoutingEntry) = table.map srPrintRoutingEntry := by
  have hall : ∀ line ∈ table.map srPrintRoutingEntry, IsLine newline line := by
    intro line hline
    obtain ⟨rt, hrt, rfl⟩ := List.mem_map.mp hline
    obtain ⟨front, hfront, hnl, -, -⟩ := srPrintRoutingEntry_line (hnames rt hrt)
    exact ⟨front, hfront, hnl⟩
  have hlines := lines_flatten_append hall []
  rwa [List.append_nil, lines, List.append_nil] at hlines

/-- The printed lines are a file with tokens that fit. -/
theorem rtFile_printed (hnames : ∀ rt ∈ table, PrintableName rt.interface) :
    RtFile (table.flatMap srPrintRoutingEntry) := by
  constructor
  · intro h
    obtain ⟨rt, hrt, hmem⟩ := List.mem_flatMap.mp h
    obtain ⟨front, hfront, -, hnul, -⟩ := srPrintRoutingEntry_line (hnames rt hrt)
    rw [hfront, List.mem_append] at hmem
    exact hmem.elim hnul (by decide)
  · induction table with
    | nil =>
        intro field hfield
        cases hfield
    | cons rt table ih =>
        have hname := hnames rt List.mem_cons_self
        rw [List.flatMap_cons, fields_srPrintRoutingEntry rt hname]
        intro field hfield
        rcases List.mem_append.mp hfield with hfield | hfield
        · have haddr : ∀ addr, (inetNtoa addr).length ≤ 31 := fun addr =>
            Nat.le_trans (length_inetNtoa_le addr) (by decide)
          obtain ⟨bs, hbs, -, hlen, -⟩ := hname
          rw [hbs, nameBytes_nameText] at hfield
          simp only [List.mem_cons, List.not_mem_nil, or_false] at hfield
          rcases hfield with rfl | rfl | rfl | rfl
          · exact haddr _
          · exact haddr _
          · exact haddr _
          · exact hlen
        · exact ih (fun rt' h => hnames rt' (List.mem_cons_of_mem rt h)) field hfield

theorem short_printed (hnames : ∀ rt ∈ table, PrintableName rt.interface) :
    ∀ line ∈ lines newline (table.flatMap srPrintRoutingEntry), line.length ≤ bufsiz - 1 := by
  rw [lines_printed hnames]
  intro line hline
  obtain ⟨rt, hrt, rfl⟩ := List.mem_map.mp hline
  obtain ⟨front, hfront, -, -, hlen⟩ := srPrintRoutingEntry_line (hnames rt hrt)
  rw [hfront, List.length_append, List.length_singleton, bufsiz]
  omega

/-- **The printed entries are loaded as they were**, in the same order, over whatever table is
there. -/
theorem srLoadRt_printed (hnames : ∀ rt ∈ table, PrintableName rt.interface) (hne : table ≠ [])
    (stack : RtBuffers) (brk : Nat) (before : List SrRtNode) :
    ∃ loaded, srLoadRt (some (table.flatMap srPrintRoutingEntry)) stack brk before
        = .ok (0, loaded) ∧
      loaded.map SrRtNode.entry = table := by
  have hgood : AllLinesGood (table.flatMap srPrintRoutingEntry) before := by
    constructor
    · intro line hline
      refine ⟨short_printed hnames line hline, ?_⟩
      rw [lines_printed hnames] at hline
      obtain ⟨rt, hrt, rfl⟩ := List.mem_map.mp hline
      rw [lineEntry_srPrintRoutingEntry (hnames rt hrt)]
      rfl
    · intro hempty
      have hlines := lines_printed hnames
      rw [hempty] at hlines
      exact absurd (List.map_eq_nil_iff.mp hlines.symm) hne
  obtain ⟨loaded, hload, hloaded⟩ := srLoadRt_good stack brk (rtFile_printed hnames) hgood
  refine ⟨loaded, hload, ?_⟩
  have hsome : (table.map srPrintRoutingEntry).map lineEntry = table.map some := by
    rw [List.map_map]
    exact List.map_congr_left fun rt hrt => lineEntry_srPrintRoutingEntry (hnames rt hrt)
  rw [lines_printed hnames, hsome] at hloaded
  have hinj := List.map_map (f := SrRtNode.entry) (g := some) (l := loaded)
  apply List.map_injective_iff.mpr (Option.some_injective SrRt)
  rw [hinj]
  exact hloaded

end Entries

/-! ## The heading

The first word of the heading is no address, so the loader refuses it before it drops the old table.
-/

section Heading

variable {table : List SrRt} {heading dest gw mask iface : Bytes}

/-- A heading whose first word is no address is refused, with all that is behind it. -/
theorem srLoadRt_heading (hnames : ∀ rt ∈ table, PrintableName rt.interface)
    (hnl : newline ∉ heading) (hnul : 0 ∉ heading) (hshort : heading.length < bufsiz - 1)
    (hfields : fields isspace heading = [dest, gw, mask, iface])
    (htokens : ∀ field ∈ [dest, gw, mask, iface], field.length ≤ 31)
    (hdest : inetAton dest = none) (stack : RtBuffers) (brk : Nat) (before : List SrRtNode) :
    srLoadRt (some (heading ++ newline :: table.flatMap srPrintRoutingEntry)) stack brk before
      = .ok (-1, before) := by
  have hprinted := rtFile_printed hnames
  have hspace : isspace newline = true := rfl
  have file : RtFile (heading ++ newline :: table.flatMap srPrintRoutingEntry) := by
    constructor
    · rw [List.mem_append, List.mem_cons, not_or, not_or]
      exact ⟨hnul, by decide, hprinted.noNul⟩
    · rw [fields_append_cons _ _ hspace, hfields]
      intro field hfield
      rcases List.mem_append.mp hfield with hfield | hfield
      · exact htokens field hfield
      · exact hprinted.tokens field hfield
  have hlines : lines newline (heading ++ newline :: table.flatMap srPrintRoutingEntry)
      = (heading ++ [newline]) :: lines newline (table.flatMap srPrintRoutingEntry) :=
    lines_append_nl hnl
  have hfgets : fgets (heading ++ newline :: table.flatMap srPrintRoutingEntry)
      = (heading ++ [newline]) :: lines newline (table.flatMap srPrintRoutingEntry) := by
    rw [← hlines]
    refine fgets_eq_lines_iff.mpr fun line hline => ?_
    rw [hlines] at hline
    rcases List.mem_cons.mp hline with rfl | hline
    · rw [List.length_append, List.length_singleton]
      omega
    · exact short_printed hnames line hline
  -- the heading is the first line, and it has no address in its first field
  apply srLoadRt_refused file hfgets
  have hfirst : fields isspace (heading ++ [newline]) = [dest, gw, mask, iface] := by
    rw [fields_append_cons heading [] hspace, hfields]
    rfl
  rw [hfirst]
  show RtBuffers.entry ⟨dest, gw, mask, iface⟩ = none
  rw [RtBuffers.entry, hdest]
  rfl

/-- **A listing is refused** because of its heading, and the table that is there stays. -/
theorem srLoadRt_srPrintRoutingTable (hnames : ∀ rt ∈ table, PrintableName rt.interface)
    (stack : RtBuffers) (brk : Nat) (before : List SrRtNode) :
    srLoadRt (some (srPrintRoutingTable table)) stack brk before = .ok (-1, before) := by
  cases table with
  | nil =>
      have hwords : fields isspace (nameBytes " *warning* Routing table empty ")
          = [nameBytes "*warning*", nameBytes "Routing", nameBytes "table", nameBytes "empty"] := by
        decide +kernel
      exact srLoadRt_heading hnames (by decide +kernel) (by decide +kernel) (by decide +kernel)
        hwords (by decide +kernel) (by decide +kernel) stack brk before
  | cons rtWalker next =>
      have hwords : fields isspace (nameBytes "Destination\tGateway\t\tMask\tIface")
          = [nameBytes "Destination", nameBytes "Gateway", nameBytes "Mask", nameBytes "Iface"] := by
        decide +kernel
      have hheading : srPrintRoutingTable (rtWalker :: next)
          = nameBytes "Destination\tGateway\t\tMask\tIface"
            ++ newline :: (rtWalker :: next).flatMap srPrintRoutingEntry := by
        rw [srPrintRoutingTable, show nameBytes "Destination\tGateway\t\tMask\tIface\n"
          = nameBytes "Destination\tGateway\t\tMask\tIface" ++ [newline] by decide +kernel,
          List.append_assoc]
        rfl
      rw [hheading]
      exact srLoadRt_heading hnames (by decide +kernel) (by decide +kernel) (by decide +kernel)
        hwords (by decide +kernel) (by decide +kernel) stack brk before

end Heading

/-! ## A table that was loaded

The names in a table that was loaded come from fields of a file, so they can be printed and read
again. -/

section Loaded

variable {text : Bytes} {before : List SrRtNode}

/-- The name on a good line can be printed. -/
theorem RtFile.printableName (file : RtFile text) {line : Bytes} (hline : line <:+: text)
    {entry : SrRt} (h : lineEntry line = some entry) : PrintableName entry.interface := by
  have hfit := fields_length_le file.tokens hline
  unfold lineEntry at h
  match hfields : fields isspace line with
  | dest :: gw :: mask :: iface :: more =>
      have hiface : iface ∈ fields isspace line := by rw [hfields]; simp
      rw [hfields] at h
      obtain ⟨dest', -, h⟩ := Option.bind_eq_some_iff.mp h
      obtain ⟨gw', -, h⟩ := Option.bind_eq_some_iff.mp h
      obtain ⟨mask', -, h⟩ := Option.bind_eq_some_iff.mp h
      cases h
      exact ⟨iface, rfl, ne_nil_of_mem_fields hiface, hfit iface hiface,
        fun hnul => file.noNul (hline.subset (mem_of_mem_fields hiface 0 hnul).1),
        fun c hc => (mem_of_mem_fields hiface c hc).2⟩
  | [] => simp [hfields] at h
  | [_] => simp [hfields] at h
  | [_, _] => simp [hfields] at h
  | [_, _, _] => simp [hfields] at h

/-- **A table that was loaded from a file of good lines** can be printed and loaded again: the
lines of the entries give the same entries, and the listing with its heading is refused. -/
theorem srLoadRt_reload (file : RtFile text) (good : AllLinesGood text before) (htext : text ≠ [])
    (stack : RtBuffers) (brk : Nat) :
    ∃ table, srLoadRt (some text) stack brk before = .ok (0, table) ∧
      ∀ stack' brk' before',
        srLoadRt (some (srPrintRoutingTable (table.map SrRtNode.entry))) stack' brk' before'
            = .ok (-1, before') ∧
          ∃ again,
            srLoadRt (some ((table.map SrRtNode.entry).flatMap srPrintRoutingEntry)) stack' brk'
                before' = .ok (0, again) ∧
              again.map SrRtNode.entry = table.map SrRtNode.entry := by
  obtain ⟨table, hload, htable⟩ := srLoadRt_good stack brk file good
  refine ⟨table, hload, fun stack' brk' before' => ?_⟩
  -- the names were read from the text, so they hold no space
  have hnames : ∀ rt ∈ table.map SrRtNode.entry, PrintableName rt.interface := by
    intro rt hrt
    obtain ⟨node, hnode, rfl⟩ := List.mem_map.mp hrt
    have hentry : some node.entry ∈ table.map fun node => some node.entry :=
      List.mem_map_of_mem hnode
    rw [htable] at hentry
    obtain ⟨line, hline, hread⟩ := List.mem_map.mp hentry
    have hpart : line <:+: text := by
      have hflat := flatten_lines newline text
      rw [← hflat]
      exact List.infix_of_mem_flatten hline
    exact file.printableName hpart hread
  have hne : table.map SrRtNode.entry ≠ [] := by
    intro h
    rw [List.map_eq_nil_iff.mp h] at htable
    exact htext (lines_eq_nil.mp (List.map_eq_nil_iff.mp htable.symm))
  exact ⟨srLoadRt_srPrintRoutingTable hnames stack' brk' before',
    srLoadRt_printed hnames hne stack' brk' before'⟩

end Loaded

/-- The table in `rtable` is printed and loaded again. -/
theorem srLoadRt_reload_rtable :
    ∃ table, srLoadRt (some rtableText) ⟨[], [], [], []⟩ 0 [] = .ok (0, table) ∧
      ∀ stack' brk' before',
        srLoadRt (some (srPrintRoutingTable (table.map SrRtNode.entry))) stack' brk' before'
            = .ok (-1, before') ∧
          ∃ again,
            srLoadRt (some ((table.map SrRtNode.entry).flatMap srPrintRoutingEntry)) stack' brk'
                before' = .ok (0, again) ∧
              again.map SrRtNode.entry = table.map SrRtNode.entry :=
  srLoadRt_reload ⟨by decide +kernel, by decide +kernel⟩ ⟨by decide +kernel, by decide +kernel⟩
    (by decide +kernel) ⟨[], [], [], []⟩ 0

end NetworkProjects.Router
