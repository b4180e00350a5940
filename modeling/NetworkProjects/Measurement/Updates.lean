import NetworkProjects.Lib.Bytes
import NetworkProjects.Lib.Lines
import NetworkProjects.Lib.Run
import NetworkProjects.Lib.Tally

/-!
# Updates of three months (`q_2.py`)

For each month the script enters the prefixes of a RIB file into a dictionary, counts the updates
of these prefixes and adds up the counts, the largest first. The dictionary is global and is never
cleared, and in March `LenDict` is still that of February. So the figures of January are those of
the files of January, and the figures of the other two months never are (`independent_iff`).
-/

namespace NetworkProjects.Measurement

open NetworkProjects.Lib

/-! ## Files

The functions over a file, and the exceptions that end them. -/

inductive Month
  | jan
  | feb
  | mar
  deriving DecidableEq, Repr

/-- The files of a month: the RIB, and the updates of two hours in eight files. -/
structure MonthFiles where
  rib : Bytes
  updates : Fin 8 → Bytes

/-- The exceptions that end the script. -/
inductive PyError
  | indexError
  | zeroDivisionError
  deriving DecidableEq, Repr

/-- What `str.split` takes for whitespace. -/
def isWhite (c : UInt8) : Bool := c == 32 || (9 ≤ c && c ≤ 13)

/-- `line.split('|')`. -/
def splitBar (line : Bytes) : List Bytes := line.splitOnP fun c => c == 124

/-- `fields[5]`, without its whitespace. -/
def prefixField (line : Bytes) : Except PyError Bytes :=
  match (splitBar line)[5]? with
  | none => .error .indexError
  | some field => .ok (fields isWhite field).flatten

/-- `'.' in ip`. -/
def isIPv4 (ip : Bytes) : Bool := ip.contains 46

/-- What the three functions over a file have in common: `body` is for the lines of IPv4. -/
def forIPv4 {σ : Type} (body : σ → Bytes → σ) (s : σ) (file : Bytes) : Except PyError σ :=
  run (fun s line => do
    let ip ← prefixField line
    return if isIPv4 ip then body s ip else s) s (lines 10 file)

/-- `DictInit`. -/
def dictInit : Tally Bytes → Bytes → Except PyError (Tally Bytes) := forIPv4 Tally.enter

/-- `DictIPUpdate`. -/
def dictIPUpdate : Tally Bytes → Bytes → Except PyError (Tally Bytes) := forIPv4 Tally.bump

/-- `UpdateCount`. -/
def updateCount : Bytes → Except PyError Nat := forIPv4 (fun i _ => i + 1) 0

/-! ## The script

Three sections that differ in what they compute first. The global variables go from one section to
the next. -/

/-- `CountJan`, `CountFeb` or `CountMar`. -/
def monthCount (files : MonthFiles) : Except PyError Nat :=
  run (fun count k => return count + (← updateCount (files.updates k))) 0 (List.finRange 8)

/-- The dictionary after the files of a month. -/
def collect (dictIP : Tally Bytes) (files : MonthFiles) : Except PyError (Tally Bytes) := do
  let dictIP ← dictInit dictIP files.rib
  run (fun dictIP k => dictIPUpdate dictIP (files.updates k)) dictIP (List.finRange 8)

/-- What is added up for a month. -/
structure Stats where
  numOfUpdates : Nat
  totalUpdateCount : Nat
  numOfZeroUpdate : Nat
  /-- `UpdateCount`, now a variable: the updates of the most frequent prefixes. -/
  updateCount : Nat
  deriving DecidableEq, Repr

/-- A round of the loop over the ranked prefixes, of the `i` before it. `top i lenDict` is
`i<(LenDict*0.001)`, in floating point. -/
def rankStep (top : Nat → Nat → Bool) (lenDict : Nat) : Nat × Stats → Nat → Nat × Stats
  | (i, s), count =>
      (i + 1,
        { numOfUpdates := s.numOfUpdates + 1
          totalUpdateCount := s.totalUpdateCount + count
          numOfZeroUpdate := if count = 0 then s.numOfZeroUpdate + 1 else s.numOfZeroUpdate
          updateCount := if top (i + 1) lenDict then s.updateCount + count else s.updateCount })

/-- The loop over the ranked prefixes. Prefixes of the same count may come in any order. -/
def rankLoop (top : Nat → Nat → Bool) (lenDict : Nat) (dictIP : Tally Bytes) : Stats :=
  ((ranked dictIP.counts).foldl (rankStep top lenDict) (0, ⟨0, 0, 0, 0⟩)).2

/-- The two fractions that are printed for a month. -/
def printFractions (s : Stats) : Except PyError Unit :=
  if s.numOfUpdates = 0 then .error .zeroDivisionError
  else if s.totalUpdateCount = 0 then .error .zeroDivisionError
  else .ok ()

/-- The global variables that a section leaves to the next one. -/
structure Globals where
  dictIP : Tally Bytes
  lenDict : Nat

section Script

variable (top : Nat → Nat → Bool) (files : Month → MonthFiles)

def january : Except PyError (Globals × Stats) := do
  let dictIP ← collect Tally.empty (files .jan)
  let lenDict := dictIP.keys.length
  return (⟨dictIP, lenDict⟩, rankLoop top lenDict dictIP)

def february : Except PyError (Globals × Stats) := do
  let (globals, s) ← january top files
  printFractions s
  let dictIP ← collect globals.dictIP (files .feb)
  let lenDict := dictIP.keys.length
  return (⟨dictIP, lenDict⟩, rankLoop top lenDict dictIP)

/-- `LenDict` is not computed again. -/
def march : Except PyError (Globals × Stats) := do
  let (globals, s) ← february top files
  printFractions s
  let dictIP ← collect globals.dictIP (files .mar)
  return (⟨dictIP, globals.lenDict⟩, rankLoop top globals.lenDict dictIP)

/-- Part 2.2, as far as the figures of a month. -/
def monthSection : Month → Except PyError (Globals × Stats)
  | .jan => january top files
  | .feb => february top files
  | .mar => march top files

/-- What the script has added up for a month, if it comes to that. -/
def stats (m : Month) : Except PyError Stats := do
  let _ ← monthCount (files .jan)
  let _ ← monthCount (files .feb)
  let _ ← monthCount (files .mar)
  let (_, s) ← monthSection top files m
  return s

end Script

/-! ## The figures of a month -/

/-- The prefix that a line is about, if it is one of IPv4. -/
def ipv4Prefix (line : Bytes) : Option Bytes :=
  ((splitBar line)[5]?.map fun field => (fields isWhite field).flatten).filter isIPv4

def ipv4Prefixes (file : Bytes) : List Bytes := (lines 10 file).filterMap ipv4Prefix

def MonthFiles.ribPrefixes (files : MonthFiles) : List Bytes := ipv4Prefixes files.rib

def MonthFiles.updatePrefixes (files : MonthFiles) : List Bytes :=
  (List.finRange 8).flatMap fun k => ipv4Prefixes (files.updates k)

/-- The sum of those counts whose number is in the top, from `i` on. -/
def topCounts (top : Nat → Nat → Bool) (n i : Nat) (counts : List Nat) : Nat :=
  (((counts.zipIdx i).filter fun p => top p.2 n).map Prod.fst).sum

/-- What should be added up for a month with these files. -/
def monthSpec (top : Nat → Nat → Bool) (files : MonthFiles) : Stats where
  numOfUpdates := files.ribPrefixes.dedup.length
  totalUpdateCount := files.updatePrefixes.countP (· ∈ files.ribPrefixes)
  numOfZeroUpdate := files.ribPrefixes.dedup.countP (· ∉ files.updatePrefixes)
  updateCount := topCounts top files.ribPrefixes.dedup.length 1
    (ranked (files.ribPrefixes.dedup.map fun ip => files.updatePrefixes.count ip))

/-- Every line of the file has six fields. -/
def SixFields (file : Bytes) : Prop := ∀ line ∈ lines 10 file, 5 < (splitBar line).length

/-- The figures of a month are those of its files, and they stay when the files of other months are
replaced. -/
structure Independent (top : Nat → Nat → Bool) (files : Month → MonthFiles) (m : Month) :
    Prop where
  figures : stats top files m = .ok (monthSpec top (files m))
  replaced : ∀ files', (∀ m, SixFields (files' m).rib ∧ ∀ k, SixFields ((files' m).updates k)) →
    files' m = files m → stats top files' m = stats top files m

/-! ## Reading files

A file is read through if every line has its six fields, and then the loop has seen exactly the
prefixes of IPv4. -/

theorem prefixField_eq_ok {line ip : Bytes} : prefixField line = .ok ip ↔
    (splitBar line)[5]?.map (fun field => (fields isWhite field).flatten) = some ip := by
  rw [prefixField]
  cases (splitBar line)[5]? with
  | none => simp
  | some field => simp

section Reading

variable {σ : Type} {body : σ → Bytes → σ} {s t : σ}

/-- **A file is read through** if every line has six fields, and then `body` has seen its
prefixes. -/
theorem forIPv4_eq_ok {file : Bytes} : forIPv4 body s file = .ok t ↔
    SixFields file ∧ t = (ipv4Prefixes file).foldl body s := by
  rw [ipv4Prefixes, List.foldl_filterMap]
  apply run_checked
  intro s line t
  simp only [bind_eq_ok, prefixField_eq_ok, pure, Except.pure, Except.ok.injEq, ipv4Prefix]
  cases hfield : (splitBar line)[5]? with
  | none =>
      have hshort := List.getElem?_eq_none_iff.mp hfield
      simp
      omega
  | some field =>
      obtain ⟨hlong, -⟩ := List.getElem?_eq_some_iff.mp hfield
      simp only [hlong, true_and, Option.map_some, Option.some.injEq, exists_eq_left',
        Option.filter_some]
      cases isIPv4 (fields isWhite field).flatten with
      | true => exact eq_comm
      | false => exact eq_comm

/-- The same for several files. -/
theorem run_forIPv4_eq_ok {ι : Type} {file : ι → Bytes} {is : List ι} :
    run (fun s i => forIPv4 body s (file i)) s is = .ok t ↔
      (∀ i ∈ is, SixFields (file i)) ∧
        t = (is.flatMap fun i => ipv4Prefixes (file i)).foldl body s := by
  rw [List.foldl_flatMap]
  apply run_checked
  intro s i t
  exact forIPv4_eq_ok

end Reading

theorem monthCount_eq_ok {files : MonthFiles} {count : Nat} : monthCount files = .ok count ↔
    (∀ k, SixFields (files.updates k)) ∧ count = files.updatePrefixes.length := by
  have hfile : ∀ n k m, (do return n + (← updateCount (files.updates k))) = Except.ok m ↔
      SixFields (files.updates k) ∧ m = n + (ipv4Prefixes (files.updates k)).length := by
    intro n k m
    simp only [bind_eq_ok, updateCount, forIPv4_eq_ok, pure, Except.pure, Except.ok.injEq]
    simp [eq_comm]
  rw [monthCount, run_checked hfile, MonthFiles.updatePrefixes, List.length_flatMap,
    List.sum_eq_foldl, List.foldl_map]
  simp

theorem collect_eq_ok {files : MonthFiles} {d d' : Tally Bytes} : collect d files = .ok d' ↔
    (SixFields files.rib ∧ ∀ k, SixFields (files.updates k)) ∧
      d' = (d.enterAll files.ribPrefixes).bumpAll files.updatePrefixes := by
  have hall : (∀ k ∈ List.finRange 8, SixFields (files.updates k)) ↔
      ∀ k, SixFields (files.updates k) := by simp
  simp only [collect, dictInit, dictIPUpdate, bind_eq_ok, forIPv4_eq_ok, run_forIPv4_eq_ok, hall]
  constructor
  · rintro ⟨_, ⟨hrib, rfl⟩, hupdates, rfl⟩
    exact ⟨⟨hrib, hupdates⟩, rfl⟩
  · rintro ⟨⟨hrib, hupdates⟩, rfl⟩
    exact ⟨_, ⟨hrib, rfl⟩, hupdates, rfl⟩

/-! ## Adding up

The loop adds the counts in an order that Python does not fix, so what is added up must not depend
on it. -/

section Ranking

variable {top : Nat → Nat → Bool} {n : Nat}

theorem topCounts_cons (top : Nat → Nat → Bool) (n i count : Nat) (counts : List Nat) :
    topCounts top n i (count :: counts)
      = (if top i n then count else 0) + topCounts top n (i + 1) counts := by
  rw [topCounts, List.zipIdx_cons, List.filter_cons]
  split
  · rw [List.map_cons, List.sum_cons]
    rfl
  · rw [Nat.zero_add]
    rfl

/-- What the loop has added up behind these prefixes. -/
theorem foldl_rankStep (counts : List Nat) (i : Nat) (s : Stats) :
    counts.foldl (rankStep top n) (i, s) = (i + counts.length,
      { numOfUpdates := s.numOfUpdates + counts.length
        totalUpdateCount := s.totalUpdateCount + counts.sum
        numOfZeroUpdate := s.numOfZeroUpdate + counts.count 0
        updateCount := s.updateCount + topCounts top n (i + 1) counts }) := by
  induction counts generalizing i s with
  | nil => rfl
  | cons count counts ih =>
      rw [List.foldl_cons, rankStep, ih]
      simp only [topCounts_cons, List.length_cons, List.sum_cons, List.count_cons, beq_iff_eq,
        Prod.mk.injEq, Stats.mk.injEq]
      refine ⟨by omega, by omega, by omega, ?_, ?_⟩
      · split <;> omega
      · split <;> omega

/-- **The figures of a dictionary**: they do not depend on the order of its prefixes. -/
theorem rankLoop_of_perm {d : Tally Bytes} {counts : List Nat} (h : d.counts.Perm counts) :
    rankLoop top n d =
      { numOfUpdates := counts.length
        totalUpdateCount := counts.sum
        numOfZeroUpdate := counts.count 0
        updateCount := topCounts top n 1 (ranked counts) } := by
  have hperm := ranked_perm counts
  rw [rankLoop, ranked_eq_of_perm h, foldl_rankStep]
  simp only [Nat.zero_add, hperm.length_eq, hperm.sum_nat, hperm.count_eq]

theorem rankLoop_total (d : Tally Bytes) :
    (rankLoop top n d).totalUpdateCount = d.total := by
  rw [rankLoop_of_perm (List.Perm.refl d.counts)]
  rfl

end Ranking

/-! ## January -/

/-- A dictionary that is filled from these files only has their figures. -/
theorem rankLoop_collected (top : Nat → Nat → Bool) (files : MonthFiles) {d : Tally Bytes}
    (h : d = (Tally.empty.enterAll files.ribPrefixes).bumpAll files.updatePrefixes) :
    rankLoop top d.keys.length d = monthSpec top files := by
  subst h
  have hkeys := Tally.keys_enterAll_empty files.ribPrefixes
  have hcounts := Tally.counts_bumpAll_enterAll files.ribPrefixes files.updatePrefixes
  have htotal := Tally.total_bumpAll (Tally.empty.enterAll files.ribPrefixes) files.updatePrefixes
  have hsum : (files.ribPrefixes.dedup.map fun ip => files.updatePrefixes.count ip).sum
      = files.updatePrefixes.countP (· ∈ files.ribPrefixes) := by
    rw [← hcounts.sum_nat]
    refine htotal.trans ?_
    rw [Tally.total_enterAll]
    refine (Nat.zero_add _).trans (List.countP_congr fun ip _ => ?_)
    simp only [decide_eq_true_iff, hkeys.mem_iff, List.mem_dedup]
  have hzero : (files.ribPrefixes.dedup.map fun ip => files.updatePrefixes.count ip).count 0
      = files.ribPrefixes.dedup.countP (· ∉ files.updatePrefixes) := by
    rw [List.count, List.countP_map]
    refine List.countP_congr fun ip _ => ?_
    rw [Function.comp_apply, beq_iff_eq, List.count_eq_zero, decide_eq_true_eq]
  rw [rankLoop_of_perm hcounts, Tally.keys_bumpAll, hkeys.length_eq, hsum, hzero, List.length_map]
  rfl

/-! ## The sections

A later section starts with the dictionary that the one before has left, and the counts in it stay.
-/

section Sections

variable {top : Nat → Nat → Bool} {files : Month → MonthFiles} {m : Month} {g : Globals}
  {s : Stats}

theorem january_eq_ok : january top files = .ok (g, s) ↔
    ∃ d, collect .empty (files .jan) = .ok d ∧ g = ⟨d, d.keys.length⟩ ∧
      s = rankLoop top d.keys.length d := by
  simp only [january, bind_eq_ok, pure, Except.pure, Except.ok.injEq, Prod.mk.injEq,
    eq_comm (b := g), eq_comm (b := s)]

theorem printFractions_eq_ok {u : Unit} (h : printFractions s = .ok u) :
    s.totalUpdateCount ≠ 0 := by
  intro hzero
  rw [printFractions, if_pos hzero] at h
  split at h <;> cases h

/-- A section after another one, of which the fractions have been printed. -/
theorem section_cases {prev : Except PyError (Globals × Stats)} {files : MonthFiles}
    (len : Globals → Tally Bytes → Nat)
    (h : (do
      let (globals, s) ← prev
      printFractions s
      let d ← collect globals.dictIP files
      return (⟨d, len globals d⟩, rankLoop top (len globals d) d)) = Except.ok (g, s)) :
    ∃ g₀ s₀, prev = .ok (g₀, s₀) ∧ s₀.totalUpdateCount ≠ 0 ∧
      collect g₀.dictIP files = .ok g.dictIP ∧ s = rankLoop top g.lenDict g.dictIP ∧
        g.lenDict = len g₀ g.dictIP := by
  obtain ⟨⟨g₀, s₀⟩, hprev, h⟩ := bind_eq_ok.mp h
  obtain ⟨u, hprint, h⟩ := bind_eq_ok.mp h
  obtain ⟨d, hcollect, h⟩ := bind_eq_ok.mp h
  cases h
  exact ⟨g₀, s₀, hprev, printFractions_eq_ok hprint, hcollect, rfl, rfl⟩

/-- A later section starts with what the one before has left. -/
theorem monthSection_cases (h : monthSection top files m = .ok (g, s)) (hm : m ≠ .jan) :
    ∃ m₀ g₀ s₀, monthSection top files m₀ = .ok (g₀, s₀) ∧ s₀.totalUpdateCount ≠ 0 ∧
      collect g₀.dictIP (files m) = .ok g.dictIP ∧ s = rankLoop top g.lenDict g.dictIP := by
  cases m with
  | jan => exact absurd rfl hm
  | feb =>
      obtain ⟨g₀, s₀, hprev, hzero, hcollect, hs, -⟩ :=
        section_cases (fun _ d => d.keys.length) h
      exact ⟨.jan, g₀, s₀, hprev, hzero, hcollect, hs⟩
  | mar =>
      obtain ⟨g₀, s₀, hprev, hzero, hcollect, hs, -⟩ :=
        section_cases (fun globals _ => globals.lenDict) h
      exact ⟨.feb, g₀, s₀, hprev, hzero, hcollect, hs⟩

/-- What is added up in a section is what the dictionary holds after it. -/
theorem monthSection_total (h : monthSection top files m = .ok (g, s)) :
    s.totalUpdateCount = g.dictIP.total := by
  by_cases hm : m = .jan
  · subst hm
    obtain ⟨d, -, rfl, rfl⟩ := january_eq_ok.mp h
    exact rankLoop_total d
  · obtain ⟨-, -, -, -, -, -, rfl⟩ := monthSection_cases h hm
    exact rankLoop_total g.dictIP

/-- The counts in the dictionary stay, and those of the month come on top. -/
theorem total_collect_le {files : MonthFiles} {d d' : Tally Bytes}
    (h : collect d files = .ok d') :
    d.total + files.updatePrefixes.countP (· ∈ files.ribPrefixes) ≤ d'.total := by
  obtain ⟨-, rfl⟩ := collect_eq_ok.mp h
  rw [Tally.total_bumpAll, Tally.total_enterAll]
  apply Nat.add_le_add_left
  apply List.countP_mono_left
  intro ip _ hip
  simp only [decide_eq_true_iff, Tally.mem_keys_enterAll] at hip ⊢
  exact .inr hip

/-- **In a later month too much is added up**, by what the months before have left. -/
theorem lt_monthSection_total (h : monthSection top files m = .ok (g, s)) (hm : m ≠ .jan) :
    (monthSpec top (files m)).totalUpdateCount < s.totalUpdateCount := by
  have htotal := monthSection_total h
  obtain ⟨m₀, g₀, s₀, hprev, hzero, hcollect, -⟩ := monthSection_cases h hm
  have hprev := monthSection_total hprev
  have hle := total_collect_le hcollect
  rw [htotal]
  refine Nat.lt_of_lt_of_le ?_ hle
  simp only [monthSpec]
  omega

theorem mem_keys_collect {files : MonthFiles} {d d' : Tally Bytes}
    (h : collect d files = .ok d') {ip : Bytes} :
    ip ∈ d'.keys ↔ ip ∈ d.keys ∨ ip ∈ files.ribPrefixes := by
  obtain ⟨-, rfl⟩ := collect_eq_ok.mp h
  rw [Tally.keys_bumpAll, Tally.mem_keys_enterAll]

/-- **In March the top is that of another length**, unless the RIB of March has no new prefix. -/
theorem march_lenDict (h : march top files = .ok (g, s)) :
    g.lenDict = g.dictIP.keys.length ↔ ∀ ip ∈ (files .mar).ribPrefixes,
      ip ∈ (files .jan).ribPrefixes ∨ ip ∈ (files .feb).ribPrefixes := by
  obtain ⟨g₁, s₁, hfeb, -, hcollect, -, hlen⟩ :=
    section_cases (fun globals _ => globals.lenDict) h
  obtain ⟨g₀, s₀, hjan, -, hcollect₁, -, hlen₁⟩ :=
    section_cases (fun _ d => d.keys.length) hfeb
  obtain ⟨d, hcollect₀, rfl, -⟩ := january_eq_ok.mp hjan
  have hkeys : ∀ ip, ip ∈ g₁.dictIP.keys ↔
      ip ∈ (files .jan).ribPrefixes ∨ ip ∈ (files .feb).ribPrefixes := by
    intro ip
    rw [mem_keys_collect hcollect₁, mem_keys_collect hcollect₀]
    simp [Tally.keys, Tally.empty]
  obtain ⟨-, hd⟩ := collect_eq_ok.mp hcollect
  rw [hlen, hlen₁, hd, Tally.keys_bumpAll, eq_comm, Tally.length_keys_enterAll_iff]
  simp only [hkeys]

theorem stats_eq_ok : stats top files m = .ok s ↔
    (∀ m k, SixFields ((files m).updates k)) ∧ ∃ g, monthSection top files m = .ok (g, s) := by
  have hmonths : (∀ m k, SixFields ((files m).updates k)) ↔
      (∀ k, SixFields ((files .jan).updates k)) ∧ (∀ k, SixFields ((files .feb).updates k)) ∧
        ∀ k, SixFields ((files .mar).updates k) := by
    constructor
    · intro h
      exact ⟨h .jan, h .feb, h .mar⟩
    · rintro ⟨hjan, hfeb, hmar⟩ (_ | _ | _)
      · exact hjan
      · exact hfeb
      · exact hmar
  simp only [stats, bind_eq_ok, monthCount_eq_ok, pure, Except.pure, Except.ok.injEq, hmonths]
  constructor
  · rintro ⟨_, ⟨hjan, -⟩, _, ⟨hfeb, -⟩, _, ⟨hmar, -⟩, ⟨g, _⟩, hsection, rfl⟩
    exact ⟨⟨hjan, hfeb, hmar⟩, g, hsection⟩
  · rintro ⟨⟨hjan, hfeb, hmar⟩, g, hsection⟩
    exact ⟨_, ⟨hjan, rfl⟩, _, ⟨hfeb, rfl⟩, _, ⟨hmar, rfl⟩, _, hsection, rfl⟩

/-- **January**: the script adds up what it should, if it can read the files. -/
theorem stats_january (top : Nat → Nat → Bool) (files : Month → MonthFiles) :
    stats top files .jan = .ok s ↔
      (SixFields (files .jan).rib ∧ ∀ m k, SixFields ((files m).updates k)) ∧
        s = monthSpec top (files .jan) := by
  rw [stats_eq_ok]
  constructor
  · rintro ⟨hupdates, g, hsection⟩
    obtain ⟨d, hcollect, -, rfl⟩ := january_eq_ok.mp hsection
    obtain ⟨⟨hrib, -⟩, hd⟩ := collect_eq_ok.mp hcollect
    exact ⟨⟨hrib, hupdates⟩, rankLoop_collected top (files .jan) hd⟩
  · rintro ⟨⟨hrib, hupdates⟩, rfl⟩
    have hcollect := (collect_eq_ok (d := Tally.empty)).mpr ⟨⟨hrib, hupdates .jan⟩, rfl⟩
    exact ⟨hupdates, _, january_eq_ok.mpr
      ⟨_, hcollect, rfl, (rankLoop_collected top (files .jan) rfl).symm⟩⟩

end Sections

/-- **The statistics of a month are its own** if and only if the month is January, and its files and
the updates of the others have their six fields. -/
theorem independent_iff (top : Nat → Nat → Bool) (files : Month → MonthFiles) (m : Month) :
    Independent top files m ↔
      m = .jan ∧ SixFields (files .jan).rib ∧ ∀ m k, SixFields ((files m).updates k) := by
  constructor
  · rintro ⟨hfigures, -⟩
    have hjan : m = .jan := by
      by_contra hm
      obtain ⟨-, g, hsection⟩ := stats_eq_ok.mp hfigures
      exact Nat.lt_irrefl _ (lt_monthSection_total hsection hm)
    subst hjan
    exact ⟨rfl, ((stats_january top files).mp hfigures).1⟩
  · rintro ⟨rfl, hrib, hupdates⟩
    have hfigures := (stats_january top files).mpr ⟨⟨hrib, hupdates⟩, rfl⟩
    refine ⟨hfigures, ?_⟩
    intro files' hfiles' hsame
    have hfigures' := (stats_january top files').mpr
      ⟨⟨(hfiles' .jan).1, fun m => (hfiles' m).2⟩, rfl⟩
    rw [hfigures', hfigures, hsame]

/-- Files with one prefix and so many updates of it, in the first file of a month. -/
def oneIPv4 (updates : Nat) : MonthFiles where
  rib := [124, 124, 124, 124, 124, 49, 46, 48, 10]
  updates k :=
    if k = 0 then (List.replicate updates [124, 124, 124, 124, 124, 49, 46, 48, 10]).flatten
    else []

/-- One update in each month makes two in February, and when there are two in January, three. -/
theorem not_independent :
    stats (fun i n => 1000 * i < n) (fun _ => oneIPv4 1) .feb = .ok ⟨1, 2, 0, 0⟩ ∧
    stats (fun i n => 1000 * i < n) (fun m => oneIPv4 (if m = .jan then 2 else 1)) .feb
      = .ok ⟨1, 3, 0, 0⟩ ∧
    ¬ ∀ top files m, Independent top files m := by
  refine ⟨by decide +kernel, by decide +kernel, fun hall => ?_⟩
  have hfigures := (hall (fun i n => 1000 * i < n) (fun _ => oneIPv4 1) .feb).figures
  exact absurd hfigures (by decide +kernel)

end NetworkProjects.Measurement
