import NetworkProjects.Lib.Paths
import NetworkProjects.WebServer.Request

/-!
# The file that is opened (`server1.cpp`)

`file_open` takes the first character off the target, whatever it is, and passes the rest to
`fopen`; a target that ends with a slash gets `index.html` at its end. Slashes and dots in the
rest are left as they are, so the path is absolute if the second character is a slash, and leads
out of the working directory if there are more `..` than names in front of one of its slashes or
its end (`servedInside_iff`).
-/

namespace NetworkProjects.WebServer

open NetworkProjects.Lib

/-- `'/'`. -/
def slash : UInt8 := 47

/-- `"index.html"`. -/
def indexHtml : Bytes := [105, 110, 100, 101, 120, 46, 104, 116, 109, 108]

/-- What `file_open` passes to `fopen`. -/
def fileOpen (filename : Bytes) : Except Fault Bytes :=
  if filename = [slash] then .ok indexHtml
  else
    match filename.getLast? with
    | none => .error .emptyString
    | some back =>
        if back = slash then .ok ((filename ++ indexHtml).eraseIdx 0)
        else .ok (filename.eraseIdx 0)

/-! ## Paths -/

/-- A component of a path, as the file system takes it. -/
def move (component : Bytes) : Move Bytes :=
  if component = [46] then .stay
  else if component = [46, 46] then .up
  else .down component

/-- The components between the slashes. -/
def moves (path : Bytes) : List (Move Bytes) := (fields (· == slash) path).map move

/-- A path that starts with a slash starts at the root. -/
def Relative (path : Bytes) : Prop := path.head? ≠ some slash

instance (path : Bytes) : Decidable (Relative path) := inferInstanceAs (Decidable (_ ≠ _))

/-- The path is relative to the working directory, and no part of it leads above that directory. -/
structure StaysInside (path : Bytes) : Prop where
  relative : Relative path
  below : StaysBelow (moves path)

/-- What `file_open` should do with every target. -/
def ServedInside (target : Bytes) : Prop :=
  ∃ path, fileOpen target = .ok path ∧ StaysInside path

section Open

variable {target : Bytes}

theorem staysInside_balanced {path : Bytes} :
    StaysInside path ↔ Relative path ∧ Balanced 0 (moves path) := by
  rw [← staysBelow_iff]
  exact ⟨fun h => ⟨h.relative, h.below⟩, fun h => ⟨h.1, h.2⟩⟩

/-- A name behind the last slash does not lead anywhere else. -/
theorem staysInside_index {dir : Bytes} (hdir : ∀ c ∈ dir.getLast?, c = slash) :
    StaysInside (dir ++ indexHtml) ↔ StaysInside dir := by
  have hindex : fields (· == slash) indexHtml = [indexHtml] :=
    fields_of_forall_not (by decide) (by simp [indexHtml, slash])
  have hslash : ∀ front back : Bytes, fields (· == slash) (front ++ slash :: back)
      = fields (· == slash) front ++ fields (· == slash) back :=
    fun front back => fields_append_cons front back (by decide)
  have hempty : fields (· == slash) ([] : Bytes) = [] := rfl
  have hmoves : moves (dir ++ indexHtml) = moves dir ++ [.down indexHtml] := by
    rcases List.eq_nil_or_concat' dir with rfl | ⟨dir, c, rfl⟩
    · rw [List.nil_append, moves, moves, hindex]
      rfl
    · rw [hdir c List.getLast?_concat, List.append_assoc, List.singleton_append, moves, moves,
        hslash dir indexHtml, hslash dir [], hindex, hempty, List.append_nil, List.map_append]
      rfl
  have hhead : Relative (dir ++ indexHtml) ↔ Relative dir := by
    cases dir with
    | nil => simp [Relative, indexHtml, slash]
    | cons c dir => rfl
  rw [staysInside_balanced, staysInside_balanced, hmoves, balanced_snoc_down, hhead]

/-- The three branches: the path is what is behind the first character, up to a name behind the last
slash. -/
theorem fileOpen_cons (c : UInt8) (rest : Bytes) : fileOpen (c :: rest) =
    .ok (if rest.getLast?.getD c = slash then rest ++ indexHtml else rest) := by
  unfold fileOpen
  by_cases hroot : c :: rest = [slash]
  · cases hroot
    rfl
  · simp only [if_neg hroot, List.getLast?_cons]
    split
    · rfl
    · rfl

/-- **The path stays inside** if and only if there is a target, its second character is not a slash,
and what is behind the first character has never more `..` than names. -/
theorem servedInside_iff (target : Bytes) : ServedInside target ↔
    target ≠ [] ∧ Relative (target.drop 1) ∧ Balanced 0 (moves (target.drop 1)) := by
  rw [← staysInside_balanced, ServedInside]
  cases target with
  | nil => simp [fileOpen]
  | cons c rest =>
      have hinside : StaysInside
          (if rest.getLast?.getD c = slash then rest ++ indexHtml else rest) ↔
            StaysInside rest := by
        split
        · next hlast =>
          refine staysInside_index fun last hmem => ?_
          rwa [Option.mem_def.mp hmem, Option.getD_some] at hlast
        · rfl
      simp only [fileOpen_cons, Except.ok.injEq, exists_eq_left', hinside, List.drop_one,
        List.tail_cons, ne_eq, reduceCtorEq, not_false_eq_true, true_and]

end Open

/-- The absolute path `/x` is opened for `//x`, and `../x` for `/../x`. -/
theorem not_servedInside :
    (fileOpen [slash, slash, 120] = .ok [slash, 120] ∧ ¬ StaysInside [slash, 120]) ∧
    (fileOpen [slash, 46, 46, slash, 120] = .ok [46, 46, slash, 120] ∧
      ¬ StaysInside [46, 46, slash, 120]) ∧
    ¬ ∀ target : Bytes, 0 ∉ target → sp ∉ target → ServedInside target := by
  have habsolute : ¬ StaysInside [slash, 120] := fun h => h.relative rfl
  have habove : ¬ StaysInside [46, 46, slash, 120] := by
    rw [staysInside_balanced]
    decide
  refine ⟨⟨rfl, habsolute⟩, ⟨rfl, habove⟩, fun hall => ?_⟩
  obtain ⟨path, hopen, hinside⟩ := hall [slash, slash, 120] (by decide) (by decide)
  cases hopen
  exact habsolute hinside

/-! ## The child -/

/-- What the child passes to `fopen` when it has read a request. -/
def childPath (received : Bytes) : Except Fault Bytes :=
  match tokenise (readBuffer received) with
  | .error f => .error f
  | .ok request => fileOpen (target request)

/-- **The child serves a file from its directory** if and only if the words of the request fit in
the array and the second of them names one. -/
theorem childPath_inside_iff (received : Bytes) :
    (∃ path, childPath received = .ok path ∧ StaysInside path) ↔
      ∃ s, cstr (readBuffer received) = some s ∧ (words s).length ≤ requestSize ∧
        ServedInside (target (words s)) := by
  unfold childPath
  cases hs : cstr (readBuffer received) with
  | none => simp [tokenise_unended hs]
  | some s =>
      by_cases hroom : (words s).length ≤ requestSize
      · simp [tokenise_text hs, hroom, ServedInside]
      · simp [tokenise_text hs, hroom]

end NetworkProjects.WebServer
