import Mathlib.Data.List.Infix
import Mathlib.Data.List.Basic

/-!
# Lines and fields of a text

`lines nl text` are the lines of a text, each with the `nl` that ends it; the last one may lack
it. A program that reads a text into a buffer of `n` characters gets `pieces n nl text`: a piece
ends with `nl` or when the buffer is full, so a line that does not fit comes in several pieces.
The pieces are the lines exactly when there are as many of them (`pieces_eq_lines`,
`lines_lt_pieces`).

`fields space text` are the longest runs without a space, in order.
-/

namespace NetworkProjects.Lib

/-! ## Lines

A text is the lines it is cut into, and only the last one may lack its end. -/

section Lines

variable {α : Type} [DecidableEq α]

/-- The lines of a text. -/
def lines (nl : α) : List α → List (List α)
  | [] => []
  | c :: rest =>
      if c = nl then [c] :: lines nl rest
      else
        match lines nl rest with
        | [] => [[c]]
        | line :: more => (c :: line) :: more

/-- The pieces in which a buffer of `n` characters gets a text; `cur` is in the buffer already. -/
def pieces (n : Nat) (nl : α) : List α → List α → List (List α)
  | cur, [] => if cur = [] then [] else [cur]
  | cur, c :: rest =>
      if c = nl ∨ cur.length + 1 = n then (cur ++ [c]) :: pieces n nl [] rest
      else pieces n nl (cur ++ [c]) rest

variable {nl : α}

theorem flatten_lines (nl : α) (text : List α) : (lines nl text).flatten = text := by
  induction text with
  | nil => rfl
  | cons c rest ih =>
      rw [lines]
      split
      · rw [List.flatten_cons, ih]
        rfl
      · split
        · next hnil =>
          rw [hnil] at ih
          rw [← ih]
          rfl
        · next line more hcons =>
          rw [hcons] at ih
          rw [List.flatten_cons, List.cons_append, ← List.flatten_cons, ih]

theorem flatten_pieces {n : Nat} (cur text : List α) :
    (pieces n nl cur text).flatten = cur ++ text := by
  induction text generalizing cur with
  | nil =>
      rw [pieces]
      split
      · next hcur => simp [hcur]
      · simp
  | cons c rest ih =>
      rw [pieces]
      split
      · rw [List.flatten_cons, ih]
        simp
      · rw [ih]
        simp

theorem lines_eq_nil {text : List α} : lines nl text = [] ↔ text = [] := by
  constructor
  · intro h
    rw [← flatten_lines nl text, h]
    rfl
  · rintro rfl
    rfl

/-- What stands in front of the first line end belongs to the first line. -/
theorem lines_append {cur text : List α} (hcur : nl ∉ cur) (hne : cur ≠ []) :
    lines nl (cur ++ text) =
      (cur ++ (lines nl text).headD []) :: (lines nl text).tail := by
  induction cur with
  | nil => exact absurd rfl hne
  | cons c cur ih =>
      have hc : c ≠ nl := fun h => hcur (h ▸ List.mem_cons_self)
      have hrest : nl ∉ cur := fun h => hcur (List.mem_cons_of_mem _ h)
      rw [List.cons_append, lines, if_neg hc]
      by_cases hnil : cur = []
      · subst hnil
        rw [List.nil_append]
        cases lines nl text with
        | nil => rfl
        | cons line more => rfl
      · rw [ih hrest hnil]
        rfl

theorem lines_append_nl {cur text : List α} (hcur : nl ∉ cur) :
    lines nl (cur ++ nl :: text) = (cur ++ [nl]) :: lines nl text := by
  have hnl : lines nl (nl :: text) = [nl] :: lines nl text := by rw [lines, if_pos rfl]
  by_cases hne : cur = []
  · rw [hne, List.nil_append, hnl]
    rfl
  · rw [lines_append hcur hne, hnl]
    rfl

/-- A line with its end. -/
def IsLine (nl : α) (line : List α) : Prop := ∃ front, line = front ++ [nl] ∧ nl ∉ front

/-- Lines that are put together are cut again. -/
theorem lines_flatten_append {head : List (List α)} (hhead : ∀ line ∈ head, IsLine nl line)
    (text : List α) : lines nl (head.flatten ++ text) = head ++ lines nl text := by
  induction head with
  | nil => rfl
  | cons line head ih =>
      obtain ⟨front, rfl, hfront⟩ := hhead line List.mem_cons_self
      rw [List.flatten_cons, List.append_assoc, List.append_assoc, List.singleton_append,
        lines_append_nl hfront, ih fun l hl => hhead l (List.mem_cons_of_mem _ hl)]
      rfl

/-- The lines in front of the first line `blank`, and the text behind it. -/
def headBody (nl : α) (blank text : List α) : List (List α) × List α :=
  ((lines nl text).takeWhile (· ≠ blank), ((lines nl text).dropWhile (· ≠ blank)).tail.flatten)

/-- **A head and a body are told apart**, whatever is in the body. -/
theorem headBody_append {head : List (List α)} {blank : List α}
    (hhead : ∀ line ∈ head, IsLine nl line ∧ line ≠ blank) (hblank : IsLine nl blank)
    (body : List α) : headBody nl blank (head.flatten ++ (blank ++ body)) = (head, body) := by
  have hlines : lines nl (head.flatten ++ (blank ++ body)) = head ++ blank :: lines nl body := by
    obtain ⟨front, rfl, hfront⟩ := hblank
    rw [lines_flatten_append fun line hline => (hhead line hline).1, List.append_assoc,
      List.singleton_append, lines_append_nl hfront]
  have hne : ∀ line ∈ head, decide (line ≠ blank) = true := fun line hline =>
    decide_eq_true (hhead line hline).2
  have htake : (blank :: lines nl body).takeWhile (fun line => decide (line ≠ blank)) = [] :=
    List.takeWhile_cons_of_neg (by simp)
  have hdrop : (blank :: lines nl body).dropWhile (fun line => decide (line ≠ blank))
      = blank :: lines nl body := List.dropWhile_cons_of_neg (by simp)
  rw [headBody, hlines, List.takeWhile_append_of_pos hne, List.dropWhile_append_of_pos hne, htake,
    hdrop, List.append_nil, List.tail_cons, flatten_lines]

theorem ne_nil_of_mem_lines {text line : List α} (h : line ∈ lines nl text) : line ≠ [] := by
  induction text generalizing line with
  | nil => cases h
  | cons c rest ih =>
      rw [lines] at h
      split at h
      · rcases List.mem_cons.mp h with rfl | h
        · simp
        · exact ih h
      · split at h
        · rw [List.mem_singleton.mp h]
          simp
        · next first more hcons =>
          rcases List.mem_cons.mp h with rfl | h
          · simp
          · exact ih (by rw [hcons]; exact List.mem_cons_of_mem _ h)

/-! ## Lines that fit in the buffer

A line that fits is one piece. A longer one makes more pieces than lines, so the number of the
pieces tells. -/

theorem length_le_of_mem_pieces {n : Nat} {cur text piece : List α} (hroom : cur.length < n)
    (h : piece ∈ pieces n nl cur text) : piece.length ≤ n := by
  induction text generalizing cur with
  | nil =>
      rw [pieces] at h
      split at h
      · cases h
      · rw [List.mem_singleton.mp h]
        omega
  | cons c rest ih =>
      rw [pieces] at h
      split at h
      · rcases List.mem_cons.mp h with rfl | h
        · simp
          omega
        · exact ih (by simp; omega) h
      · next hmore =>
        rw [not_or] at hmore
        exact ih (by simp; omega) h

/-- Either the pieces are the lines, or a line does not fit and there are more pieces. -/
theorem pieces_cases {n : Nat} (text : List α) {cur : List α} (hcur : nl ∉ cur)
    (hroom : cur.length < n) :
    pieces n nl cur text = lines nl (cur ++ text) ∨
      (lines nl (cur ++ text)).length < (pieces n nl cur text).length ∧
        ∃ line ∈ lines nl (cur ++ text), n < line.length := by
  induction text generalizing cur with
  | nil =>
      left
      rw [pieces]
      split
      · next hnil =>
        rw [hnil]
        rfl
      · next hne =>
        rw [lines_append hcur hne]
        simp [lines]
  | cons c rest ih =>
      -- after a newline, and after a full buffer, `fgets` starts again with nothing read
      have hempty := ih (show nl ∉ [] from List.not_mem_nil) (by simp; omega)
      rw [List.nil_append] at hempty
      by_cases hc : c = nl
      · subst hc
        rw [lines_append_nl hcur, pieces, if_pos (.inl rfl)]
        rcases hempty with heq | ⟨hlt, line, hline, hlong⟩
        · exact .inl (by rw [heq])
        · exact .inr ⟨by simpa using hlt, line, List.mem_cons_of_mem _ hline, hlong⟩
      · have hcur' : nl ∉ cur ++ [c] := by
          simp only [List.mem_append, List.mem_singleton, not_or]
          exact ⟨hcur, Ne.symm hc⟩
        have hassoc : cur ++ c :: rest = (cur ++ [c]) ++ rest := by simp
        rw [hassoc, pieces]
        by_cases hfull : cur.length + 1 = n
        · -- the buffer is full; what is left of the line, if anything, makes another piece
          rw [if_pos (.inr hfull), lines_append hcur' (by simp)]
          cases hlines : lines nl rest with
          | nil =>
              left
              rw [lines_eq_nil.mp hlines]
              simp [pieces]
          | cons line more =>
              right
              have hmem : line ∈ lines nl rest := by
                rw [hlines]
                exact List.mem_cons_self
              have hline : line ≠ [] := ne_nil_of_mem_lines hmem
              have hpos := List.length_pos_iff.mpr hline
              have hcount : (lines nl rest).length ≤ (pieces n nl [] rest).length := by
                rcases hempty with heq | ⟨hlt, -⟩
                · rw [heq]
                · exact Nat.le_of_lt hlt
              rw [hlines] at hcount
              refine ⟨Nat.succ_lt_succ hcount, _, List.mem_cons_self, ?_⟩
              simp only [List.headD_cons, List.length_append, List.length_singleton]
              omega
        · -- there is room, and the byte joins the piece that is being read
          rw [if_neg (by simp [hc, hfull])]
          exact ih hcur' (by simp; omega)

/-- A text is read line by line exactly when its lines fit. -/
theorem pieces_eq_lines_iff {n : Nat} {text : List α} (hn : 0 < n) :
    pieces n nl [] text = lines nl text ↔ ∀ line ∈ lines nl text, line.length ≤ n := by
  constructor
  · intro h line hline
    rw [← h] at hline
    exact length_le_of_mem_pieces (show ([] : List α).length < n from hn) hline
  · intro h
    rcases pieces_cases text (show nl ∉ [] from List.not_mem_nil) hn with
      heq | ⟨-, line, hline, hlong⟩
    · exact heq
    · have := h line hline
      omega

/-- As many pieces as lines are the lines. -/
theorem pieces_eq_lines_of_length {n : Nat} {text : List α} (hn : 0 < n)
    (h : (pieces n nl [] text).length = (lines nl text).length) :
    pieces n nl [] text = lines nl text := by
  rcases pieces_cases text (show nl ∉ [] from List.not_mem_nil) hn with
    heq | ⟨hlt, -⟩
  · exact heq
  · rw [List.nil_append] at hlt
    omega

end Lines

/-! ## Fields

The fields of a text that is put together from a text, a space and another text are those of the
two. -/

section Fields

variable {α : Type}

/-- The longest runs without a space. -/
def fields (space : α → Bool) (text : List α) : List (List α) :=
  (text.splitOnP space).filter fun run => !run.isEmpty

variable {space : α → Bool}

theorem ne_nil_of_mem_fields {text field : List α} (h : field ∈ fields space text) :
    field ≠ [] := by
  simp only [fields, List.mem_filter, Bool.not_eq_true', List.isEmpty_eq_false_iff] at h
  exact h.2

/-- A space ends a field. -/
theorem fields_append_cons (front back : List α) {c : α} (hc : space c = true) :
    fields space (front ++ c :: back) = fields space front ++ fields space back := by
  rw [fields, List.splitOnP_append_cons front back hc, List.filter_append]
  rfl

theorem fields_of_forall_not {text : List α} (hne : text ≠ []) (h : ∀ c ∈ text, space c = false) :
    fields space text = [text] := by
  rw [fields, List.splitOnP_eq_singleton h, List.filter_singleton,
    List.isEmpty_eq_false_iff.mpr hne]
  rfl

theorem fields_append_of_forall {lead : List α} (text : List α)
    (h : ∀ c ∈ lead, space c = true) : fields space (lead ++ text) = fields space text := by
  induction lead with
  | nil => rfl
  | cons c lead ih =>
      have hfirst := fields_append_cons [] (lead ++ text) (h c List.mem_cons_self)
      rw [List.nil_append] at hfirst
      rw [List.cons_append, hfirst, ih fun x hx => h x (List.mem_cons_of_mem _ hx)]
      rfl

theorem fields_of_forall {text : List α} (h : ∀ c ∈ text, space c = true) :
    fields space text = [] := by
  have hall := fields_append_of_forall [] h
  rwa [List.append_nil] at hall

/-- A text that starts with a field behind spaces. -/
theorem fields_token {lead field tail : List α} (hlead : ∀ c ∈ lead, space c = true)
    (hne : field ≠ []) (hfield : ∀ c ∈ field, space c = false)
    (htail : ∀ c ∈ tail.head?, space c = true) :
    fields space (lead ++ field ++ tail) = field :: fields space tail.tail := by
  have hone := fields_of_forall_not hne hfield
  rw [List.append_assoc, fields_append_of_forall _ hlead]
  cases tail with
  | nil => rw [List.append_nil, hone]; rfl
  | cons c tail => rw [fields_append_cons field tail (htail c rfl), hone]; rfl

/-- A run has no space in it, and is part of the text. -/
theorem mem_of_mem_splitOnP {text run : List α} (h : run ∈ text.splitOnP space) :
    ∀ c ∈ run, c ∈ text ∧ space c = false := by
  induction text generalizing run with
  | nil =>
      rw [List.splitOnP_nil, List.mem_singleton] at h
      subst h
      intro c hc
      cases hc
  | cons c text ih =>
      rw [List.splitOnP_cons_eq_if_modifyHead] at h
      have hmore : ∀ run ∈ text.splitOnP space, ∀ d ∈ run, d ∈ c :: text ∧ space d = false :=
        fun run hrun d hd => ⟨List.mem_cons_of_mem c (ih hrun d hd).1, (ih hrun d hd).2⟩
      split at h
      · rcases List.mem_cons.mp h with rfl | h
        · intro d hd
          cases hd
        · exact hmore run h
      · next hc =>
        cases hsplit : text.splitOnP space with
        | nil => exact absurd hsplit (List.splitOnP_ne_nil _ _)
        | cons first runs =>
            rw [hsplit] at h hmore
            rcases List.mem_cons.mp h with rfl | h
            · intro d hd
              rcases List.mem_cons.mp hd with rfl | hd
              · exact ⟨List.mem_cons_self, by simpa using hc⟩
              · exact hmore first List.mem_cons_self d hd
            · exact hmore run (List.mem_cons_of_mem first h)

/-- So is a field. -/
theorem mem_of_mem_fields {text field : List α} (h : field ∈ fields space text) :
    ∀ c ∈ field, c ∈ text ∧ space c = false :=
  mem_of_mem_splitOnP (List.mem_filter.mp h).1

/-- Reading on makes the runs longer, and more. -/
theorem splitOnP_append (space : α → Bool) (front back : List α) : ∃ first runs first' runs',
    front.splitOnP space = first :: runs ∧ (front ++ back).splitOnP space = first' :: runs' ∧
      first <+: first' ∧ ∀ run ∈ runs, ∃ run' ∈ runs', run <+: run' := by
  induction front with
  | nil =>
      cases hback : back.splitOnP space with
      | nil => exact absurd hback (List.splitOnP_ne_nil _ _)
      | cons first runs => exact ⟨[], [], first, runs, rfl, hback, List.nil_prefix, by simp⟩
  | cons c front ih =>
      obtain ⟨first, runs, first', runs', hfront, hwhole, hfirst, hruns⟩ := ih
      rw [List.cons_append, List.splitOnP_cons_eq_if_modifyHead,
        List.splitOnP_cons_eq_if_modifyHead, hfront, hwhole]
      by_cases hc : space c
      · rw [if_pos hc, if_pos hc]
        refine ⟨[], first :: runs, [], first' :: runs', rfl, rfl, List.nil_prefix, ?_⟩
        intro run hrun
        rcases List.mem_cons.mp hrun with rfl | hrun
        · exact ⟨first', List.mem_cons_self, hfirst⟩
        · obtain ⟨run', hmem, hpre⟩ := hruns run hrun
          exact ⟨run', List.mem_cons_of_mem _ hmem, hpre⟩
      · rw [if_neg hc, if_neg hc]
        exact ⟨c :: first, runs, c :: first', runs', rfl, rfl, by simpa using hfirst, hruns⟩

/-- A field of the front part is a field of the text, or the beginning of one. -/
theorem fields_append_left (back : List α) {front field : List α} (h : field ∈ fields space front) :
    ∃ field' ∈ fields space (front ++ back), field.length ≤ field'.length := by
  obtain ⟨first, runs, first', runs', hfront, hwhole, hfirst, hruns⟩ :=
    splitOnP_append space front back
  simp only [fields, List.mem_filter, hfront, hwhole, Bool.not_eq_true',
    List.isEmpty_eq_false_iff] at h ⊢
  obtain ⟨hmem, hne⟩ := h
  obtain ⟨field', hmem', hpre⟩ : ∃ field' ∈ first' :: runs', field <+: field' := by
    rcases List.mem_cons.mp hmem with rfl | hmem
    · exact ⟨first', List.mem_cons_self, hfirst⟩
    · obtain ⟨run', hrun', hpre⟩ := hruns field hmem
      exact ⟨run', List.mem_cons_of_mem _ hrun', hpre⟩
  refine ⟨field', ⟨hmem', ?_⟩, hpre.length_le⟩
  rintro rfl
  exact hne (List.prefix_nil.mp hpre)

/-- A field of the rest is a field of the text, or the end of one. -/
theorem fields_append_right (front : List α) {back field : List α} (h : field ∈ fields space back) :
    ∃ field' ∈ fields space (front ++ back), field.length ≤ field'.length := by
  induction front with
  | nil => exact ⟨field, h, Nat.le_refl _⟩
  | cons c front ih =>
      obtain ⟨field', hmem, hle⟩ := ih
      simp only [fields, List.mem_filter, Bool.not_eq_true', List.isEmpty_eq_false_iff] at hmem ⊢
      obtain ⟨hmem, hne⟩ := hmem
      rw [List.cons_append, List.splitOnP_cons_eq_if_modifyHead]
      split
      · exact ⟨field', ⟨List.mem_cons_of_mem _ hmem, hne⟩, hle⟩
      · cases hsplit : (front ++ back).splitOnP space with
        | nil => exact absurd hsplit (List.splitOnP_ne_nil _ _)
        | cons first runs =>
            rw [hsplit] at hmem
            rcases List.mem_cons.mp hmem with rfl | hmem
            · refine ⟨c :: field', ⟨List.mem_cons_self, by simp⟩, ?_⟩
              rw [List.length_cons]
              omega
            · exact ⟨field', ⟨List.mem_cons_of_mem _ hmem, hne⟩, hle⟩

/-- The fields of a part of the text are no longer than those of the text. -/
theorem fields_length_le {n : Nat} {text part : List α}
    (h : ∀ field ∈ fields space text, field.length ≤ n) (hpart : part <:+: text) :
    ∀ field ∈ fields space part, field.length ≤ n := by
  obtain ⟨front, back, rfl⟩ := hpart
  intro field hfield
  obtain ⟨field', hmem, hle⟩ := fields_append_right front hfield
  obtain ⟨field'', hmem', hle'⟩ := fields_append_left back hmem
  exact hle.trans (hle'.trans (h field'' hmem'))

end Fields

end NetworkProjects.Lib
