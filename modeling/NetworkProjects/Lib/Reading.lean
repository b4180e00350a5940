import NetworkProjects.Lib.Bytes

/-!
# Reading a stream that comes in pieces

A program that needs `n` bytes of a stream calls `recv` until it has them. A call may bring fewer
bytes than it asks for, or be interrupted by a signal, and how the stream is cut into pieces is
nobody's choice. `readExactly` is such a loop. What it returns, and what it leaves, is a function of
the text alone (`readExactly_eq`).

A stream of messages that say at their head how long they are is read so message by message. A
`Framing` is the rule for the length, `Framing.cut` is the cut of a text into messages, and the
reader takes the messages of the cut, one after another (`Framing.readMessage_eq`).
-/

namespace NetworkProjects.Lib

/-- What a call of `recv` finds: bytes that have arrived, or a signal. -/
inductive Arrival
  | bytes (bs : Bytes)
  | interrupted
  deriving DecidableEq, Repr

/-- The bytes that arrive. -/
def Arrival.text : Arrival → Bytes
  | .bytes bs => bs
  | .interrupted => []

/-- The text that is on its way. -/
def textOf (arrivals : List Arrival) : Bytes := arrivals.flatMap Arrival.text

@[simp] theorem textOf_nil : textOf [] = [] := rfl

@[simp] theorem textOf_interrupted (arrivals : List Arrival) :
    textOf (.interrupted :: arrivals) = textOf arrivals := rfl

@[simp] theorem textOf_bytes (bs : Bytes) (arrivals : List Arrival) :
    textOf (.bytes bs :: arrivals) = bs ++ textOf arrivals := rfl

/-- The loop that reads on until it has `n` bytes. Each call asks for what is missing, and takes it
from what has arrived; without any more arrivals the loop does not end. -/
def readExactly (n : Nat) (got : Bytes) : List Arrival → Option (Bytes × List Arrival)
  | [] => if n ≤ got.length then some (got, []) else none
  | .interrupted :: rest =>
      if n ≤ got.length then some (got, .interrupted :: rest) else readExactly n got rest
  | .bytes bs :: rest =>
      if n ≤ got.length then some (got, .bytes bs :: rest)
      else if bs.length ≤ n - got.length then readExactly n (got ++ bs) rest
      else some (got ++ bs.take (n - got.length), .bytes (bs.drop (n - got.length)) :: rest)

section ReadExactly

variable {n : Nat}

theorem readExactly_enough {got : Bytes} (h : n ≤ got.length) (arrivals : List Arrival) :
    readExactly n got arrivals = some (got, arrivals) := by
  cases arrivals with
  | nil => rw [readExactly, if_pos h]
  | cons arrival rest => cases arrival <;> rw [readExactly, if_pos h]

/-- **The loop returns the first `n` bytes of the text** and leaves the others, however they come.
-/
theorem readExactly_eq (got : Bytes) (arrivals : List Arrival) (hgot : got.length ≤ n) :
    if n ≤ (got ++ textOf arrivals).length then
      ∃ rest, readExactly n got arrivals = some ((got ++ textOf arrivals).take n, rest) ∧
        textOf rest = (got ++ textOf arrivals).drop n
    else readExactly n got arrivals = none := by
  by_cases hdone : n ≤ got.length
  · have hlen : got.length = n := Nat.le_antisymm hgot hdone
    rw [if_pos (by rw [List.length_append]; omega), readExactly_enough hdone]
    refine ⟨arrivals, ?_, ?_⟩
    · rw [← hlen, List.take_left]
    · rw [← hlen, List.drop_left]
  -- bytes are missing: each arrival gives some, and the last one that is needed may hold more
  induction arrivals generalizing got with
  | nil =>
      rw [textOf_nil, List.append_nil, if_neg hdone, readExactly, if_neg hdone]
  | cons arrival rest ih =>
      cases arrival with
      | interrupted =>
          -- an interrupted call has read nothing and is made again
          rw [textOf_interrupted, readExactly, if_neg hdone]
          exact ih got hgot hdone
      | bytes bs =>
          rw [textOf_bytes, readExactly, if_neg hdone]
          by_cases hfit : bs.length ≤ n - got.length
          · have hle : (got ++ bs).length ≤ n := by
              rw [List.length_append]
              omega
            rw [if_pos hfit, ← List.append_assoc]
            by_cases hfull : n ≤ (got ++ bs).length
            · have hlen : (got ++ bs).length = n := Nat.le_antisymm hle hfull
              rw [if_pos (by rw [List.length_append]; omega), readExactly_enough hfull]
              refine ⟨rest, ?_, ?_⟩
              · rw [← hlen, List.take_left]
              · rw [← hlen, List.drop_left]
            · exact ih (got ++ bs) hle hfull
          · -- what the arrival holds beyond the count stays in the socket for the next call
            rw [if_neg hfit, if_pos (by simp only [List.length_append]; omega)]
            have hleft : n - got.length ≤ bs.length := by omega
            have htake : (got ++ (bs ++ textOf rest)).take n = got ++ bs.take (n - got.length) := by
              rw [List.take_append, List.take_of_length_le hgot, List.take_append_of_le_length hleft]
            have hdrop : (got ++ (bs ++ textOf rest)).drop n
                = bs.drop (n - got.length) ++ textOf rest := by
              rw [List.drop_append, List.drop_of_length_le hgot, List.nil_append,
                List.drop_append_of_le_length hleft]
            exact ⟨.bytes (bs.drop (n - got.length)) :: rest, by rw [htake], hdrop.symm⟩

theorem readExactly_none (arrivals : List Arrival) :
    readExactly n [] arrivals = none ↔ (textOf arrivals).length < n := by
  have h := readExactly_eq (n := n) [] arrivals (Nat.zero_le n)
  rw [List.nil_append] at h
  constructor
  · intro hnone
    by_contra hlong
    rw [if_pos (Nat.not_lt.mp hlong)] at h
    obtain ⟨rest, hsome, -⟩ := h
    rw [hnone] at hsome
    cases hsome
  · intro hshort
    rwa [if_neg (Nat.not_le.mpr hshort)] at h

theorem readExactly_some {arrivals rest : List Arrival} {bs : Bytes}
    (h : readExactly n [] arrivals = some (bs, rest)) :
    n ≤ (textOf arrivals).length ∧ bs = (textOf arrivals).take n ∧
      textOf rest = (textOf arrivals).drop n := by
  have hlen : n ≤ (textOf arrivals).length := by
    by_contra hshort
    rw [(readExactly_none arrivals).mpr (Nat.not_le.mp hshort)] at h
    cases h
  have hspec := readExactly_eq (n := n) [] arrivals (Nat.zero_le n)
  rw [List.nil_append, if_pos hlen] at hspec
  obtain ⟨rest', hread, hrest⟩ := hspec
  rw [h] at hread
  cases hread
  exact ⟨hlen, rfl, hrest⟩

end ReadExactly

/-! ## Messages with their length at the head -/

/-- How long a message is, by its first `header` bytes; some lengths are refused. -/
structure Framing where
  header : Nat
  total : Bytes → Option Nat
  header_pos : 0 < header
  header_le : ∀ {head : Bytes} {n : Nat}, total head = some n → header ≤ n

namespace Framing

variable (F : Framing)

/-- What a reader finds at the front of a text. -/
inductive Next
  | message (m : Bytes) (rest : Bytes)
  | refused
  | incomplete
  deriving DecidableEq

/-- The front of a text. -/
def next (text : Bytes) : Next :=
  if text.length < F.header then .incomplete
  else
    match F.total (text.take F.header) with
    | none => .refused
    | some n => if text.length < n then .incomplete else .message (text.take n) (text.drop n)

theorem next_message {text m rest : Bytes} (h : F.next text = .message m rest) :
    text = m ++ rest ∧ F.total (m.take F.header) = some m.length := by
  rw [next] at h
  split at h
  · cases h
  · split at h
    · cases h
    · next n hn =>
      split at h
      · cases h
      · next hlong =>
        cases h
        have hlen : (text.take n).length = n := by
          rw [List.length_take]
          omega
        refine ⟨(List.take_append_drop n text).symm, ?_⟩
        rw [hlen, List.take_take, Nat.min_eq_left (F.header_le hn), hn]

theorem header_le_length {text m rest : Bytes} (h : F.next text = .message m rest) :
    F.header ≤ m.length := F.header_le (F.next_message h).2

theorem length_rest_lt {text m rest : Bytes} (h : F.next text = .message m rest) :
    rest.length < text.length := by
  have hle := F.header_le_length h
  have hpos := F.header_pos
  rw [(F.next_message h).1, List.length_append]
  omega

/-- A message at the front of a text is found. -/
theorem next_append {m : Bytes} (h : F.total (m.take F.header) = some m.length) (rest : Bytes) :
    F.next (m ++ rest) = .message m rest := by
  have hle := F.header_le h
  rw [next, if_neg (by rw [List.length_append]; omega), List.take_append_of_le_length hle, h]
  dsimp only
  rw [if_neg (by rw [List.length_append]; omega), List.take_left, List.drop_left]

/-- The messages of a text, and what is left behind them. -/
def cut (text : Bytes) : List Bytes × Bytes :=
  match _h : F.next text with
  | .message m rest => (m :: (cut rest).1, (cut rest).2)
  | .refused => ([], text)
  | .incomplete => ([], text)
termination_by text.length
decreasing_by all_goals exact F.length_rest_lt _h

theorem cut_message {text m rest : Bytes} (h : F.next text = .message m rest) :
    F.cut text = (m :: (F.cut rest).1, (F.cut rest).2) := by
  rw [cut]
  split
  · next h' =>
    rw [h] at h'
    cases h'
    rfl
  · next h' =>
    rw [h] at h'
    cases h'
  · next h' =>
    rw [h] at h'
    cases h'

theorem cut_stop {text : Bytes} (h : ∀ m rest, F.next text ≠ .message m rest) :
    F.cut text = ([], text) := by
  rw [cut]
  split
  · next m rest h' => exact absurd h' (h m rest)
  · rfl
  · rfl

/-- **The messages that were sent are the messages that are cut out**, as long as each of them says
how long it is; what follows them is cut on its own. -/
theorem cut_flatten (ms : List Bytes) (h : ∀ m ∈ ms, F.total (m.take F.header) = some m.length)
    (tail : Bytes) : F.cut (ms.flatten ++ tail) = (ms ++ (F.cut tail).1, (F.cut tail).2) := by
  induction ms with
  | nil => rfl
  | cons m ms ih =>
      rw [List.flatten_cons, List.append_assoc,
        F.cut_message (F.next_append (h m List.mem_cons_self) _),
        ih fun m' hm' => h m' (List.mem_cons_of_mem m hm')]
      rfl

/-- The reader: the head, then what the head says is missing. -/
def readMessage (arrivals : List Arrival) : Option (Option (Bytes × List Arrival)) :=
  match readExactly F.header [] arrivals with
  | none => none
  | some (head, arrivals) =>
      match F.total head with
      | none => some none
      | some n =>
          match readExactly (n - F.header) [] arrivals with
          | none => none
          | some (body, arrivals) => some (some (head ++ body, arrivals))

/-- A message that is read: its head, and then its body. -/
theorem readMessage_message {arrivals later : List Arrival} {m : Bytes}
    (h : F.readMessage arrivals = some (some (m, later))) :
    ∃ middle, readExactly F.header [] arrivals = some (m.take F.header, middle) ∧
      F.total (m.take F.header) = some m.length ∧
      readExactly (m.length - F.header) [] middle = some (m.drop F.header, later) := by
  rw [readMessage] at h
  split at h
  · cases h
  · next head middle hhead =>
    split at h
    · cases h
    · next n htotal =>
      split at h
      · cases h
      · next body last hbody =>
        cases h
        obtain ⟨hlen, hheadText, -⟩ := readExactly_some hhead
        obtain ⟨hbodyLen, hbodyText, -⟩ := readExactly_some hbody
        have hle := F.header_le htotal
        have hhlen : head.length = F.header := by rw [hheadText, List.length_take]; omega
        have hblen : body.length = n - F.header := by rw [hbodyText, List.length_take]; omega
        have hn : (head ++ body).length = n := by rw [List.length_append]; omega
        rw [List.take_left' hhlen, List.drop_left' hhlen, hn]
        exact ⟨middle, hhead, htotal, hbody⟩

theorem readMessage_refused {arrivals : List Arrival} (h : F.readMessage arrivals = some none) :
    ∃ middle, readExactly F.header [] arrivals = some ((textOf arrivals).take F.header, middle) ∧
      F.total ((textOf arrivals).take F.header) = none := by
  rw [readMessage] at h
  split at h
  · cases h
  · next head middle hhead =>
    obtain ⟨-, rfl, -⟩ := readExactly_some hhead
    split at h
    · next htotal => exact ⟨middle, hhead, htotal⟩
    · split at h
      · cases h
      · cases h

theorem readMessage_incomplete {arrivals : List Arrival} (h : F.readMessage arrivals = none) :
    readExactly F.header [] arrivals = none ∨
    ∃ head middle n, readExactly F.header [] arrivals = some (head, middle) ∧
      F.total head = some n ∧ readExactly (n - F.header) [] middle = none := by
  rw [readMessage] at h
  split at h
  · next hnone => exact .inl hnone
  · next head middle hhead =>
    split at h
    · cases h
    · next n htotal =>
      split at h
      · next hnone => exact .inr ⟨head, middle, n, hhead, htotal, hnone⟩
      · cases h

/-- **The reader takes what is at the front of the text**, however the text comes. -/
theorem readMessage_eq (arrivals : List Arrival) :
    match F.next (textOf arrivals) with
    | .message m rest => ∃ later, F.readMessage arrivals = some (some (m, later)) ∧
        textOf later = rest
    | .refused => F.readMessage arrivals = some none
    | .incomplete => F.readMessage arrivals = none := by
  rw [next, readMessage]
  by_cases hshort : (textOf arrivals).length < F.header
  · rw [if_pos hshort, (readExactly_none arrivals).mpr hshort]
  · obtain ⟨⟨head, later⟩, hread⟩ := Option.ne_none_iff_exists'.mp
      (mt (readExactly_none arrivals).mp hshort)
    obtain ⟨hlen, rfl, hlater⟩ := readExactly_some hread
    rw [if_neg hshort, hread]
    cases htotal : F.total ((textOf arrivals).take F.header) with
    | none => simp only [htotal]
    | some n =>
        have hle := F.header_le htotal
        have hleft : (textOf later).length = (textOf arrivals).length - F.header := by
          rw [hlater, List.length_drop]
        simp only [htotal]
        by_cases hpart : (textOf arrivals).length < n
        · rw [if_pos hpart, (readExactly_none later).mpr (by omega)]
        · obtain ⟨⟨body, last⟩, hbody⟩ := Option.ne_none_iff_exists'.mp
            (mt (readExactly_none later).mp (show ¬(textOf later).length < n - F.header by omega))
          obtain ⟨-, rfl, hlast⟩ := readExactly_some hbody
          -- the two reads together take the message off the stream
          have hjoin : (textOf arrivals).take F.header
              ++ ((textOf arrivals).drop F.header).take (n - F.header) = (textOf arrivals).take n := by
            rw [← List.take_add, Nat.add_sub_cancel' hle]
          rw [if_neg hpart, hbody]
          refine ⟨last, ?_, ?_⟩
          · rw [← hjoin, hlater]
          · rw [hlast, hlater, List.drop_drop, Nat.add_sub_cancel' hle]

end Framing

end NetworkProjects.Lib
