import NetworkProjects.Lib.CString
import NetworkProjects.Lib.Lines

/-!
# The words of a request (`server1.cpp`)

The server reads once into a buffer that it has cleared, and cuts the text in the buffer at its
spaces into an array of 100 strings. The second one is opened as a file, whether there is one or
not. So a request is taken apart inside the array and with a file name if it has from 2 to 100
words, and its text ends inside the buffer (`inArray_iff`).
-/

namespace NetworkProjects.WebServer

open NetworkProjects.Lib

/-- Where the source runs into undefined behaviour. -/
inductive Fault
  /-- `strtok` reads on behind the end of the buffer. -/
  | outOfBuffer
  /-- A word is stored behind the end of `request`. -/
  | outOfArray
  /-- `back()` of an empty string. -/
  | emptyString
  deriving DecidableEq, Repr

/-- `BUF_SIZE`. -/
def bufSize : Nat := 8192

/-- The number of strings in `request`. -/
def requestSize : Nat := 100

/-- `' '`. -/
def sp : UInt8 := 32

/-- `buffer` after `bzero` and a `read` that has returned these bytes. -/
def readBuffer (received : Bytes) : Bytes :=
  received ++ List.replicate (bufSize - received.length) 0

/-! ## The tokenising loop -/

/-- The loop over the words, of which `strtok` has just found `pch`; what `strtok` remembers is
`saveptr`. Each round takes a byte of the text, so its length is enough fuel. -/
def tokenLoop : Nat → Bytes → Option Nat → Nat → List Bytes → Except Fault (List Bytes)
  | _, _, none, _, request => .ok request
  | 0, _, some _, _, _ => .error .outOfBuffer
  | fuel + 1, buffer, some pch, saveptr, request =>
      match cstrAt buffer pch with
      | none => .error .outOfBuffer
      | some word =>
          if request.length < requestSize then
            match strtokR buffer saveptr [sp] with
            | none => .error .outOfBuffer
            | some (buffer, pch, saveptr) =>
                tokenLoop fuel buffer pch saveptr (request ++ [word])
          else .error .outOfArray

/-- The words that are stored in `request`. -/
def tokenise (buffer : Bytes) : Except Fault (List Bytes) :=
  match strtokR buffer 0 [sp] with
  | none => .error .outOfBuffer
  | some (b, pch, saveptr) => tokenLoop buffer.length b pch saveptr []

/-- `request[1]`, which is an empty string if no word has been stored there. -/
def target (request : List Bytes) : Bytes := request.getD 1 []

/-- The words of a text. -/
def words (s : Bytes) : List Bytes := fields (· == sp) s

section Loop

variable {b s : Bytes} {off fuel : Nat} {request : List Bytes}

/-- What the loop does with a text, from the call of `strtok` on that finds its first word. -/
theorem tokenLoop_text (hs : cstrAt b off = some s) (hfuel : s.length ≤ fuel)
    (hroom : request.length ≤ requestSize) :
    ∃ b' pch saveptr, strtokR b off [sp] = some (b', pch, saveptr) ∧
      tokenLoop fuel b' pch saveptr request =
        if request.length + (words s).length ≤ requestSize then .ok (request ++ words s)
        else .error .outOfArray := by
  induction fuel using Nat.strong_induction_on generalizing b off s request with
  | _ fuel ih =>
      rcases token_cases [sp] s with hall | ⟨lead, tok, tail, rfl, hlead, hne, htok, htail⟩
      · have hwords : words s = [] := fields_of_forall fun c hc => by simpa using hall c hc
        refine ⟨b, none, _, strtokR_none [sp] hs hall, ?_⟩
        rw [hwords, List.append_nil, if_pos (by simpa using hroom)]
        cases fuel <;> rfl
      · have hwords : words (lead ++ tok ++ tail) = tok :: words tail.tail :=
          fields_token (by simpa using hlead) hne (by simpa using htok) (by simpa using htail)
        obtain ⟨b', hr, -, ht⟩ := strtokR_token [sp] hs hlead hne htok htail
        refine ⟨b', _, _, hr, ?_⟩
        have hpos := List.length_pos_iff.mpr hne
        simp only [List.length_append] at hfuel
        obtain ⟨fuel, rfl⟩ : ∃ n, fuel = n + 1 := ⟨fuel - 1, by omega⟩
        simp only [tokenLoop, ht.token, hwords, List.length_cons]
        by_cases hstore : request.length < requestSize
        · -- the next round starts with what is behind the word
          obtain ⟨b'', pch, saveptr, hnext, hloop⟩ :=
            @ih fuel (Nat.lt_succ_self fuel) _ _ _ (request ++ [tok]) ht.rest (by
              rw [List.length_tail]
              omega) (by
              rw [List.length_append]
              exact hstore)
          rw [if_pos hstore, hnext]
          simp only [hloop, List.length_append, List.length_singleton, List.append_assoc,
            List.singleton_append, Nat.add_assoc, Nat.add_comm 1]
        · rw [if_neg hstore, if_neg (by omega)]

/-- **The words of the text are stored**, if there is room for them. -/
theorem tokenise_text (hs : cstr b = some s) :
    tokenise b =
      if (words s).length ≤ requestSize then .ok (words s) else .error .outOfArray := by
  have hlt := cstrAt_lt (show cstrAt b 0 = some s from hs)
  obtain ⟨b', pch, saveptr, hr, hloop⟩ :=
    @tokenLoop_text b s 0 b.length [] hs (by omega) (Nat.zero_le _)
  simp only [tokenise, hr, hloop, List.length_nil, Nat.zero_add, List.nil_append]

/-- A text that does not end in the buffer is read on behind it. -/
theorem tokenise_unended (h : cstr b = none) : tokenise b = .error .outOfBuffer := by
  have hr : strtokR b 0 [sp] = none := by rw [strtokR, cstrAt_zero, h]
  rw [tokenise, hr]

/-- There is a second word if there are two. -/
theorem target_words_ne : target (words s) ≠ [] ↔ 2 ≤ (words s).length := by
  by_cases htwo : 1 < (words s).length
  · have hmem : (words s)[1] ∈ words s := List.getElem_mem htwo
    rw [target, List.getD_eq_getElem?_getD, List.getElem?_eq_getElem htwo, Option.getD_some]
    exact ⟨fun _ => htwo, fun _ => ne_nil_of_mem_fields hmem⟩
  · rw [target, List.getD_eq_getElem?_getD, List.getElem?_eq_none (Nat.not_lt.mp htwo),
      Option.getD_none]
    exact ⟨fun h => absurd rfl h, fun h => absurd h htwo⟩

end Loop

/-! ## Requests that are taken apart in order -/

/-- What the tokenising loop should do with every request: it stores the words inside `request`, and
the one that is used as a file name is there. -/
def InArray (received : Bytes) : Prop :=
  ∃ request, tokenise (readBuffer received) = .ok request ∧ request.length ≤ requestSize ∧
    target request ≠ []

/-- **A request is taken apart in order** if and only if the text in the buffer ends there and has
from 2 to 100 words. -/
theorem inArray_iff (received : Bytes) :
    InArray received ↔ ∃ s, cstr (readBuffer received) = some s ∧ 2 ≤ (words s).length ∧
      (words s).length ≤ requestSize := by
  constructor
  · rintro ⟨request, htokens, -, htarget⟩
    cases hs : cstr (readBuffer received) with
    | none =>
        rw [tokenise_unended hs] at htokens
        cases htokens
    | some s =>
        rw [tokenise_text hs] at htokens
        split at htokens
        · next hroom =>
          cases htokens
          exact ⟨s, rfl, target_words_ne.mp htarget, hroom⟩
        · cases htokens
  · rintro ⟨s, hs, htwo, hroom⟩
    refine ⟨words s, ?_, hroom, target_words_ne.mpr htwo⟩
    rw [tokenise_text hs, if_pos hroom]

/-- What has been read is the text, if it has no NUL and does not fill the buffer. -/
theorem cstr_readBuffer {received : Bytes} (hnul : 0 ∉ received)
    (hlen : received.length < bufSize) : cstr (readBuffer received) = some received := by
  obtain ⟨n, hn⟩ : ∃ n, bufSize - received.length = n + 1 :=
    ⟨bufSize - received.length - 1, by omega⟩
  rw [readBuffer, hn, List.replicate_succ]
  exact cstr_append hnul _

/-- `"GET"`, and a request of 101 words. -/
theorem not_inArray : tokenise (readBuffer [71, 69, 84]) = .ok [[71, 69, 84]] ∧
    tokenise (readBuffer (List.replicate 101 [97, 32]).flatten) = .error .outOfArray ∧
    ¬ ∀ received : Bytes, received ≠ [] → received.length ≤ bufSize → InArray received := by
  have hone : tokenise (readBuffer [71, 69, 84]) = .ok [[71, 69, 84]] := by
    rw [tokenise_text (cstr_readBuffer (by decide) (by decide))]
    decide
  have hmany : tokenise (readBuffer (List.replicate 101 [97, 32]).flatten)
      = .error .outOfArray := by
    rw [tokenise_text (cstr_readBuffer (by decide +kernel) (by decide +kernel))]
    decide +kernel
  refine ⟨hone, hmany, fun hall => ?_⟩
  obtain ⟨request, htokens, -, htarget⟩ := hall [71, 69, 84] (by decide) (by decide)
  cases hone.symm.trans htokens
  exact htarget rfl

end NetworkProjects.WebServer
