import NetworkProjects.Lib.CString
import NetworkProjects.Lib.LastWins

/-!
# The request object (`proxy_parse.h`) and its header table

`struct ParsedRequest` keeps its fields as pointers into `buf`, into which the request line
has been copied, except `path`, which is allocated on its own. A pointer is a `Ptr` here, and
`text` reads the string behind it, or says why it must not be read.

The header table is an array in which `ParsedHeader_remove` leaves a slot without a key.
`live` is what the table means: the bindings of the other slots in order.
-/

namespace NetworkProjects.Proxy

open NetworkProjects.Lib

/-! ## Pointers and faults -/

/-- Where the source runs into undefined behaviour. -/
inductive Fault
  /-- A null pointer is read. -/
  | null
  /-- A pointer is read that nobody has set. -/
  | uninitialised
  /-- A pointer into a released buffer is read. -/
  | released
  /-- A read or write leaves its buffer. -/
  | outOfBounds
  /-- The result of a failed search is used, or a negative length. -/
  | badLength
  /-- A local array is read behind the end of its block. -/
  | outOfScope
  deriving DecidableEq, Repr

/-- A `char *` field of the request object. -/
inductive Ptr
  | null
  /-- What `malloc` left there. -/
  | wild
  /-- Into `buf`. -/
  | inBuf (off : Nat)
  /-- A string allocated on its own. -/
  | heap (text : Bytes)
  deriving DecidableEq, Repr

/-- `struct ParsedHeader`. The value of a slot without key is released storage. The lengths
stored next to the strings are never read. -/
structure ParsedHeader where
  key : Option Bytes
  value : Bytes
  deriving DecidableEq, Repr

/-- `struct ParsedRequest`; `headersused` is the length of `headers`. -/
structure ParsedRequest where
  method : Ptr
  protocol : Ptr
  host : Ptr
  port : Ptr
  path : Ptr
  version : Ptr
  buf : Option Bytes
  buflen : Nat
  headers : List ParsedHeader
  headerslen : Nat
  deriving DecidableEq, Repr

/-- `DEFAULT_NHDRS`. -/
def defaultNhdrs : Nat := 8

/-- `ParsedRequest_create`. It does not set `port`. -/
def parsedRequestCreate : ParsedRequest where
  method := .null
  protocol := .null
  host := .null
  port := .wild
  path := .null
  version := .null
  buf := none
  buflen := 0
  headers := []
  headerslen := defaultNhdrs

/-- The string behind a field. -/
def ParsedRequest.text (pr : ParsedRequest) : Ptr → Except Fault Bytes
  | .null => .error .null
  | .wild => .error .uninitialised
  | .heap t => .ok t
  | .inBuf off =>
      match pr.buf with
      | none => .error .released
      | some b =>
          match cstrAt b off with
          | none => .error .outOfBounds
          | some t => .ok t

/-! ## The header table -/

/-- The bindings of the slots that have a key. -/
def live (headers : List ParsedHeader) : List (Bytes × Bytes) :=
  headers.filterMap fun ph => ph.key.map (·, ph.value)

/-- `ParsedHeader_get`: the slot with that key. -/
def parsedHeaderGet (pr : ParsedRequest) (key : Bytes) : Option Nat :=
  pr.headers.findIdx? fun tmp => tmp.key == some key

/-- `ParsedHeader_remove`. -/
def parsedHeaderRemove (pr : ParsedRequest) (key : Bytes) : Int × ParsedRequest :=
  match parsedHeaderGet pr key with
  | none => (-1, pr)
  | some i => (0, { pr with headers := pr.headers.modify i fun tmp => { tmp with key := none } })

/-- `ParsedHeader_set`, with allocations that succeed. A slot beyond the array is not written
to. -/
def parsedHeaderSet (pr : ParsedRequest) (key value : Bytes) :
    Except Fault (Int × ParsedRequest) :=
  let pr := (parsedHeaderRemove pr key).2
  let pr :=
    if pr.headerslen ≤ pr.headers.length + 1 then { pr with headerslen := pr.headerslen * 2 }
    else pr
  if pr.headers.length < pr.headerslen then
    .ok (0, { pr with headers := pr.headers ++ [⟨some key, value⟩] })
  else .error .outOfBounds

/-! ## What the operations do -/

@[simp] theorem live_append (hs hs' : List ParsedHeader) : live (hs ++ hs') = live hs ++ live hs' :=
  List.filterMap_append

/-- A slot that loses its key drops out. -/
theorem live_modify {hs : List ParsedHeader} {key : Bytes} {i : Nat}
    (hnodup : ((live hs).map Prod.fst).Nodup)
    (h : hs.findIdx? (fun tmp => tmp.key == some key) = some i) :
    live (hs.modify i fun tmp => { tmp with key := none })
      = (live hs).filter fun p => p.1 ≠ key := by
  induction hs generalizing i with
  | nil => simp at h
  | cons ph hs ih =>
      rw [List.findIdx?_cons] at h
      split at h
      · next hkey =>
        cases h
        have hkey : ph.key = some key := by simpa using hkey
        simp only [live, List.filterMap_cons, hkey, Option.map_some, List.map_cons,
          List.nodup_cons] at hnodup
        -- the key stands once, so the filter has nothing more to remove behind it
        have hrest : (live hs).filter (fun p => p.1 ≠ key) = live hs := by
          rw [List.filter_eq_self]
          intro p hp
          simp only [ne_eq, decide_eq_true_eq]
          rintro rfl
          exact hnodup.1 (List.mem_map_of_mem hp)
        simp only [List.modify_zero_cons, live, List.filterMap_cons, hkey, Option.map_none,
          Option.map_some, List.filter_cons]
        simpa [live] using hrest.symm
      · next hkey =>
        obtain ⟨j, hj, rfl⟩ := Option.map_eq_some_iff.mp h
        have hnodup' : ((live hs).map Prod.fst).Nodup := by
          refine hnodup.sublist (List.Sublist.map _ ?_)
          exact (List.sublist_cons_self ph hs).filterMap _
        have hih := ih hnodup' hj
        simp only [List.modify_succ_cons]
        cases hk : ph.key with
        -- a slot that was cleared before is not live
        | none => simpa [live, hk] using hih
        | some k =>
            have hne : k ≠ key := by
              rintro rfl
              simp [hk] at hkey
            simp only [live, List.filterMap_cons, hk, Option.map_some, List.filter_cons] at hih ⊢
            rw [if_pos (by simpa using hne), hih]

/-- No slot has the key: it is not bound. -/
theorem not_mem_live {hs : List ParsedHeader} {key : Bytes}
    (h : hs.findIdx? (fun tmp => tmp.key == some key) = none) : key ∉ (live hs).map Prod.fst := by
  rw [List.findIdx?_eq_none_iff] at h
  intro hmem
  obtain ⟨p, hp, rfl⟩ := List.mem_map.mp hmem
  obtain ⟨ph, hph, heq⟩ := List.mem_filterMap.mp hp
  obtain ⟨k, hk, rfl⟩ := Option.map_eq_some_iff.mp heq
  simpa [hk] using h ph hph

/-- The table is a map, and its next slot lies inside the array. -/
structure TableOk (pr : ParsedRequest) : Prop where
  nodup : ((live pr.headers).map Prod.fst).Nodup
  room : pr.headers.length < pr.headerslen

theorem tableOk_create : TableOk parsedRequestCreate where
  nodup := List.nodup_nil
  room := by decide

theorem TableOk.congr {pr pr' : ParsedRequest} (h : TableOk pr)
    (hheaders : pr'.headers = pr.headers) (hheaderslen : pr'.headerslen = pr.headerslen) :
    TableOk pr' where
  nodup := by
    rw [hheaders]
    exact h.nodup
  room := by
    rw [hheaders, hheaderslen]
    exact h.room

/-- `ParsedHeader_remove` unbinds the key and touches the table only. -/
theorem parsedHeaderRemove_spec {pr : ParsedRequest} (h : TableOk pr) (key : Bytes) :
    ∃ hs, (parsedHeaderRemove pr key).2 = { pr with headers := hs } ∧
      hs.length = pr.headers.length ∧
      live hs = (live pr.headers).filter fun p => p.1 ≠ key := by
  unfold parsedHeaderRemove
  split
  · next hget =>
    refine ⟨pr.headers, rfl, rfl, ?_⟩
    rw [eq_comm, List.filter_eq_self]
    intro p hp
    simp only [ne_eq, decide_eq_true_eq]
    rintro rfl
    exact not_mem_live hget (List.mem_map_of_mem hp)
  · next i hget => exact ⟨_, rfl, List.length_modify _ _ _, live_modify h.nodup hget⟩

/-- `ParsedHeader_set` succeeds, binds the key behind all others and touches the table only. -/
theorem parsedHeaderSet_spec {pr : ParsedRequest} (h : TableOk pr) (key value : Bytes) :
    ∃ hs n, parsedHeaderSet pr key value = .ok (0, { pr with headers := hs, headerslen := n }) ∧
      live hs = setLast (live pr.headers) key value ∧
      TableOk { pr with headers := hs, headerslen := n } := by
  obtain ⟨hs, hremove, hlen, hlive⟩ := parsedHeaderRemove_spec h key
  have hroom := h.room
  have hset : live (hs ++ [⟨some key, value⟩]) = setLast (live pr.headers) key value := by
    rw [live_append, hlive]
    rfl
  have hnodup : ((live (hs ++ [⟨some key, value⟩])).map Prod.fst).Nodup := by
    rw [hset]
    exact nodup_setLast h.nodup key value
  by_cases hgrow : pr.headerslen ≤ pr.headers.length + 1
  · refine ⟨hs ++ [⟨some key, value⟩], pr.headerslen * 2, ?_, hset, hnodup, ?_⟩
    · have hlt : hs.length < pr.headerslen * 2 := by omega
      simp only [parsedHeaderSet, hremove, hlen, hgrow, if_true]
      rw [if_pos (by omega)]
    · simp only [List.length_append, List.length_singleton]
      omega
  · refine ⟨hs ++ [⟨some key, value⟩], pr.headerslen, ?_, hset, hnodup, ?_⟩
    · simp only [parsedHeaderSet, hremove, hlen, hgrow, if_false]
      rw [if_pos hroom]
    · simp only [List.length_append, List.length_singleton]
      omega

end NetworkProjects.Proxy
