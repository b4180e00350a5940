import NetworkProjects.Proxy.Headers
import NetworkProjects.Lib.OrderedMap

/-!
# The header table as a map

`ParsedHeader_set`, `ParsedHeader_get` and `ParsedHeader_remove`, called in any order on the table
that `ParsedHeader_create` makes. A header that is removed leaves a slot without a key, and a header
that is set anew takes a new slot, so the array grows with the calls and not with the headers; it is
doubled before its last slot is used. The slots that have a key are an ordered map
(`orderedMap_tableCalls`), whatever has been removed in between.
-/

namespace NetworkProjects.Proxy

open NetworkProjects.Lib

/-! ## The calls

The three functions as operations on a map from names to values. -/

/-- `ParsedHeader_create`. -/
def parsedHeaderCreate (pr : ParsedRequest) : ParsedRequest :=
  { pr with headers := [], headerslen := defaultNhdrs }

/-- The value in the slot that `ParsedHeader_get` returns. -/
def headerValue (pr : ParsedRequest) (key : Bytes) : Option Bytes :=
  (parsedHeaderGet pr key).bind fun i => pr.headers[i]?.map ParsedHeader.value

/-- A call of `ParsedHeader_set`, `ParsedHeader_remove` or `ParsedHeader_get`. -/
def tableCall (pr : ParsedRequest) : MapOp Bytes Bytes → Except Fault ParsedRequest
  | .set key value => (parsedHeaderSet pr key value).map Prod.snd
  | .remove key => .ok (parsedHeaderRemove pr key).2
  | .get _ => .ok pr

/-! ## Looking a key up

Live slots have different keys, so the first one that is found is the only one. -/

section Lookup

variable {pr : ParsedRequest} {key value : Bytes}

theorem mem_live {hs : List ParsedHeader} :
    (key, value) ∈ live hs ↔ ∃ ph ∈ hs, ph.key = some key ∧ ph.value = value := by
  rw [live, List.mem_filterMap]
  constructor
  · rintro ⟨ph, hph, heq⟩
    obtain ⟨k, hk, heq⟩ := Option.map_eq_some_iff.mp heq
    cases heq
    exact ⟨ph, hph, hk, rfl⟩
  · rintro ⟨ph, hph, hk, rfl⟩
    exact ⟨ph, hph, by rw [hk]; rfl⟩

theorem headerValue_eq_find (pr : ParsedRequest) (key : Bytes) :
    headerValue pr key
      = (pr.headers.find? fun tmp => tmp.key == some key).map ParsedHeader.value := by
  rw [headerValue, parsedHeaderGet, List.find?_eq_bind_findIdx?_getElem?, Option.map_bind]
  rfl

/-- The first slot with the key is the only one. -/
theorem headerValue_iff (hnodup : ((live pr.headers).map Prod.fst).Nodup) :
    headerValue pr key = some value ↔ (key, value) ∈ live pr.headers := by
  rw [headerValue_eq_find, Option.map_eq_some_iff]
  have hfound : ∀ ph, pr.headers.find? (fun tmp => tmp.key == some key) = some ph →
      (key, ph.value) ∈ live pr.headers := by
    intro ph hph
    exact mem_live.mpr ⟨ph, List.mem_of_find?_eq_some hph, by simpa using List.find?_some hph, rfl⟩
  constructor
  · rintro ⟨ph, hph, rfl⟩
    exact hfound ph hph
  · intro hmem
    obtain ⟨ph, hph, hk, -⟩ := mem_live.mp hmem
    have hsome : (pr.headers.find? fun tmp => tmp.key == some key).isSome := by
      rw [List.find?_isSome]
      exact ⟨ph, hph, by simpa using hk⟩
    obtain ⟨first, hfirst⟩ := Option.isSome_iff_exists.mp hsome
    have heq : (key, first.value) = (key, value) :=
      List.inj_on_of_nodup_map hnodup (hfound first hfirst) hmem rfl
    exact ⟨first, hfirst, congrArg Prod.snd heq⟩

/-- `ParsedHeader_remove` fails on a key that is not there. -/
theorem parsedHeaderRemove_fails :
    (parsedHeaderRemove pr key).1 = -1 ↔ headerValue pr key = none := by
  have hget : headerValue pr key = none ↔ parsedHeaderGet pr key = none := by
    rw [headerValue_eq_find, Option.map_eq_none_iff, List.find?_eq_none, parsedHeaderGet,
      List.findIdx?_eq_none_iff]
    simp
  rw [hget]
  unfold parsedHeaderRemove
  cases parsedHeaderGet pr key with
  | none => simp
  | some i => simp

end Lookup

/-! ## Every sequence of calls -/

/-- What the table is after `ops`. -/
structure OrderedMap (ops : List (MapOp Bytes Bytes)) (pr : ParsedRequest) : Prop where
  get : ∀ key value, headerValue pr key = some value ↔ LastSet ops key value
  distinct : ((live pr.headers).map Prod.fst).Nodup
  order : (live pr.headers).Pairwise (SetBefore ops)
  remove : ∀ key, (parsedHeaderRemove pr key).1 = -1 ↔ ¬ ∃ value, LastSet ops key value
  others : ∀ key key', key' ≠ key →
    headerValue (parsedHeaderRemove pr key).2 key' = headerValue pr key'
  room : pr.headers.length < pr.headerslen

section Calls

variable {pr : ParsedRequest}

/-- One call does to the live slots what the operation does to a map. -/
theorem rebound_tableCall (h : TableOk pr) (op : MapOp Bytes Bytes) :
    ∃ pr', tableCall pr op = .ok pr' ∧ Rebound pr (op.apply (live pr.headers)) pr' := by
  cases op with
  | set key value =>
      obtain ⟨pr', hset, hrebound⟩ := rebound_set h key value
      exact ⟨pr', by simp only [tableCall, hset, Except.map], hrebound⟩
  | remove key => exact ⟨_, rfl, rebound_remove h key⟩
  | get key => exact ⟨pr, rfl, pr.headers, pr.headerslen, rfl, rfl, h⟩

/-- **So does every sequence of calls**: none of them faults, and the table means what the
operations make of what it meant before. -/
theorem rebound_tableCalls (ops : List (MapOp Bytes Bytes)) (h : TableOk pr) :
    ∃ pr', run tableCall pr ops = .ok pr' ∧
      Rebound pr (ops.foldl MapOp.apply (live pr.headers)) pr' := by
  induction ops generalizing pr with
  | nil => exact ⟨pr, rfl, pr.headers, pr.headerslen, rfl, rfl, h⟩
  | cons op ops ih =>
      obtain ⟨pr₁, hcall, hfirst⟩ := rebound_tableCall h op
      obtain ⟨pr', hrun, hrest⟩ := ih hfirst.tableOk
      rw [hfirst.live] at hrest
      exact ⟨pr', run_cons.mpr ⟨pr₁, hcall, hrun⟩, hfirst.trans hrest⟩

theorem TableOk.headerValue_remove (h : TableOk pr) {key key' : Bytes} (hne : key' ≠ key) :
    headerValue (parsedHeaderRemove pr key).2 key' = headerValue pr key' := by
  have hremoved := rebound_remove h key
  apply Option.ext
  intro value
  rw [headerValue_iff hremoved.tableOk.nodup, headerValue_iff h.nodup, hremoved.live,
    List.mem_filter]
  simp [hne]

/-- **The header table is an ordered map**, after every sequence of calls on a table that has just
been created. -/
theorem orderedMap_tableCalls (pr : ParsedRequest) (ops : List (MapOp Bytes Bytes)) :
    ∃ pr', run tableCall (parsedHeaderCreate pr) ops = .ok pr' ∧ OrderedMap ops pr' := by
  have hcreate : TableOk (parsedHeaderCreate pr) := ⟨List.nodup_nil, show 0 < 8 by decide⟩
  obtain ⟨pr', hrun, hrebound⟩ := rebound_tableCalls ops hcreate
  have hlive : live pr'.headers = applyOps ops := hrebound.live
  have hok := hrebound.tableOk
  have hget : ∀ key value, headerValue pr' key = some value ↔ LastSet ops key value := by
    intro key value
    rw [headerValue_iff hok.nodup, hlive, mem_applyOps]
  refine ⟨pr', hrun, hget, hok.nodup, ?_, ?_, fun key key' => hok.headerValue_remove, hok.room⟩
  · rw [hlive]
    exact pairwise_applyOps ops
  · intro key
    simp only [parsedHeaderRemove_fails, Option.eq_none_iff_forall_ne_some, ne_eq, hget, not_exists]

end Calls

end NetworkProjects.Proxy
