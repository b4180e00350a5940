import NetworkProjects.Proxy.ErrorPath
import NetworkProjects.Proxy.HeaderLines
import NetworkProjects.Proxy.HeaderTable

/-!
# The length and the printer

`main` allocates as many bytes as `ParsedRequest_totalLen` says and has `ParsedRequest_unparse`
print into them. The one sums up the lengths of a dozen pieces and the other writes the pieces,
with the port if there is one and without the slots that have lost their key. They agree on every
object that a parse has accepted, whatever has been called on it before and on its header table
since (`lengthAgrees_tableCalls`), as long as the `int` in which the header lines are summed up
does not overflow.
-/

namespace NetworkProjects.Proxy

open NetworkProjects.Lib

/-! ## Calls on the request object -/

/-- A call on an object that `ParsedRequest_create` has made. -/
inductive RequestCall
  | parse (buf : Bytes)
  | header (op : MapOp Bytes Bytes)

def requestCall (strtol : Bytes → Int × Bool) (pr : ParsedRequest) :
    RequestCall → Except Fault ParsedRequest
  | .parse buf => (parsedRequestParse strtol pr buf).map Prod.snd
  | .header op => tableCall pr op

/-! ## The header table -/

section Table

variable {strtol : Bytes → Int × Bool} {parse pr pr' : ParsedRequest} {buf : Bytes} {ret : Int}

theorem tableOk_setHeader (h : TableOk pr) {call : Bytes × Bytes}
    (hset : setHeader pr call = .ok pr') : TableOk pr' := by
  obtain ⟨pr₁, hok, hrebound⟩ := rebound_set h call.1 call.2
  simp only [setHeader, hok, Except.map] at hset
  cases hset
  exact hrebound.tableOk

/-- However the loop over the header lines ends, the table is sound. -/
theorem tableOk_headerLoop {fuel : Nat} {t : Bytes} (h : TableOk pr)
    (hloop : headerLoop fuel pr t = .ok (ret, pr')) : TableOk pr' :=
  run_induction (P := fun _ pr => TableOk pr) h
    (fun _ _ _ _ _ hok hset => tableOk_setHeader hok hset) (run_headerCalls hloop)

/-- However the parse ends, the table is sound. -/
theorem tableOk_parse (h : TableOk parse)
    (hparse : parsedRequestParse strtol parse buf = .ok (ret, pr)) : TableOk pr := by
  unfold parsedRequestParse at hparse
  split at hparse
  · cases hparse
    exact h
  split at hparse
  · cases hparse
    exact h
  dsimp only at hparse
  split at hparse
  · cases hparse
  next text _ =>
  split at hparse
  · cases hparse
    exact h
  · cases hparse
  next n _ _ =>
  -- the request line cuts the buffer and leaves the table alone, refused or not
  have hcut := cuts_parseRequestLine strtol
    { parse with buf := some (text.take n ++ [0]), buflen := n + 1 } (text.take n ++ [0])
  split at hparse
  · cases hparse
  · next hrefused =>
    cases hparse
    obtain ⟨-, hleft⟩ := hcut.error hrefused
    exact h.congr hleft.headers hleft.headerslen
  · next haccepted =>
    have hleft := hcut.ok haccepted
    exact tableOk_headerLoop (h.congr hleft.headers hleft.headerslen) hparse

theorem tableOk_requestCall (h : TableOk pr) {call : RequestCall}
    (hcall : requestCall strtol pr call = .ok pr') : TableOk pr' := by
  cases call with
  | parse buf =>
      simp only [requestCall] at hcall
      cases hparse : parsedRequestParse strtol pr buf with
      | error f => simp [hparse, Except.map] at hcall
      | ok r =>
          simp only [hparse, Except.map] at hcall
          cases hcall
          exact tableOk_parse h hparse
  | header op =>
      obtain ⟨pr₁, hok, hrebound⟩ := rebound_tableCall h op
      cases hok.symm.trans hcall
      exact hrebound.tableOk

/-- The table is sound whatever has been called on the object. -/
theorem tableOk_requestCalls {calls : List RequestCall}
    (h : run (requestCall strtol) parsedRequestCreate calls = .ok pr) : TableOk pr :=
  run_induction (P := fun _ pr => TableOk pr) tableOk_create
    (fun _ _ _ _ _ hok hcall => tableOk_requestCall hok hcall) h

/-- An accepted object has all its fields, none of which is long. -/
theorem holds_of_parse (h : parsedRequestParse strtol parse buf = .ok (0, pr)) :
    ∃ f, pr.Holds f ∧ (renderLine f).length < 2 ^ 31 := by
  unfold parsedRequestParse at h
  split at h
  · cases h
  split at h
  · cases h
  next hlen =>
  dsimp only at h
  split at h
  · cases h
  next text htext =>
  obtain ⟨post, hbuf, hnul⟩ := cstr_eq_some.mp htext
  split at h
  · cases h
  · cases h
  next n _ _ =>
  split at h
  · cases h
  · cases h
  next accepted haccepted =>
  have hline : 0 ∉ text.take n := fun hmem => hnul (List.mem_of_mem_take hmem)
  -- every field is a part of the first line, so the printed line cannot outgrow the request
  obtain ⟨f, hf, hin, hholds, -, -⟩ := parseRequestLine_sound hline haccepted
  refine ⟨f, (tableOnly_headerLoop h).holds hholds, ?_⟩
  have hrender := hin.length_renderLine_le hf
  have htake : (text.take n).length ≤ text.length := List.length_take_le' n text
  have htotal := congrArg List.length hbuf
  simp only [List.length_append, List.length_cons, List.length_nil] at htotal
  have hmax : buf.length ≤ 65535 := Nat.not_lt.mp fun hlt => hlen (.inr hlt)
  omega

end Table

/-! ## The length is right -/

/-- For a buffer of any size, `ParsedRequest_unparse` succeeds if the buffer holds as many bytes as
`ParsedRequest_totalLen` returns, and then writes that many; in no case does it write past the
buffer. -/
def LengthAgrees (pr : ParsedRequest) : Prop :=
  ∃ total, parsedRequestTotalLen pr = .ok total ∧ ∀ n, ∃ ret text,
    parsedRequestUnparse pr n = .ok (ret, text) ∧ (ret = 0 ∨ ret = -1) ∧
    (ret = 0 ↔ total ≤ n) ∧ (ret = 0 → text.length = total) ∧ text.length ≤ n

theorem ParsedRequest.Holds.lengthAgrees {pr : ParsedRequest} {f : Fields} (h : pr.Holds f)
    (hline : (renderLine f).length < 2 ^ 31)
    (hheaders : (renderHeaders (live pr.headers)).length < 2 ^ 31) : LengthAgrees pr := by
  refine ⟨_, totalLen_of_headers h hheaders hline, fun n => ?_⟩
  by_cases hfits : (render f (live pr.headers)).length ≤ n
  · exact ⟨0, _, unparse_fits h hheaders hfits, .inl rfl, by simp [hfits], fun _ => rfl, hfits⟩
  · obtain ⟨text, hunparse, hwritten⟩ := unparse_short h hheaders (Nat.not_le.mp hfits)
    exact ⟨-1, text, hunparse, .inr rfl, by simp [hfits], by simp, hwritten⟩

/-- **The length and the printer agree** on every object that has been parsed, after any calls on
its header table. -/
theorem lengthAgrees_tableCalls (strtol : Bytes → Int × Bool) (before : List RequestCall)
    (parse pr : ParsedRequest) (buf : Bytes) (ops : List (MapOp Bytes Bytes))
    (hbefore : run (requestCall strtol) parsedRequestCreate before = .ok parse)
    (hparse : parsedRequestParse strtol parse buf = .ok (0, pr)) :
    ∃ pr', run tableCall pr ops = .ok pr' ∧
      ((renderHeaders (live pr'.headers)).length < 2 ^ 31 → LengthAgrees pr') := by
  have hok := tableOk_parse (tableOk_requestCalls hbefore) hparse
  obtain ⟨f, hholds, hline⟩ := holds_of_parse hparse
  obtain ⟨pr', hrun, hrebound⟩ := rebound_tableCalls ops hok
  exact ⟨pr', hrun, (hrebound.holds hholds).lengthAgrees hline⟩

/-- A header is set before the request is parsed, and `main`'s calls are made afterwards. -/
theorem lengthAgrees_tableCalls_repeated : ∃ parse pr pr',
    run (requestCall (strtol false)) parsedRequestCreate
      [.header (.set [88] [49]), .parse []] = .ok parse ∧
    parsedRequestParse (strtol false) parse repeatedRequest = .ok (0, pr) ∧
    run tableCall pr [.remove connection, .set connection close] = .ok pr' ∧ LengthAgrees pr' := by
  obtain ⟨parse, hbefore, hcheck⟩ : ∃ parse,
      run (requestCall (strtol false)) parsedRequestCreate
        [.header (.set [88] [49]), .parse []] = .ok parse ∧
      (parsedRequestParse (strtol false) parse repeatedRequest).toOption.any (fun r =>
        decide (r.1 = 0) && (run tableCall r.2
          [.remove connection, .set connection close]).toOption.any fun pr' =>
            decide ((renderHeaders (live pr'.headers)).length < 2 ^ 31)) = true :=
    exists_ok_of_check (by decide +kernel)
  obtain ⟨⟨ret, pr⟩, hparse, hcheck⟩ := exists_ok_of_check hcheck
  rw [Bool.and_eq_true, decide_eq_true_eq] at hcheck
  obtain ⟨rfl, hcheck⟩ := hcheck
  obtain ⟨pr₁, hrun₁, hshort⟩ := exists_ok_of_check hcheck
  obtain ⟨pr', hrun, hagrees⟩ := lengthAgrees_tableCalls (strtol false) _ parse pr repeatedRequest
    [.remove connection, .set connection close] hbefore hparse
  cases hrun₁.symm.trans hrun
  exact ⟨parse, pr, pr₁, hbefore, hparse, hrun, hagrees (of_decide_eq_true hshort)⟩

end NetworkProjects.Proxy
