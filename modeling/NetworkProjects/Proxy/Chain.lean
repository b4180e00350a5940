import NetworkProjects.Proxy.ErrorPath
import NetworkProjects.Proxy.AbsoluteGet

/-!
# Proxies in a row

A proxy whose upstream server is another proxy. What the first one sends is a request that the
second one accepts, with the `Connection` header that it would set itself. So it sends the same
bytes on, and any number of proxies send what one of them sends (`proxies_in_a_row`). The answer
comes back as it was, however the proxies get it in pieces.

The request has to name a port. `process_server` cannot connect for one that does not, and then
there is nothing to pass on.

The headers are what takes work. A proxy prints the last header of each name, and the next one
reads these; but a printed name that goes over several lines is read as more than one header.
`reads_others` says that what is left of them in the end, the last one of each name, is the same.
-/

namespace NetworkProjects.Proxy

open NetworkProjects.Lib

/-! ## Reading what has been sent -/

/-- The headers of other names, as they are in the end. -/
def others (name : Bytes) (sets : List (Bytes × Bytes)) : List (Bytes × Bytes) :=
  (keepLast sets).filter fun p => p.1 ≠ name

theorem others_eq (name : Bytes) (sets : List (Bytes × Bytes)) :
    others name sets = keepLast (sets.filter fun p => p.1 ≠ name) :=
  keepLast_filter sets fun k => decide (k ≠ name)

theorem mem_keys_others {name k : Bytes} (hk : k ≠ name) {sets : List (Bytes × Bytes)} :
    k ∈ (others name sets).map Prod.fst ↔ k ∈ sets.map Prod.fst := by
  rw [← @mem_keys_keepLast _ _ _ sets, others, List.mem_map, List.mem_map]
  constructor
  · rintro ⟨p, hp, rfl⟩
    exact ⟨p, (List.mem_filter.mp hp).1, rfl⟩
  · rintro ⟨p, hp, rfl⟩
    exact ⟨p, List.mem_filter.mpr ⟨hp, by simpa using hk⟩, rfl⟩

/-- **What is sent is read back**, with a header put in the place of all others of its name. -/
theorem reads_others (name value : Bytes) (hcolon : colon ∉ name) (hname : NoCrlf name)
    (hvalue : NoCrlf value) {sets : List (Bytes × Bytes)} (htailed : Tailed sets)
    (h : ∀ p ∈ sets, Printable p) :
    ∃ sets', Reads (renderHeaders (others name sets ++ [(name, value)])) sets' ∧
      others name sets' = others name sets := by
  induction sets with
  | nil =>
      refine ⟨[(name, value)], ?_, by simp [others, keepLast]⟩
      have hread := reads_line hcolon hname hvalue (.stop (.inr ⟨[], rfl⟩) : Reads crlf [])
      simpa [others, keepLast, renderHeaders, renderHeader] using hread
  | cons p sets ih =>
      obtain ⟨rest, hread, hrest⟩ := ih htailed.2 fun q hq => h q (by simp [hq])
      obtain ⟨key, old⟩ := p
      by_cases hdrop : key = name ∨ key ∈ sets.map Prod.fst
      · -- the header is not printed
        have hsame : others name ((key, old) :: sets) = others name sets := by
          rw [others, keepLast]
          split
          · rfl
          · next hlast =>
            have hkey := hdrop.resolve_right hlast
            rw [List.filter_cons_of_neg (by simp [hkey]), others]
        rw [hsame]
        exact ⟨rest, hread, hrest⟩
      · -- the header is printed, and its line is read back in front of the others
        rw [not_or] at hdrop
        have hkept : ∀ l, key ∉ l.map Prod.fst →
            others name ((key, old) :: l) = (key, old) :: others name l := by
          intro l hl
          rw [others, keepLast, if_neg hl, List.filter_cons_of_pos (by simp [hdrop.1]), others]
        rw [hkept sets hdrop.2, List.cons_append, renderHeaders_cons]
        rcases reads_printed htailed h with hstop | ⟨tails, hsub, hgo⟩
        · exact ⟨_, hstop _, hkept sets hdrop.2⟩
        · refine ⟨_, hgo _ _ hread, ?_⟩
          have hkeys : ∀ k, k ≠ name → (k ∈ rest.map Prod.fst ↔ k ∈ sets.map Prod.fst) := by
            intro k hk
            rw [← mem_keys_others hk, hrest, mem_keys_others hk]
          -- the first read stopped inside the name: the tails of the name are headers again, and
          -- all of them stand in `sets`
          have hnew : key ∉ (tails ++ rest).map Prod.fst := by
            rw [List.map_append, List.mem_append, not_or]
            refine ⟨fun hmem => ?_, fun hmem => hdrop.2 ((hkeys key hdrop.1).mp hmem)⟩
            obtain ⟨q, hq, heq⟩ := List.mem_map.mp hmem
            exact hdrop.2 (List.mem_map.mpr ⟨q, hsub hq, heq⟩)
          have htails : others name (tails ++ rest) = others name rest := by
            rw [others_eq, others_eq, List.filter_append]
            apply keepLast_append_of_subset
            intro q hq
            obtain ⟨hmem, hne⟩ := List.mem_filter.mp hq
            have hne : q.1 ≠ name := of_decide_eq_true hne
            have hlast := (hkeys q.1 hne).mpr (List.mem_map.mpr ⟨q, hsub hmem, rfl⟩)
            rw [← mem_keys_others hne, others_eq, mem_keys_keepLast] at hlast
            exact hlast
          rw [hkept _ hnew, htails, hrest]

/-! ## The next proxy

The text that is sent is a request again, and its headers are read back, so the second proxy sends
the same text. -/

section Next

variable {strtol : Bytes → Int × Bool} {received s : Bytes} {pr : ParsedRequest}

/-- **A proxy sends on what another proxy has sent**, if it gets it with one `read`. -/
theorem serveChild_again (hread : cstr (readBuffer received) = some s)
    (hparse : parsedRequestParse strtol parsedRequestCreate s = .ok (0, pr))
    (hport : pr.port ≠ .null) {u : Upstream}
    (hserve : serveChild strtol received = .ok (.upstream u))
    (hlen : u.sendData.length < bufSize) :
    ∃ pr', cstr (readBuffer u.sendData) = some u.sendData ∧
      parsedRequestParse strtol parsedRequestCreate u.sendData = .ok (0, pr') ∧
      pr'.port ≠ .null ∧ serveChild strtol u.sendData = .ok (.upstream u) := by
  obtain ⟨post, hbuffer, hnul⟩ := cstr_eq_some.mp hread
  obtain ⟨line, f, sets, req, text, hreq, hin, hholds, hholds', htext, hnultext, hcall⟩ :=
    childCall_accepted hread hparse
  -- the fields and headers that `u` has been printed from
  obtain ⟨port, hsome, hsent⟩ := serveChild_sends hholds' hnultext (hholds.port_ne hport) hcall
  cases Outcome.upstream.inj (Except.ok.inj (hserve.symm.trans hsent))
  have hdata : text = render f (others connection sets ++ [(connection, close)]) := htext
  obtain ⟨t, heq, hreads⟩ := hreq.tail
  have hnult : 0 ∉ t := fun hmem => hnul (by rw [heq]; simp [hmem])
  have hread₂ := cstr_readBuffer hnultext hlen
  -- they are read back, except for other spellings of the same headers
  obtain ⟨again, hreads₂, hothers⟩ := reads_others connection close
    (by decide) (by decide) (by decide) hreads.tailed (hreads.printable hnult)
  have hreq₂ := isRequest_render hreq.accepted (hin.noCrlf hreq.accepted hreq.noCrlf) hreads₂
  rw [← hdata] at hreq₂
  obtain ⟨pr₂, hparse₂, hholds₂, hlive₂⟩ := parse_complete hreq₂ hnultext
    (Nat.le_trans (Nat.le_of_lt hlen) (by decide)) (hdata ▸ crlf_crlf_infix_render f _)
  obtain ⟨-, -, -, -, -, -, -, hok₂⟩ := parse_sound hnultext hparse₂
  obtain ⟨req₂, hset, hrebound⟩ := connection_replaced hok₂
  have hprinted : render f (live req₂.headers) = text := by
    rw [hrebound.live, hlive₂, hdata, ← hothers]
    rfl
  have hcall₂ := childCall_eq hread₂ hparse₂ hset (hrebound.holds hholds₂) hreq.accepted.method
    (by rw [hprinted]; exact Nat.lt_trans hlen (by decide))
  rw [hprinted] at hcall₂
  refine ⟨pr₂, hread₂, hparse₂, ?_, ?_⟩
  · -- the printed port is the one that was read
    have hset₂ := hholds₂.port
    rw [hsome, Option.elim_some] at hset₂
    exact hset₂.1
  · rw [serveChild_processServer hcall₂,
      processServer_eq (hrebound.holds hholds₂) hsome hnultext]
    rfl

end Next

/-! ## Any number of proxies

The request goes through all of them as it left the first one, and the answer comes back unchanged
through the loops that pass it on. -/

/-- `n` proxies behind the first one. -/
def proxies (strtol : Bytes → Int × Bool) : Nat → Bytes → Except Fault Outcome
  | 0, received => serveChild strtol received
  | n + 1, received =>
      match serveChild strtol received with
      | .ok (.upstream u) => proxies strtol n u.sendData
      | outcome => outcome

/-- The loop of `process_server` that passes the answer back: the results of `recv`, one after the
other, up to the first that is empty. -/
def relay : List Bytes → List Bytes
  | [] => []
  | recvData :: rest => if recvData = [] then [] else recvData :: relay rest

/-- What comes back from a server that has sent `answer`, through `n` proxies, each of which gets it
in pieces of its own. -/
inductive ComesBack (answer : Bytes) : Nat → Bytes → Prop
  | server : ComesBack answer 0 answer
  | proxy {n : Nat} {pieces : List Bytes} (h : ComesBack answer n pieces.flatten)
      (nonempty : ∀ p ∈ pieces, p ≠ []) :
      ComesBack answer (n + 1) (relay (pieces ++ [[]])).flatten

theorem relay_pieces {pieces : List Bytes} (h : ∀ p ∈ pieces, p ≠ []) :
    relay (pieces ++ [[]]) = pieces := by
  induction pieces with
  | nil => rfl
  | cons p pieces ih =>
      rw [List.cons_append, relay, if_neg (h p (by simp)), ih fun q hq => h q (by simp [hq])]

theorem ComesBack.eq {answer got : Bytes} {n : Nat} (h : ComesBack answer n got) :
    got = answer := by
  induction h with
  | server => rfl
  | proxy _ hnonempty ih => rw [relay_pieces hnonempty, ih]

/-- **Proxies in a row are like one proxy.** If a proxy accepts a request that names a port, and
what it sends fits into the next one's buffer, then any number of proxies behind it connect to the
same server and send it the same bytes, and the client gets the server's answer as it was. -/
theorem proxies_in_a_row {strtol : Bytes → Int × Bool} {received s : Bytes} {pr : ParsedRequest}
    (hread : cstr (readBuffer received) = some s)
    (hparse : parsedRequestParse strtol parsedRequestCreate s = .ok (0, pr))
    (hport : pr.port ≠ .null) :
    ∃ u, serveChild strtol received = .ok (.upstream u) ∧
      (u.sendData.length < bufSize → ∀ n, proxies strtol n received = .ok (.upstream u) ∧
        ∀ answer got, ComesBack answer (n + 1) got → got = answer) := by
  obtain ⟨-, f, -, req, text, -, -, hholds, hholds', -, hnul, hcall⟩ :=
    childCall_accepted hread hparse
  obtain ⟨port, -, hserve⟩ := serveChild_sends hholds' hnul (hholds.port_ne hport) hcall
  refine ⟨_, hserve, fun hlen n => ⟨?_, fun answer got => ComesBack.eq⟩⟩
  -- on the number of proxies: the next one has an accepted request before it, with the same `u`
  clear hcall hholds
  induction n generalizing received s pr with
  | zero => exact hserve
  | succ n ih =>
      obtain ⟨pr', hread', hparse', hport', hagain⟩ :=
        serveChild_again hread hparse hport hserve hlen
      rw [proxies, hserve]
      exact ih hread' hparse' hport' hagain

/-- The request that repeats a name, through three proxies. -/
theorem proxies_in_a_row_repeated : ∃ u,
    serveChild (strtol false) repeatedRequest = .ok (.upstream u) ∧
    proxies (strtol false) 2 repeatedRequest = .ok (.upstream u) := by
  obtain ⟨⟨ret, pr⟩, hparse, hcheck⟩ := parse_repeatedRequest
  obtain ⟨rfl, hport⟩ := of_decide_eq_true hcheck
  obtain ⟨u, hserve, hrow⟩ :=
    proxies_in_a_row (cstr_readBuffer (by decide) (by decide)) hparse hport
  have hshort : ∃ o, serveChild (strtol false) repeatedRequest = .ok o ∧
      (match o with
        | .upstream u => decide (u.sendData.length < bufSize)
        | _ => false) = true := exists_ok_of_check (by decide +kernel)
  obtain ⟨o, ho, hcheck⟩ := hshort
  cases ho.symm.trans hserve
  exact ⟨u, hserve, (hrow (of_decide_eq_true hcheck) 2).1⟩

end NetworkProjects.Proxy
