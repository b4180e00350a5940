import NetworkProjects.Router.Learning

/-!
# How long a datagram waits

`retryDiscipline_iff` says what may take a request off the queue. This file says that something
does: a sweep sends for every request that has not been sent for in the last second, and a sixth
such sweep finds it gone. So a request is not on the queue for longer than six sweeps that are more
than a second apart, however many datagrams are queued in between (`settled_by_sixSweeps`).

That a request is answered does not mean that its datagrams are sent. If the answer finds the cache
full, its mapping is dropped, and the datagrams go back to the queue on a new request; with a
gateway that answers and a cache that stays full, they can do so for ever. Where no answer is lost
in this way, everything that waited has been sent or given up after the six sweeps
(`waits_bounded`). -/

namespace NetworkProjects.Router

open NetworkProjects.Lib

/-! ## What a move does to the queue

One lemma on the moves says what becomes of a request, and all that follows is derived from it. -/

/-- The request is older: nothing was sent, or one more request was. -/
structure Aged (clock : Nat) (r r' : SrArpreq) : Prop where
  addr : r'.addr = r.addr
  packets : r.packets <:+ r'.packets
  times : r'.sent = r.sent ∧ r'.timesSent = r.timesSent ∨
    r.sent + 1 < clock ∧ r.timesSent < 5 ∧ r'.sent = clock ∧ r'.timesSent = r.timesSent + 1

/-- An event takes the request off the queue. -/
def SrEvent.Settles (r : SrArpreq) (e : SrEvent) : Prop := e = .answered r ∨ e = .destroyed r

section Moves

variable {sr : SrConfig} {s₀ s s' : SrState} {i : SrInput}

/-- A move leaves the queue alone, makes one request older, takes one off, or adds one that has not
been sent. -/
theorem QueueMove.requests_cases (haddrs : AddrsOk s.cache) (hmove : QueueMove sr s₀ i s s') :
    s'.cache.requests = s.cache.requests ∨
    (∃ before r r' after, s.cache.requests = before ++ r :: after ∧
      s'.cache.requests = before ++ r' :: after ∧ Aged s.clock r r') ∨
    (∃ before r after e, s.cache.requests = before ++ r :: after ∧
      s'.cache.requests = before ++ after ∧ s'.history = s.history ++ [e] ∧ e.Settles r) ∨
    ∃ r, s'.cache.requests = r :: s.cache.requests ∧ r.sent = 0 ∧ r.timesSent = 0 := by
  cases hmove with
  | receive => exact .inl rfl
  | forward => exact .inl rfl
  | transmit => exact .inl rfl
  | @enqueue _ _ rt packet =>
      right
      rcases srArpcacheQueuereq_split haddrs rt.gw packet rt.interface with
        ⟨before, r, after, hsplit, -, heq⟩ | ⟨-, heq⟩
      · rw [heq]
        exact .inl ⟨before, r, _, after, hsplit, rfl, rfl, List.suffix_append _ _, .inl ⟨rfl, rfl⟩⟩
      · rw [heq]
        exact .inr (.inr ⟨_, rfl, rfl, rfl⟩)
  | ask hsplit hdue hbelow =>
      exact .inr (.inl ⟨_, _, _, _, hsplit, rfl, rfl, List.suffix_refl _,
        .inr ⟨hdue, hbelow, rfl, rfl⟩⟩)
  | giveUp hsplit => exact .inr (.inr (.inl ⟨_, _, _, _, hsplit, rfl, rfl, .inr rfl⟩))
  | @learn _ _ _ _ ip mac _ _ _ unawaited =>
      left
      rcases srArpcacheInsert_cases s₀.cache mac ip s₀.clock with
        ⟨_, r, _, -, -, -, hsome⟩ | ⟨-, hreqs, -⟩
      · rw [unawaited] at hsome
        cases hsome
      · exact hreqs
  | @answer _ _ _ _ ip mac req _ _ _ awaited =>
      right; right; left
      rcases srArpcacheInsert_cases s₀.cache mac ip s₀.clock with
        ⟨before, r, after, hsplit, -, hreqs, hsome⟩ | ⟨-, -, hnone⟩
      · rw [awaited] at hsome
        cases hsome
        exact ⟨before, req, after, _, hsplit, hreqs, rfl, .inl rfl⟩
      · -- an answer that was awaited found its request
        rw [awaited] at hnone
        cases hnone

/-- What becomes of one request. -/
theorem QueueMove.fate (haddrs : AddrsOk s.cache) (hmove : QueueMove sr s₀ i s s') {r : SrArpreq}
    (hr : r ∈ s.cache.requests) :
    (∃ r' ∈ s'.cache.requests, Aged s.clock r r') ∨
    ∃ e, s'.history = s.history ++ [e] ∧ e.Settles r := by
  have hsame : Aged s.clock r r := ⟨rfl, List.suffix_refl _, .inl ⟨rfl, rfl⟩⟩
  rcases hmove.requests_cases haddrs with hreqs | ⟨before, x, x', after, hsplit, hreqs, haged⟩ |
    ⟨before, x, after, e, hsplit, hreqs, hhist, he⟩ | ⟨x, hreqs, -, -⟩
  · exact .inl ⟨r, hreqs ▸ hr, hsame⟩
  · rw [hsplit] at hr
    rw [hreqs]
    rcases mem_split.mp hr with rfl | hr
    · exact .inl ⟨x', by simp, haged⟩
    · exact .inl ⟨r, mem_split.mpr (.inr hr), hsame⟩
  · rw [hsplit] at hr
    rcases mem_split.mp hr with rfl | hr
    · exact .inr ⟨e, hhist, he⟩
    · exact .inl ⟨r, hreqs ▸ hr, hsame⟩
  · exact .inl ⟨r, hreqs ▸ List.mem_cons_of_mem x hr, hsame⟩

/-- Where a request comes from. -/
theorem QueueMove.comes_from (haddrs : AddrsOk s.cache) (hmove : QueueMove sr s₀ i s s')
    {r' : SrArpreq} (hr' : r' ∈ s'.cache.requests) :
    (∃ r ∈ s.cache.requests, Aged s.clock r r') ∨ r'.sent = 0 ∧ r'.timesSent = 0 := by
  have hsame : Aged s.clock r' r' := ⟨rfl, List.suffix_refl _, .inl ⟨rfl, rfl⟩⟩
  rcases hmove.requests_cases haddrs with hreqs | ⟨before, x, x', after, hsplit, hreqs, haged⟩ |
    ⟨before, x, after, e, hsplit, hreqs, -, -⟩ | ⟨x, hreqs, hsent, htimes⟩
  · exact .inl ⟨r', hreqs ▸ hr', hsame⟩
  · rw [hreqs] at hr'
    rw [hsplit]
    rcases mem_split.mp hr' with rfl | hr'
    · exact .inl ⟨x, by simp, haged⟩
    · exact .inl ⟨r', mem_split.mpr (.inr hr'), hsame⟩
  · rw [hreqs] at hr'
    rw [hsplit]
    exact .inl ⟨r', mem_split.mpr (.inr hr'), hsame⟩
  · rw [hreqs] at hr'
    rcases List.mem_cons.mp hr' with rfl | hr'
    · exact .inr ⟨hsent, htimes⟩
    · exact .inl ⟨r', hr', hsame⟩

end Moves

/-! ## Sweeps that are more than a second apart

The sweeps are compared with how often a request has been sent for. A sweep does nothing for one
that was sent for in the last second, but such a request is ahead of the count. -/

/-- The request after `n` sweeps, the last of them at `t`. If it has been sent since then, that is
one more time than the sweeps ask for. -/
structure Outlasts (n t clock : Nat) (r : SrArpreq) : Prop where
  past : r.sent ≤ clock
  few : r.timesSent ≤ 5
  sweeps : n ≤ r.timesSent
  recent : t ≤ r.sent + 1
  since : t < r.sent → n < r.timesSent

section Outlasts

variable {n t clock : Nat} {r r' : SrArpreq}

theorem Outlasts.mono (h : Outlasts n t clock r) {clock' : Nat} (hle : clock ≤ clock') :
    Outlasts n t clock' r :=
  { h with past := Nat.le_trans h.past hle }

theorem Outlasts.aged (h : Outlasts n t clock r) (haged : Aged clock r r') :
    Outlasts n t clock r' := by
  have hsweeps := h.sweeps
  have hrecent := h.recent
  rcases haged.times with ⟨hsent, htimes⟩ | ⟨hdue, hbelow, hsent, htimes⟩
  · exact ⟨hsent ▸ h.past, htimes ▸ h.few, htimes ▸ hsweeps, hsent ▸ hrecent,
      hsent ▸ htimes ▸ h.since⟩
  · exact ⟨by omega, by omega, by omega, by omega, by omega⟩

/-- A sweep counts for a request that has been sent lately as it does for one that it sends. -/
theorem Outlasts.swept (h : Outlasts n t clock r) (haged : Aged clock r r') (hlate : t + 1 < clock)
    (hhandled : clock ≤ r'.sent + 1) : Outlasts (n + 1) clock clock r' := by
  have h' := h.aged haged
  have hpast := h'.past
  have hsince := h'.since
  exact ⟨hpast, h'.few, hsince (by omega), hhandled, by omega⟩

end Outlasts

/-- The request at `addr` is on the queue, with at least the packets `ps`, after `n` sweeps. -/
def Queued (addr : Nat) (ps : List SrPacket) (n t : Nat) (s : SrState) : Prop :=
  ∃ r ∈ s.cache.requests, r.addr = addr ∧ ps <:+ r.packets ∧ Outlasts n t s.clock r

/-- It has left the queue since `past`, with at least these packets. -/
def Left (past : List SrEvent) (addr : Nat) (ps : List SrPacket) (s : SrState) : Prop :=
  ∃ r es, r.addr = addr ∧ ps <:+ r.packets ∧ s.history = past ++ es ∧ ∃ e ∈ es, e.Settles r

/-- One or the other. -/
structure Waits (past : List SrEvent) (addr : Nat) (ps : List SrPacket) (n t : Nat) (s : SrState) :
    Prop where
  grown : past <+: s.history
  fate : Queued addr ps n t s ∨ Left past addr ps s

section Waits

variable {sr : SrConfig} {s₀ s s' : SrState} {i : SrInput} {past : List SrEvent} {addr n t : Nat}
  {ps : List SrPacket}

theorem Left.grows (h : Left past addr ps s) (hgrows : s.history <+: s'.history) :
    Left past addr ps s' := by
  obtain ⟨r, es, haddr, hps, hhist, e, he, hsettles⟩ := h
  obtain ⟨new, hnew⟩ := hgrows
  refine ⟨r, es ++ new, haddr, hps, ?_, e, List.mem_append_left _ he, hsettles⟩
  rw [← hnew, hhist, List.append_assoc]

/-- The last event takes the request off the queue. -/
theorem left_of_event {r : SrArpreq} {e : SrEvent} (hgrown : past <+: s.history)
    (haddr : r.addr = addr) (hps : ps <:+ r.packets) (hhist : s'.history = s.history ++ [e])
    (hsettles : e.Settles r) : Left past addr ps s' := by
  obtain ⟨es, hes⟩ := hgrown
  refine ⟨r, es ++ [e], haddr, hps, ?_, e, by simp, hsettles⟩
  rw [hhist, ← hes, List.append_assoc]

theorem Waits.move (haddrs : AddrsOk s.cache) (h : Waits past addr ps n t s)
    (hmove : QueueMove sr s₀ i s s') : Waits past addr ps n t s' := by
  refine ⟨h.grown.trans hmove.history_grows, ?_⟩
  rcases h.fate with ⟨r, hr, haddr, hps, hout⟩ | hleft
  · rcases hmove.fate haddrs hr with ⟨r', hr', haged⟩ | ⟨e, hlast, hsettles⟩
    · refine .inl ⟨r', hr', haged.addr.trans haddr, hps.trans haged.packets, ?_⟩
      rw [hmove.clock]
      exact hout.aged haged
    · exact .inr (left_of_event h.grown haddr hps hlast hsettles)
  · exact .inr (hleft.grows hmove.history_grows)

theorem Waits.moves (haddrs : AddrsOk s.cache) (h : Waits past addr ps n t s)
    (hmoves : QueueMoves sr s₀ i s s') : Waits past addr ps n t s' :=
  hmoves.keep (P := Waits past addr ps n t) (fun _ _ haddrs h hmove => h.move haddrs hmove)
    haddrs h

theorem Waits.begun (h : Waits past addr ps n t s) (hle : s.clock ≤ i.now) :
    Waits past addr ps n t (s.begun i) := by
  obtain ⟨new, hnew, -⟩ := s.begun_history i
  have hgrows : s.history <+: (s.begun i).history := ⟨new, hnew.symm⟩
  refine ⟨h.grown.trans hgrows, ?_⟩
  rcases h.fate with ⟨r, hr, haddr, hps, hout⟩ | hleft
  · refine .inl ⟨r, by rwa [SrState.begun_requests], haddr, hps, ?_⟩
    rw [SrState.begun_clock]
    exact hout.mono hle
  · exact .inr (hleft.grows hgrows)

/-- A step keeps the count. -/
theorem Waits.step (haddrs : AddrsOk s.cache) (h : Waits past addr ps n t s)
    (hle : s.clock ≤ i.now) (hstep : srStep sr s i = .ok s') : Waits past addr ps n t s' :=
  (h.begun hle).moves (haddrs.begun i) (srStep_queueMoves haddrs hstep)

/-- Handling the request adds one to the count. -/
theorem Queued.handle (haddrs : AddrsOk s.cache) (hgrown : past <+: s.history)
    (h : Queued addr ps n t s) (hlate : t + 1 < s.clock)
    (hhandle : srArpreqHandle sr s addr = .ok s') :
    Queued addr ps (n + 1) s.clock s' ∨ Left past addr ps s' := by
  obtain ⟨r, hr, rfl, hps, hout⟩ := h
  obtain ⟨before, r₀, after, hsplit, haddr⟩ := exists_split_of_srArpreqHandle hhandle
  have hr₀ : r₀ ∈ s.cache.requests := by
    rw [hsplit]
    exact mem_split.mpr (.inl rfl)
  have hsame : r₀ = r := List.inj_on_of_nodup_map haddrs.nodup hr₀ hr haddr
  subst hsame
  rcases srArpreqHandle_cases hsplit haddrs.nodup hhandle with
    ⟨hdue, rfl⟩ | ⟨-, -, rfl⟩ | ⟨hdue, hbelow, iface, frame, rfl⟩
  · exact .inl ⟨r₀, hr, rfl, hps,
      hout.swept ⟨rfl, List.suffix_refl _, .inl ⟨rfl, rfl⟩⟩ hlate (by omega)⟩
  · exact .inr (left_of_event hgrown rfl hps rfl (.inr rfl))
  · refine .inl ⟨r₀.resent s.clock, mem_split.mpr (.inl rfl), rfl, hps, ?_⟩
    exact hout.swept ⟨rfl, List.suffix_refl _, .inr ⟨hdue, hbelow, rfl, rfl⟩⟩ hlate
      (Nat.le_succ _)

/-- A sweep more than a second after the last one that was counted counts. -/
theorem Waits.sweep {now : Nat} {mem : Memory} (haddrs : AddrsOk s.cache)
    (h : Waits past addr ps n t s) (hle : s.clock ≤ now) (hlate : t + 1 < now)
    (hstep : srStep sr s (.timeout now mem) = .ok s') : Waits past addr ps (n + 1) now s' := by
  have hbegun : Waits past addr ps n t (s.begun (.timeout now mem)) := h.begun hle
  have haddrs' := haddrs.begun (.timeout now mem)
  have hmoves := srStep_queueMoves haddrs hstep
  have hsweep : srArpcacheSweepreqs sr (s.begun (.timeout now mem)) = .ok s' := hstep
  rw [srArpcacheSweepreqs_eq haddrs'.nodup] at hsweep
  have hclock : (s.begun (.timeout now mem)).clock = now := rfl
  generalize s.begun (.timeout now mem) = b at *
  rcases hbegun.fate with ⟨r, hr, haddr, -⟩ | hleft
  · have hmem : addr ∈ b.cache.requests.map SrArpreq.addr := haddr ▸ List.mem_map_of_mem hr
    obtain ⟨first, last, hsplit⟩ := List.append_of_mem hmem
    rw [hsplit, run_append] at hsweep
    obtain ⟨s₁, hfirst, hsweep⟩ := bind_eq_ok.mp hsweep
    obtain ⟨s₂, hhandle, hlast⟩ := run_cons.mp hsweep
    -- the requests in front of it, the request, and the ones behind it
    have hmoves₁ : QueueMoves sr b (.timeout now mem) b s₁ :=
      run_srArpreqHandle_queueMoves haddrs' hfirst
    have haddrs₁ := haddrs'.queueMoves hmoves₁
    have hbefore := hbegun.moves haddrs' hmoves₁
    have hmoves₂ : QueueMoves sr b (.timeout now mem) s₁ s₂ :=
      srArpreqHandle_queueMoves haddrs₁ hhandle
    have haddrs₂ := haddrs₁.queueMoves hmoves₂
    have hmoves₃ : QueueMoves sr b (.timeout now mem) s₂ s' :=
      run_srArpreqHandle_queueMoves haddrs₂ hlast
    have hclock₁ : s₁.clock = now := hmoves₁.clock.trans hclock
    have hhandled : Waits past addr ps (n + 1) now s₂ := by
      refine ⟨hbefore.grown.trans hmoves₂.history_grows, ?_⟩
      rcases hbefore.fate with hqueued | hleft
      · rw [← hclock₁] at hlate ⊢
        exact hqueued.handle haddrs₁ hbefore.grown hlate hhandle
      · exact .inr (hleft.grows hmoves₂.history_grows)
    exact hhandled.moves haddrs₂ hmoves₃
  · exact ⟨hbegun.grown.trans hmoves.history_grows, .inr (hleft.grows hmoves.history_grows)⟩

end Waits

/-! ## Runs

The count over a run with other inputs in between, for any choice of sweeps that are far enough
apart. -/

/-- The times at which the timeout thread wakes up. -/
def sweepTimes (inputs : List SrInput) : List Nat :=
  inputs.flatMap fun
    | .frame .. => []
    | .timeout now _ => [now]

section Runs

variable {sr : SrConfig} {s s' : SrState} {inputs later : List SrInput} {i : SrInput}

theorem srStep_clock (haddrs : AddrsOk s.cache) (hstep : srStep sr s i = .ok s') :
    s'.clock = i.now :=
  (srStep_queueMoves haddrs hstep).clock.trans (s.begun_clock i)

/-- The next step is not earlier than the last one, and not in the first two seconds. -/
theorem clock_le_now (hclock : ClockOk (inputs ++ [i])) (hrun : srRun sr inputs = .ok s) :
    s.clock ≤ i.now ∧ 2 ≤ i.now := by
  rw [ClockOk, List.map_append, ← List.cons_append, List.pairwise_append] at hclock
  have hlast := fun t ht => hclock.2.2 t ht i.now (by simp)
  refine ⟨?_, hlast 2 (by simp)⟩
  cases inputs using List.reverseRecOn with
  | nil =>
      cases hrun
      exact Nat.zero_le _
  | append_singleton is j =>
      obtain ⟨t, ht, hstep⟩ := run_snoc.mp hrun
      rw [srStep_clock (disciplined_of_srRun ht).1 hstep]
      exact hlast j.now (by simp)

theorem ClockOk.left (hclock : ClockOk (inputs ++ later)) : ClockOk inputs := by
  rw [ClockOk, List.map_append, ← List.cons_append, List.pairwise_append] at hclock
  exact hclock.1

/-- No request on the queue was sent in the future, or more than five times. -/
theorem outlasts_zero (hclock : ClockOk inputs) (hrun : srRun sr inputs = .ok s) :
    ∀ r ∈ s.cache.requests, Outlasts 0 0 s.clock r := by
  refine run_induction (P := fun is s => ClockOk is → ∀ r ∈ s.cache.requests,
    Outlasts 0 0 s.clock r) ?_ ?_ hrun hclock
  · intro _ r hr
    cases hr
  · intro is i t t' ht ih hstep hclock
    have haddrs := (disciplined_of_srRun ht).1
    have hkeep := QueueMoves.keep
      (P := fun x => ∀ r ∈ x.cache.requests, Outlasts 0 0 x.clock r) ?_ (haddrs.begun i) ?_
      (srStep_queueMoves haddrs hstep)
    · exact hkeep
    · intro x x' hx hall hmove r' hr'
      rw [hmove.clock]
      rcases hmove.comes_from hx hr' with ⟨r, hr, haged⟩ | ⟨hsent, htimes⟩
      · exact (hall r hr).aged haged
      · exact ⟨by omega, by omega, by omega, by omega, by omega⟩
    · rw [SrState.begun_requests, SrState.begun_clock]
      exact fun r hr => (ih hclock.left r hr).mono (clock_le_now hclock ht).1

/-- The count of the sweeps that are more than a second apart. -/
theorem waits_of_run (hrun : srRun sr inputs = .ok s) (hlater : run (srStep sr) s later = .ok s')
    (hclock : ClockOk (inputs ++ later)) {r : SrArpreq} (hr : r ∈ s.cache.requests)
    {ts : List Nat} (hts : ts.Sublist (sweepTimes later)) (hapart : ts.IsChain fun t t' => t + 1 < t') :
    Waits s.history r.addr r.packets ts.length (ts.getLast?.getD 0) s' := by
  refine run_induction (P := fun is t => ClockOk (inputs ++ is) → ∀ ts : List Nat,
    ts.Sublist (sweepTimes is) → (ts.IsChain fun t t' => t + 1 < t') →
    Waits s.history r.addr r.packets ts.length (ts.getLast?.getD 0) t) ?_ ?_ hlater hclock ts hts
    hapart
  · intro hclock ts hts _
    rw [List.sublist_nil.mp hts]
    exact ⟨List.prefix_refl _, .inl ⟨r, hr, rfl, List.suffix_refl _,
      outlasts_zero hclock.left hrun r hr⟩⟩
  · intro is i t t' ht ih hstep hclock ts hts hapart
    rw [← List.append_assoc] at hclock
    have hwhole : srRun sr (inputs ++ is) = .ok t := by
      rw [srRun, run_append, ← srRun, hrun]
      exact ht
    obtain ⟨hle, htwo⟩ := clock_le_now hclock hwhole
    have haddrs := (disciplined_of_srRun hwhole).1
    rw [sweepTimes, List.flatMap_append, ← sweepTimes, ← sweepTimes] at hts
    -- the step contributes at most one of the counted sweeps, the last one
    obtain ⟨before, last, rfl, hbefore, hlast⟩ := List.sublist_append_iff.mp hts
    obtain ⟨hchain, -, hnext⟩ := List.isChain_append.mp hapart
    have hwaits := ih hclock.left before hbefore hchain
    cases i with
    | frame interface packet now mem =>
        have hnone : last = [] := List.sublist_nil.mp hlast
        rw [hnone, List.append_nil]
        exact hwaits.step haddrs hle hstep
    | timeout now mem =>
        rcases List.sublist_singleton.mp hlast with hnone | hone
        · rw [hnone, List.append_nil]
          exact hwaits.step haddrs hle hstep
        · -- the sweep is one of those that are counted
          have hlate : before.getLast?.getD 0 + 1 < now := by
            cases hprev : before.getLast? with
            | none => exact htwo
            | some u => exact hnext u hprev now (by rw [hone]; rfl)
          rw [hone, List.length_append, List.getLast?_concat]
          exact hwaits.sweep haddrs hle hlate hstep

/-- **No request is on the queue for long.** Six sweeps that are more than a second apart take every
request off the queue that was there before, with all the packets it had: it was answered, or it was
given up. -/
theorem settled_by_sixSweeps (hrun : srRun sr inputs = .ok s)
    (hlater : run (srStep sr) s later = .ok s') (hclock : ClockOk (inputs ++ later)) {r : SrArpreq}
    (hr : r ∈ s.cache.requests) {ts : List Nat} (hts : ts.Sublist (sweepTimes later))
    (hapart : ts.IsChain fun t t' => t + 1 < t') (hsix : 6 ≤ ts.length) :
    ∃ r' es, r'.addr = r.addr ∧ r.packets <:+ r'.packets ∧ s'.history = s.history ++ es ∧
      (.answered r' ∈ es ∨ .destroyed r' ∈ es) := by
  rcases (waits_of_run hrun hlater hclock hr hts hapart).fate with ⟨x, -, -, -, hout⟩ | hleft
  · exact absurd (Nat.le_trans hsix (Nat.le_trans hout.sweeps hout.few)) (by decide)
  · obtain ⟨r', es, haddr, hps, hhist, e, he, rfl | rfl⟩ := hleft
    · exact ⟨r', es, haddr, hps, hhist, .inl he⟩
    · exact ⟨r', es, haddr, hps, hhist, .inr he⟩

end Runs

/-! ## What an answer does

An answer flushes the request in the same step. The flush sends, as long as the mapping has got a
slot. -/

/-- The input is a frame that the request has waited for. -/
def Awaited (sr : SrConfig) (s : SrState) (i : SrInput) (r : SrArpreq) : Prop :=
  ∃ interface packet now mem mac, i = .frame interface packet now mem ∧
    Teaches sr r.ip mac (.received interface packet) ∧ srArpcacheLookup s.cache r.ip = none ∧
    (srArpcacheInsert s.cache mac r.ip now).2 = some r

/-- An ARP frame from the IP of the request has come, and everything that waited on the request has
been sent, in order, to the address that the frame has told. -/
def SentOff (sr : SrConfig) (r : SrArpreq) (es : List SrEvent) : Prop :=
  ∃ interface packet mac sent, Teaches sr r.ip mac (.received interface packet) ∧
    .received interface packet :: .answered r :: sent <:+: es ∧
    List.Forall₂ (SentTo sr mac) r.packets sent

section Answers

variable {sr : SrConfig} {s₀ s s' : SrState} {i : SrInput} {r : SrArpreq} {es later : List SrEvent}

theorem SentOff.mono (h : SentOff sr r es) (hsub : es <:+: later) : SentOff sr r later := by
  obtain ⟨interface, packet, mac, sent, hteach, hes, hall⟩ := h
  exact ⟨interface, packet, mac, sent, hteach, hes.trans hsub, hall⟩

/-- Requests are answered by the frame that has just been received. -/
theorem QueueMove.awaited (hclock : s₀.clock = i.now) (hmove : QueueMove sr s₀ i s s')
    (h : ∃ es, s.history = s₀.history ++ es ∧ ∀ r, .answered r ∈ es → Awaited sr s₀ i r) :
    ∃ es, s'.history = s₀.history ++ es ∧ ∀ r, .answered r ∈ es → Awaited sr s₀ i r := by
  obtain ⟨es, hhist, hes⟩ := h
  -- an event that is not an answer
  have hother : ∀ {s : SrState} {e : SrEvent}, s.history = s₀.history ++ es →
      (∀ r, e ≠ .answered r) → ∃ es, (s.emit e).history = s₀.history ++ es ∧
        ∀ r, .answered r ∈ es → Awaited sr s₀ i r := by
    intro s e hhist hne
    refine ⟨es ++ [e], by simp [hhist], fun r hr => ?_⟩
    rcases List.mem_append.mp hr with hr | hr
    · exact hes r hr
    · exact absurd (List.mem_singleton.mp hr).symm (hne r)
  cases hmove with
  | receive => exact hother hhist (by simp)
  | forward => exact hother hhist (by simp)
  | transmit => exact hother hhist (by simp)
  | enqueue => exact ⟨es, hhist, hes⟩
  | ask => exact hother (s := s.withRequests _) hhist (by simp)
  | giveUp => exact hother (s := s.withRequests _) hhist (by simp)
  | learn => exact ⟨es, hhist, hes⟩
  | @answer interface packet now mem ip mac req input teaches absent awaited =>
      obtain ⟨-, r, -, -, hip, -, hsome⟩ | ⟨-, -, hnone⟩ :=
        srArpcacheInsert_cases s₀.cache mac ip s₀.clock
      · rw [awaited] at hsome
        cases hsome
        subst hip
        have hnow : s₀.clock = now := hclock.trans (by rw [input]; rfl)
        rw [hnow] at awaited
        refine ⟨es ++ [.answered req], ?_, fun r hr => ?_⟩
        · rw [← List.append_assoc, ← hhist]
          rfl
        · rcases List.mem_append.mp hr with hr | hr
          · exact hes r hr
          · cases List.mem_singleton.mp hr
            exact ⟨interface, packet, now, mem, mac, input, teaches, absent, awaited⟩
      · rw [awaited] at hnone
        cases hnone

theorem srStep_awaited (haddrs : AddrsOk s.cache) (hstep : srStep sr s i = .ok s') :
    ∃ es, s'.history = s.history ++ es ∧ ∀ r, .answered r ∈ es → Awaited sr s i r := by
  obtain ⟨es, hhist, hes⟩ := QueueMoves.keep
    (P := fun x => ∃ es, x.history = (s.begun i).history ++ es ∧
      ∀ r, .answered r ∈ es → Awaited sr (s.begun i) i r)
    (fun _ _ _ h hmove => hmove.awaited (s.begun_clock i) h) (haddrs.begun i) ⟨[], by simp⟩
    (srStep_queueMoves haddrs hstep)
  obtain ⟨new, hnew, hexpired⟩ := s.begun_history i
  refine ⟨new ++ es, by rw [hhist, hnew, List.append_assoc], fun r hr => ?_⟩
  rcases List.mem_append.mp hr with hr | hr
  · obtain ⟨ip, mac, heq⟩ := hexpired _ hr
    cases heq
  · obtain ⟨interface, packet, now, mem, mac, rfl, hawaited⟩ := hes r hr
    exact ⟨interface, packet, now, mem, mac, rfl, hawaited⟩

/-- **An answer that is not lost sends what has waited for it**: the mapping gets a slot, so the
flush finds it. -/
theorem Awaited.sentOff (hok : HopsOk sr s.cache) (hroom : ¬ AnswerLost sr s i)
    (h : Awaited sr s i r) (hstep : srStep sr s i = .ok s') :
    ∃ es, s'.history = s.history ++ es ∧ SentOff sr r es := by
  obtain ⟨interface, packet, now, mem, mac, rfl, hteach, habsent, hsome⟩ := h
  have hr : r ∈ s.cache.requests := by
    rcases srArpcacheInsert_cases s.cache mac r.ip now with
      ⟨before, x, after, hsplit, -, -, hx⟩ | ⟨-, -, hnone⟩
    · rw [hsome] at hx
      cases hx
      rw [hsplit]
      exact mem_split.mpr (.inl rfl)
    · rw [hsome] at hnone
      cases hnone
  obtain ⟨hsip, hsha⟩ := hteach.sender
  obtain ⟨k, hk⟩ : ∃ k, (s.cache.entries k).valid = false := by
    by_contra hfull
    push Not at hfull
    refine hroom ⟨by rwa [hsip, hsha], by rwa [hsip], ⟨r, hr, hsip.symm⟩, fun k => ?_⟩
    exact Bool.eq_true_of_not_eq_false (hfull k)
  obtain ⟨slot, hslot⟩ := Option.isSome_iff_exists.mp (freeSlot_isSome.mpr ⟨k, hk⟩)
  have hlookup : srArpcacheLookup (srArpcacheInsert s.cache mac r.ip now).1 r.ip
      = some ⟨mac, r.ip, now, true⟩ := by
    rw [srArpcacheLookup_insert_self mac now habsent, hslot]
    rfl
  obtain ⟨recIf, -, -, heq⟩ := srStep_teaches (s := s) hteach now mem
  rw [heq, learnSender_answers (s := s.arrived interface packet now mem) habsent hsome,
    SrState.arrived_cache, SrState.arrived_clock] at hstep
  split at hstep
  · cases hstep
  · next s₁ hflush =>
    obtain ⟨sent, hs₁, hall⟩ :=
      srArpreqSendPackets_sent (hok.routed r hr) (by exact hlookup) hflush
    have hhist : s₁.history
        = s.history ++ .received interface packet :: .answered r :: sent := by
      rw [hs₁]
      simp
    -- an ARP request is answered behind the flush
    obtain ⟨last, hlast⟩ : ∃ last, s'.history = s₁.history ++ last := by
      split at hstep
      · obtain ⟨iface, dhost, shost, rfl⟩ := fillAndSendPktWith_arp_frame hstep
        exact ⟨[_], rfl⟩
      · cases hstep
        exact ⟨[], by simp⟩
    refine ⟨(.received interface packet :: .answered r :: sent) ++ last, ?_, interface, packet, mac,
      sent, hteach, (List.prefix_append _ last).isInfix, hall⟩
    rw [hlast, hhist, List.append_assoc]

end Answers

section Runs

variable {sr : SrConfig} {s s' : SrState} {inputs later : List SrInput}

/-- **In a run that loses no answer, whatever is answered is sent**, by the step that takes the
answer. -/
theorem sentOff_of_run (hrun : srRun sr inputs = .ok s)
    (hlater : run (srStep sr) s later = .ok s')
    (hroom : Along (srStep sr) s (fun _ t i => ¬ AnswerLost sr t i) later) :
    ∃ es, s'.history = s.history ++ es ∧ ∀ r, .answered r ∈ es → SentOff sr r es := by
  refine run_induction_along (R := fun _ t => ∃ es, t.history = s.history ++ es ∧
    ∀ r, .answered r ∈ es → SentOff sr r es) ⟨[], by simp⟩ ?_ hroom hlater
  intro is i t t' ht ⟨es, hhist, hes⟩ hkept hstep
  have hwhole : srRun sr (inputs ++ is) = .ok t := by
    rw [srRun, run_append, ← srRun, hrun]
    exact ht
  obtain ⟨haddrs, hok⟩ := hopsOk_of_srRun hwhole
  obtain ⟨new, hnew, hawaited⟩ := srStep_awaited haddrs hstep
  refine ⟨es ++ new, by rw [hnew, hhist, List.append_assoc], fun r hr => ?_⟩
  rcases List.mem_append.mp hr with hr | hr
  · exact (hes r hr).mono (List.prefix_append es new).isInfix
  · obtain ⟨new', hnew', hsent⟩ := (hawaited r hr).sentOff hok hkept hstep
    have hsame : new' = new := List.append_cancel_left (hnew'.symm.trans hnew)
    subst hsame
    exact hsent.mono (List.suffix_append es new').isInfix

/-- **No datagram waits for long**, if no answer finds the cache full. After six sweeps that are
more than a second apart, the request that a datagram waited on has been given up, or it has been
answered and all its packets have been sent. -/
theorem waits_bounded (hrun : srRun sr inputs = .ok s) (hlater : run (srStep sr) s later = .ok s')
    (hclock : ClockOk (inputs ++ later))
    (hroom : Along (srStep sr) s (fun _ t i => ¬ AnswerLost sr t i) later) {r : SrArpreq}
    (hr : r ∈ s.cache.requests) {ts : List Nat} (hts : ts.Sublist (sweepTimes later))
    (hapart : ts.IsChain fun t t' => t + 1 < t') (hsix : 6 ≤ ts.length) :
    ∃ r' es, r'.addr = r.addr ∧ r.packets <:+ r'.packets ∧ s'.history = s.history ++ es ∧
      (SentOff sr r' es ∨ .destroyed r' ∈ es) := by
  obtain ⟨r', es, haddr, hps, hhist, hsettled⟩ :=
    settled_by_sixSweeps hrun hlater hclock hr hts hapart hsix
  obtain ⟨es', hhist', hsent⟩ := sentOff_of_run hrun hlater hroom
  have hsame : es' = es := List.append_cancel_left (hhist'.symm.trans hhist)
  subst hsame
  exact ⟨r', es', haddr, hps, hhist, hsettled.imp_left (hsent r')⟩

end Runs

/-- The client's datagram waits, and so does one for the other server; the first server answers
between two sweeps, and the other one never does. -/
def serversWait : List SrInput :=
  [.frame "eth3" (clientFrame 64 (dotted 192 168 2 2)) 5 srInit.mem,
    .frame "eth3" (clientFrame 64 (dotted 172 64 3 10)) 6 srInit.mem]

/-- The timeout thread wakes up every other second. -/
def sixSweeps : List SrInput :=
  [8, 10].map (.timeout · srInit.mem) ++ [.frame "eth1" serverArpReply 11 srInit.mem] ++
    [12, 14, 16, 18].map (.timeout · srInit.mem)

theorem waits_bounded_serversWait : ∃ s s', srRun rtableConfig serversWait = .ok s ∧
    run (srStep rtableConfig) s sixSweeps = .ok s' ∧ s.cache.requests.length = 2 ∧
    ∀ r ∈ s.cache.requests, ∃ r' es, r'.addr = r.addr ∧ r.packets <:+ r'.packets ∧
      s'.history = s.history ++ es ∧ (SentOff rtableConfig r' es ∨ .destroyed r' ∈ es) := by
  obtain ⟨s, hrun, hcheck⟩ : ∃ s, srRun rtableConfig serversWait = .ok s ∧
      (decide (s.cache.requests.length = 2) &&
        alongCheck (srStep rtableConfig) (fun t _ => (freeSlot t.cache.entries).isSome) s sixSweeps &&
        (run (srStep rtableConfig) s sixSweeps).toOption.isSome) = true :=
    exists_ok_of_check (by decide +kernel)
  simp only [Bool.and_eq_true, decide_eq_true_eq] at hcheck
  obtain ⟨⟨htwo, hfree⟩, hends⟩ := hcheck
  have hroom : Along (srStep rtableConfig) s (fun _ t i => ¬ AnswerLost rtableConfig t i)
      sixSweeps := by
    refine (along_of_check hfree).imp fun _ i t _ _ hslot hlost => ?_
    obtain ⟨k, hk⟩ := freeSlot_isSome.mp hslot
    cases i with
    | frame interface packet now mem =>
        rw [hlost.2.2.2 k] at hk
        cases hk
    | timeout now mem => exact hlost
  cases hlater : run (srStep rtableConfig) s sixSweeps with
  | error e =>
      rw [hlater] at hends
      cases hends
  | ok s' =>
      refine ⟨s, s', hrun, hlater, htwo, fun r hr => ?_⟩
      have hapart : List.IsChain (fun t t' => t + 1 < t') [8, 10, 12, 14, 16, 18] := by decide
      exact waits_bounded hrun hlater (by unfold ClockOk; decide) hroom hr (List.Sublist.refl _)
        hapart (by decide)

end NetworkProjects.Router
