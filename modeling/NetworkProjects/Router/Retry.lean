import NetworkProjects.Router.QueueMoves
import Mathlib.Data.List.Chain

/-!
# The life of a request: how often it is sent, and how it leaves the queue

`sr_arpreq_handle` is called from two places, for every packet that is queued and for every
request in every sweep. `Disciplined` ties `sent` and `times_sent` of a request to the calls of
`send_arp_request` in the history, and says that a request that is no longer queued has left a
trace there: it was answered or destroyed.

An answered request takes its packets along and nobody waits for its IP any more. That is right if
the mapping is in the cache from then on, and it is not when all slots are taken:
`sr_arpcache_insert` takes the request off the queue all the same. `retryDiscipline_iff` says that
this is the only way in which a run can break the discipline.
-/

namespace NetworkProjects.Router

open NetworkProjects.Lib

/-! ## The calls of `send_arp_request`

The history records each call with the clock. What is said of a request is said of its calls. -/

/-- The clock, if the event is a call of `send_arp_request` for the request at `addr`. -/
def SrEvent.sendTime (addr : Nat) : SrEvent → List Nat
  | .arpRequested a now => if a = addr then [now] else []
  | _ => []

/-- When `send_arp_request` was called for the request at `addr`. -/
def sendTimes (addr : Nat) (h : List SrEvent) : List Nat := h.flatMap (SrEvent.sendTime addr)

/-- At most five calls, each more than a second after the one before. -/
structure Spaced (times : List Nat) : Prop where
  five : times.length ≤ 5
  apart : times.IsChain fun t t' => t + 1 < t'

theorem spaced_nil : Spaced [] := ⟨by simp, by simp⟩

/-- One more call, more than a second after the last of fewer than five. -/
theorem Spaced.snoc {times : List Nat} {now : Nat} (h : Spaced times) (hfew : times.length < 5)
    (hlast : ∀ t, times.getLast? = some t → t + 1 < now) : Spaced (times ++ [now]) where
  five := by rwa [List.length_append, List.length_singleton]
  apart := by
    rw [List.isChain_append]
    refine ⟨h.apart, by simp, ?_⟩
    intro t ht t' ht'
    cases ht'
    exact hlast t ht

theorem sendTimes_append (addr : Nat) (h es : List SrEvent) :
    sendTimes addr (h ++ es) = sendTimes addr h ++ sendTimes addr es := List.flatMap_append

/-! ## The invariant

The four parts: no calls for an address that is not in use, the calls of a queued request are what
its fields say, calls are spaced, and a request that is gone has an event. -/

/-- The queue agrees with the history. -/
structure Disciplined (s : SrState) : Prop where
  /-- Nothing was sent for a request that does not exist yet. -/
  fresh : ∀ addr, s.cache.brk ≤ addr → sendTimes addr s.history = []
  /-- `times_sent` counts the calls, and `sent` is the clock of the last one. -/
  queued : ∀ r ∈ s.cache.requests, (sendTimes r.addr s.history).length = r.timesSent ∧
    ∀ t, (sendTimes r.addr s.history).getLast? = some t → t = r.sent
  spaced : ∀ addr, Spaced (sendTimes addr s.history)
  /-- A request that is not on the queue was answered or destroyed. -/
  gone : ∀ addr < s.cache.brk, (∃ r ∈ s.cache.requests, r.addr = addr) ∨
    ∃ r, r.addr = addr ∧ (.answered r ∈ s.history ∨ .destroyed r ∈ s.history)

section Invariant

variable {sr : SrConfig} {s₀ s s' : SrState} {i : SrInput}

/-- Events other than calls, and requests that are as before but for their packets. -/
theorem Disciplined.same (h : Disciplined s) (es : List SrEvent)
    (hbrk : s'.cache.brk = s.cache.brk)
    (haddr : s'.cache.requests.map SrArpreq.addr = s.cache.requests.map SrArpreq.addr)
    (hreqs : ∀ r ∈ s'.cache.requests, ∃ r₀ ∈ s.cache.requests,
      r.addr = r₀.addr ∧ r.timesSent = r₀.timesSent ∧ r.sent = r₀.sent)
    (hhist : s'.history = s.history ++ es) (hes : ∀ addr, sendTimes addr es = []) :
    Disciplined s' := by
  have hsent : ∀ addr, sendTimes addr s'.history = sendTimes addr s.history := by
    intro addr
    rw [hhist, sendTimes_append, hes, List.append_nil]
  refine ⟨?_, ?_, ?_, ?_⟩
  · intro addr haddr
    rw [hsent]
    exact h.fresh addr (hbrk ▸ haddr)
  · intro r hr
    obtain ⟨r₀, hr₀, ha, htimes, hlast⟩ := hreqs r hr
    rw [hsent, ha, htimes, hlast]
    exact h.queued r₀ hr₀
  · intro addr
    rw [hsent]
    exact h.spaced addr
  · intro addr hlt
    rw [hbrk] at hlt
    rcases h.gone addr hlt with ⟨r, hr, heq⟩ | ⟨r, heq, hev⟩
    · have hmem : addr ∈ s'.cache.requests.map SrArpreq.addr := by
        rw [haddr, ← heq]
        exact List.mem_map_of_mem hr
      obtain ⟨r', hr', heq'⟩ := List.mem_map.mp hmem
      exact .inl ⟨r', hr', heq'⟩
    · refine .inr ⟨r, heq, ?_⟩
      rw [hhist]
      exact hev.imp (List.mem_append_left _) (List.mem_append_left _)

/-- One event that is no call. -/
theorem Disciplined.emit {e : SrEvent} (h : Disciplined s) (he : ∀ addr, e.sendTime addr = []) :
    Disciplined (s.emit e) := by
  refine h.same [e] rfl rfl ?_ rfl ?_
  · exact fun r hr => ⟨r, hr, rfl, rfl, rfl⟩
  · intro addr
    simp [sendTimes, he addr]

/-- A request leaves the queue and is written down. -/
theorem Disciplined.leave {before after : List SrArpreq} {r : SrArpreq} {e : SrEvent}
    (h : Disciplined s) (hsplit : s.cache.requests = before ++ r :: after)
    (hbrk : s'.cache.brk = s.cache.brk) (hreqs : s'.cache.requests = before ++ after)
    (hhist : s'.history = s.history ++ [e]) (he : e = .answered r ∨ e = .destroyed r) :
    Disciplined s' := by
  have hsent : ∀ addr, sendTimes addr s'.history = sendTimes addr s.history := by
    intro addr
    rw [hhist, sendTimes_append]
    rcases he with rfl | rfl <;> simp [sendTimes, SrEvent.sendTime]
  have hmem : ∀ x ∈ before ++ after, x ∈ s.cache.requests := by
    intro x hx
    rw [hsplit]
    exact mem_split.mpr (.inr hx)
  refine ⟨?_, ?_, ?_, ?_⟩
  · intro addr haddr
    rw [hsent]
    exact h.fresh addr (hbrk ▸ haddr)
  · intro x hx
    rw [hsent]
    exact h.queued x (hmem x (hreqs ▸ hx))
  · intro addr
    rw [hsent]
    exact h.spaced addr
  · intro addr hlt
    rw [hbrk] at hlt
    rw [hreqs, hhist]
    rcases h.gone addr hlt with ⟨x, hx, heq⟩ | ⟨x, heq, hev⟩
    · rw [hsplit] at hx
      -- the one that left has its event, and the others are still there
      rcases mem_split.mp hx with rfl | hx
      · refine .inr ⟨x, heq, ?_⟩
        rcases he with rfl | rfl <;> simp
      · exact .inl ⟨x, hx, heq⟩
    · exact .inr ⟨x, heq, hev.imp (List.mem_append_left _) (List.mem_append_left _)⟩

/-- A call of `send_arp_request` is counted. -/
theorem Disciplined.ask {before after : List SrArpreq} {r : SrArpreq} (h : Disciplined s)
    (haddrs : AddrsOk s.cache) (hsplit : s.cache.requests = before ++ r :: after)
    (hdue : r.sent + 1 < s.clock) (hbelow : r.timesSent < 5) :
    Disciplined ((s.withRequests (before ++ r.resent s.clock :: after)).emit
      (.arpRequested r.addr s.clock)) := by
  have hr := h.queued r (by simp [hsplit])
  have hnd := haddrs.nodup
  rw [hsplit] at hnd
  have hself : sendTimes r.addr (s.history ++ [.arpRequested r.addr s.clock])
      = sendTimes r.addr s.history ++ [s.clock] := by
    simp [sendTimes, SrEvent.sendTime]
  have hother : ∀ addr, addr ≠ r.addr →
      sendTimes addr (s.history ++ [.arpRequested r.addr s.clock])
        = sendTimes addr s.history := by
    intro addr hne
    simp [sendTimes, SrEvent.sendTime, hne.symm]
  refine ⟨?_, ?_, ?_, ?_⟩
  · intro addr haddr
    have hlt := haddrs.lt_brk r (by simp [hsplit])
    have hne : addr ≠ r.addr := fun heq => absurd hlt (Nat.not_lt.mpr (heq ▸ haddr))
    show sendTimes addr (s.history ++ _) = []
    rw [hother addr hne]
    exact h.fresh addr haddr
  · intro x hx
    show (sendTimes x.addr (s.history ++ _)).length = _ ∧ _
    -- the request that was called for, or one at another address
    rcases mem_split.mp hx with rfl | hx
    · rw [SrArpreq.resent_addr, SrState.emit_history, SrState.withRequests_history, hself]
      simp [hr.1]
    · obtain ⟨hmem, hne⟩ := mem_of_split hnd hx
      rw [SrState.emit_history, SrState.withRequests_history, hother x.addr hne]
      exact h.queued x (hsplit ▸ hmem)
  · intro addr
    show Spaced (sendTimes addr (s.history ++ _))
    by_cases heq : addr = r.addr
    · rw [heq, hself]
      apply (h.spaced r.addr).snoc (by omega)
      intro t ht
      rw [hr.2 t ht]
      exact hdue
    · rw [hother addr heq]
      exact h.spaced addr
  · intro addr hlt
    rcases h.gone addr hlt with ⟨x, hx, heq⟩ | ⟨x, heq, hev⟩
    · have hmem : addr ∈ (before ++ r.resent s.clock :: after).map SrArpreq.addr := by
        rw [hsplit] at hx
        simpa [← heq] using List.mem_map_of_mem (f := SrArpreq.addr) hx
      obtain ⟨x', hx', heq'⟩ := List.mem_map.mp hmem
      exact .inl ⟨x', hx', heq'⟩
    · exact .inr ⟨x, heq, hev.imp (List.mem_append_left _) (List.mem_append_left _)⟩

/-- A packet lands on a request that is there, or on a new one that has not been sent. -/
theorem Disciplined.enqueue (h : Disciplined s) (haddrs : AddrsOk s.cache) (ip : InAddr)
    (packet : Bytes) (iface : String) :
    Disciplined (s.withCache (srArpcacheQueuereq s.cache ip packet iface).1) := by
  rcases srArpcacheQueuereq_split haddrs ip packet iface with
    ⟨before, r, after, hsplit, -, heq⟩ | ⟨-, heq⟩
  · rw [heq]
    refine h.same [] rfl (by simp [hsplit]) ?_ (by simp) (by simp [sendTimes])
    intro x hx
    rcases mem_split.mp hx with rfl | hx
    · exact ⟨r, by simp [hsplit], rfl, rfl, rfl⟩
    · refine ⟨x, ?_, rfl, rfl, rfl⟩
      rw [hsplit]
      exact mem_split.mpr (.inr hx)
  · rw [heq]
    refine ⟨?_, ?_, h.spaced, ?_⟩
    · intro addr haddr
      exact h.fresh addr (Nat.le_of_succ_le haddr)
    · intro x hx
      rcases List.mem_cons.mp hx with rfl | hx
      · simp [h.fresh s.cache.brk (Nat.le_refl _)]
      · exact h.queued x hx
    · intro addr hlt
      rcases Nat.lt_succ_iff_lt_or_eq.mp hlt with hlt | rfl
      · rcases h.gone addr hlt with ⟨x, hx, heq⟩ | hev
        · exact .inl ⟨x, List.mem_cons_of_mem _ hx, heq⟩
        · exact .inr hev
      · exact .inl ⟨_, List.mem_cons_self, rfl⟩

theorem Disciplined.move (haddrs : AddrsOk s.cache) (h : Disciplined s)
    (hmove : QueueMove sr s₀ i s s') : Disciplined s' := by
  cases hmove with
  | receive => exact h.emit fun _ => rfl
  | forward => exact h.emit fun _ => rfl
  | transmit => exact h.emit fun _ => rfl
  | enqueue => exact h.enqueue haddrs _ _ _
  | ask hsplit hdue hbelow => exact h.ask haddrs hsplit hdue hbelow
  | giveUp hsplit => exact h.leave hsplit rfl rfl rfl (.inr rfl)
  | @learn interface packet now mem ip mac _ _ _ unawaited =>
      rcases srArpcacheInsert_cases s₀.cache mac ip s₀.clock with
        ⟨_, r, _, -, -, -, hsome⟩ | ⟨-, hreqs, -⟩
      · rw [unawaited] at hsome
        cases hsome
      · refine h.same [] rfl (congrArg _ hreqs) ?_ (by simp) (by simp [sendTimes])
        intro r hr
        exact ⟨r, hreqs ▸ hr, rfl, rfl, rfl⟩
  | @answer interface packet now mem ip mac req _ _ _ awaited =>
      rcases srArpcacheInsert_cases s₀.cache mac ip s₀.clock with
        ⟨before, r, after, hsplit, -, hreqs, hsome⟩ | ⟨-, -, hnone⟩
      · rw [awaited] at hsome
        cases hsome
        exact h.leave (s := s₀.emit _) hsplit rfl hreqs rfl (.inl rfl)
      · rw [awaited] at hnone
        cases hnone

theorem disciplined_init : Disciplined srInit where
  fresh := fun _ _ => rfl
  queued := by simp [srInit, srArpcacheInit]
  spaced := fun _ => spaced_nil
  gone := by simp [srInit, srArpcacheInit]

/-- Nothing is sent before the moves of a step begin. -/
theorem Disciplined.begun (h : Disciplined s) (i : SrInput) : Disciplined (s.begun i) := by
  obtain ⟨es, hhist, hes⟩ := s.begun_history i
  refine h.same es (by simp) (by simp) ?_ hhist ?_
  · exact fun r hr => ⟨r, by simpa using hr, rfl, rfl, rfl⟩
  · intro addr
    apply List.flatMap_eq_nil_iff.mpr
    intro e he
    obtain ⟨ip, mac, rfl⟩ := hes e he
    rfl

/-- **Every request is sent at most five times, and never twice within a second**, whatever the
router receives. -/
theorem disciplined_of_srRun {inputs : List SrInput} (hrun : srRun sr inputs = .ok s) :
    AddrsOk s.cache ∧ Disciplined s := by
  refine srRun_queueRule disciplined_init ?_ ?_ hrun
  · exact fun s i h => h.begun i
  · intro s₀ i s s' haddrs h hmove
    exact h.move haddrs hmove

end Invariant

/-! ## Why a request leaves the queue

`Departure` is what an event that takes a request off the queue must have behind it. An answer that
finds no slot has nothing behind it. -/

/-- What must have happened for an event to take a request off the queue: an ARP frame from its
IP has just been received, and its mapping is in the cache afterwards; or it was sent five times,
the last time more than a second before `now`. -/
def Departure (sr : SrConfig) (now : Nat) (entries : Fin srArpcacheSz → SrArpentry)
    (past : List SrEvent) : SrEvent → Prop
  | .answered r => ∃ before e mac, past = before ++ [e] ∧ Teaches sr r.ip mac e ∧
      ∃ k, (entries k).valid = true ∧ (entries k).ip = r.ip ∧ (entries k).mac = mac
  | .destroyed r => (sendTimes r.addr past).length = 5 ∧
      ∃ t, (sendTimes r.addr past).getLast? = some t ∧ t + 1 < now
  | _ => True

/-- The step that takes `i` in `s` and ends in `s'` keeps the retry discipline. -/
structure StepDiscipline (sr : SrConfig) (s : SrState) (i : SrInput) (s' : SrState) : Prop where
  /-- At most five calls for each request, and more than a second between them. -/
  spaced : ∀ addr, Spaced (sendTimes addr s'.history)
  /-- A request that is not on the queue was answered or destroyed. -/
  gone : ∀ addr < s'.cache.brk, (∃ r ∈ s'.cache.requests, r.addr = addr) ∨
    ∃ r, r.addr = addr ∧ (.answered r ∈ s'.history ∨ .destroyed r ∈ s'.history)
  /-- What was answered or destroyed in this step had a reason to leave. -/
  reason : Always (fun past e => s.history.length ≤ past.length →
    Departure sr i.now s'.cache.entries past e) s'.history

/-- Every step of the run keeps the retry discipline. -/
def RetryDiscipline (sr : SrConfig) (inputs : List SrInput) : Prop :=
  Along (srStep sr) srInit
    (fun _ s i => ∀ s', srStep sr s i = .ok s' → StepDiscipline sr s i s') inputs

/-- An ARP frame answers a queued request, and every slot of the cache is taken. -/
def AnswerLost (sr : SrConfig) (s : SrState) : SrInput → Prop
  | .frame interface packet _ _ =>
      Teaches sr (arSip packet) (arSha packet) (.received interface packet) ∧
      srArpcacheLookup s.cache (arSip packet) = none ∧
      (∃ r ∈ s.cache.requests, r.ip = arSip packet) ∧
      ∀ k, (s.cache.entries k).valid = true
  | .timeout _ _ => False

section Reason

variable {sr : SrConfig} {s₀ s s' : SrState} {i : SrInput}

/-- An insertion fills a slot, if one is free. -/
theorem exists_entry_of_insert {c : SrArpcache} (mac : EtherAddr) (ip : InAddr) (now : Nat)
    (hroom : ∃ k, (c.entries k).valid ≠ true) :
    ∃ k, (srArpcacheInsert c mac ip now).1.entries k = ⟨mac, ip, now, true⟩ := by
  obtain ⟨j, hj⟩ := hroom
  cases hslot : freeSlot c.entries with
  | some k => exact ⟨k, by simp [srArpcacheInsert, hslot]⟩
  | none =>
      have hvalid := List.find?_eq_none.mp hslot j (List.mem_finRange j)
      simp [hj] at hvalid

/-- A mapping that an ARP frame teaches is the one in its sender fields. -/
theorem Teaches.sender {ip : InAddr} {mac : EtherAddr} {interface : String} {packet : Bytes}
    (h : Teaches sr ip mac (.received interface packet)) :
    arSip packet = ip ∧ arSha packet = mac := ⟨h.2.2.1, h.2.2.2.1⟩

/-- From the `n`-th event on, requests have left the queue for a reason. -/
def Reasons (sr : SrConfig) (n now : Nat) (entries : Fin srArpcacheSz → SrArpentry)
    (h : List SrEvent) : Prop :=
  Always (fun past e => n ≤ past.length → Departure sr now entries past e) h

/-- The moves of a step take requests off the queue for a reason, if no answer is lost. -/
theorem QueueMove.reasons {n : Nat} (hdisc : Disciplined s) (hclock : s.clock = s₀.clock)
    (hroom : ¬ AnswerLost sr s₀ i)
    (hbegun : ∀ entries, Reasons sr n s₀.clock entries s₀.history)
    (h : Reasons sr n s₀.clock s.cache.entries s.history) (hmove : QueueMove sr s₀ i s s') :
    Reasons sr n s₀.clock s'.cache.entries s'.history := by
  cases hmove with
  | receive => exact always_snoc.mpr ⟨h, fun _ => trivial⟩
  | forward => exact always_snoc.mpr ⟨h, fun _ => trivial⟩
  | transmit => exact always_snoc.mpr ⟨h, fun _ => trivial⟩
  | @enqueue _ dip rt packet =>
      have hentries := srArpcacheQueuereq_entries s.cache rt.gw packet rt.interface
      rw [SrState.withCache_cache, SrState.withCache_history, hentries]
      exact h
  | ask => exact always_snoc.mpr ⟨h, fun _ => trivial⟩
  | @giveUp _ before after r hsplit hdue hlimit =>
      -- the request says that it was sent five times, and the log of the sends agrees with it
      refine always_snoc.mpr ⟨h, fun _ => ?_⟩
      obtain ⟨htimes, hlast⟩ := hdisc.queued r (by simp [hsplit])
      have hfive := (hdisc.spaced r.addr).five
      show (sendTimes r.addr s.history).length = 5 ∧ _
      refine ⟨by omega, ?_⟩
      have hne : sendTimes r.addr s.history ≠ [] := by
        apply List.ne_nil_of_length_pos
        omega
      refine ⟨_, List.getLast?_eq_some_getLast hne, ?_⟩
      rw [hlast _ (List.getLast?_eq_some_getLast hne), ← hclock]
      exact hdue
  | learn => exact always_snoc.mpr ⟨hbegun _, fun _ => trivial⟩
  | @answer interface packet now mem ip mac req input teaches absent awaited =>
      refine always_snoc.mpr ⟨always_snoc.mpr ⟨hbegun _, fun _ => trivial⟩, fun _ => ?_⟩
      obtain ⟨hsip, hsha⟩ := teaches.sender
      rcases srArpcacheInsert_cases s₀.cache mac ip s₀.clock with
        ⟨before, r, after, hsplit, hip, -, hsome⟩ | ⟨-, -, hnone⟩
      · rw [awaited] at hsome
        cases hsome
        -- with every slot in use the answer would be lost
        have hfree : ∃ k, (s₀.cache.entries k).valid ≠ true := by
          by_contra hfull
          apply hroom
          rw [input]
          refine ⟨by rwa [hsip, hsha], by rwa [hsip], ?_, ?_⟩
          · exact ⟨req, by simp [hsplit], by rw [hip, hsip]⟩
          · intro k
            by_contra hk
            exact hfull ⟨k, hk⟩
        obtain ⟨k, hk⟩ := exists_entry_of_insert mac ip s₀.clock hfree
        refine ⟨s₀.history, .received interface packet, mac, rfl, hip ▸ teaches, k, ?_⟩
        simp [hk, hip]
      · rw [awaited] at hnone
        cases hnone

/-- A step keeps the discipline, if it loses no answer. -/
theorem stepDiscipline (haddrs : AddrsOk s.cache) (hdisc : Disciplined s)
    (hroom : ¬ AnswerLost sr s i) (hstep : srStep sr s i = .ok s') :
    StepDiscipline sr s i s' := by
  have hroom' : ¬ AnswerLost sr (s.begun i) i := by
    cases i with
    | frame => exact hroom
    | timeout => exact hroom
  -- before the moves begin, only entries expire
  have hquiet : ∀ entries,
      Reasons sr s.history.length (s.begun i).clock entries (s.begun i).history := by
    intro entries
    obtain ⟨es, hhist, hes⟩ := s.begun_history i
    rw [hhist]
    refine always_append (always_from_now (Departure sr _ entries) _) ?_
    intro past e he _
    obtain ⟨ip, mac, rfl⟩ := hes e he
    trivial
  have hkeep := QueueMoves.keep
    (P := fun x => Disciplined x ∧ x.clock = (s.begun i).clock ∧
      Reasons sr s.history.length (s.begun i).clock x.cache.entries x.history)
    (fun x y hx ⟨hd, hc, hr⟩ hmove =>
      ⟨hd.move hx hmove, hmove.clock.trans hc, hmove.reasons hd hc hroom' hquiet hr⟩)
    (haddrs.begun i) ⟨hdisc.begun i, rfl, hquiet _⟩ (srStep_queueMoves haddrs hstep)
  obtain ⟨hdisc', -, hreasons⟩ := hkeep
  rw [SrState.begun_clock] at hreasons
  exact ⟨hdisc'.spaced, hdisc'.gone, hreasons⟩

/-- Flushing a request leaves the entries alone. -/
theorem srArpreqSendPackets_entries :
    ∀ {ps : List SrPacket} {s : SrState}, AddrsOk s.cache →
      srArpreqSendPackets sr s ps = .ok s' →
      s'.cache.entries = s.cache.entries ∧ s.history <+: s'.history
  | [], s, _, h => by
      cases h
      exact ⟨rfl, List.prefix_rfl⟩
  | cur :: next, s, haddrs, h => by
      obtain ⟨-, s₁, hs₁, h⟩ := srArpreqSendPackets_cons.mp h
      have hfirst : AddrsOk s₁.cache ∧ s₁.cache.entries = s.cache.entries ∧
          s.history <+: s₁.history := by
        obtain ⟨rt, -, ⟨e, j, -, -, rfl⟩ | ⟨-, hhandle⟩⟩ := fillAndSendPkt_ip_cases hs₁
        · exact ⟨haddrs, rfl, by simp⟩
        · have haddrs' := haddrs.queue rt.gw cur.buf rt.interface
          have hentries := (srArpreqHandle_sublist (s := s.withCache _) haddrs' hhandle).1
          have hmoves : QueueMoves sr s (.timeout s.clock s.mem) (s.withCache _) s₁ :=
            srArpreqHandle_queueMoves haddrs' hhandle
          exact ⟨haddrs'.queueMoves hmoves, by simpa using hentries, hmoves.history_grows⟩
      obtain ⟨hentries, hgrows⟩ := srArpreqSendPackets_entries hfirst.1 h
      exact ⟨hentries.trans hfirst.2.1, hfirst.2.2.trans hgrows⟩

/-- A lost answer takes the request off the queue and leaves the entries as they are. -/
theorem srStep_of_answerLost {interface : String} {packet : Bytes} {now : Nat} {mem : Memory}
    (haddrs : AddrsOk s.cache) (hlost : AnswerLost sr s (.frame interface packet now mem))
    (h : srStep sr s (.frame interface packet now mem) = .ok s') :
    ∃ r later, r.ip = arSip packet ∧ s'.cache.entries = s.cache.entries ∧
      s'.history = (s.history ++ [.received interface packet]) ++ .answered r :: later := by
  obtain ⟨⟨hlen, htype, -, -, recIf, hrec, htip⟩, habsent, ⟨r₀, hr₀, hip₀⟩, hfull⟩ := hlost
  have hlen' : ¬ packet.length < sizeofEthernetHdr + sizeofArpHdr := Nat.not_lt.mpr hlen
  have hmin : ¬ packet.length < sizeofEthernetHdr := by
    simp only [sizeofEthernetHdr, sizeofArpHdr] at hlen' ⊢
    omega
  simp only [srStep, srHandlepacket, hmin, htype, handleArp, hlen', hrec, htip, habsent,
    if_true, if_false, ne_eq, not_true_eq_false, SrState.emit_cache] at h
  rcases srArpcacheInsert_cases s.cache (arSha packet) (arSip packet) now with
    ⟨before, r, after, hsplit, hip, hreqs, hsome⟩ | ⟨hno, -, -⟩
  · -- every slot is taken, so nothing is inserted
    have hentries : (srArpcacheInsert s.cache (arSha packet) (arSip packet) now).1.entries
        = s.cache.entries := by
      rcases srArpcacheInsert_entries s.cache (arSha packet) (arSip packet) now with
        ⟨k, hk, -⟩ | hsame
      · rw [hfull k] at hk
        cases hk
      · exact hsame
    have haddrs' := haddrs.insert (arSha packet) (arSip packet) now
    rw [learnMapping_some (by exact hsome)] at h
    split at h
    · cases h
    · next s₁ hs₁ =>
      obtain ⟨hentries₁, ⟨es, hes⟩⟩ := srArpreqSendPackets_entries (by exact haddrs') hs₁
      replace hentries₁ : s₁.cache.entries = s.cache.entries := hentries₁.trans hentries
      simp only [SrState.emit_history, SrState.withCache_history] at hes
      split at h
      · obtain ⟨e, rfl⟩ : ∃ e, s' = s₁.emit e := by
          obtain ⟨iface, dhost, shost, hs'⟩ := fillAndSendPktWith_arp_frame h
          exact ⟨_, hs'⟩
        exact ⟨r, es ++ [e], hip, hentries₁, by simp [← hes]⟩
      · cases h
        exact ⟨r, es, hip, hentries₁, by simp [← hes]⟩
  · exact absurd hip₀ (hno r₀ hr₀)

/-- Losing an answer breaks the discipline. -/
theorem not_stepDiscipline_of_answerLost (haddrs : AddrsOk s.cache) (hlost : AnswerLost sr s i)
    (hstep : srStep sr s i = .ok s') : ¬ StepDiscipline sr s i s' := by
  intro hd
  cases i with
  | timeout now mem => exact hlost
  | frame interface packet now mem =>
      obtain ⟨r, later, hip, hentries, hhist⟩ := srStep_of_answerLost haddrs hlost hstep
      obtain ⟨_, _, _, -, -, k, hvalid, hk, -⟩ := hd.reason _ _ _ hhist (by simp)
      rw [hentries] at hvalid hk
      exact srArpcacheLookup_eq_none hlost.2.1 k hvalid (hk.trans hip)

end Reason

/-! ## Every run

The invariant holds anyway, so only the departures depend on the condition. -/

/-- **ARP retry discipline, and exactly when.** A run keeps it if and only if no ARP frame
answers a queued request while every slot of the cache is taken. -/
theorem retryDiscipline_iff {sr : SrConfig} {inputs : List SrInput} {t : SrState}
    (hrun : srRun sr inputs = .ok t) :
    RetryDiscipline sr inputs ↔
      Along (srStep sr) srInit (fun _ s i => ¬ AnswerLost sr s i) inputs := by
  constructor
  · intro h past i later hsplit s hs hlost
    rw [hsplit] at hrun
    obtain ⟨s', hstep⟩ := exists_step_of_run hrun hs
    exact not_stepDiscipline_of_answerLost (disciplined_of_srRun hs).1 hlost hstep
      (h past i later hsplit s hs s' hstep)
  · intro h
    refine h.imp ?_
    intro past i s hs _ hroom s' hstep
    exact stepDiscipline (disciplined_of_srRun hs).1 (disciplined_of_srRun hs).2 hroom hstep

/-- A datagram waits, is sent for five times, and the router gives up on it; another one has been
flushed before. -/
theorem retryDiscipline_queueAndGiveUp : ∃ t, srRun rtableConfig queueAndGiveUp = .ok t ∧
    (t.history.any fun e => e matches .answered _) ∧
    (t.history.any fun e => e matches .destroyed _) ∧
    RetryDiscipline rtableConfig queueAndGiveUp := by
  obtain ⟨t, hrun, hevents⟩ : ∃ t, srRun rtableConfig queueAndGiveUp = .ok t ∧
      ((t.history.any fun e => e matches .answered _) &&
        t.history.any fun e => e matches .destroyed _) = true :=
    exists_ok_of_check (by decide +kernel)
  rw [Bool.and_eq_true] at hevents
  have hroom : Along (srStep rtableConfig) srInit
      (fun _ s _ => (freeSlot s.cache.entries).isSome = true) queueAndGiveUp :=
    along_of_check (p := fun (s : SrState) _ => (freeSlot s.cache.entries).isSome)
      (by decide +kernel)
  refine ⟨t, hrun, hevents.1, hevents.2, (retryDiscipline_iff hrun).mpr (hroom.imp ?_)⟩
  intro _ i s _ _ hfree hlost
  obtain ⟨k, hk⟩ := Option.isSome_iff_exists.mp hfree
  have hinvalid := List.find?_some hk
  cases i with
  | timeout => exact hlost
  | frame =>
      rw [hlost.2.2.2 k] at hinvalid
      cases hinvalid

/-- The host `10.0.1.n` tells the router its hardware address. -/
def neighbour (n : Nat) : SrInput :=
  .frame "eth3" (ethFrame broadcastAddr serverAddr .arp
    (arpHdr arpOpReply serverAddr (dotted 10 0 1 (.ofNat n)) broadcastAddr (dotted 10 0 1 1)))
    5 srInit.mem

/-- A hundred neighbours take all the slots, then a datagram is queued. -/
def crowd : List SrInput :=
  (List.range 100).map neighbour ++
    [.frame "eth3" (clientFrame 64 (dotted 192 168 2 2)) 5 srInit.mem]

/-- The server's answer to the ARP request for that datagram. -/
def serverAnswers : SrInput := .frame "eth1" serverArpReply 6 srInit.mem

/-- The cache is full, without the server, and the datagram waits for it. -/
theorem crowd_fills : ∃ s, srRun rtableConfig crowd = .ok s ∧
    freeSlot s.cache.entries = none ∧ srArpcacheLookup s.cache (dotted 192 168 2 2) = none ∧
    (∃ r ∈ s.cache.requests, r.ip = dotted 192 168 2 2) ∧
    ∃ t, srStep rtableConfig s serverAnswers = .ok t := by
  obtain ⟨s, hrun, hcheck⟩ : ∃ s, srRun rtableConfig crowd = .ok s ∧
      ((freeSlot s.cache.entries).isNone &&
        (srArpcacheLookup s.cache (dotted 192 168 2 2)).isNone &&
        (s.cache.requests.any fun r => r.ip == dotted 192 168 2 2) &&
        (srStep rtableConfig s serverAnswers).toOption.isSome)
          = true := exists_ok_of_check (by decide +kernel)
  simp only [Bool.and_eq_true, Option.isNone_iff_eq_none, List.any_eq_true, beq_iff_eq] at hcheck
  obtain ⟨⟨⟨hfull, habsent⟩, hwaits⟩, hnext⟩ := hcheck
  refine ⟨s, hrun, hfull, habsent, hwaits, ?_⟩
  cases hstep : srStep rtableConfig s serverAnswers with
  | error e =>
      rw [hstep] at hnext
      cases hnext
  | ok t => exact ⟨t, rfl⟩

/-- The server's answer takes the request off the queue, and its mapping is nowhere. -/
theorem not_retryDiscipline_crowd :
    ¬ ∀ sr inputs t, srRun sr inputs = .ok t → RetryDiscipline sr inputs := by
  intro h
  obtain ⟨s, hrun, hfull, habsent, ⟨r, hr, hip⟩, t, hstep⟩ := crowd_fills
  have hsip : arSip serverArpReply = dotted 192 168 2 2 := by decide +kernel
  have hlost : AnswerLost rtableConfig s serverAnswers := by
    refine ⟨⟨by decide, by decide, rfl, rfl, _, rfl, by decide⟩, ?_, ⟨r, hr, ?_⟩, ?_⟩
    · rw [hsip]
      exact habsent
    · rw [hsip]
      exact hip
    · intro k
      simpa using List.find?_eq_none.mp hfull k (List.mem_finRange k)
  have hall : srRun rtableConfig (crowd ++ [serverAnswers]) = .ok t :=
    run_snoc.mpr ⟨s, hrun, hstep⟩
  have hd := h rtableConfig _ t hall crowd serverAnswers [] rfl s hrun t hstep
  exact not_stepDiscipline_of_answerLost (disciplined_of_srRun hrun).1 hlost hstep hd

end NetworkProjects.Router
