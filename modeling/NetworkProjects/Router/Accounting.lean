import NetworkProjects.Router.CacheInvariant
import Mathlib.Data.List.Count

/-!
# No datagram is lost or duplicated

The history says what was handed to `FillAndSendPkt`, what it transmitted and what
`sr_arpreq_destroy` freed; the cache says what waits. `Balanced` is the equation between the
four, for each datagram counted with multiplicity, with the datagrams in hand on the side of
what is still to be dealt with. Between two steps no datagram is in hand.

`Counted` ties the number of ARP requests in the history to `times_sent`, which is how a
destroyed request is known to have been sent five times.
-/

namespace NetworkProjects.Router

open NetworkProjects.Lib

variable {sr : SrConfig} {s s' : SrState}

/-! ## The books

Three lists are read off the history: what was handed over, what was sent, and what was thrown away.
Together with the queue they have to balance, as multisets. -/

/-- The datagram `ForwardToNextHop` hands to `FillAndSendPkt`. -/
def SrEvent.handed : SrEvent → List Bytes
  | .forwarded d => [d]
  | _ => []

/-- The datagram `FillAndSendPkt` transmits. -/
def SrEvent.sent : SrEvent → List Bytes
  | .transmitted (.fillAndSendPkt .ip) _ frame => [ipHeader frame]
  | _ => []

/-- The datagrams waiting on a request. -/
def SrArpreq.datagrams (r : SrArpreq) : List Bytes := r.packets.map SrPacket.buf

/-- The datagrams `sr_arpreq_destroy` frees. -/
def SrEvent.freed : SrEvent → List Bytes
  | .destroyed r => r.datagrams
  | _ => []

/-- The event is a call of `send_arp_request` for the request at `addr`. -/
def SrEvent.asks (addr : Nat) : SrEvent → Bool
  | .arpRequested a _ => a == addr
  | _ => false

/-- Every datagram handed to `FillAndSendPkt`. -/
def handedOver (h : List SrEvent) : List Bytes := h.flatMap SrEvent.handed
/-- Every datagram `FillAndSendPkt` has transmitted. -/
def sentOut (h : List SrEvent) : List Bytes := h.flatMap SrEvent.sent
/-- Every datagram discarded with its request. -/
def discarded (h : List SrEvent) : List Bytes := h.flatMap SrEvent.freed
/-- Every datagram waiting on the queue. -/
def waiting (c : SrArpcache) : List Bytes := c.requests.flatMap SrArpreq.datagrams
/-- How often an ARP request was sent for the request at `addr`. -/
def asked (addr : Nat) (h : List SrEvent) : Nat := h.countP (SrEvent.asks addr)

/-- Every datagram handed over is accounted for, as often as it was handed over. -/
def Balanced (s : SrState) (hand : List Bytes) : Prop :=
  ∀ d, (handedOver s.history).count d =
    (sentOut s.history).count d + (waiting s.cache).count d + (discarded s.history).count d
      + hand.count d

/-- If the event frees a request, five ARP requests were sent for it before. -/
def DestroyedAfterFive (past : List SrEvent) (e : SrEvent) : Prop :=
  ∀ r, e = .destroyed r → asked r.addr past = 5

structure Counted (s : SrState) : Prop where
  fresh : ∀ addr, s.cache.brk ≤ addr → asked addr s.history = 0
  timesSent : ∀ r ∈ s.cache.requests, asked r.addr s.history = r.timesSent ∧ r.timesSent ≤ 5
  destroyed : Always DestroyedAfterFive s.history

/-! ## Writing one event down -/

theorem handedOver_append (h es : List SrEvent) :
    handedOver (h ++ es) = handedOver h ++ handedOver es := List.flatMap_append
theorem sentOut_append (h es : List SrEvent) : sentOut (h ++ es) = sentOut h ++ sentOut es :=
  List.flatMap_append
theorem discarded_append (h es : List SrEvent) :
    discarded (h ++ es) = discarded h ++ discarded es := List.flatMap_append
theorem asked_append (addr : Nat) (h es : List SrEvent) :
    asked addr (h ++ es) = asked addr h + asked addr es := List.countP_append

/-- Events none of the books mentions. -/
def Unrecorded (es : List SrEvent) : Prop :=
  ∀ e ∈ es, e.handed = [] ∧ e.sent = [] ∧ e.freed = [] ∧ (∀ addr, e.asks addr = false) ∧
    ∀ r, e ≠ .destroyed r

theorem SrEvent.Quiet.unrecorded {e : SrEvent} (h : e.Quiet) : Unrecorded [e] := by
  simp only [Unrecorded, List.mem_singleton, forall_eq]
  cases e with
  | received => simp [handed, sent, freed, asks]
  | transmitted sender interface frame =>
      refine ⟨rfl, ?_, rfl, fun _ => rfl, by simp⟩
      unfold sent
      split
      · next heq =>
        cases heq
        exact absurd rfl h
      · rfl
  | expired => exact h.elim
  | forwarded => exact h.elim
  | arpRequested => exact h.elim
  | answered => exact h.elim
  | destroyed => exact h.elim

theorem Balanced.append {hand : List Bytes} {es : List SrEvent} (h : Balanced s hand)
    (hes : Unrecorded es) (hcache : waiting s'.cache = waiting s.cache)
    (hhist : s'.history = s.history ++ es) : Balanced s' hand := by
  have hh : handedOver es = [] := List.flatMap_eq_nil_iff.mpr fun e he => (hes e he).1
  have hs : sentOut es = [] := List.flatMap_eq_nil_iff.mpr fun e he => (hes e he).2.1
  have hd : discarded es = [] := List.flatMap_eq_nil_iff.mpr fun e he => (hes e he).2.2.1
  intro d
  rw [hhist, hcache, handedOver_append, sentOut_append, discarded_append, hh, hs, hd]
  simpa using h d

/-- An event that frees nothing frees nothing too early. -/
theorem DestroyedAfterFive.of_ne {past : List SrEvent} {e : SrEvent}
    (h : ∀ r, e ≠ .destroyed r) : DestroyedAfterFive past e := by
  intro r he
  exact absurd he (h r)

theorem Counted.append {es : List SrEvent} (h : Counted s)
    (hes : ∀ e ∈ es, (∀ addr, e.asks addr = false) ∧ ∀ r, e ≠ .destroyed r)
    (hbrk : s'.cache.brk = s.cache.brk)
    (hreqs : ∀ r ∈ s'.cache.requests, r ∈ s.cache.requests)
    (hhist : s'.history = s.history ++ es) : Counted s' := by
  have hasked : ∀ addr, asked addr s'.history = asked addr s.history := by
    intro addr
    have hzero : asked addr es = 0 :=
      List.countP_eq_zero.mpr (by simpa using fun e he => (hes e he).1 addr)
    rw [hhist, asked_append, hzero, Nat.add_zero]
  refine ⟨?_, ?_, ?_⟩
  · intro addr haddr
    rw [hasked]
    exact h.fresh addr (hbrk ▸ haddr)
  · intro r hr
    rw [hasked]
    exact h.timesSent r (hreqs r hr)
  · rw [hhist]
    apply always_append h.destroyed
    intro past e he
    exact .of_ne (hes e he).2

/-! ## Handling a request

A request that is given up takes its packets from the queue to those thrown away. One that is sent
for again changes no book but the count of its requests. -/

/-- Handling a request moves its datagrams to the discarded ones, or moves nothing. -/
theorem Balanced.handle {addr : Nat} {hand : List Bytes} (haddrs : AddrsOk s.cache)
    (h : Balanced s hand) (hhandle : srArpreqHandle sr s addr = .ok s') : Balanced s' hand := by
  obtain ⟨before, r, after, hsplit, rfl⟩ := exists_split_of_srArpreqHandle hhandle
  rcases srArpreqHandle_cases hsplit haddrs.nodup hhandle with
    ⟨-, rfl⟩ | ⟨-, -, rfl⟩ | ⟨-, -, iface, frame, rfl⟩
  · exact h
  · intro d
    have := h d
    simp [handedOver, sentOut, discarded, waiting, hsplit, SrEvent.handed, SrEvent.sent,
      SrEvent.freed] at this ⊢
    omega
  · intro d
    have := h d
    simp [handedOver, sentOut, discarded, waiting, hsplit, SrEvent.handed, SrEvent.sent,
      SrEvent.freed, SrArpreq.datagrams] at this ⊢
    omega

/-- Handling a request counts the ARP request it sends; it frees a request after five. -/
theorem Counted.handle {addr : Nat} (haddrs : AddrsOk s.cache) (h : Counted s)
    (hhandle : srArpreqHandle sr s addr = .ok s') : Counted s' := by
  obtain ⟨before, r, after, hsplit, rfl⟩ := exists_split_of_srArpreqHandle hhandle
  have hr := h.timesSent r (by simp [hsplit])
  have hrest : ∀ x ∈ before ++ after, x ∈ s.cache.requests ∧ x.addr ≠ r.addr := by
    have hnd := haddrs.nodup
    rw [hsplit] at hnd ⊢
    exact fun x hx => mem_of_split hnd hx
  -- the request is not due, is given up, or is sent once more
  rcases srArpreqHandle_cases hsplit haddrs.nodup hhandle with
    ⟨-, rfl⟩ | ⟨-, hfive, rfl⟩ | ⟨-, hfive, iface, frame, rfl⟩
  · exact h
  · refine ⟨?_, ?_, always_snoc.mpr ⟨h.destroyed, ?_⟩⟩
    · intro addr haddr
      simpa [asked, SrEvent.asks] using h.fresh addr haddr
    · intro x hx
      simpa [asked, SrEvent.asks] using h.timesSent x (hrest x hx).1
    · intro r' heq
      cases heq
      simp only [SrState.withCache_history]
      omega
  · have hasked : ∀ a, asked a (s.history ++ [.arpRequested r.addr s.clock] ++
        [.transmitted (.fillAndSendPkt .arp) iface frame])
          = asked a s.history + if r.addr = a then 1 else 0 := by
      intro a
      simp [asked, SrEvent.asks, List.countP_append, List.countP_cons]
    refine ⟨?_, ?_, ?_⟩
    · intro a ha
      have hlt := haddrs.lt_brk r (by simp [hsplit])
      -- an address that is still to be handed out is not that of a queued request
      have hne : r.addr ≠ a := by
        simp only [SrState.emit_cache, SrState.withCache_cache] at ha
        omega
      simp only [SrState.emit_history, SrState.withCache_history, hasked, if_neg hne]
      exact h.fresh a ha
    · -- only the request that was sent for is counted once more
      have hother : ∀ x ∈ before ++ after,
          asked x.addr s.history + (if r.addr = x.addr then 1 else 0) = x.timesSent ∧
            x.timesSent ≤ 5 := by
        intro x hx
        rw [if_neg (hrest x hx).2.symm]
        exact h.timesSent x (hrest x hx).1
      intro x hx
      simp only [SrState.emit_history, SrState.withCache_history, hasked]
      rcases List.mem_append.mp hx with hx | hx
      · exact hother x (by simp [hx])
      · rcases List.mem_cons.mp hx with rfl | hx
        · simp only [if_true]
          omega
        · exact hother x (by simp [hx])
    · simp only [SrState.emit_history, SrState.withCache_history, List.append_assoc]
      apply always_append h.destroyed
      intro past e he
      exact .of_ne (by rintro r' rfl; simp at he)

/-! ## Queueing and answering -/

/-- A queued datagram waits, and nothing else changes on the queue. -/
theorem count_waiting_queuereq {c : SrArpcache} (haddrs : AddrsOk c) (ip : InAddr) {d : Bytes}
    (hd : d ≠ []) (iface : String) (x : Bytes) :
    (waiting (srArpcacheQueuereq c ip d iface).1).count x = (waiting c).count x + [d].count x := by
  rcases srArpcacheQueuereq_cases haddrs ip hd iface with
    ⟨before, r, after, hsplit, -, heq⟩ | ⟨-, heq⟩
  · rw [heq]
    simp [waiting, hsplit, SrArpreq.datagrams, List.count_cons]
    omega
  · rw [heq]
    simp [waiting, SrArpreq.datagrams, List.count_cons]

theorem Counted.queuereq (haddrs : AddrsOk s.cache) (h : Counted s) (ip : InAddr) {d : Bytes}
    (hd : d ≠ []) (iface : String) :
    Counted (s.withCache (srArpcacheQueuereq s.cache ip d iface).1) where
  fresh := by
    intro addr haddr
    apply h.fresh addr
    rcases srArpcacheQueuereq_cases haddrs ip hd iface with ⟨_, _, _, -, -, heq⟩ | ⟨-, heq⟩
    · rw [heq] at haddr
      exact haddr
    · rw [heq] at haddr
      exact Nat.le_of_succ_le haddr
  timesSent := by
    intro r hr
    rcases mem_srArpcacheQueuereq haddrs hd hr with ⟨-, hr⟩ | ⟨-, ⟨r₀, hr₀, -, rfl⟩ | rfl⟩
    · exact h.timesSent r hr
    · exact h.timesSent r₀ hr₀
    · -- nobody has asked for a request that did not exist
      exact ⟨h.fresh _ (Nat.le_refl _), Nat.zero_le _⟩
  destroyed := h.destroyed

/-- The datagrams of the request an insertion returns stop waiting. -/
theorem count_waiting_insert (c : SrArpcache) (mac : EtherAddr) (ip : InAddr) (now : Nat)
    (x : Bytes) :
    (waiting c).count x = (waiting (srArpcacheInsert c mac ip now).1).count x
      + ((srArpcacheInsert c mac ip now).2.elim [] SrArpreq.datagrams).count x := by
  rcases srArpcacheInsert_cases c mac ip now with
    ⟨before, r, after, hsplit, -, heq, hreq⟩ | ⟨-, heq, hreq⟩
  · simp [waiting, heq, hreq, hsplit]
    omega
  · simp [waiting, heq, hreq]

/-! ## Every run -/

theorem Balanced.move {x y : SrState × List Bytes} (haddrs : AddrsOk x.1.cache)
    (h : Balanced x.1 x.2) (hmove : Move sr x y) : Balanced y.1 y.2 := by
  cases hmove with
  -- what is only logged, or dropped with no record, moves nothing between the two sides
  | log quiet => exact h.append quiet.unrecorded rfl rfl
  | @forward s d =>
      intro x
      have := h x
      simp [handedOver, sentOut, discarded, SrEvent.handed, SrEvent.sent, SrEvent.freed] at this ⊢
      omega
  | @send s d hand rt e i =>
      intro x
      have := h x
      simp [handedOver, sentOut, discarded, SrEvent.handed, SrEvent.sent, SrEvent.freed,
        ipHeader_ethFrame, List.count_cons] at this ⊢
      omega
  | @queue s s' d hand rt long route absent handled =>
      have hd : d ≠ [] := List.ne_nil_of_length_pos (Nat.lt_of_lt_of_le (by decide) long)
      refine Balanced.handle
        (s := s.withCache (srArpcacheQueuereq s.cache rt.gw d rt.interface).1)
        (haddrs.queue _ _ _) ?_ handled
      intro x
      have := h x
      have hw := count_waiting_queuereq haddrs rt.gw hd rt.interface x
      simp [List.count_cons] at this hw ⊢
      omega
  | @learn s past e ip mac last teaches absent unawaited =>
      intro x
      have := h x
      have hw := count_waiting_insert s.cache mac ip s.clock x
      simp [unawaited] at this hw ⊢
      omega
  | @answer s past e ip mac req last teaches absent awaited =>
      -- the packets leave the queue for the hand of the thread that sends them
      intro x
      have := h x
      have hw := count_waiting_insert s.cache mac ip s.clock x
      simp [awaited, handedOver, sentOut, discarded, SrEvent.handed, SrEvent.sent, SrEvent.freed,
        SrArpreq.datagrams] at this hw ⊢
      omega
  | handle handled => exact h.handle haddrs handled
  | @expire s =>
      have hes : Unrecorded (expiredEvents s.clock s.cache.entries) := by
        intro e he
        obtain ⟨i, -, rfl⟩ := List.mem_map.mp he
        simp [SrEvent.handed, SrEvent.sent, SrEvent.freed, SrEvent.asks]
      exact h.append hes rfl rfl

theorem Counted.move {x y : SrState × List Bytes} (haddrs : AddrsOk x.1.cache)
    (h : Counted x.1) (hmove : Move sr x y) : Counted y.1 := by
  cases hmove with
  | log quiet => exact h.append (fun e he => (quiet.unrecorded e he).2.2.2) rfl (fun _ hr => hr) rfl
  | forward => exact h.append (by simp [SrEvent.asks]) rfl (fun _ hr => hr) rfl
  | send => exact h.append (by simp [SrEvent.asks]) rfl (fun _ hr => hr) rfl
  | queue long route absent handled =>
      have hd : _ ≠ [] := List.ne_nil_of_length_pos (Nat.lt_of_lt_of_le (by decide) long)
      exact (h.queuereq haddrs _ hd _).handle (haddrs.queue _ _ _) handled
  | learn =>
      have hnone : ∀ e ∈ ([] : List SrEvent),
          (∀ addr, e.asks addr = false) ∧ ∀ r, e ≠ .destroyed r := by simp
      exact h.append hnone rfl srArpcacheInsert_subset (by simp)
  | answer =>
      exact h.append (by simp [SrEvent.asks]) rfl srArpcacheInsert_subset rfl
  | handle handled => exact h.handle haddrs handled
  | @expire s =>
      have hes : ∀ e ∈ expiredEvents s.clock s.cache.entries,
          (∀ addr, e.asks addr = false) ∧ ∀ r, e ≠ .destroyed r := by
        intro e he
        obtain ⟨i, -, rfl⟩ := List.mem_map.mp he
        simp [SrEvent.asks]
      exact h.append hes rfl (fun _ hr => hr) rfl

/-- **No datagram is lost or duplicated.** After every run, each datagram was transmitted,
waits, or was discarded, together as often as it was handed over; and what was discarded was
discarded with a request for which five ARP requests had been sent. -/
theorem datagrams_accounted {inputs : List SrInput} (hlong : ∀ i ∈ inputs, i.Long sr)
    (hrun : srRun sr inputs = .ok s) :
    (∀ d, (handedOver s.history).count d = (sentOut s.history).count d
      + (waiting s.cache).count d + (discarded s.history).count d) ∧
    Always DestroyedAfterFive s.history := by
  have key := srRun_rule (P := fun _ x => Balanced x.1 x.2 ∧ Counted x.1)
    ⟨fun d => by simp [srInit, handedOver, sentOut, discarded, waiting, srArpcacheInit], ?_⟩
    ?_ ?_ hlong hrun
  · obtain ⟨-, hbalanced, hcounted⟩ := key
    exact ⟨fun d => by simpa using hbalanced d, hcounted.destroyed⟩
  · exact ⟨fun _ _ => rfl, by simp [srInit, srArpcacheInit], always_nil _⟩
  · rintro _ s i ⟨hbalanced, hcounted⟩
    exact ⟨fun d => by simpa using hbalanced d,
      by simpa using hcounted.fresh, by simpa using hcounted.timesSent,
      by simpa using hcounted.destroyed⟩
  · rintro _ _ x y haddrs ⟨hbalanced, hcounted⟩ hmove
    exact ⟨hbalanced.move haddrs hmove, hcounted.move haddrs hmove⟩

theorem datagrams_accounted_queueAndGiveUp : ∃ s, srRun rtableConfig queueAndGiveUp = .ok s ∧
    ((sentOut s.history).length = 2 ∧ (discarded s.history).length = 1) ∧
    (∀ d, (handedOver s.history).count d = (sentOut s.history).count d
      + (waiting s.cache).count d + (discarded s.history).count d) ∧
    Always DestroyedAfterFive s.history := by
  obtain ⟨s, hrun, hcheck⟩ : ∃ s, srRun rtableConfig queueAndGiveUp = .ok s ∧
      decide ((sentOut s.history).length = 2 ∧ (discarded s.history).length = 1) = true :=
    exists_ok_of_check (by decide +kernel)
  exact ⟨s, hrun, of_decide_eq_true hcheck, datagrams_accounted (by decide +kernel) hrun⟩

end NetworkProjects.Router
