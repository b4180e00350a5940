import NetworkProjects.Router.Moves
import NetworkProjects.Router.Routes

/-!
# The representation invariant of cache and request queue

`RepInv` is what makes the cache a map and the queue a map that is disjoint from it:

* at most one valid entry and at most one request for an IP, and never both (`KeysOk`);
* every waiting packet is routed through the gateway it waits for (`Routed`);
* every request has been sent between one and five times, and not in the future (`Timed`).

`sr_arpcache_insert` and `sr_arpcache_queuereq` keep none of this by themselves. They are called
behind a failed lookup only, and that is where `Move` says so.
-/

namespace NetworkProjects.Router

open NetworkProjects.Lib

/-! ## The invariant

Three parts: keys are unique and exclude each other, packets wait for the gateway of their
destination, and requests keep their times. -/

/-- Entries and requests are keyed by IP, and no IP is a key of both. -/
structure KeysOk (c : SrArpcache) : Prop where
  entry_unique : ∀ i j, (c.entries i).valid = true → (c.entries j).valid = true →
    (c.entries i).ip = (c.entries j).ip → i = j
  request_unique : (c.requests.map SrArpreq.ip).Nodup
  exclusive : ∀ i, (c.entries i).valid = true → ∀ r ∈ c.requests, r.ip ≠ (c.entries i).ip

/-- The packet's destination is routed through `g`, over the interface stored with it. -/
def Routed (sr : SrConfig) (g : InAddr) (p : SrPacket) : Prop :=
  ∃ rt, longestPrefixMatch sr (ipDst p.buf) = some rt ∧ rt.gw = g ∧ rt.interface = p.iface

/-- The request has been sent, at most five times, and not later than `now`. -/
def Timed (now : Nat) (r : SrArpreq) : Prop :=
  1 ≤ r.timesSent ∧ r.timesSent ≤ 5 ∧ r.sent ≤ now

structure RepInv (sr : SrConfig) (now : Nat) (c : SrArpcache) : Prop extends KeysOk c where
  routed : ∀ r ∈ c.requests, ∀ p ∈ r.packets, Routed sr r.ip p
  timed : ∀ r ∈ c.requests, Timed now r

/-! ## Keys

An IP is inserted or queued on only where lookup has not found it, and this is what keeps the keys
apart. -/

section Keys

variable {c : SrArpcache}

/-- The other requests are for other IPs. -/
theorem KeysOk.ip_ne_of_split (h : KeysOk c) {before after : List SrArpreq} {r : SrArpreq}
    (hsplit : c.requests = before ++ r :: after) : ∀ x ∈ before ++ after, x.ip ≠ r.ip := by
  have hnd := h.request_unique
  rw [hsplit, List.map_append, List.map_cons, List.nodup_middle, List.nodup_cons] at hnd
  intro x hx hip
  apply hnd.1
  rw [← List.map_append, ← hip]
  exact List.mem_map_of_mem hx

/-- An IP that packets wait for is not in the cache. -/
theorem KeysOk.absent_of_request (h : KeysOk c) {r : SrArpreq} (hr : r ∈ c.requests) :
    srArpcacheLookup c r.ip = none := by
  cases hlookup : srArpcacheLookup c r.ip with
  | none => rfl
  | some e =>
      obtain ⟨i, rfl, hvalid, hip⟩ := srArpcacheLookup_eq_some hlookup
      exact absurd hip.symm (h.exclusive i hvalid r hr)

/-- Fewer requests, the same entries. -/
theorem KeysOk.of_sublist {c' : SrArpcache} (h : KeysOk c) (hentries : c'.entries = c.entries)
    (hsub : (c'.requests.map SrArpreq.ip).Sublist (c.requests.map SrArpreq.ip)) : KeysOk c' where
  entry_unique := by
    rw [hentries]
    exact h.entry_unique
  request_unique := h.request_unique.sublist hsub
  exclusive := by
    rw [hentries]
    intro i hi r hr
    obtain ⟨r', hr', heq⟩ := List.mem_map.mp (hsub.subset (List.mem_map_of_mem hr))
    rw [← heq]
    exact h.exclusive i hi r' hr'

/-- Queueing is safe for an IP that lookup does not find. -/
theorem KeysOk.queuereq (h : KeysOk c) (haddrs : AddrsOk c) {ip : InAddr}
    (habsent : srArpcacheLookup c ip = none) (packet : Bytes) (iface : String) :
    KeysOk (srArpcacheQueuereq c ip packet iface).1 := by
  rcases srArpcacheQueuereq_split haddrs ip packet iface with
    ⟨before, r, after, hsplit, -, heq⟩ | ⟨hnew, heq⟩
  · rw [heq]
    exact h.of_sublist rfl (by simp [hsplit])
  · rw [heq]
    refine ⟨h.entry_unique, ?_, ?_⟩
    · simp only [List.map_cons, List.nodup_cons]
      refine ⟨?_, h.request_unique⟩
      intro hmem
      obtain ⟨r, hr, hip⟩ := List.mem_map.mp hmem
      exact hnew r hr hip
    · intro i hi r hr
      rcases List.mem_cons.mp hr with rfl | hr
      · exact (srArpcacheLookup_eq_none habsent i hi).symm
      · exact h.exclusive i hi r hr

theorem KeysOk.handle {sr : SrConfig} {s s' : SrState} {addr : Nat} (h : KeysOk s.cache)
    (haddrs : AddrsOk s.cache) (hhandle : srArpreqHandle sr s addr = .ok s') :
    KeysOk s'.cache := by
  obtain ⟨hentries, -, -, -, hsub⟩ := srArpreqHandle_sublist haddrs hhandle
  exact h.of_sublist hentries hsub

/-- Inserting is safe for an IP that lookup does not find: the one request for it goes. -/
theorem KeysOk.insert (h : KeysOk c) {ip : InAddr} (habsent : srArpcacheLookup c ip = none)
    (mac : EtherAddr) (now : Nat) : KeysOk (srArpcacheInsert c mac ip now).1 := by
  have hsub : ((srArpcacheInsert c mac ip now).1.requests).Sublist c.requests := by
    rcases srArpcacheInsert_cases c mac ip now with ⟨_, _, _, hsplit, -, heq, -⟩ | ⟨-, heq, -⟩
    · simp [heq, hsplit]
    · rw [heq]
  have hgone : ∀ r ∈ (srArpcacheInsert c mac ip now).1.requests, r.ip ≠ ip := by
    rcases srArpcacheInsert_cases c mac ip now with
      ⟨before, r, after, hsplit, hip, heq, -⟩ | ⟨hno, heq, -⟩
    · -- the request that leaves is the only one for `ip`
      rw [heq, ← hip]
      exact h.ip_ne_of_split hsplit
    · rw [heq]
      exact hno
  rcases srArpcacheInsert_entries c mac ip now with ⟨k, hk, hentries⟩ | hentries
  · refine ⟨?_, h.request_unique.sublist (hsub.map _), ?_⟩
    · -- no valid entry had `ip` before the slot was filled
      have hother : ∀ i, i ≠ k → (c.entries i).valid = true → (c.entries i).ip ≠ ip :=
        fun i _ hi => srArpcacheLookup_eq_none habsent i hi
      intro i j hi hj hij
      rw [hentries] at hi hj hij
      -- the filled slot against itself, against any other, and two others
      by_cases hik : i = k <;> by_cases hjk : j = k
      · rw [hik, hjk]
      · subst hik
        simp only [Function.update_self, ne_eq, hjk, not_false_eq_true,
          Function.update_of_ne] at hj hij
        exact absurd hij.symm (hother j hjk hj)
      · subst hjk
        simp only [Function.update_self, ne_eq, hik, not_false_eq_true,
          Function.update_of_ne] at hi hij
        exact absurd hij (hother i hik hi)
      · simp only [ne_eq, hik, hjk, not_false_eq_true, Function.update_of_ne] at hi hj hij
        exact h.entry_unique i j hi hj hij
    · intro i hi r hr
      rw [hentries] at hi ⊢
      by_cases hik : i = k
      · subst hik
        simp only [Function.update_self]
        exact hgone r hr
      · simp only [ne_eq, hik, not_false_eq_true, Function.update_of_ne] at hi ⊢
        exact h.exclusive i hi r (hsub.subset hr)
  · -- the cache is full, and only the request is gone
    exact h.of_sublist hentries (hsub.map _)

theorem expireEntries_valid {now : Nat} {entries : Fin srArpcacheSz → SrArpentry}
    {i : Fin srArpcacheSz} (h : (expireEntries now entries i).valid = true) :
    (entries i).valid = true ∧ expireEntries now entries i = entries i ∧
      stale now (entries i) = false := by
  unfold expireEntries at h ⊢
  split at h
  · cases h
  · next hstale =>
    rw [if_neg hstale]
    exact ⟨h, rfl, by simpa using hstale⟩

theorem KeysOk.expire {s : SrState} (h : KeysOk s.cache) : KeysOk s.expire.cache where
  entry_unique := by
    intro i j hi hj hij
    obtain ⟨hi, hei, -⟩ := expireEntries_valid hi
    obtain ⟨hj, hej, -⟩ := expireEntries_valid hj
    simp only [SrState.expire] at hij
    rw [hei, hej] at hij
    exact h.entry_unique i j hi hj hij
  request_unique := h.request_unique
  exclusive := by
    intro i hi r hr
    obtain ⟨hi, hei, -⟩ := expireEntries_valid hi
    simp only [SrState.expire]
    rw [hei]
    exact h.exclusive i hi r hr

theorem KeysOk.move {sr : SrConfig} {x y : SrState × List Bytes} (haddrs : AddrsOk x.1.cache)
    (h : KeysOk x.1.cache) (hmove : Move sr x y) : KeysOk y.1.cache := by
  cases hmove with
  | log => exact h
  | forward => exact h
  | send => exact h
  | queue long route absent handled =>
      exact KeysOk.handle (s := SrState.withCache _ _) (h.queuereq haddrs absent _ _)
        (haddrs.queue _ _ _) handled
  | learn last teaches absent => exact h.insert absent _ _
  | answer last teaches absent => exact h.insert absent _ _
  | handle handled => exact h.handle haddrs handled
  | expire => exact h.expire

end Keys

/-! ## Requests

What holds of each request is preserved function by function, without regard to the others. -/

section Requests

variable {sr : SrConfig} {s s' : SrState}

/-- What holds of every request after one has been handled: what held of the others, and what
holds of the handled one if it stays. -/
theorem srArpreqHandle_forall {Q : SrArpreq → Prop} {addr : Nat} (haddrs : AddrsOk s.cache)
    (hother : ∀ r ∈ s.cache.requests, r.addr ≠ addr → Q r)
    (hkeep : ∀ r ∈ s.cache.requests, r.addr = addr → ¬ r.sent + 1 < s.clock → Q r)
    (hresend : ∀ r ∈ s.cache.requests, r.addr = addr → r.timesSent < 5 →
      Q { r with sent := s.clock, timesSent := r.timesSent + 1 })
    (h : srArpreqHandle sr s addr = .ok s') : ∀ r ∈ s'.cache.requests, Q r := by
  obtain ⟨before, r, after, hsplit, rfl⟩ := exists_split_of_srArpreqHandle h
  have hQ : ∀ x ∈ before ++ after, Q x := by
    intro x hx
    have hnd := haddrs.nodup
    rw [hsplit] at hnd hother
    obtain ⟨hmem, hne⟩ := mem_of_split hnd hx
    exact hother x hmem hne
  have hr : r ∈ s.cache.requests := by simp [hsplit]
  have hmid : ∀ r' : SrArpreq, Q r' → ∀ x ∈ before ++ r' :: after, Q x := by
    intro r' hr' x hx
    rcases mem_split.mp hx with rfl | hx
    · exact hr'
    · exact hQ x hx
  rcases srArpreqHandle_cases hsplit haddrs.nodup h with
    ⟨hdue, rfl⟩ | ⟨-, -, rfl⟩ | ⟨-, hfive, iface, frame, rfl⟩
  · rw [hsplit]
    exact hmid r (hkeep r hr rfl hdue)
  · exact hQ
  · exact hmid _ (hresend r hr rfl hfive)

/-- The request a packet was queued on is an old one with the packet in front, or a new one;
the others are as before. -/
theorem mem_srArpcacheQueuereq {c : SrArpcache} (haddrs : AddrsOk c) {ip : InAddr}
    {packet : Bytes} (hp : packet ≠ []) {iface : String} {r : SrArpreq}
    (hr : r ∈ (srArpcacheQueuereq c ip packet iface).1.requests) :
    (r.addr ≠ (srArpcacheQueuereq c ip packet iface).2 ∧ r ∈ c.requests) ∨
    (r.addr = (srArpcacheQueuereq c ip packet iface).2 ∧
      ((∃ r₀ ∈ c.requests, r₀.ip = ip ∧
          r = { r₀ with packets := ⟨packet, iface⟩ :: r₀.packets }) ∨
        r = ⟨c.brk, ip, 0, 0, [⟨packet, iface⟩]⟩)) := by
  rcases srArpcacheQueuereq_cases haddrs ip hp iface with
    ⟨before, r₀, after, hsplit, hip, heq⟩ | ⟨hnew, heq⟩
  · rw [heq] at hr ⊢
    have hnd := haddrs.nodup
    rw [hsplit] at hnd
    rcases mem_split.mp hr with rfl | hr
    · exact .inr ⟨rfl, .inl ⟨r₀, by simp [hsplit], hip, rfl⟩⟩
    · obtain ⟨hmem, hne⟩ := mem_of_split hnd hr
      exact .inl ⟨hne, hsplit ▸ hmem⟩
  · rw [heq] at hr ⊢
    rcases List.mem_cons.mp hr with rfl | hr
    · exact .inr ⟨rfl, .inr rfl⟩
    · exact .inl ⟨Nat.ne_of_lt (haddrs.lt_brk r hr), hr⟩

theorem routed_queuereq {c : SrArpcache} (haddrs : AddrsOk c)
    (h : ∀ r ∈ c.requests, ∀ p ∈ r.packets, Routed sr r.ip p) {d : Bytes} (hd : d ≠ [])
    {rt : SrRt} (hrt : longestPrefixMatch sr (ipDst d) = some rt) :
    ∀ r ∈ (srArpcacheQueuereq c rt.gw d rt.interface).1.requests,
      ∀ p ∈ r.packets, Routed sr r.ip p := by
  intro r hr p hp
  have hself : Routed sr rt.gw ⟨d, rt.interface⟩ := ⟨rt, hrt, rfl, rfl⟩
  rcases mem_srArpcacheQueuereq haddrs hd hr with ⟨-, hr⟩ | ⟨-, ⟨r₀, hr₀, hip, rfl⟩ | rfl⟩
  · exact h r hr p hp
  · rcases List.mem_cons.mp hp with rfl | hp
    · exact hip ▸ hself
    · exact h r₀ hr₀ p hp
  · rw [List.mem_singleton.mp hp]
    exact hself

theorem routed_handle {addr : Nat} (haddrs : AddrsOk s.cache)
    (h : ∀ r ∈ s.cache.requests, ∀ p ∈ r.packets, Routed sr r.ip p)
    (hhandle : srArpreqHandle sr s addr = .ok s') :
    ∀ r ∈ s'.cache.requests, ∀ p ∈ r.packets, Routed sr r.ip p :=
  srArpreqHandle_forall haddrs (fun r hr _ => h r hr) (fun r hr _ _ => h r hr)
    (fun r hr _ _ => h r hr) hhandle

theorem timed_handle {addr : Nat} (haddrs : AddrsOk s.cache)
    (h : ∀ r ∈ s.cache.requests, Timed s.clock r)
    (hhandle : srArpreqHandle sr s addr = .ok s') : ∀ r ∈ s'.cache.requests, Timed s'.clock r := by
  rw [(srArpreqHandle_sublist haddrs hhandle).2.2.1]
  refine srArpreqHandle_forall haddrs (fun r hr _ => h r hr) (fun r hr _ _ => h r hr) ?_ hhandle
  intro r _ _ hfive
  exact ⟨Nat.succ_pos _, hfive, Nat.le_refl _⟩

/-- Queueing leaves a fresh request unsent; handling it at once sends it, for the clock is past
the zero that `calloc` left in `sent`. -/
theorem timed_queue {ip : InAddr} {d : Bytes} {iface : String} (haddrs : AddrsOk s.cache)
    (hd : d ≠ []) (hclock : 2 ≤ s.clock) (h : ∀ r ∈ s.cache.requests, Timed s.clock r)
    (hhandle : srArpreqHandle sr (s.withCache (srArpcacheQueuereq s.cache ip d iface).1)
      (srArpcacheQueuereq s.cache ip d iface).2 = .ok s') :
    ∀ r ∈ s'.cache.requests, Timed s'.clock r := by
  have haddrs' := haddrs.queue ip d iface
  have hclock' := (srArpreqHandle_sublist (s := s.withCache _) haddrs' hhandle).2.2.1
  rw [hclock']
  refine srArpreqHandle_forall (s := s.withCache _) haddrs' ?_ ?_ ?_ hhandle
  · intro r hr hne
    rcases mem_srArpcacheQueuereq haddrs hd hr with ⟨-, hr⟩ | ⟨heq, -⟩
    · exact h r hr
    · exact absurd heq hne
  · intro r hr heq hdue
    rcases mem_srArpcacheQueuereq haddrs hd hr with ⟨hne, -⟩ | ⟨-, ⟨r₀, hr₀, -, rfl⟩ | rfl⟩
    · exact absurd heq hne
    · exact h r₀ hr₀
    · simp only [SrState.withCache_clock] at hdue
      omega
  · intro r _ _ hfive
    exact ⟨Nat.succ_pos _, hfive, Nat.le_refl _⟩

/-- An insertion only takes requests away. -/
theorem srArpcacheInsert_subset {c : SrArpcache} {mac : EtherAddr} {ip : InAddr} {now : Nat} :
    ∀ r ∈ (srArpcacheInsert c mac ip now).1.requests, r ∈ c.requests := by
  intro r hr
  exact List.mem_of_mem_eraseP hr

end Requests

/-! ## Every reachable state -/

theorem RepInv.move {sr : SrConfig} {x y : SrState × List Bytes} (haddrs : AddrsOk x.1.cache)
    (hclock : 2 ≤ x.1.clock) (h : RepInv sr x.1.clock x.1.cache) (hmove : Move sr x y) :
    RepInv sr y.1.clock y.1.cache ∧ y.1.clock = x.1.clock := by
  have hkeys := h.toKeysOk.move haddrs hmove
  cases hmove with
  | log => exact ⟨h, rfl⟩
  | forward => exact ⟨h, rfl⟩
  | send => exact ⟨h, rfl⟩
  | @queue s s' d hand rt long route absent handled =>
      have hd : d ≠ [] := List.ne_nil_of_length_pos (Nat.lt_of_lt_of_le (by decide) long)
      have haddrs' := haddrs.queue rt.gw d rt.interface
      refine ⟨⟨hkeys, ?_, timed_queue haddrs hd hclock h.timed handled⟩,
        (srArpreqHandle_sublist (s := s.withCache _) haddrs' handled).2.2.1⟩
      exact routed_handle (s := s.withCache _) haddrs' (routed_queuereq haddrs h.routed hd route)
        handled
  | learn =>
      exact ⟨⟨hkeys, fun r hr => h.routed r (srArpcacheInsert_subset r hr),
        fun r hr => h.timed r (srArpcacheInsert_subset r hr)⟩, rfl⟩
  | answer =>
      exact ⟨⟨hkeys, fun r hr => h.routed r (srArpcacheInsert_subset r hr),
        fun r hr => h.timed r (srArpcacheInsert_subset r hr)⟩, rfl⟩
  | handle handled =>
      exact ⟨⟨hkeys, routed_handle haddrs h.routed handled, timed_handle haddrs h.timed handled⟩,
        (srArpreqHandle_sublist haddrs handled).2.2.1⟩
  | expire => exact ⟨⟨hkeys, h.routed, h.timed⟩, rfl⟩

theorem repInv_init (sr : SrConfig) : RepInv sr srInit.clock srInit.cache where
  entry_unique := by intro i j hi; cases hi
  request_unique := List.nodup_nil
  exclusive := by intro i hi; cases hi
  routed := by intro r hr; cases hr
  timed := by intro r hr; cases hr

/-- The clock of the inputs does not run backwards and starts at two seconds or later. -/
def ClockOk (inputs : List SrInput) : Prop := (2 :: inputs.map SrInput.now).Pairwise (· ≤ ·)

/-- **The representation invariant holds in every reachable state**, whatever frames arrive and
whenever the timeout thread wakes up. -/
theorem repInv_of_srRun {sr : SrConfig} {inputs : List SrInput} {s : SrState}
    (hlong : ∀ i ∈ inputs, i.Long sr) (hclock : ClockOk inputs)
    (hrun : srRun sr inputs = .ok s) : RepInv sr s.clock s.cache := by
  -- along the run, the clock is zero or that of an input, which no later one is below
  have key := srRun_rule
    (P := fun is x => ClockOk is → RepInv sr x.1.clock x.1.cache ∧
      (x.1.clock = 0 ∧ is = [] ∨ 2 ≤ x.1.clock ∧ x.1.clock ∈ is.map SrInput.now))
    (fun _ => ⟨repInv_init sr, .inl ⟨rfl, rfl⟩⟩) ?_ ?_ hlong hrun
  · exact (key.2 hclock).1
  · intro is s i ih hclock
    have hsplit : ClockOk is ∧ (2 ≤ i.now ∧ ∀ t ∈ is.map SrInput.now, t ≤ i.now) := by
      unfold ClockOk at hclock ⊢
      rw [List.map_append, ← List.cons_append, List.pairwise_append] at hclock
      refine ⟨hclock.1, hclock.2.2 2 (by simp) i.now (by simp), ?_⟩
      intro t ht
      exact hclock.2.2 t (by simp [ht]) i.now (by simp)
    obtain ⟨hinv, hlast⟩ := ih hsplit.1
    have hle : s.clock ≤ i.now := by
      rcases hlast with ⟨hzero, -⟩ | ⟨-, hmem⟩
      · simp only at hzero
        omega
      · exact hsplit.2.2 _ hmem
    simp only [SrState.tick_clock, SrState.tick_cache]
    refine ⟨⟨hinv.toKeysOk, hinv.routed, ?_⟩, .inr ⟨hsplit.2.1, by simp⟩⟩
    intro r hr
    obtain ⟨hone, hfive, hsent⟩ := hinv.timed r hr
    exact ⟨hone, hfive, Nat.le_trans hsent hle⟩
  · intro is i x y haddrs ih hmove hclock
    obtain ⟨hinv, hlast⟩ := ih hclock
    rcases hlast with ⟨-, hnil⟩ | ⟨htwo, hmem⟩
    · simp at hnil
    · obtain ⟨hinv', heq⟩ := hinv.move haddrs htwo hmove
      exact ⟨hinv', .inr (by rw [heq]; exact ⟨htwo, hmem⟩)⟩

/-- The invariant in full, for every state a run from `sr_arpcache_init` reaches. -/
theorem cache_invariant {sr : SrConfig} {inputs : List SrInput} {s : SrState}
    (hlong : ∀ i ∈ inputs, i.Long sr) (hclock : ClockOk inputs)
    (hrun : srRun sr inputs = .ok s) :
    (∀ i j, (s.cache.entries i).valid = true → (s.cache.entries j).valid = true →
      (s.cache.entries i).ip = (s.cache.entries j).ip → i = j) ∧
    (s.cache.requests.map SrArpreq.ip).Nodup ∧
    (∀ i, (s.cache.entries i).valid = true →
      ∀ r ∈ s.cache.requests, r.ip ≠ (s.cache.entries i).ip) ∧
    (∀ r ∈ s.cache.requests, ∀ p ∈ r.packets, ∃ rt,
      longestPrefixMatch sr (ipDst p.buf) = some rt ∧ rt.gw = r.ip ∧ rt.interface = p.iface) ∧
    ∀ r ∈ s.cache.requests, 1 ≤ r.timesSent ∧ r.timesSent ≤ 5 ∧ r.sent ≤ s.clock := by
  have h := repInv_of_srRun hlong hclock hrun
  exact ⟨h.entry_unique, h.request_unique, h.exclusive, h.routed, h.timed⟩

theorem cache_invariant_queueAndFlush : ∃ s, srRun rtableConfig queueAndFlush = .ok s ∧
    s.cache.requests ≠ [] ∧ (s.cache.requests.map SrArpreq.ip).Nodup ∧
    ∀ i, (s.cache.entries i).valid = true →
      ∀ r ∈ s.cache.requests, r.ip ≠ (s.cache.entries i).ip := by
  obtain ⟨s, hrun, hqueued⟩ : ∃ s, srRun rtableConfig queueAndFlush = .ok s ∧
      (!s.cache.requests.isEmpty) = true := exists_ok_of_check (by decide +kernel)
  obtain ⟨-, hunique, hexclusive, -, -⟩ :=
    cache_invariant (by decide +kernel) (by unfold ClockOk; decide) hrun
  exact ⟨s, hrun, by simpa using hqueued, hunique, hexclusive⟩

end NetworkProjects.Router
