import NetworkProjects.Router.Instance
import Mathlib.Data.List.FinRange
import Mathlib.Logic.Function.Basic

/-!
# Operations on the ARP cache (`sr_arpcache.c`)

The four lock-protected operations on entries and request queue, each followed by the lemma
its callers use. None of them keeps the cache consistent by itself: `srArpcacheInsert` fills a
slot without looking whether the IP is there already, `srArpcacheQueuereq` queues for an IP
that may have an entry.

A request on the queue is pinned down by splitting the queue around it, `before ++ r :: after`:
`updateReq_split` and `eraseP_addr_split` say what the two pointer operations do to a split
queue with distinct addresses.
-/

namespace NetworkProjects.Router

open NetworkProjects.Lib

/-! ## Lookup -/

/-- `sr_arpcache_lookup`. The loop runs to the end, so the last match counts. -/
def srArpcacheLookup (cache : SrArpcache) (ip : InAddr) : Option SrArpentry :=
  (List.finRange srArpcacheSz).foldl (fun entry i =>
    if (cache.entries i).valid ∧ (cache.entries i).ip = ip then some (cache.entries i)
    else entry) none

/-- What a loop that remembers the last match holds at its end. -/
theorem foldl_lastMatch {α β : Type} {p : α → Prop} [DecidablePred p] {f : α → β} :
    ∀ (l : List α) (acc : Option β) (r : Option β),
      l.foldl (fun acc i => if p i then some (f i) else acc) acc = r →
      (r = acc ∧ ∀ i ∈ l, ¬ p i) ∨ ∃ i ∈ l, p i ∧ r = some (f i)
  | [], acc, r, h => .inl ⟨h.symm, by simp⟩
  | a :: l, acc, r, h => by
      rw [List.foldl_cons] at h
      rcases foldl_lastMatch l _ r h with ⟨hr, hl⟩ | ⟨i, hi, hp, hr⟩
      · by_cases ha : p a
        · exact .inr ⟨a, by simp, ha, by rw [hr, if_pos ha]⟩
        · refine .inl ⟨by rw [hr, if_neg ha], ?_⟩
          intro i hi
          rcases List.mem_cons.mp hi with rfl | hi
          · exact ha
          · exact hl i hi
      · exact .inr ⟨i, by simp [hi], hp, hr⟩

theorem srArpcacheLookup_eq_some {cache : SrArpcache} {ip : InAddr} {e : SrArpentry}
    (h : srArpcacheLookup cache ip = some e) :
    ∃ i, cache.entries i = e ∧ e.valid = true ∧ e.ip = ip := by
  rcases foldl_lastMatch _ _ _ h with ⟨hnone, -⟩ | ⟨i, -, ⟨hv, hip⟩, he⟩
  · cases hnone
  · cases he
    exact ⟨i, rfl, hv, hip⟩

theorem srArpcacheLookup_eq_none {cache : SrArpcache} {ip : InAddr}
    (h : srArpcacheLookup cache ip = none) :
    ∀ i, (cache.entries i).valid = true → (cache.entries i).ip ≠ ip := by
  intro i hv hip
  rcases foldl_lastMatch _ _ _ h with ⟨-, hall⟩ | ⟨j, -, -, hj⟩
  · exact hall i (List.mem_finRange i) ⟨hv, hip⟩
  · cases hj

/-! ## Nodes of the request queue -/

/-- Write through a pointer to the request at `addr`. -/
def updateReq (addr : Nat) (f : SrArpreq → SrArpreq) (requests : List SrArpreq) :
    List SrArpreq :=
  requests.map fun r => if r.addr = addr then f r else r

/-- The request a pointer refers to, if it is on the queue. -/
def derefReq (requests : List SrArpreq) (addr : Nat) : Option SrArpreq :=
  requests.find? fun r => r.addr == addr

/-- A match of `find?` splits the list at its first match. -/
theorem find?_split {α : Type} {p : α → Bool} {l : List α} {a : α} (h : l.find? p = some a) :
    ∃ before after, l = before ++ a :: after ∧ p a = true ∧ (∀ b ∈ before, p b = false) ∧
      l.eraseP p = before ++ after := by
  obtain ⟨ha, before, after, rfl, hbefore⟩ := List.find?_eq_some_iff_append.mp h
  have hbefore' : ∀ b ∈ before, p b = false := by
    intro b hb
    simpa using hbefore b hb
  refine ⟨before, after, rfl, ha, hbefore', ?_⟩
  rw [List.eraseP_append_right _ (by simpa using hbefore'), List.eraseP_cons_of_pos ha]

section Split

variable {before after : List SrArpreq} {r : SrArpreq}

theorem mem_split {x : SrArpreq} : x ∈ before ++ r :: after ↔ x = r ∨ x ∈ before ++ after := by
  simp [or_left_comm]

/-- In a queue with distinct addresses, the address of `r` is the address of no other node. -/
theorem addr_ne_of_split (hnd : ((before ++ r :: after).map SrArpreq.addr).Nodup) :
    (∀ x ∈ before, x.addr ≠ r.addr) ∧ ∀ x ∈ after, x.addr ≠ r.addr := by
  rw [List.map_append, List.map_cons, List.nodup_append, List.nodup_cons] at hnd
  obtain ⟨-, ⟨hafter, -⟩, hdisj⟩ := hnd
  constructor
  · intro x hx heq
    exact hdisj x.addr (List.mem_map_of_mem hx) r.addr (by simp) heq
  · intro x hx heq
    exact hafter (heq ▸ List.mem_map_of_mem hx)

/-- The other nodes are on the queue, at other addresses. -/
theorem mem_of_split (hnd : ((before ++ r :: after).map SrArpreq.addr).Nodup) {x : SrArpreq}
    (hx : x ∈ before ++ after) : x ∈ before ++ r :: after ∧ x.addr ≠ r.addr := by
  obtain ⟨hb, ha⟩ := addr_ne_of_split hnd
  rcases List.mem_append.mp hx with hx | hx
  · exact ⟨by simp [hx], hb x hx⟩
  · exact ⟨by simp [hx], ha x hx⟩

theorem updateReq_of_ne {addr : Nat} {f : SrArpreq → SrArpreq} {l : List SrArpreq}
    (h : ∀ x ∈ l, x.addr ≠ addr) : updateReq addr f l = l := by
  unfold updateReq
  conv_rhs => rw [← List.map_id l]
  exact List.map_congr_left fun x hx => if_neg (h x hx)

theorem updateReq_split (hnd : ((before ++ r :: after).map SrArpreq.addr).Nodup)
    (f : SrArpreq → SrArpreq) :
    updateReq r.addr f (before ++ r :: after) = before ++ f r :: after := by
  obtain ⟨hb, ha⟩ := addr_ne_of_split hnd
  have hsplit : updateReq r.addr f (before ++ r :: after)
      = updateReq r.addr f before ++ f r :: updateReq r.addr f after := by
    simp [updateReq]
  rw [hsplit, updateReq_of_ne hb, updateReq_of_ne ha]

theorem derefReq_split (hnd : ((before ++ r :: after).map SrArpreq.addr).Nodup) :
    derefReq (before ++ r :: after) r.addr = some r := by
  obtain ⟨hb, -⟩ := addr_ne_of_split hnd
  unfold derefReq
  rw [List.find?_append, List.find?_eq_none.mpr (by simpa using hb)]
  simp

end Split

/-! ## Queueing -/

/-- `sr_arpcache_queuereq`: the queue afterwards, and the pointer it returns. -/
def srArpcacheQueuereq (cache : SrArpcache) (ip : InAddr) (packet : Bytes) (iface : String) :
    SrArpcache × Nat :=
  let (cache, req) :=
    match cache.requests.find? (fun req => req.ip == ip) with
    | some req => (cache, req.addr)
    | none =>
        (⟨cache.entries, ⟨cache.brk, ip, 0, 0, []⟩ :: cache.requests, cache.brk + 1⟩, cache.brk)
  if packet.length ≠ 0 then
    let push := fun r : SrArpreq => { r with packets := ⟨packet, iface⟩ :: r.packets }
    ({ cache with requests := updateReq req push cache.requests }, req)
  else (cache, req)

/-- What keeps pointers meaningful: `calloc` never returns an address that is in use. -/
structure AddrsOk (cache : SrArpcache) : Prop where
  nodup : (cache.requests.map SrArpreq.addr).Nodup
  lt_brk : ∀ r ∈ cache.requests, r.addr < cache.brk

/-- What `sr_arpcache_queuereq` puts in front of the packets of a request: nothing, if the packet
is empty. -/
def queuedPackets (packet : Bytes) (iface : String) : List SrPacket :=
  if packet.length ≠ 0 then [⟨packet, iface⟩] else []

/-- A packet lands on the queued request for its IP or on a new one at the head. -/
theorem srArpcacheQueuereq_split {cache : SrArpcache} (hwf : AddrsOk cache) (ip : InAddr)
    (packet : Bytes) (iface : String) :
    (∃ before r after, cache.requests = before ++ r :: after ∧ r.ip = ip ∧
      srArpcacheQueuereq cache ip packet iface =
        ({ cache with requests :=
            before ++ { r with packets := queuedPackets packet iface ++ r.packets } :: after },
          r.addr)) ∨
    ((∀ r ∈ cache.requests, r.ip ≠ ip) ∧
      srArpcacheQueuereq cache ip packet iface =
        (⟨cache.entries, ⟨cache.brk, ip, 0, 0, queuedPackets packet iface⟩ :: cache.requests,
          cache.brk + 1⟩, cache.brk)) := by
  cases hf : cache.requests.find? (fun req => req.ip == ip) with
  | some r =>
      obtain ⟨before, after, hsplit, hip, -, -⟩ := find?_split hf
      refine .inl ⟨before, r, after, hsplit, by simpa using hip, ?_⟩
      have hnd := hwf.nodup
      rw [hsplit] at hnd
      simp only [srArpcacheQueuereq, hf, queuedPackets]
      split
      · rw [hsplit, updateReq_split hnd]
        rfl
      · show (cache, r.addr) = ({ cache with requests := before ++ r :: after }, r.addr)
        rw [← hsplit]
  | none =>
      refine .inr ⟨by simpa using hf, ?_⟩
      -- the new request has an address of its own
      have hne : ∀ x ∈ cache.requests, x.addr ≠ cache.brk := by
        intro x hx
        exact Nat.ne_of_lt (hwf.lt_brk x hx)
      simp only [srArpcacheQueuereq, hf, queuedPackets]
      split
      · have hsame := updateReq_of_ne
          (f := fun r => { r with packets := ⟨packet, iface⟩ :: r.packets }) hne
        simp only [updateReq, List.map_cons, if_true] at hsame ⊢
        rw [hsame]
      · rfl

/-- The same for a packet that is not empty. -/
theorem srArpcacheQueuereq_cases {cache : SrArpcache} (hwf : AddrsOk cache) (ip : InAddr)
    {packet : Bytes} (hp : packet ≠ []) (iface : String) :
    (∃ before r after, cache.requests = before ++ r :: after ∧ r.ip = ip ∧
      srArpcacheQueuereq cache ip packet iface =
        ({ cache with requests :=
            before ++ { r with packets := ⟨packet, iface⟩ :: r.packets } :: after }, r.addr)) ∨
    ((∀ r ∈ cache.requests, r.ip ≠ ip) ∧
      srArpcacheQueuereq cache ip packet iface =
        (⟨cache.entries, ⟨cache.brk, ip, 0, 0, [⟨packet, iface⟩]⟩ :: cache.requests,
          cache.brk + 1⟩, cache.brk)) := by
  have hlen : packet.length ≠ 0 := by simpa using hp
  have hsplit := srArpcacheQueuereq_split hwf ip packet iface
  rwa [queuedPackets, if_pos hlen] at hsplit

@[simp] theorem srArpcacheQueuereq_entries (cache : SrArpcache) (ip : InAddr) (packet : Bytes)
    (iface : String) : (srArpcacheQueuereq cache ip packet iface).1.entries = cache.entries := by
  unfold srArpcacheQueuereq
  cases cache.requests.find? (fun req => req.ip == ip) <;> dsimp only <;> split <;> rfl

/-! ## Inserting a mapping -/

/-- The first slot that is not valid. -/
def freeSlot (entries : Fin srArpcacheSz → SrArpentry) : Option (Fin srArpcacheSz) :=
  (List.finRange srArpcacheSz).find? fun i => !(entries i).valid

/-- `sr_arpcache_insert`: the cache afterwards, and the request it takes off the queue. A full
cache stays as it is. -/
def srArpcacheInsert (cache : SrArpcache) (mac : EtherAddr) (ip : InAddr) (now : Nat) :
    SrArpcache × Option SrArpreq :=
  let entries :=
    match freeSlot cache.entries with
    | some i => Function.update cache.entries i ⟨mac, ip, now, true⟩
    | none => cache.entries
  (⟨entries, cache.requests.eraseP fun req => req.ip == ip, cache.brk⟩,
    cache.requests.find? fun req => req.ip == ip)

/-- The entries after an insertion: one invalid slot filled, or all as before. -/
theorem srArpcacheInsert_entries (cache : SrArpcache) (mac : EtherAddr) (ip : InAddr)
    (now : Nat) :
    (∃ i, (cache.entries i).valid = false ∧ (srArpcacheInsert cache mac ip now).1.entries
      = Function.update cache.entries i ⟨mac, ip, now, true⟩) ∨
    (srArpcacheInsert cache mac ip now).1.entries = cache.entries := by
  simp only [srArpcacheInsert]
  cases hf : freeSlot cache.entries with
  | some i =>
      refine .inl ⟨i, ?_, rfl⟩
      simpa using List.find?_some hf
  | none => exact .inr rfl

/-- What an insertion does to the queue: the first request for the IP leaves it, if any. -/
theorem srArpcacheInsert_cases (cache : SrArpcache) (mac : EtherAddr) (ip : InAddr)
    (now : Nat) :
    (∃ before r after, cache.requests = before ++ r :: after ∧ r.ip = ip ∧
      (srArpcacheInsert cache mac ip now).1.requests = before ++ after ∧
      (srArpcacheInsert cache mac ip now).2 = some r) ∨
    ((∀ r ∈ cache.requests, r.ip ≠ ip) ∧
      (srArpcacheInsert cache mac ip now).1.requests = cache.requests ∧
      (srArpcacheInsert cache mac ip now).2 = none) := by
  simp only [srArpcacheInsert]
  cases hf : cache.requests.find? (fun req => req.ip == ip) with
  | some r =>
      obtain ⟨before, after, hsplit, hip, -, herase⟩ := find?_split hf
      exact .inl ⟨before, r, after, hsplit, by simpa using hip, herase, rfl⟩
  | none =>
      refine .inr ⟨by simpa using hf, ?_, rfl⟩
      exact List.eraseP_of_forall_not (by simpa using hf)

/-! ## Destroying a request and expiring entries -/

/-- `sr_arpreq_destroy`: unlink the node at `entry`. -/
def srArpreqDestroy (cache : SrArpcache) (entry : Nat) : SrArpcache :=
  { cache with requests := cache.requests.eraseP fun req => req.addr == entry }

theorem srArpreqDestroy_split {cache : SrArpcache} {before after : List SrArpreq} {r : SrArpreq}
    (hsplit : cache.requests = before ++ r :: after)
    (hnd : (cache.requests.map SrArpreq.addr).Nodup) :
    srArpreqDestroy cache r.addr = { cache with requests := before ++ after } := by
  rw [hsplit] at hnd
  obtain ⟨hb, -⟩ := addr_ne_of_split hnd
  unfold srArpreqDestroy
  rw [hsplit, List.eraseP_append_right _ (by simpa using hb), List.eraseP_cons_of_pos (by simp)]

/-- The test of the timeout thread: valid, and added more than `SR_ARPCACHE_TO` seconds ago. -/
def stale (now : Nat) (e : SrArpentry) : Bool := e.valid && decide (e.added + srArpcacheTo < now)

/-- The loop of `sr_arpcache_timeout` over the entries. -/
def expireEntries (now : Nat) (entries : Fin srArpcacheSz → SrArpentry) :
    Fin srArpcacheSz → SrArpentry :=
  fun i => if stale now (entries i) then { entries i with valid := false } else entries i

/-- The mappings that loop invalidates. -/
def expiredEvents (now : Nat) (entries : Fin srArpcacheSz → SrArpentry) : List SrEvent :=
  ((List.finRange srArpcacheSz).filter fun i => stale now (entries i)).map
    fun i => .expired (entries i).ip (entries i).mac

end NetworkProjects.Router
