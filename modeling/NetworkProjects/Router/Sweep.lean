import NetworkProjects.Router.ArpFrames

/-!
# The sweep as a function on the queue

`sr_arpcache_sweepreqs` walks the list of requests while `sr_arpreq_handle` takes nodes out of it.
On a queue whose requests can all be sent for, it does to each request what `sweepRequest` says,
in place and independently of the others, and it transmits one ARP request for each request that
it sends again, in queue order (`srArpcacheSweepreqs_refines`).
-/

namespace NetworkProjects.Router

open NetworkProjects.Lib

/-! ## The function -/

/-- What a sweep at time `now` makes of a request. -/
def sweepRequest (now : Nat) (r : SrArpreq) : Option SrArpreq :=
  if r.sent + 1 < now then
    if r.timesSent ≥ 5 then none else some { r with sent := now, timesSent := r.timesSent + 1 }
  else some r

/-- The sweep sends the request again. -/
def SentAgain (now : Nat) (r : SrArpreq) : Prop := r.sent + 1 < now ∧ r.timesSent < 5

instance (now : Nat) (r : SrArpreq) : Decidable (SentAgain now r) :=
  inferInstanceAs (Decidable (_ ∧ _))

/-- A packet waits for the request, its interface exists, and there is a route to the gateway over
an interface of the router. -/
def Resolvable (sr : SrConfig) (r : SrArpreq) : Prop :=
  ∃ packet rest i rt j, r.packets = packet :: rest ∧ srGetInterface sr packet.iface = some i ∧
    longestPrefixMatch sr r.ip = some rt ∧ srGetInterface sr rt.interface = some j

theorem resolvable_iff {sr : SrConfig} {r : SrArpreq} :
    Resolvable sr r ↔
      ((r.packets.head?.bind fun packet => srGetInterface sr packet.iface).isSome ∧
        ((longestPrefixMatch sr r.ip).bind fun rt => srGetInterface sr rt.interface).isSome) := by
  simp only [Option.isSome_iff_exists, Option.bind_eq_some_iff, List.head?_eq_some_iff]
  constructor
  · rintro ⟨packet, rest, i, rt, j, hpackets, hi, hrt, hj⟩
    exact ⟨⟨i, packet, ⟨rest, hpackets⟩, hi⟩, j, rt, hrt, hj⟩
  · rintro ⟨⟨i, packet, ⟨rest, hpackets⟩, hi⟩, j, rt, hrt, hj⟩
    exact ⟨packet, rest, i, rt, j, hpackets, hi, hrt, hj⟩

instance (sr : SrConfig) (r : SrArpreq) : Decidable (Resolvable sr r) :=
  decidable_of_iff _ resolvable_iff.symm

/-- The frame an event writes to the wire. -/
def SrEvent.frames : SrEvent → List Bytes
  | .transmitted _ _ frame => [frame]
  | _ => []

/-- Every frame written to the wire. -/
def transmittedFrames (h : List SrEvent) : List Bytes := h.flatMap SrEvent.frames

theorem transmittedFrames_append (h es : List SrEvent) :
    transmittedFrames (h ++ es) = transmittedFrames h ++ transmittedFrames es :=
  List.flatMap_append

/-- The frame is an ARP request to everybody, for the address of the request. -/
structure AsksFor (r : SrArpreq) (frame : Bytes) : Prop where
  ethertype : ethertype frame = SrEthertype.arp.value
  opcode : arpOpcode frame = arpOpRequest
  dhost : etherDhost frame = broadcastAddr
  target : arTip frame = r.ip

theorem asksFor_arpFrame (r : SrArpreq) (shost sha tha : EtherAddr) (sip : InAddr) :
    AsksFor r (arpFrame broadcastAddr shost arpOpRequest sha sip tha r.ip) where
  ethertype := by simp
  opcode := by simp
  dhost := by simp
  target := by simp

/-! ## One request

What the sweep does to one request depends on that request and the clock, and the others stay where
they are. -/

section Sweep

variable {sr : SrConfig}

/-- What a part of the sweep has done: the requests are `requests` now, and `asked` are those that
an ARP request was transmitted for. -/
structure Swept (s : SrState) (requests asked : List SrArpreq) (s' : SrState) : Prop where
  cache : s'.cache = { s.cache with requests := requests }
  clock : s'.clock = s.clock
  asks : ∃ es, s'.history = s.history ++ es ∧ List.Forall₂ AsksFor asked (transmittedFrames es)

theorem Swept.trans {s s₁ s₂ : SrState} {requests₁ requests₂ asked₁ asked₂ : List SrArpreq}
    (h₁ : Swept s requests₁ asked₁ s₁) (h₂ : Swept s₁ requests₂ asked₂ s₂) :
    Swept s requests₂ (asked₁ ++ asked₂) s₂ where
  cache := by rw [h₂.cache, h₁.cache]
  clock := h₂.clock.trans h₁.clock
  asks := by
    obtain ⟨es₁, hhist₁, hasks₁⟩ := h₁.asks
    obtain ⟨es₂, hhist₂, hasks₂⟩ := h₂.asks
    refine ⟨es₁ ++ es₂, by rw [hhist₂, hhist₁, List.append_assoc], ?_⟩
    rw [transmittedFrames_append]
    exact List.rel_append hasks₁ hasks₂

/-- `sr_arpreq_handle`, for a request between others: it stays, it goes, or it is sent again. -/
theorem srArpreqHandle_swept {s : SrState} {before after : List SrArpreq} {r : SrArpreq}
    (hsplit : s.cache.requests = before ++ r :: after)
    (hnd : (s.cache.requests.map SrArpreq.addr).Nodup) (hres : Resolvable sr r) :
    ∃ s', srArpreqHandle sr s r.addr = .ok s' ∧
      Swept s (before ++ (sweepRequest s.clock r).toList ++ after)
        ([r].filter (SentAgain s.clock ·)) s' := by
  -- the request is found at its own address
  have hderef : derefReq s.cache.requests r.addr = some r := by
    rw [hsplit] at hnd ⊢
    exact derefReq_split hnd
  unfold srArpreqHandle
  rw [hderef]
  simp only
  split
  · -- due, and sent five times already or not
    next hdue =>
    split
    · next hfive =>
      have hkept : ¬ SentAgain s.clock r := fun h => absurd hfive (Nat.not_le.mpr h.2)
      refine ⟨_, rfl, ?_, rfl, [.destroyed r], rfl, ?_⟩
      · rw [SrState.emit_cache, SrState.withCache_cache, srArpreqDestroy_split hsplit hnd,
          sweepRequest, if_pos hdue, if_pos hfive]
        simp
      · simp [hkept, transmittedFrames, SrEvent.frames]
    · next hfive =>
      obtain ⟨packet, rest, i, rt, j, hpackets, hi, hrt, hj⟩ := hres
      obtain ⟨s₁, hsend, hs₁⟩ : ∃ s₁, sendArpRequest sr s r = .ok s₁ ∧
          s₁ = (s.emit (.arpRequested r.addr s.clock)).emit
            (.transmitted (.fillAndSendPkt .arp) rt.interface (arpFrame broadcastAddr j.addr
              arpOpRequest i.addr i.ip (s.mem.stack s.history.length) r.ip)) :=
        ⟨_, sendArpRequest_iff.mpr ⟨packet, rest, i, rt, j, hpackets, hi, hrt, hj, rfl⟩, rfl⟩
      have hagain : SentAgain s.clock r := ⟨hdue, Nat.not_le.mp hfive⟩
      have hnd' := hnd
      rw [hsplit] at hnd'
      rw [hsend]
      refine ⟨_, rfl, ?_, ?_, _, by rw [hs₁, SrState.withCache_history, SrState.emit_history,
        SrState.emit_history, List.append_assoc], ?_⟩
      · rw [SrState.withCache_cache, hs₁, SrState.emit_cache, SrState.emit_cache, hsplit,
          updateReq_split hnd', sweepRequest, if_pos hdue, if_neg hfive]
        simp
      · rw [hs₁]
        rfl
      · have hasked : [r].filter (SentAgain s.clock ·) = [r] := by simp [hagain]
        rw [hasked]
        exact .cons (asksFor_arpFrame r _ _ _ _) .nil
  · next hdue =>
    have hkept : ¬ SentAgain s.clock r := fun h => hdue h.1
    refine ⟨s, rfl, ?_, rfl, [], by simp, ?_⟩
    · rw [sweepRequest, if_neg hdue]
      simp [← hsplit]
    · simp [hkept, transmittedFrames]

/-! ## All of them

The loop by induction on the requests that lie ahead. -/

/-- The sweep has been over `done`, and `rest` lies ahead. -/
theorem run_srArpreqHandle_swept (sr : SrConfig) :
    ∀ (rest : List SrArpreq) {s : SrState} (done : List SrArpreq),
      s.cache.requests = done ++ rest → (s.cache.requests.map SrArpreq.addr).Nodup →
      (∀ r ∈ rest, Resolvable sr r) →
      ∃ s', run (srArpreqHandle sr) s (rest.map SrArpreq.addr) = .ok s' ∧
        Swept s (done ++ rest.filterMap (sweepRequest s.clock))
          (rest.filter (SentAgain s.clock ·)) s'
  | [], s, done, hsplit, _, _ => by
      refine ⟨s, rfl, ?_, rfl, [], by simp, .nil⟩
      simp [← hsplit]
  | r :: rest, s, done, hsplit, hnd, hres => by
      obtain ⟨s₁, hhandle, hfirst⟩ := srArpreqHandle_swept hsplit hnd (hres r List.mem_cons_self)
      have hsplit₁ : s₁.cache.requests = done ++ (sweepRequest s.clock r).toList ++ rest := by
        rw [hfirst.cache]
      have hnd₁ : (s₁.cache.requests.map SrArpreq.addr).Nodup := by
        obtain ⟨-, -, hnd₁⟩ := srArpreqHandle_split hsplit hnd hhandle
        exact hnd₁
      obtain ⟨s', hrun, hrest⟩ := run_srArpreqHandle_swept sr rest _ hsplit₁ hnd₁
        fun x hx => hres x (List.mem_cons_of_mem r hx)
      refine ⟨s', run_cons.mpr ⟨s₁, hhandle, hrun⟩, ?_⟩
      have hboth := hfirst.trans hrest
      rw [hfirst.clock] at hboth
      have hqueue : done ++ (r :: rest).filterMap (sweepRequest s.clock)
          = done ++ (sweepRequest s.clock r).toList ++ rest.filterMap (sweepRequest s.clock) := by
        rw [List.append_assoc, List.filterMap_cons]
        cases sweepRequest s.clock r with
        | none => rfl
        | some r' => rfl
      have hasked : (r :: rest).filter (SentAgain s.clock ·)
          = [r].filter (SentAgain s.clock ·) ++ rest.filter (SentAgain s.clock ·) := by
        rw [← List.filter_append]
        rfl
      rw [hqueue, hasked]
      exact hboth

end Sweep

/-- **The sweep handles every request once.** The queue afterwards is the queue before, with
`sweepRequest` applied to each request, and one ARP request has been transmitted for each request
that is sent again, and none for the others. -/
theorem srArpcacheSweepreqs_refines {sr : SrConfig} {s : SrState}
    (hnd : (s.cache.requests.map SrArpreq.addr).Nodup)
    (hres : ∀ r ∈ s.cache.requests, Resolvable sr r) :
    ∃ s' es, srArpcacheSweepreqs sr s = .ok s' ∧
      s'.cache = { s.cache with
        requests := s.cache.requests.filterMap (sweepRequest s.clock) } ∧
      s'.history = s.history ++ es ∧
      List.Forall₂ AsksFor (s.cache.requests.filter (SentAgain s.clock ·))
        (transmittedFrames es) := by
  obtain ⟨s', hrun, hswept⟩ := run_srArpreqHandle_swept sr s.cache.requests [] rfl hnd hres
  obtain ⟨es, hhist, hasks⟩ := hswept.asks
  exact ⟨s', es, by rw [srArpcacheSweepreqs_eq hnd, hrun], by rw [hswept.cache, List.nil_append],
    hhist, hasks⟩

/-- A request with one packet waiting. -/
def oneWaiting (addr : Nat) (host : InAddr) (iface : String) (timesSent : Nat) : SrArpreq :=
  ⟨addr, host, 1, timesSent, [⟨ipDatagram 63 17 (dotted 10 0 1 100) host [], iface⟩]⟩

/-- Two requests to give up, one after the other, and one to send again. -/
def crowdedQueue : SrState :=
  { srInit with
    cache := { srArpcacheInit with
      requests := [oneWaiting 2 (dotted 10 0 1 100) "eth3" 5,
        oneWaiting 1 (dotted 192 168 2 2) "eth1" 5, oneWaiting 0 (dotted 172 64 3 10) "eth2" 2]
      brk := 3 }
    clock := 10 }

theorem srArpcacheSweepreqs_crowded : ∃ s' es,
    srArpcacheSweepreqs rtableConfig crowdedQueue = .ok s' ∧
    s'.cache.requests = [{ oneWaiting 0 (dotted 172 64 3 10) "eth2" 3 with sent := 10 }] ∧
    s'.history = es ∧ (transmittedFrames es).length = 1 := by
  obtain ⟨s', es, hsweep, hcache, hhist, hasks⟩ :=
    srArpcacheSweepreqs_refines
      (show (crowdedQueue.cache.requests.map SrArpreq.addr).Nodup by decide)
      (show ∀ r ∈ crowdedQueue.cache.requests, Resolvable rtableConfig r by decide +kernel)
  refine ⟨s', es, hsweep, ?_, by simpa [crowdedQueue, srInit] using hhist, ?_⟩
  · rw [hcache]
    rfl
  · rw [← hasks.length_eq]
    rfl

end NetworkProjects.Router
