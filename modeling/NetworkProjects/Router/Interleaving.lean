import NetworkProjects.Router.Atomicity
import NetworkProjects.Lib.Ownership

/-!
# Destroyed requests

Who owns a request: it is queued, or `sr_arpcache_insert` has taken it off for the packet thread,
or it has been destroyed. `Threads.ledger` reads that off the two threads' state, and a turn of
either thread is a sequence of moves of the ledger.

What the ledger does not know is the pointer that `sr_arpcache_queuereq` returned. The packet thread
goes on using it after the lock is released, and nothing keeps the sweep from destroying the request
meanwhile. `noDestroyedUse` says that this is the only way to a destroyed request.
-/

namespace NetworkProjects.Router

open NetworkProjects.Lib

/-! ## Which requests a turn uses

A use is a read, an update or a walk along the queue that passes the request. Uses are listed by the
point the packet thread is at, and are compared with what has been destroyed before the turn or in
it. -/

/-- The request the packet thread has a pointer to, and will use. -/
def Point.request : Point → Option Nat
  | .fillAndSendPkt (.arpRequest req) _ _ => some req
  | .sendPacket (.arpRequest req) _ _ => some req
  | .readSent req => some req
  | .readTimes req => some req
  | .destroy req => some req
  | .readIface req => some req
  | .readTip req _ _ => some req
  | .readDip req _ => some req
  | .writeSent req => some req
  | .writeTimes req => some req
  | _ => none

/-- The request that was taken off the queue, and whose packets are sent. -/
def Point.detached : Point → Option Nat
  | .sendPackets req _ => some req.addr
  | _ => none

/-- `sr_arpcache_queuereq`, `sr_arpcache_insert` and `sr_arpreq_destroy` walk along the queue. -/
def Point.walks : Point → Bool
  | .queuereq _ _ _ => true
  | .insert _ _ => true
  | .destroy _ => true
  | _ => false

/-- The request at `addr` is read, updated, queued on or destroyed in the turn. -/
def Uses (t : Threads) (turn : Turn) (addr : Nat) : Prop :=
  let queued := addr ∈ t.state.cache.requests.map SrArpreq.addr
  match turn with
  | .receive _ _ _ _ => False
  | .packet _ _ =>
      match t.point with
      -- these two have the pointer in the frame of the caller
      | .fillAndSendPkt _ _ _ => False
      | .sendPacket _ _ _ => False
      | p => p.request = some addr ∨ p.detached = some addr ∨ p.walks = true ∧ queued
  | .timeout _ _ => queued

/-- The addresses of the requests that have been destroyed. -/
def freed (history : List SrEvent) : List Nat :=
  history.filterMap fun e =>
    match e with
    | .destroyed r => some r.addr
    | _ => none

/-- No turn uses a request that was destroyed before it, or in the course of it. -/
def NoDestroyedUse (sr : SrConfig) (turns : List Turn) : Prop :=
  Along (threadStep sr) threadsInit
    (fun _ t turn => ∀ addr, Uses t turn addr → addr ∉ freed t.state.history) turns ∧
  threadRun sr turns ≠ .error .dangling

/-- The request has been sent five times, the last time more than a second ago. -/
def Doomed (now : Nat) (r : SrArpreq) : Prop := r.sent + 1 < now ∧ 5 ≤ r.timesSent

/-- A sweep is about to destroy the request that the packet thread has a pointer to. -/
def DestroysHeld (t : Threads) : Turn → Prop
  | .timeout now _ => ∃ r ∈ t.state.cache.requests, t.point.request = some r.addr ∧ Doomed now r
  | _ => False

/-! ## The ledger

A request is queued, taken or freed, and moves between the three. The invariant `Live` is that the
pointer in the hands of the packet thread is to a queued request. -/

/-- The shared state as a ledger, when the packet thread has taken the requests at `taken`. -/
def SrState.ledger (s : SrState) (taken : List Nat) : Ledger :=
  ⟨s.cache.requests.map SrArpreq.addr, taken, freed s.history, s.cache.brk⟩

def Threads.ledger (t : Threads) : Ledger :=
  t.state.ledger ((t.point :: t.later).filterMap Point.detached)

/-- What the packet thread has a pointer to is queued, and no one further up has a pointer. -/
structure Live (t : Threads) : Prop where
  ok : t.ledger.Ok
  held : ∀ addr, t.point.request = some addr → addr ∈ t.ledger.linked
  later : ∀ p ∈ t.later, p.request = none

theorem live_init : Live threadsInit := by
  refine ⟨Ledger.ok_empty, ?_, ?_⟩
  · intro addr h
    cases h
  · intro p hp
    cases hp

/-- A live pointer is not to a destroyed request. -/
theorem Live.not_freed {t : Threads} (h : Live t) {turn : Turn} {addr : Nat}
    (huse : Uses t turn addr) : addr ∉ freed t.state.history := by
  have hlinked : addr ∈ t.state.cache.requests.map SrArpreq.addr → addr ∉ freed t.state.history :=
    h.ok.linked_not_freed
  cases turn with
  | receive => exact absurd huse id
  | timeout => exact hlinked huse
  | packet now mem =>
      have hpoint : t.point.request = some addr ∨ t.point.detached = some addr ∨
          t.point.walks = true ∧ addr ∈ t.state.cache.requests.map SrArpreq.addr := by
        unfold Uses at huse
        simp only at huse
        split at huse
        · exact absurd huse id
        · exact absurd huse id
        · exact huse
      rcases hpoint with hreq | hdet | ⟨-, hqueued⟩
      · exact hlinked (h.held addr hreq)
      · have htaken : addr ∈ t.ledger.taken :=
          List.mem_filterMap.mpr ⟨t.point, List.mem_cons_self, hdet⟩
        exact h.ok.taken_not_freed htaken
      · exact hlinked hqueued

/-! ## Turns of the packet thread

On its own the packet thread cannot go wrong: it destroys a request only when it returns. -/

section Packet

variable {sr : SrConfig} {t t' : Threads} {s s' : SrState}

/-- No request enters or leaves the queue, and none is destroyed. -/
def SameRequests (s s' : SrState) : Prop := ∀ taken, s'.ledger taken = s.ledger taken

theorem SameRequests.emit (s : SrState) {e : SrEvent} (h : ∀ r, e ≠ .destroyed r) :
    SameRequests s (s.emit e) := by
  intro taken
  have hfreed : freed (s.history ++ [e]) = freed s.history := by
    unfold freed
    rw [List.filterMap_append]
    cases e with
    | destroyed r => exact absurd rfl (h r)
    | _ => simp
  simp only [SrState.ledger, SrState.emit_history, hfreed]
  rfl

theorem srSendPacket_sameRequests (sr : SrConfig) (s : SrState) (sender : SrSender) (buf : Bytes)
    (iface : String) : SameRequests s (srSendPacket sr s sender buf iface) := by
  rcases srSendPacket_cases sr s sender buf iface with h | ⟨-, h⟩
  · rw [h]
    exact fun _ => rfl
  · rw [h]
    exact .emit s (by simp)

theorem writeReq_sameRequests (s : SrState) (req : Nat) {f : SrArpreq → SrArpreq}
    (hf : ∀ r, (f r).addr = r.addr) : SameRequests s (writeReq s req f) := by
  intro taken
  have haddrs : (updateReq req f s.cache.requests).map SrArpreq.addr
      = s.cache.requests.map SrArpreq.addr := by
    unfold updateReq
    rw [List.map_map]
    apply List.map_congr_left
    intro r _
    simp only [Function.comp]
    split
    · exact hf r
    · rfl
  simp only [SrState.ledger, writeReq, SrState.withRequests_requests, haddrs]
  rfl

/-- The packet thread goes on where it has the same requests. -/
theorem Live.goto (h : Live t) {p : Point} (hsame : SameRequests t.state s)
    (hdetached : p.detached = t.point.detached)
    (hrequest : p.request = none ∨ p.request = t.point.request) : Live ⟨s, p, t.later⟩ := by
  have hledger : Threads.ledger ⟨s, p, t.later⟩ = t.ledger := by
    unfold Threads.ledger
    rw [hsame]
    simp only [List.filterMap_cons, hdetached]
  refine ⟨hledger ▸ h.ok, ?_, h.later⟩
  intro addr haddr
  rw [hledger]
  rcases hrequest with hnone | hold
  · rw [hnone] at haddr
    cases haddr
  · exact h.held addr (hold.symm.trans haddr)

/-- The packet thread returns, and forgets what it had. -/
theorem Live.done (h : Live t) (hmoves : Ledger.Moves t.ledger
      (s.ledger ((t.point :: t.later).filterMap Point.detached))) :
    Live (t.update s).done := by
  obtain ⟨s₀, point, later⟩ := t
  have hok := h.ok.moves hmoves
  have hsub : (later.filterMap Point.detached).Sublist
      ((point :: later).filterMap Point.detached) :=
    (List.sublist_cons_self point later).filterMap _
  have hleak : (s.ledger (later.filterMap Point.detached)).Ok := hok.move (.leak hsub)
  cases later with
  | nil =>
      refine ⟨hleak, ?_, h.later⟩
      intro addr haddr
      cases haddr
  | cons p ps =>
      refine ⟨hleak, ?_, fun q hq => h.later q (List.mem_cons_of_mem _ hq)⟩
      intro addr haddr
      have hnone := h.later p List.mem_cons_self
      rw [show p.request = some addr from haddr] at hnone
      cases hnone

theorem Live.doneSame (h : Live t) (hsame : SameRequests t.state s) : Live (t.update s).done := by
  apply h.done
  rw [hsame]
  exact .refl

theorem Live.addrsOk (h : Live t) : AddrsOk t.state.cache where
  nodup := h.ok.linked_nodup
  lt_brk := fun _ hr => h.ok.linked_lt (List.mem_map_of_mem hr)

/-- A packet is queued: on a new request, or on one that is there. -/
theorem srArpcacheQueuereq_moves (haddrs : AddrsOk s.cache) (gw : InAddr) (packet : Bytes)
    (iface : String) (taken : List Nat) :
    Ledger.Moves (s.ledger taken)
        ((s.withCache (srArpcacheQueuereq s.cache gw packet iface).1).ledger taken) ∧
      (srArpcacheQueuereq s.cache gw packet iface).2 ∈
        (srArpcacheQueuereq s.cache gw packet iface).1.requests.map SrArpreq.addr := by
  rcases srArpcacheQueuereq_split haddrs gw packet iface with
    ⟨before, r, after, hsplit, -, heq⟩ | ⟨-, heq⟩
  · rw [heq]
    refine ⟨?_, by simp⟩
    have hsame : SrState.ledger (s.withCache { s.cache with requests :=
        before ++ { r with packets := queuedPackets packet iface ++ r.packets } :: after }) taken
        = s.ledger taken := by
      simp [SrState.ledger, hsplit]
    rw [hsame]
  · rw [heq]
    exact ⟨.single .alloc, by simp⟩

/-- A request that is queued is destroyed. -/
theorem destroy_move {before after : List SrArpreq} {r : SrArpreq}
    (hsplit : s.cache.requests = before ++ r :: after) (taken : List Nat) :
    Ledger.Move (s.ledger taken)
      (((s.withRequests (before ++ after)).emit (.destroyed r)).ledger taken) := by
  have hlinked : (s.ledger taken).linked
      = before.map SrArpreq.addr ++ r.addr :: after.map SrArpreq.addr := by
    simp [SrState.ledger, hsplit]
  have hafter : ((s.withRequests (before ++ after)).emit (.destroyed r)).ledger taken
      = { s.ledger taken with
          linked := before.map SrArpreq.addr ++ after.map SrArpreq.addr
          freed := (s.ledger taken).freed ++ [r.addr] } := by
    simp [SrState.ledger, freed]
  rw [hafter]
  exact .free hlinked

/-- A request that is queued is taken off, because it was answered. -/
theorem answered_move {cache : SrArpcache} {before after : List SrArpreq} {r : SrArpreq}
    (hsplit : s.cache.requests = before ++ r :: after)
    (hrequests : cache.requests = before ++ after) (hbrk : cache.brk = s.cache.brk)
    (taken : List Nat) :
    Ledger.Move (s.ledger taken)
      (((s.withCache cache).emit (.answered r)).ledger (r.addr :: taken)) := by
  have hlinked : (s.ledger taken).linked
      = before.map SrArpreq.addr ++ r.addr :: after.map SrArpreq.addr := by
    simp [SrState.ledger, hsplit]
  have hafter : ((s.withCache cache).emit (.answered r)).ledger (r.addr :: taken)
      = { s.ledger taken with
          linked := before.map SrArpreq.addr ++ after.map SrArpreq.addr
          taken := r.addr :: taken } := by
    simp [SrState.ledger, freed, hrequests, hbrk]
  rw [hafter]
  exact .take hlinked

/-- `FillAndSendPkt` keeps the pointer of its caller. -/
theorem fillPoint_ends (sr : SrConfig) (s : SrState) (caller : Caller) (packet : Bytes)
    (dip : InAddr) :
    Ends (fun p => p.detached = none ∧
        (p.request = none ∨ p.request = (Point.fillAndSendPkt caller packet dip).request))
      (· ≠ .dangling) (fillPoint sr s caller packet dip) := by
  unfold fillPoint
  split
  · simp [Ends]
  · simp only
    split
    · split
      · simp [Ends]
      · simp [Ends]
      · refine ⟨rfl, ?_⟩
        cases caller with
        | datagram => exact .inl rfl
        | arpReply => exact .inl rfl
        | arpRequest req => exact .inr rfl
    · exact ⟨rfl, .inl rfl⟩

/-- The packet thread, on its own, never loses a request that it uses. -/
theorem packetStep_live (h : Live t) : Ends Live (· ≠ .dangling) (packetStep sr t) := by
  obtain ⟨s, point, later⟩ := t
  -- the points that read a request through its pointer: it is held, so it is in the queue
  have hreq : ∀ req {access : SrArpreq → Except Fault Threads}, point.request = some req →
      (∀ before r after, s.cache.requests = before ++ r :: after → r.addr = req →
        Ends Live (· ≠ .dangling) (access r)) →
      Ends Live (· ≠ .dangling) (withReq s req access) := by
    intro req access hreq haccess
    obtain ⟨r, hr, rfl⟩ := List.mem_map.mp (h.held req hreq)
    obtain ⟨before, after, hsplit⟩ := List.append_of_mem hr
    have hnd := h.addrsOk.nodup
    rw [show s.cache.requests = _ from hsplit] at hnd
    have hderef : derefReq s.cache.requests r.addr = some r := by
      rw [show s.cache.requests = _ from hsplit]
      exact derefReq_split hnd
    rw [withReq_of_some hderef]
    exact haccess before r after hsplit rfl
  have hsame : SameRequests s s := fun _ => rfl
  cases point with
  | idle => exact h
  | fillAndSendPkt caller packet dip =>
      have hpoint := fillPoint_ends sr s caller packet dip
      show Ends Live _ ((fillPoint sr s caller packet dip).map _)
      cases hfill : fillPoint sr s caller packet dip with
      | error e =>
          rw [hfill] at hpoint
          exact hpoint
      | ok p =>
          rw [hfill] at hpoint
          exact h.goto hsame hpoint.1 hpoint.2
  | sendPacket caller frame iface =>
      have hsent := srSendPacket_sameRequests sr s (.fillAndSendPkt caller.type) frame iface
      cases caller with
      | datagram => exact h.doneSame hsent
      | arpReply => exact h.doneSame hsent
      | arpRequest req => exact h.goto hsent rfl (.inr rfl)
  | queuereq gw packet iface =>
      obtain ⟨hmoves, hmem⟩ := srArpcacheQueuereq_moves h.addrsOk gw packet iface
        (later.filterMap Point.detached)
      refine ⟨h.ok.moves hmoves, ?_, h.later⟩
      intro addr haddr
      cases haddr
      exact hmem
  | readSent req =>
      apply hreq req rfl
      intro before r after _ _
      show Live (if _ then _ else _)
      split
      · exact h.goto (p := .readTimes req) hsame rfl (.inr rfl)
      · exact h.doneSame hsame
  | readTimes req =>
      apply hreq req rfl
      intro before r after _ _
      show Live (Threads.goto _ (if _ then _ else _))
      split
      · exact h.goto (p := .destroy req) hsame rfl (.inr rfl)
      · exact h.goto (p := .readIface req) hsame rfl (.inr rfl)
  | destroy req =>
      -- the only point that frees a request, and the thread lets go of it in the same step
      apply hreq req rfl
      intro before r after hsplit haddr
      subst haddr
      show Live (Threads.update _ ((s.withCache (srArpreqDestroy s.cache r.addr)).emit _)).done
      rw [srArpreqDestroy_split hsplit h.addrsOk.nodup]
      exact h.done (.single (destroy_move hsplit _))
  | readIface req =>
      apply hreq req rfl
      intro before r after _ _
      cases r.packets with
      | nil => simp [Ends]
      | cons packet ps =>
          simp only
          cases srGetInterface sr packet.iface with
          | none => simp [Ends]
          | some interface =>
              exact h.goto (p := .readTip req interface _) (.emit s (by simp)) rfl (.inr rfl)
  | readTip req interface tha =>
      apply hreq req rfl
      intro before r after _ _
      exact h.goto (p := .readDip req _) hsame rfl (.inr rfl)
  | readDip req arpHdr =>
      apply hreq req rfl
      intro before r after _ _
      exact h.goto (p := .fillAndSendPkt (.arpRequest req) _ _) hsame rfl (.inr rfl)
  | writeSent req =>
      apply hreq req rfl
      intro before r after _ _
      exact h.goto (p := .writeTimes req) (writeReq_sameRequests s req fun _ => rfl) rfl (.inr rfl)
  | writeTimes req =>
      apply hreq req rfl
      intro before r after _ _
      exact h.doneSame (writeReq_sameRequests s req fun _ => rfl)
  | lookupSender mac ip =>
      simp only [packetStep]
      split
      · exact h.doneSame hsame
      · exact h.goto (p := .insert mac ip) hsame rfl (.inl rfl)
  | insert mac ip =>
      -- the request leaves the queue here; its packets become the work that is left
      have hcases := srArpcacheInsert_cases s.cache mac ip s.clock
      have hbrk : (srArpcacheInsert s.cache mac ip s.clock).1.brk = s.cache.brk := rfl
      simp only [packetStep]
      generalize srArpcacheInsert s.cache mac ip s.clock = inserted at hcases hbrk
      obtain ⟨cache, found⟩ := inserted
      rcases hcases with ⟨before, r, after, hsplit, -, hrequests, hfound⟩ | ⟨-, hrequests, hfound⟩
      · cases hfound
        simp only at hrequests hbrk
        have htake := answered_move hsplit hrequests hbrk (later.filterMap Point.detached)
        refine ⟨h.ok.move htake, ?_, h.later⟩
        intro addr haddr
        cases haddr
      · cases hfound
        apply h.doneSame
        intro taken
        simp only at hrequests hbrk
        simp [SrState.ledger, hrequests, hbrk]
  | sendPackets req cur =>
      cases cur with
      | nil => exact h.doneSame hsame
      | cons cur next =>
          simp only [packetStep]
          split
          · simp [Ends]
          · refine ⟨h.ok, ?_, ?_⟩
            · intro addr haddr
              cases haddr
            · intro p hp
              rcases List.mem_cons.mp hp with rfl | hp
              · rfl
              · exact h.later p hp

theorem SameRequests.trans {s'' : SrState} (h : SameRequests s s') (h' : SameRequests s' s'') :
    SameRequests s s'' :=
  fun taken => (h' taken).trans (h taken)

/-- Taking in a frame changes no request. -/
theorem receiveStep_live {later : List Point} (h : Live ⟨s, .idle, later⟩) (interface : String)
    (packet : Bytes) :
    Ends Live (· ≠ .dangling) (receiveStep sr ⟨s, .idle, later⟩ interface packet) := by
  have hreceived : SameRequests s (s.emit (.received interface packet)) := .emit s (by simp)
  apply (receiveStep_ends sr ⟨s, .idle, later⟩ interface packet).imp
  intro t' htaken
  cases htaken with
  | drop => exact h.goto (p := .idle) hreceived rfl (.inl rfl)
  | answer hanswered =>
      obtain ⟨sender, buf, -, rfl⟩ := hanswered
      exact h.goto (p := .idle) (hreceived.trans (srSendPacket_sameRequests sr _ sender buf _)) rfl
        (.inl rfl)
  | @arp mac ip later' hreply =>
      -- the stack is set up anew, and holds no request
      have hnone : later'.filterMap Point.detached = [] := by
        apply List.filterMap_eq_nil_iff.mpr
        intro p hp
        obtain ⟨payload, dip, rfl⟩ := hreply p hp
        rfl
      refine ⟨?_, ?_, ?_⟩
      · show (SrState.ledger _ (later'.filterMap Point.detached)).Ok
        rw [hnone, hreceived]
        exact h.ok.move (.leak (List.nil_sublist _))
      · intro addr haddr
        cases haddr
      · intro p hp
        obtain ⟨payload, dip, rfl⟩ := hreply p hp
        rfl
  | forward =>
      exact h.goto (p := .fillAndSendPkt .datagram _ _) (hreceived.trans (.emit _ (by simp))) rfl
        (.inl rfl)

end Packet

/-! ## Turns of the timeout thread

A sweep handles every request once. Those that are doomed when it begins are destroyed, and the
others are spared. -/

section Sweep

variable {sr : SrConfig} {s s' : SrState}

theorem sendArpRequest_ends (sr : SrConfig) (s : SrState) (req : SrArpreq) :
    Ends (fun _ => True) (· ≠ .dangling) (sendArpRequest sr s req) := by
  unfold sendArpRequest
  split
  · simp [Ends]
  · split
    · simp [Ends]
    · unfold fillAndSendPktWith
      split
      · simp [Ends]
      · simp only [or_true, if_true]
        split
        · simp [Ends]
        · simp [Ends]
        · trivial

/-- What becomes of the queued request `r` when those at `addrs` are handled. -/
structure Fate (s s' : SrState) (addrs : List Nat) (r : SrArpreq) : Prop where
  other : r.addr ∉ addrs → r ∈ s'.cache.requests
  doomed : r.addr ∈ addrs → Doomed s.clock r → r.addr ∈ freed s'.history
  spared : r.addr ∈ addrs → ¬ Doomed s.clock r → r.addr ∈ s'.cache.requests.map SrArpreq.addr

theorem srArpreqHandle_error {before after : List SrArpreq} {r : SrArpreq} {e : Fault}
    (hsplit : s.cache.requests = before ++ r :: after)
    (hnd : (s.cache.requests.map SrArpreq.addr).Nodup)
    (h : srArpreqHandle sr s r.addr = .error e) : e ≠ .dangling := by
  have hderef : derefReq s.cache.requests r.addr = some r := by
    rw [hsplit] at hnd ⊢
    exact derefReq_split hnd
  have hsend := sendArpRequest_ends sr s r
  simp only [srArpreqHandle, hderef] at h
  split at h
  · split at h
    · cases h
    · split at h
      · next hs =>
        cases h
        exact hsend.error hs
      · cases h
  · cases h

/-- A queued request that is handled is destroyed if it is doomed. The others stay. -/
theorem srArpreqHandle_ends (sr : SrConfig) {taken : List Nat} (hok : (s.ledger taken).Ok)
    {addr : Nat} (haddr : addr ∈ s.cache.requests.map SrArpreq.addr) :
    Ends (fun s' => Ledger.Moves (s.ledger taken) (s'.ledger taken) ∧ s'.clock = s.clock ∧
        ∀ r ∈ s.cache.requests, Fate s s' [addr] r)
      (· ≠ .dangling) (srArpreqHandle sr s addr) := by
  obtain ⟨r, hr, rfl⟩ := List.mem_map.mp haddr
  obtain ⟨before, after, hsplit⟩ := List.append_of_mem hr
  have hnd : (s.cache.requests.map SrArpreq.addr).Nodup := hok.linked_nodup
  cases hhandle : srArpreqHandle sr s r.addr with
  | error e => exact srArpreqHandle_error hsplit hnd hhandle
  | ok s' =>
      -- it is enough to know the fate of `r`
      have hfate : before ++ after ⊆ s'.cache.requests → Fate s s' [r.addr] r →
          ∀ x ∈ s.cache.requests, Fate s s' [r.addr] x := by
        intro hstay hr x hx
        rw [hsplit] at hx hnd
        rcases mem_split.mp hx with rfl | hx
        · exact hr
        · have hne : x.addr ∉ [r.addr] := by simpa using (mem_of_split hnd hx).2
          exact ⟨fun _ => hstay hx, fun h => absurd h hne, fun h => absurd h hne⟩
      have hmem : r.addr ∈ [r.addr] := List.mem_cons_self
      rcases srArpreqHandle_cases hsplit hnd hhandle with
        ⟨hdue, rfl⟩ | ⟨hdue, hfive, rfl⟩ | ⟨hdue, hfive, iface, frame, rfl⟩
      · refine ⟨.refl, rfl, hfate ?_ ⟨fun h => absurd hmem h, ?_, fun _ _ => haddr⟩⟩
        · intro x hx
          rw [hsplit]
          exact mem_split.mpr (.inr hx)
        · exact fun _ hdoomed => absurd hdoomed.1 hdue
      · refine ⟨.single (destroy_move hsplit taken), rfl, hfate (fun _ hx => hx)
          ⟨fun h => absurd hmem h, fun _ _ => by simp [freed], ?_⟩⟩
        exact fun _ hspared => absurd ⟨hdue, hfive⟩ hspared
      · have hsame : SrState.ledger (((s.withCache { s.cache with requests :=
            before ++ { r with sent := s.clock, timesSent := r.timesSent + 1 } :: after }).emit
            (.arpRequested r.addr s.clock)).emit (.transmitted (.fillAndSendPkt .arp) iface frame))
            taken = s.ledger taken := by
          simp [SrState.ledger, freed, hsplit]
        refine ⟨by rw [hsame], rfl, hfate (fun _ hx => mem_split.mpr (.inr hx))
          ⟨fun h => absurd hmem h, ?_, fun _ _ => by simp⟩⟩
        intro _ hdoomed
        exact absurd hdoomed.2 (by omega)

/-- The loop over the requests at `addrs`. -/
theorem run_srArpreqHandle_ends (sr : SrConfig) {taken : List Nat} :
    ∀ {addrs : List Nat} {s : SrState}, (s.ledger taken).Ok → addrs.Nodup →
      (∀ a ∈ addrs, a ∈ s.cache.requests.map SrArpreq.addr) →
      Ends (fun s' => Ledger.Moves (s.ledger taken) (s'.ledger taken) ∧
          ∀ r ∈ s.cache.requests, Fate s s' addrs r)
        (· ≠ .dangling) (run (srArpreqHandle sr) s addrs)
  | [], s, _, _, _ => by
      refine ⟨.refl, fun r hr => ⟨fun _ => hr, ?_, ?_⟩⟩
      · exact fun hmem => absurd hmem List.not_mem_nil
      · exact fun hmem => absurd hmem List.not_mem_nil
  | addr :: addrs, s, hok, hnd, hqueued => by
      obtain ⟨hnew, hnd⟩ := List.nodup_cons.mp hnd
      have hfirst := srArpreqHandle_ends sr hok (hqueued addr List.mem_cons_self)
      show Ends _ _ ((srArpreqHandle sr s addr).bind fun s => run (srArpreqHandle sr) s addrs)
      cases hhandle : srArpreqHandle sr s addr with
      | error e => exact hfirst.error hhandle
      | ok s₁ =>
          obtain ⟨hmoves, hclock, hone⟩ := hfirst.ok hhandle
          -- the handler touches the request at `addr` and no other
          have hstay : ∀ r ∈ s.cache.requests, r.addr ≠ addr → r ∈ s₁.cache.requests :=
            fun r hr hne => (hone r hr).other (by simpa using hne)
          have hqueued₁ : ∀ a ∈ addrs, a ∈ s₁.cache.requests.map SrArpreq.addr := by
            intro a ha
            obtain ⟨r, hr, rfl⟩ := List.mem_map.mp (hqueued a (List.mem_cons_of_mem _ ha))
            exact List.mem_map_of_mem (hstay r hr fun heq => hnew (heq ▸ ha))
          apply (run_srArpreqHandle_ends sr (hok.moves hmoves) hnd hqueued₁).imp
          rintro s' ⟨hmoves', hrest⟩
          refine ⟨hmoves.trans hmoves', fun r hr => ?_⟩
          by_cases haddr : r.addr = addr
          · -- handled first, and left alone by the rest of the loop
            have hmem : r.addr ∈ [addr] := by simp [haddr]
            refine ⟨fun h => absurd (by simp [haddr]) h, fun _ hdoomed => ?_, fun _ hspared => ?_⟩
            · exact Ledger.freed_subset hmoves' ((hone r hr).doomed hmem hdoomed)
            · obtain ⟨r', hr', heq⟩ := List.mem_map.mp ((hone r hr).spared hmem hspared)
              rw [← heq]
              apply List.mem_map_of_mem
              apply (hrest r' hr').other
              rw [heq, haddr]
              exact hnew
          · have hfate := hrest r (hstay r hr haddr)
            have hmem : r.addr ∈ addr :: addrs ↔ r.addr ∈ addrs := by simp [haddr]
            refine ⟨?_, ?_, ?_⟩
            · rw [hmem]
              exact hfate.other
            · rw [hmem, ← hclock]
              exact hfate.doomed
            · rw [hmem, ← hclock]
              exact hfate.spared

/-- What expires is not a request. -/
theorem expire_sameRequests (s : SrState) : SameRequests s s.expire := by
  intro taken
  have hnone : freed (expiredEvents s.clock s.cache.entries) = [] := by
    unfold freed expiredEvents
    rw [List.filterMap_map]
    simp
  have hfreed : freed (s.history ++ expiredEvents s.clock s.cache.entries) = freed s.history := by
    unfold freed at hnone ⊢
    rw [List.filterMap_append, hnone, List.append_nil]
  simp only [SrState.ledger, SrState.expire, hfreed]

/-- **A sweep destroys the doomed requests** and no others, and follows no pointer to a request that
is gone. -/
theorem timeout_ends {t : Threads} (h : Live t) (now : Nat) (mem : Memory) :
    Ends (fun t' => t'.ledger.Ok ∧ t'.point = t.point ∧ t'.later = t.later ∧
        ∀ r ∈ t.state.cache.requests,
          (Doomed now r → r.addr ∈ freed t'.state.history) ∧
          (¬ Doomed now r → r.addr ∈ t'.state.cache.requests.map SrArpreq.addr))
      (· ≠ .dangling) (threadStep sr t (.timeout now mem)) := by
  have hok : ((t.at now mem).state.expire.ledger
      ((t.point :: t.later).filterMap Point.detached)).Ok := by
    rw [expire_sameRequests]
    exact h.ok
  have hsweep := run_srArpreqHandle_ends sr hok hok.linked_nodup fun _ ha => ha
  show Ends _ _ ((srArpcacheSweepreqs sr (t.at now mem).state.expire).map t.update)
  rw [srArpcacheSweepreqs_eq hok.linked_nodup]
  cases hrun : run (srArpreqHandle sr) (t.at now mem).state.expire
      ((t.at now mem).state.expire.cache.requests.map SrArpreq.addr) with
  | error e => exact hsweep.error hrun
  | ok s' =>
      obtain ⟨hmoves, hfate⟩ := hsweep.ok hrun
      refine ⟨hok.moves hmoves, rfl, rfl, fun r hr => ?_⟩
      have hmem := List.mem_map_of_mem (f := SrArpreq.addr) hr
      exact ⟨(hfate r hr).doomed hmem, (hfate r hr).spared hmem⟩

theorem timeout_live {t : Threads} (h : Live t) {now : Nat} {mem : Memory}
    (hspared : ¬ DestroysHeld t (.timeout now mem)) :
    Ends Live (· ≠ .dangling) (threadStep sr t (.timeout now mem)) := by
  apply (timeout_ends h now mem).imp
  rintro t' ⟨hok, hpoint, hlater, hfate⟩
  refine ⟨hok, ?_, hlater ▸ h.later⟩
  intro a ha
  rw [hpoint] at ha
  obtain ⟨r, hr, rfl⟩ := List.mem_map.mp (h.held a ha)
  exact (hfate r hr).2 fun hdoomed => hspared ⟨r, hr, ha, hdoomed⟩

/-- The condition is exact: such a sweep leaves the packet thread with a pointer to a destroyed
request. -/
theorem freed_of_destroysHeld {t t' : Threads} (h : Live t) {now : Nat} {mem : Memory}
    (hdestroys : DestroysHeld t (.timeout now mem))
    (hstep : threadStep sr t (.timeout now mem) = .ok t') :
    ∃ addr, t'.point.request = some addr ∧ addr ∈ freed t'.state.history := by
  obtain ⟨r, hr, hheld, hdoomed⟩ := hdestroys
  obtain ⟨-, hpoint, -, hfate⟩ := (timeout_ends h now mem).ok hstep
  exact ⟨r.addr, hpoint ▸ hheld, (hfate r hr).1 hdoomed⟩

end Sweep

/-! ## Every interleaving

Turns in any order. The invariant is lost at a sweep that destroys the request in the hands of the
packet thread, and nowhere else. -/

section Interleavings

variable {sr : SrConfig} {t : Threads}

theorem Live.at (h : Live t) (now : Nat) (mem : Memory) : Live (t.at now mem) :=
  ⟨h.ok, h.held, h.later⟩

theorem threadStep_live (h : Live t) {turn : Turn} (hspared : ¬ DestroysHeld t turn) :
    Ends Live (· ≠ .dangling) (threadStep sr t turn) := by
  cases turn with
  | receive interface packet now mem =>
      obtain ⟨s, point, later⟩ := t
      cases point with
      | idle => exact receiveStep_live (h.at now mem) interface packet
      | _ => exact h
  | packet now mem => exact packetStep_live (h.at now mem)
  | timeout now mem => exact timeout_live h hspared

/-- **No destroyed request is used**, as long as no sweep destroys the request that the packet
thread has a pointer to. -/
theorem noDestroyedUse {turns : List Turn}
    (hspared : Along (threadStep sr) threadsInit (fun _ t turn => ¬ DestroysHeld t turn) turns) :
    NoDestroyedUse sr turns := by
  have hlive : ∀ {past : List Turn}, Along (threadStep sr) threadsInit
      (fun _ t turn => ¬ DestroysHeld t turn) past →
      Ends Live (· ≠ .dangling) (run (threadStep sr) threadsInit past) :=
    ends_run_along (R := Live) live_init fun _ _ _ _ h hturn => threadStep_live h hturn
  constructor
  · refine hspared.imp ?_
    intro past turn t ht hpast _ addr huse
    exact ((hlive hpast).ok ht).not_freed huse
  · intro hfault
    exact (hlive hspared).error hfault rfl

end Interleavings

instance (now : Nat) (r : SrArpreq) : Decidable (Doomed now r) :=
  inferInstanceAs (Decidable (_ ∧ _))

instance (t : Threads) (turn : Turn) : Decidable (DestroysHeld t turn) :=
  match turn with
  | .timeout now _ => inferInstanceAs (Decidable (∃ r ∈ t.state.cache.requests,
      t.point.request = some r.addr ∧ Doomed now r))
  | .receive _ _ _ _ => inferInstanceAs (Decidable False)
  | .packet _ _ => inferInstanceAs (Decidable False)

/-- `n` turns of the packet thread. -/
def packetTurns (n now : Nat) : List Turn := List.replicate n (.packet now srInit.mem)

/-- A datagram for the second server arrives, and the packet thread takes `n` turns. -/
def datagramArrives (n now : Nat) : List Turn :=
  .receive "eth3" (clientFrame 64 (dotted 172 64 3 10)) now srInit.mem :: packetTurns n now

/-- Sweeps at the times in the list. -/
def sweeps (times : List Nat) : List Turn := times.map fun now => .timeout now srInit.mem

/-- The first sweep comes between `sr_arpcache_queuereq` and `sr_arpreq_handle`, the last one gives
up on the request. -/
def sweepBetween : List Turn :=
  datagramArrives 2 5 ++ sweeps [6] ++ packetTurns 9 8 ++ sweeps [10, 12, 14, 16] ++
    datagramArrives 11 17

theorem noDestroyedUse_sweepBetween :
    (∃ t, threadRun rtableConfig sweepBetween = .ok t ∧ freed t.state.history = [0]) ∧
      NoDestroyedUse rtableConfig sweepBetween := by
  obtain ⟨t, hrun, hfreed⟩ : ∃ t, threadRun rtableConfig sweepBetween = .ok t ∧
      (freed t.state.history == [0]) = true := exists_ok_of_check (by decide +kernel)
  have hspared : Along (threadStep rtableConfig) threadsInit
      (fun _ t turn => decide (¬ DestroysHeld t turn) = true) sweepBetween :=
    along_of_check (by decide +kernel)
  exact ⟨⟨t, hrun, by simpa using hfreed⟩,
    noDestroyedUse (hspared.imp fun _ _ _ _ _ h => of_decide_eq_true h)⟩

/-- A request has been sent five times when the next datagram for it is queued, and is destroyed
before `sr_arpreq_handle` looks at it. -/
def sweepAtLimit : List Turn :=
  datagramArrives 11 5 ++ sweeps [7, 9, 11, 13] ++ datagramArrives 2 15 ++ sweeps [15] ++
    packetTurns 1 15

theorem destroyedUse_sweepAtLimit : ¬ ∀ sr turns, NoDestroyedUse sr turns := by
  intro h
  have hlive := (h rtableConfig sweepAtLimit).2
  have hfault : threadRun rtableConfig sweepAtLimit = .error .dangling :=
    eq_error_of_check (by decide +kernel)
  exact hlive hfault

end NetworkProjects.Router
