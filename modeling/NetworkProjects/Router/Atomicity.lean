import NetworkProjects.Router.Threads

/-!
# Atomic steps and interleavings

What is left to do at a point of the packet thread has a meaning, in terms of the functions of
`srStep`. `packetStep_meaning` says that a turn of the packet thread does not change it, and
`packetStep_progress` that the turns come to an end. So the thread, left alone, does what
`sr_handlepacket` does (`srStep_of_alone`), and the runs of `srStep` are the interleavings in which
no frame is interrupted (`exists_threadRun`).
-/

namespace NetworkProjects.Router

open NetworkProjects.Lib

/-! ## What is left to do

The meaning of a point is a function of the state: run what the packet thread still has to do, with
no sweep in between. The work that is left goes down with every turn. -/

/-- `sr_arpreq_handle` from the return of `send_arp_request` on. -/
def countRequest (req : Nat) (s : SrState) : Except Fault SrState :=
  withReq s req fun _ => .ok (writeReq s req fun r => r.resent s.clock)

/-- What the caller of `FillAndSendPkt` goes on with. -/
def Caller.goOn : Caller → SrState → Except Fault SrState
  | .arpRequest req, s => countRequest req s
  | _, s => .ok s

/-- What is left to do at a point, in the functions of the atomic step. -/
def pointMeaning (sr : SrConfig) (s : SrState) : Point → Except Fault SrState
  | .idle => .ok s
  | .fillAndSendPkt caller packet dip =>
      (fillAndSendPkt sr s packet dip caller.type).bind caller.goOn
  | .sendPacket caller frame iface =>
      caller.goOn (srSendPacket sr s (.fillAndSendPkt caller.type) frame iface)
  | .queuereq gw packet iface =>
      srArpreqHandle sr (s.withCache (srArpcacheQueuereq s.cache gw packet iface).1)
        (srArpcacheQueuereq s.cache gw packet iface).2
  | .readSent req => srArpreqHandle sr s req
  | .readTimes req => withReq s req fun r =>
      if r.timesSent ≥ 5 then .ok ((s.withCache (srArpreqDestroy s.cache req)).emit (.destroyed r))
      else (sendArpRequest sr s r).bind (countRequest req)
  | .destroy req => withReq s req fun r =>
      .ok ((s.withCache (srArpreqDestroy s.cache req)).emit (.destroyed r))
  | .readIface req => withReq s req fun r => (sendArpRequest sr s r).bind (countRequest req)
  | .readTip req interface tha => withReq s req fun r =>
      (fillAndSendPkt sr s (arpHdr arpOpRequest interface.addr interface.ip tha r.ip) r.ip
        .arp).bind (countRequest req)
  | .readDip req arpHdr => withReq s req fun r =>
      (fillAndSendPkt sr s arpHdr r.ip .arp).bind (countRequest req)
  | .writeSent req => countRequest req s
  | .writeTimes req => withReq s req fun _ =>
      .ok (writeReq s req fun r => { r with timesSent := r.timesSent + 1 })
  | .lookupSender mac ip =>
      match srArpcacheLookup s.cache ip with
      | some _ => .ok s
      | none => learnMapping sr s mac ip
  | .insert mac ip => learnMapping sr s mac ip
  | .sendPackets _ cur => srArpreqSendPackets sr s cur

/-- What is left to do of the frame. -/
def Threads.meaning (sr : SrConfig) (t : Threads) : Except Fault SrState :=
  run (pointMeaning sr) t.state (t.point :: t.later)

section Meaning

variable {sr : SrConfig}

theorem meaning_done (t : Threads) :
    t.done.meaning sr = run (pointMeaning sr) t.state t.later := by
  obtain ⟨s, point, later⟩ := t
  cases later with
  | nil => rfl
  | cons p ps => rfl

theorem derefReq_updateReq (req : Nat) {f : SrArpreq → SrArpreq} (hf : ∀ r, (f r).addr = r.addr)
    (requests : List SrArpreq) :
    derefReq (updateReq req f requests) req = (derefReq requests req).map f := by
  induction requests with
  | nil => rfl
  | cons r rs ih =>
      unfold updateReq derefReq at ih ⊢
      by_cases h : r.addr = req
      · simp [h, hf]
      · simpa [h] using ih

theorem updateReq_updateReq (req : Nat) {f g : SrArpreq → SrArpreq}
    (hf : ∀ r, (f r).addr = r.addr) (requests : List SrArpreq) :
    updateReq req g (updateReq req f requests) = updateReq req (fun r => g (f r)) requests := by
  unfold updateReq
  rw [List.map_map]
  apply List.map_congr_left
  intro r _
  by_cases h : r.addr = req
  · simp [h, hf]
  · simp [h]

theorem withReq_bind (s : SrState) (req : Nat) {α β : Type} (access : SrArpreq → Except Fault α)
    (next : α → Except Fault β) :
    (withReq s req access).bind next = withReq s req fun r => (access r).bind next := by
  unfold withReq
  cases derefReq s.cache.requests req with
  | none => rfl
  | some r => rfl

theorem withReq_of_some {s : SrState} {req : Nat} {r : SrArpreq}
    (h : derefReq s.cache.requests req = some r) {α : Type} (access : SrArpreq → Except Fault α) :
    withReq s req access = access r := by
  rw [withReq, h]

/-- Two accesses through one pointer fail together. -/
theorem withReq_congr {s : SrState} {req : Nat} {α : Type}
    {access access' : SrArpreq → Except Fault α}
    (h : ∀ r, derefReq s.cache.requests req = some r → access r = access' r) :
    withReq s req access = withReq s req access' := by
  cases hderef : derefReq s.cache.requests req with
  | none => rw [withReq, withReq, hderef]
  | some r => rw [withReq_of_some hderef, withReq_of_some hderef, h r hderef]

/-- Writing the two fields one after the other counts the request. -/
theorem writeTimes_writeSent (s : SrState) (req : Nat) :
    pointMeaning sr (writeReq s req fun r => { r with sent := s.clock }) (.writeTimes req)
      = countRequest req s := by
  have hderef := derefReq_updateReq req (f := fun r : SrArpreq => { r with sent := s.clock })
    (fun _ => rfl) s.cache.requests
  have htwice := updateReq_updateReq req (f := fun r : SrArpreq => { r with sent := s.clock })
    (g := fun r : SrArpreq => { r with timesSent := r.timesSent + 1 }) (fun _ => rfl)
    s.cache.requests
  simp only [pointMeaning, countRequest, withReq, writeReq, SrState.withRequests_requests, hderef,
    htwice]
  cases derefReq s.cache.requests req with
  | none => rfl
  | some r => rfl

/-- `sr_arpreq_handle` sends a request and counts it. -/
theorem srArpreqHandle_eq (s : SrState) (req : Nat) :
    srArpreqHandle sr s req = withReq s req fun r =>
      if r.sent + 1 < s.clock then
        if r.timesSent ≥ 5 then
          .ok ((s.withCache (srArpreqDestroy s.cache req)).emit (.destroyed r))
        else (sendArpRequest sr s r).bind (countRequest req)
      else .ok s := by
  unfold srArpreqHandle withReq
  cases hderef : derefReq s.cache.requests req with
  | none => rfl
  | some r =>
      simp only
      split
      · split
        · rfl
        · cases hsend : sendArpRequest sr s r with
          | error e => rfl
          | ok s' =>
              obtain ⟨iface, frame, rfl⟩ := sendArpRequest_cases hsend
              simp only [Except.bind, countRequest, withReq, SrState.emit_cache, hderef]
              rfl
      · rfl

/-- `FillAndSendPkt` in two parts. -/
theorem fillPoint_meaning (s : SrState) (caller : Caller) (packet : Bytes) (dip : InAddr) :
    (fillPoint sr s caller packet dip).bind (pointMeaning sr s)
      = (fillAndSendPkt sr s packet dip caller.type).bind caller.goOn := by
  unfold fillPoint fillAndSendPkt fillAndSendPktWith
  cases longestPrefixMatch sr dip with
  | none => rfl
  | some rt =>
      simp only
      split
      · generalize (if caller.type = .arp ∧ ntohs (load16 packet 6) = arpOpRequest then
          some broadcastAddr else (srArpcacheLookup s.cache rt.gw).map SrArpentry.mac) = dhost
        generalize srGetInterface sr rt.interface = interface
        cases dhost with
        | none => rfl
        | some dhost =>
            cases interface with
            | none => rfl
            | some i => rfl
      · next hqueue =>
        cases caller with
        | datagram =>
            show srArpreqHandle sr _ _ = (srArpreqHandle sr _ _).bind Except.ok
            cases srArpreqHandle sr _ _ with
            | error e => rfl
            | ok s' => rfl
        | arpReply => simp [Caller.type] at hqueue
        | arpRequest req => simp [Caller.type] at hqueue

/-- **A turn of the packet thread does not change what is left to do.** -/
theorem packetStep_meaning (sr : SrConfig) (t : Threads) :
    (packetStep sr t).bind (Threads.meaning sr) = t.meaning sr := by
  obtain ⟨s, point, later⟩ := t
  have hmeaning : ∀ (s : SrState) (point : Point), Threads.meaning sr ⟨s, point, later⟩
      = (pointMeaning sr s point).bind fun s => run (pointMeaning sr) s later := fun _ _ => rfl
  have hdone : ∀ s' : SrState, Threads.meaning sr (Threads.done ⟨s', point, later⟩)
      = run (pointMeaning sr) s' later := fun s' => meaning_done _
  -- a point that reads the request does so in both
  have hreq : ∀ (req : Nat) {access : SrArpreq → Except Fault Threads}
      {rest : SrArpreq → Except Fault SrState},
      (∀ r, derefReq s.cache.requests req = some r → (access r).bind (Threads.meaning sr)
        = (rest r).bind fun s => run (pointMeaning sr) s later) →
      (withReq s req access).bind (Threads.meaning sr)
        = (withReq s req rest).bind fun s => run (pointMeaning sr) s later := by
    intro req access rest h
    rw [withReq_bind, withReq_bind]
    exact withReq_congr h
  rw [hmeaning]
  cases point with
  | idle => rfl
  | fillAndSendPkt caller packet dip =>
      show ((fillPoint sr s caller packet dip).map fun p => (⟨s, p, later⟩ : Threads)).bind _
        = ((fillAndSendPkt sr s packet dip caller.type).bind caller.goOn).bind _
      rw [← fillPoint_meaning]
      cases fillPoint sr s caller packet dip with
      | error e => rfl
      | ok p => rfl
  | sendPacket caller frame iface =>
      cases caller with
      | datagram => exact hdone _
      | arpReply => exact hdone _
      | arpRequest req => rfl
  | queuereq gw packet iface => rfl
  | readSent req =>
      simp only [pointMeaning, srArpreqHandle_eq]
      apply hreq
      intro r hr
      split
      · show pointMeaning sr s (.readTimes req) >>= _ = _
        rw [pointMeaning, withReq_of_some hr]
        rfl
      · exact hdone s
  | readTimes req =>
      apply hreq
      intro r hr
      split
      · show pointMeaning sr s (.destroy req) >>= _ = _
        rw [pointMeaning, withReq_of_some hr]
        rfl
      · show pointMeaning sr s (.readIface req) >>= _ = _
        rw [pointMeaning, withReq_of_some hr]
        rfl
  | destroy req =>
      apply hreq
      intro r _
      exact hdone _
  | readIface req =>
      apply hreq
      intro r hr
      have haddr : r.addr = req := by simpa using List.find?_some hr
      rw [sendArpRequest]
      cases r.packets with
      | nil => rfl
      | cons packet ps =>
          simp only
          cases srGetInterface sr packet.iface with
          | none => rfl
          | some interface =>
              simp only
              rw [fillAndSendPktWith_arp _ (srArpreqHandle sr), haddr]
              show pointMeaning sr (s.emit _) (.readTip req interface _) >>= _ = _
              rw [pointMeaning, withReq_of_some (by exact hr)]
              rfl
  | readTip req interface tha =>
      apply hreq
      intro r hr
      show pointMeaning sr s (.readDip req _) >>= _ = _
      rw [pointMeaning, withReq_of_some hr]
      rfl
  | readDip req arpHdr =>
      apply hreq
      intro r _
      rfl
  | writeSent req =>
      apply hreq
      intro r hr
      show pointMeaning sr (writeReq s req _) (.writeTimes req) >>= _ = _
      rw [writeTimes_writeSent, countRequest, withReq_of_some hr]
      rfl
  | writeTimes req =>
      apply hreq
      intro r _
      exact hdone _
  | lookupSender mac ip =>
      simp only [packetStep, pointMeaning]
      cases srArpcacheLookup s.cache ip with
      | none => rfl
      | some e => exact hdone s
  | insert mac ip =>
      simp only [packetStep, pointMeaning, learnMapping]
      generalize srArpcacheInsert s.cache mac ip s.clock = inserted
      obtain ⟨cache, req⟩ := inserted
      cases req with
      | none => exact hdone _
      | some req => rfl
  | sendPackets req cur =>
      cases cur with
      | nil => exact hdone s
      | cons cur next =>
          simp only [packetStep, pointMeaning, srArpreqSendPackets]
          split
          · rfl
          · show ((fillAndSendPkt sr s cur.buf (ipDst cur.buf) .ip).bind Except.ok).bind _ = _
            cases fillAndSendPkt sr s cur.buf (ipDst cur.buf) .ip with
            | error e => rfl
            | ok s' => rfl

/-- The first turn takes the frame in. -/
theorem receiveStep_meaning (sr : SrConfig) (s : SrState) (interface : String) (packet : Bytes) :
    (receiveStep sr ⟨s, .idle, []⟩ interface packet).bind (Threads.meaning sr)
      = srHandlepacket sr s interface packet := by
  unfold receiveStep srHandlepacket
  simp only
  -- the cases are those of the dispatch: too short, ARP, and IP with its gate
  split
  · rfl
  · split
    · unfold handleArp
      split
      · rfl
      · cases srGetInterface sr interface with
        | none => rfl
        | some recIf =>
            simp only
            split
            · rfl
            · -- the answer comes after the lesson
              have hanswer : ∀ s₁ : SrState,
                  run (pointMeaning sr) s₁
                    (if arpOpcode packet = arpOpRequest then
                      [.fillAndSendPkt .arpReply (arpHdr arpOpReply recIf.addr recIf.ip
                        (arSha packet) (arSip packet)) (arSip packet)]
                    else [])
                  = if arpOpcode packet = arpOpRequest then handleArpRequst sr s₁ packet recIf
                    else .ok s₁ := by
                intro s₁
                split
                · show ((fillAndSendPkt sr s₁ _ _ .arp >>= pure) >>= pure) = _
                  rw [bind_pure, bind_pure]
                  rfl
                · rfl
              show (pointMeaning sr _ (.lookupSender _ _)).bind _ = _
              rw [pointMeaning]
              -- a sender that is known already is not learned again, but answered all the same
              cases srArpcacheLookup _ (arSip packet) with
              | some e => exact hanswer _
              | none =>
                  simp only
                  cases learnMapping sr _ (arSha packet) (arSip packet) with
                  | error e => rfl
                  | ok s₁ => exact hanswer s₁
    · unfold handleIp
      cases ipGate packet with
      | none => rfl
      | some packet =>
          simp only
          split
          · split
            · cases srSendEchoReply sr _ packet interface with
              | error e => rfl
              | ok s' => rfl
            · cases srSendPortUnreachable sr _ packet interface with
              | error e => rfl
              | ok s' => rfl
          · show ((fillAndSendPkt sr _ _ _ .ip >>= pure) >>= pure) = _
            rw [bind_pure, bind_pure]
            rfl

end Meaning

/-! ## The packet thread alone

With the two lemmas on a turn, the packet thread alone is the atomic step, and a run of atomic steps
is one of the interleavings. -/

/-- What the thread has still to learn from a frame at a point. -/
def Point.learning : Point → Nat
  | .lookupSender _ _ => 2
  | .insert _ _ => 1
  | _ => 0

/-- A bound on the turns a point takes, lessons apart. -/
def Point.turns : Point → Nat
  | .idle => 0
  | .fillAndSendPkt (.arpRequest _) _ _ => 4
  | .fillAndSendPkt _ _ _ => 11
  | .sendPacket (.arpRequest _) _ _ => 3
  | .sendPacket _ _ _ => 1
  | .queuereq _ _ _ => 10
  | .readSent _ => 9
  | .readTimes _ => 8
  | .destroy _ => 1
  | .readIface _ => 7
  | .readTip _ _ _ => 6
  | .readDip _ _ => 5
  | .writeSent _ => 2
  | .writeTimes _ => 1
  | .lookupSender _ _ => 1
  | .insert _ _ => 1
  | .sendPackets _ cur => 1 + 12 * cur.length

def Threads.learning (t : Threads) : Nat := ((t.point :: t.later).map Point.learning).sum
def Threads.turns (t : Threads) : Nat := ((t.point :: t.later).map Point.turns).sum

/-- The thread waits for a frame when nothing is left to do, and only then. -/
def Threads.Settled (t : Threads) : Prop :=
  .idle ∉ t.later ∧ (t.point = .idle → t.later = [])

/-- A turn brings the thread closer to its next frame, at the same moment. -/
structure Progress (t t' : Threads) : Prop where
  settled : t'.Settled
  less : Prod.Lex (· < ·) (· < ·) (t'.learning, t'.turns) (t.learning, t.turns)
  clock : t'.state.clock = t.state.clock
  mem : t'.state.mem = t.state.mem

section Alone

variable {sr : SrConfig} {t t' : Threads}

theorem Point.turns_pos {p : Point} (h : p ≠ .idle) : 0 < p.turns := by
  cases p with
  | idle => exact absurd rfl h
  | fillAndSendPkt caller => cases caller <;> simp [Point.turns]
  | sendPacket caller => cases caller <;> simp [Point.turns]
  | _ => simp [Point.turns]

/-- The thread goes on with something shorter. -/
theorem Progress.goto {s : SrState} {p : Point} (hsettled : t.Settled) (hbusy : p ≠ .idle)
    (hless : p.learning < t.point.learning ∨
      p.learning ≤ t.point.learning ∧ p.turns < t.point.turns)
    (hclock : s.clock = t.state.clock) (hmem : s.mem = t.state.mem) :
    Progress t ((t.update s).goto p) where
  settled := ⟨hsettled.1, fun h => absurd h hbusy⟩
  less := by
    show Prod.Lex _ _ (p.learning + (t.later.map Point.learning).sum,
        p.turns + (t.later.map Point.turns).sum)
      (t.point.learning + (t.later.map Point.learning).sum,
        t.point.turns + (t.later.map Point.turns).sum)
    rcases hless with hlearn | ⟨hlearn, hturns⟩
    · exact Prod.Lex.left _ _ (Nat.add_lt_add_right hlearn _)
    · exact Prod.Lex.right' _ (Nat.add_le_add_right hlearn _) (Nat.add_lt_add_right hturns _)
  clock := hclock
  mem := hmem

/-- The thread returns. -/
theorem Progress.done {s : SrState} (hsettled : t.Settled) (hbusy : t.point ≠ .idle)
    (hclock : s.clock = t.state.clock) (hmem : s.mem = t.state.mem) :
    Progress t (t.update s).done := by
  have hturns := Point.turns_pos hbusy
  obtain ⟨s₀, point, later⟩ := t
  cases later with
  | nil =>
      refine ⟨⟨hsettled.1, fun _ => rfl⟩, ?_, hclock, hmem⟩
      apply Prod.Lex.right'
      · show ([Point.idle].map Point.learning).sum ≤ ([point].map Point.learning).sum
        simp [Point.learning]
      · show ([Point.idle].map Point.turns).sum < ([point].map Point.turns).sum
        simpa [Point.turns] using hturns
  | cons p ps =>
      have hp : p ≠ .idle := fun h => hsettled.1 (h ▸ List.mem_cons_self)
      have hps : .idle ∉ ps := fun h => hsettled.1 (List.mem_cons_of_mem _ h)
      refine ⟨⟨hps, fun h => absurd h hp⟩, ?_, hclock, hmem⟩
      apply Prod.Lex.right'
      · show ((p :: ps).map Point.learning).sum ≤ ((point :: p :: ps).map Point.learning).sum
        simp
      · show ((p :: ps).map Point.turns).sum < ((point :: p :: ps).map Point.turns).sum
        simpa using hturns

theorem srSendPacket_clock_mem (sr : SrConfig) (s : SrState) (sender : SrSender) (buf : Bytes)
    (iface : String) :
    (srSendPacket sr s sender buf iface).clock = s.clock ∧
      (srSendPacket sr s sender buf iface).mem = s.mem := by
  rcases srSendPacket_cases sr s sender buf iface with h | ⟨-, h⟩ <;> rw [h] <;> exact ⟨rfl, rfl⟩

theorem packetStep_progress (hsettled : t.Settled) (hbusy : t.point ≠ .idle)
    (h : packetStep sr t = .ok t') : Progress t t' := by
  obtain ⟨s, point, later⟩ := t
  -- the shapes of a turn: on to a shorter point, or back
  have hgoto : ∀ (s' : SrState) (p : Point), p ≠ .idle → p.learning = 0 → p.turns < point.turns →
      s'.clock = s.clock → s'.mem = s.mem → Progress ⟨s, point, later⟩ ⟨s', p, later⟩ := by
    intro s' p hp hlearn hturns hclock hmem
    exact .goto (t := ⟨s, point, later⟩) hsettled hp (.inr ⟨by simp [hlearn], hturns⟩) hclock hmem
  have hdone : ∀ s' : SrState, s'.clock = s.clock → s'.mem = s.mem →
      Progress ⟨s, point, later⟩ (Threads.done ⟨s', point, later⟩) :=
    fun s' => .done (t := ⟨s, point, later⟩) hsettled hbusy
  cases point with
  | idle => exact absurd rfl hbusy
  | fillAndSendPkt caller packet dip =>
      cases hpoint : fillPoint sr s caller packet dip with
      | error e =>
          simp only [packetStep, hpoint] at h
          cases h
      | ok p =>
          simp only [packetStep, hpoint] at h
          cases h
          rcases fillPoint_cases hpoint with ⟨frame, iface, rfl⟩ | ⟨htype, gw, iface, rfl⟩
          · apply hgoto _ _ (by simp) rfl _ rfl rfl
            cases caller <;> simp [Point.turns]
          · apply hgoto _ _ (by simp) rfl _ rfl rfl
            cases caller with
            | datagram => simp [Point.turns]
            | arpReply => cases htype
            | arpRequest req => cases htype
  | sendPacket caller frame iface =>
      obtain ⟨hclock, hmem⟩ :=
        srSendPacket_clock_mem sr s (.fillAndSendPkt caller.type) frame iface
      cases caller with
      | datagram =>
          cases h
          exact hdone _ hclock hmem
      | arpReply =>
          cases h
          exact hdone _ hclock hmem
      | arpRequest req =>
          cases h
          exact hgoto _ (.writeSent req) (by simp) rfl (by simp [Point.turns]) hclock hmem
  | queuereq gw packet iface =>
      cases h
      exact hgoto _ (.readSent _) (by simp) rfl (by simp [Point.turns]) rfl rfl
  | readSent req =>
      obtain ⟨r, -, h⟩ := of_withReq h
      cases h
      split
      · exact hgoto s (.readTimes req) (by simp) rfl (by simp [Point.turns]) rfl rfl
      · exact hdone s rfl rfl
  | readTimes req =>
      obtain ⟨r, -, h⟩ := of_withReq h
      cases h
      split
      · exact hgoto s (.destroy req) (by simp) rfl (by simp [Point.turns]) rfl rfl
      · exact hgoto s (.readIface req) (by simp) rfl (by simp [Point.turns]) rfl rfl
  | destroy req =>
      obtain ⟨r, -, h⟩ := of_withReq h
      cases h
      exact hdone _ rfl rfl
  | readIface req =>
      obtain ⟨r, -, h⟩ := of_withReq h
      split at h
      · cases h
      · split at h
        · cases h
        · cases h
          exact hgoto _ (.readTip req _ _) (by simp) rfl (by simp [Point.turns]) rfl rfl
  | readTip req interface tha =>
      obtain ⟨r, -, h⟩ := of_withReq h
      cases h
      exact hgoto s (.readDip req _) (by simp) rfl (by simp [Point.turns]) rfl rfl
  | readDip req arpHdr =>
      obtain ⟨r, -, h⟩ := of_withReq h
      cases h
      exact hgoto s (.fillAndSendPkt (.arpRequest req) _ _) (by simp) rfl (by simp [Point.turns])
        rfl rfl
  | writeSent req =>
      obtain ⟨r, -, h⟩ := of_withReq h
      cases h
      exact hgoto _ (.writeTimes req) (by simp) rfl (by simp [Point.turns]) rfl rfl
  | writeTimes req =>
      obtain ⟨r, -, h⟩ := of_withReq h
      cases h
      exact hdone _ rfl rfl
  | lookupSender mac ip =>
      simp only [packetStep] at h
      split at h
      · cases h
        exact hdone s rfl rfl
      · cases h
        exact .goto (t := ⟨s, .lookupSender mac ip, later⟩) (s := s) (p := .insert mac ip) hsettled
          (by simp) (.inl (by simp [Point.learning])) rfl rfl
  | insert mac ip =>
      simp only [packetStep] at h
      split at h
      · cases h
        exact hdone _ rfl rfl
      · next cache req _ =>
        cases h
        exact .goto (t := ⟨s, .insert mac ip, later⟩) (p := .sendPackets req req.packets) hsettled
          (by simp) (.inl (by simp [Point.learning])) rfl rfl
  | sendPackets req cur =>
      cases cur with
      | nil =>
          cases h
          exact hdone s rfl rfl
      | cons cur next =>
          simp only [packetStep] at h
          split at h
          · cases h
          · cases h
            refine ⟨⟨?_, by simp⟩, ?_, rfl, rfl⟩
            · have hlater := hsettled.1
              simpa using hlater
            · apply Prod.Lex.right'
              · simp [Threads.learning, Point.learning]
              · simp [Threads.turns, Point.turns]
                omega

/-- Left alone, the packet thread comes to the end of the frame. -/
theorem exists_turns (sr : SrConfig) (t : Threads) (hsettled : t.Settled) {now : Nat}
    {mem : Memory} (hclock : t.state.clock = now) (hmem : t.state.mem = mem) :
    ∃ n, run (threadStep sr) t (List.replicate n (.packet now mem))
      = (t.meaning sr).map fun s => ⟨s, .idle, []⟩ := by
  have hstep : threadStep sr t (.packet now mem) = packetStep sr t := by
    subst hclock hmem
    rfl
  have hmeaning := packetStep_meaning sr t
  by_cases hidle : t.point = .idle
  · have hlater := hsettled.2 hidle
    obtain ⟨s, point, later⟩ := t
    cases hidle
    cases hlater
    exact ⟨0, rfl⟩
  · cases hturn : packetStep sr t with
    | error e =>
        rw [hturn] at hmeaning
        refine ⟨1, ?_⟩
        rw [← hmeaning]
        show (threadStep sr t _).bind _ = _
        rw [hstep, hturn]
        rfl
    | ok t' =>
        -- a turn is progress, and the rest is the same claim for less work
        have hprogress := packetStep_progress hsettled hidle hturn
        have hless := hprogress.less
        obtain ⟨n, hn⟩ := exists_turns sr t' hprogress.settled (hprogress.clock.trans hclock)
          (hprogress.mem.trans hmem)
        rw [hturn] at hmeaning
        refine ⟨n + 1, ?_⟩
        rw [← hmeaning]
        show (threadStep sr t _).bind _ = _
        rw [hstep, hturn]
        exact hn
termination_by (t.learning, t.turns)
decreasing_by exact hless

theorem receiveStep_settled {s : SrState} {interface : String} {packet : Bytes}
    (h : receiveStep sr ⟨s, .idle, []⟩ interface packet = .ok t) :
    t.Settled ∧ t.state.clock = s.clock ∧ t.state.mem = s.mem := by
  have hidle : ∀ s : SrState, Threads.Settled ⟨s, .idle, []⟩ := fun _ => ⟨by simp, fun _ => rfl⟩
  cases (receiveStep_ends sr _ interface packet).ok h with
  | drop => exact ⟨hidle _, rfl, rfl⟩
  | answer hanswered =>
      obtain ⟨sender, buf, -, rfl⟩ := hanswered
      exact ⟨hidle _, srSendPacket_clock_mem sr _ sender buf interface⟩
  | arp hreply =>
      refine ⟨⟨fun hmem => ?_, by simp⟩, rfl, rfl⟩
      obtain ⟨payload, dip, heq⟩ := hreply _ hmem
      cases heq
  | forward =>
      exact ⟨⟨by simp [Threads.goto, Threads.update], by simp [Threads.goto]⟩, rfl, rfl⟩

/-- **The atomic step is the packet thread left alone**: it takes the frame, and some turns later
it is where the step of `srStep` ends, or at the same fault. -/
theorem srStep_of_alone (sr : SrConfig) (s : SrState) (interface : String) (packet : Bytes)
    (now : Nat) (mem : Memory) :
    ∃ n, run (threadStep sr) ⟨s, .idle, []⟩
        (.receive interface packet now mem :: List.replicate n (.packet now mem))
      = (srStep sr s (.frame interface packet now mem)).map fun s => ⟨s, .idle, []⟩ := by
  have hmeaning := receiveStep_meaning sr { s with clock := now, mem := mem } interface packet
  cases hreceive : receiveStep sr ⟨{ s with clock := now, mem := mem }, .idle, []⟩ interface
      packet with
  | error e =>
      refine ⟨0, ?_⟩
      rw [hreceive] at hmeaning
      show (receiveStep sr ⟨{ s with clock := now, mem := mem }, .idle, []⟩ interface packet).bind _
        = (srHandlepacket sr _ interface packet).map _
      rw [← hmeaning, hreceive]
      rfl
  | ok t =>
      obtain ⟨hsettled, hclock, hmem⟩ := receiveStep_settled hreceive
      obtain ⟨n, hn⟩ := exists_turns sr t hsettled hclock hmem
      rw [hreceive] at hmeaning
      refine ⟨n, ?_⟩
      show (receiveStep sr ⟨{ s with clock := now, mem := mem }, .idle, []⟩ interface packet).bind _
        = (srHandlepacket sr _ interface packet).map _
      rw [← hmeaning, hreceive]
      exact hn

/-- **Runs of `srStep` are interleavings**: those in which each frame is handled in one go. -/
theorem exists_threadRun (inputs : List SrInput) :
    ∃ turns, threadRun sr turns = (srRun sr inputs).map fun s => ⟨s, .idle, []⟩ := by
  suffices hfrom : ∀ s : SrState, ∃ turns, run (threadStep sr) ⟨s, .idle, []⟩ turns
      = (run (srStep sr) s inputs).map fun s => ⟨s, .idle, []⟩ from hfrom srInit
  induction inputs with
  | nil => exact fun s => ⟨[], rfl⟩
  | cons i is ih =>
      intro s
      -- the turns for one input: those of a frame that runs alone, or one sweep
      obtain ⟨first, hfirst⟩ : ∃ turns, run (threadStep sr) ⟨s, .idle, []⟩ turns
          = (srStep sr s i).map fun s => ⟨s, .idle, []⟩ := by
        cases i with
        | frame interface packet now mem =>
            obtain ⟨n, hn⟩ := srStep_of_alone sr s interface packet now mem
            exact ⟨_, hn⟩
        | timeout now mem =>
            refine ⟨[.timeout now mem], ?_⟩
            show ((srStep sr s (.timeout now mem)).map fun s => (⟨s, .idle, []⟩ : Threads)) >>= pure
              = _
            rw [bind_pure]
      cases hstep : srStep sr s i with
      | error e =>
          refine ⟨first, ?_⟩
          rw [hfirst, hstep]
          show _ = ((srStep sr s i).bind fun s => run (srStep sr) s is).map _
          rw [hstep]
          rfl
      | ok s' =>
          obtain ⟨rest, hrest⟩ := ih s'
          refine ⟨first ++ rest, ?_⟩
          rw [hstep] at hfirst
          unfold run at hfirst
          show List.foldlM (threadStep sr) _ (first ++ rest)
            = ((srStep sr s i).bind fun s => run (srStep sr) s is).map _
          rw [List.foldlM_append, hfirst, hstep]
          exact hrest

end Alone

end NetworkProjects.Router
