import NetworkProjects.Transport.Round
import NetworkProjects.Transport.Stream
import Mathlib.Algebra.GroupWithZero.Nat

/-!
# A connection comes to rest

Once the applications have stopped writing, the two loops and the network have a bounded amount of
work left: what has been written is sent in pieces, each piece is acknowledged, and acknowledgements
are not (`Connection.work`). As long as there is work, something can happen. So the connection comes
to rest, in whatever order things happen, and at rest everything has been delivered
(`comes_to_rest`).
-/

namespace NetworkProjects.Transport

open NetworkProjects.Lib

/-! ## Acknowledgements

Data is acknowledged at once, and so is a FIN. What is neither is answered by nothing, so
acknowledgements do not breed. -/

/-- The segment is not answered: it has no data, and no flag but ACK. -/
def isAck (segment : Bytes) : Bool := payload segment = [] ∧ wireFlags segment = thAck

section Answers

variable {o : ByteOrder} {stack : STCPHeader} {e e' : Endpoint} {segment : Bytes}
  {sent : List Bytes}

theorem isAck_header {o : ByteOrder} {header : STCPHeader} (h : header.thFlags = thAck) :
    isAck (header.toBytes o) = true := by
  rw [isAck, decide_eq_true_eq, wireFlags_header, h]
  exact ⟨payload_ack (length_toBytes o header), rfl⟩

theorem takeData_sent (o : ByteOrder) (stack : STCPHeader) (data : Bytes) (e : Endpoint) :
    (takeData o stack data e).2.length ≤ 1 ∧ (data = [] → (takeData o stack data e).2 = []) := by
  unfold takeData
  split
  · exact ⟨Nat.zero_le 1, fun _ => rfl⟩
  · next hlen => exact ⟨le_rfl, fun hdata => absurd (congrArg List.length hdata) hlen⟩

theorem takeFin_sent (o : ByteOrder) (stack : STCPHeader) (e : Endpoint) :
    (takeFin o stack e).2.length ≤ 1 ∧ (e.header.thFlags = thAck → (takeFin o stack e).2 = []) := by
  unfold takeFin
  split
  · next hfin =>
    refine ⟨le_rfl, fun hack => ?_⟩
    rw [hack] at hfin
    exact absurd hfin (by decide)
  · exact ⟨Nat.zero_le 1, fun _ => rfl⟩

/-- A segment is answered twice at most, and an acknowledgement not at all. -/
theorem networkData_sent (h : networkData o stack segment e = .ok (e', sent)) :
    sent.length ≤ 2 ∧ (isAck segment = true → sent = []) := by
  unfold networkData at h
  split at h
  · cases h
  · next hsize =>
    simp only at h
    split at h
    · cases h
    · next data hcopy =>
      have hlength : data.length = (payload segment).length := by
        rw [length_of_strncpy hcopy, payload, List.length_drop]
      generalize hread : ({ e with
        networkBuffer := segment.take networkBufferSize ++ e.networkBuffer.drop segment.length
        header := .ofBytes o
          (segment.take networkBufferSize ++ e.networkBuffer.drop segment.length) } : Endpoint)
        = e₀ at h
      have hflags : e₀.header.thFlags = wireFlags segment := by
        rw [← hread]
        exact wireFlags_buffer (Nat.not_lt.mp hsize) _
      -- an acknowledgement for the data, and one for a FIN
      have hdata := takeData_sent o stack data (takeAck o e₀)
      obtain ⟨win, ack, acks, htaken, -⟩ := takeData_takeAck o stack e₀ data
      rw [htaken] at h hdata
      generalize hanswered : ({ e₀ with
          header := { e₀.header with thWin := win }
          acknowledgedByte := ack
          delivered := e₀.delivered ++ (if data = [] then [] else [data])
          nextExpectedByte := e₀.nextExpectedByte + UInt32.ofNat data.length } : Endpoint)
        = e₁ at h
      have hflags₁ : e₁.header.thFlags = wireFlags segment := by
        rw [← hanswered]
        exact hflags
      have hfin := takeFin_sent o stack e₁
      cases h
      constructor
      · rw [List.length_append]
        exact Nat.add_le_add hdata.1 hfin.1
      · intro hack
        rw [isAck, decide_eq_true_eq] at hack
        -- an empty segment without a FIN is answered by nothing
        have hnone : data = [] := by
          rw [← List.length_eq_zero_iff, hlength, hack.1]
          rfl
        rw [hfin.2 (hflags₁.trans hack.2), List.append_nil]
        exact hdata.2 hnone

/-- **A round takes place** as long as there is something for it: a write of the application, or a
segment in the queue. -/
theorem controlLoop_succeeds (o : ByteOrder) (stack : STCPHeader) (hopen : e.Open)
    (hsize : ∀ segment ∈ e.networkRecvQueue,
      headerSize ≤ segment.length ∧ segment.length ≤ networkBufferSize)
    (hwork : e.appRecvQueue ≠ [] ∨ e.networkRecvQueue ≠ []) :
    ∃ r, controlLoop o stack e = .ok r := by
  have hround := hopen.openWindow
  have happ : e.openWindow.appRecvQueue = e.appRecvQueue := rfl
  have hnet : e.openWindow.networkRecvQueue = e.networkRecvQueue := rfl
  unfold controlLoop
  simp only [hopen.recvFin, hopen.done, stcpWaitForEvent_open hround, happ, hnet,
    Bool.false_eq_true, if_false]
  cases hwrites : e.appRecvQueue with
  | cons w writes => exact ⟨_, rfl⟩
  | nil =>
      cases hsegments : e.networkRecvQueue with
      | nil => simp [hwrites, hsegments] at hwork
      | cons segment queue =>
          obtain ⟨hmin, hmax⟩ := hsize segment (by simp [hsegments])
          exact networkData_succeeds o stack (hround.dequeue queue).buffer hmin hmax

/-- What a round of a connected endpoint is. -/
theorem controlLoop_open (hopen : e.Open) (h : controlLoop o stack e = .ok (e', sent)) :
    Obtains o e e' sent ∨ ∃ segment queue, e.networkRecvQueue = segment :: queue ∧
      networkData o stack segment (e.openWindow.dequeue queue) = .ok (e', sent) := by
  have hround := hopen.openWindow
  have happ : e.openWindow.appRecvQueue = e.appRecvQueue := rfl
  have hnet : e.openWindow.networkRecvQueue = e.networkRecvQueue := rfl
  unfold controlLoop at h
  simp only [hopen.recvFin, hopen.done, stcpWaitForEvent_open hround, happ, hnet,
    Bool.false_eq_true, if_false] at h
  cases hwrites : e.appRecvQueue with
  | cons w writes =>
      simp only [hwrites, List.isEmpty_cons, Bool.not_false, if_true, Except.ok.injEq] at h
      have hobtains := appData_obtains hround (by rw [happ, hwrites]; simp) rfl h
      exact .inl ⟨hobtains.isOpen, hobtains.pending, hobtains.obtained, hobtains.appRecvQueue,
        hobtains.sent, hobtains.networkRecvQueue, hobtains.delivered⟩
  | nil =>
      cases hsegments : e.networkRecvQueue with
      | nil => simp [hwrites, hsegments] at h
      | cons segment queue =>
          simp only [hwrites, hsegments, List.isEmpty_nil, List.isEmpty_cons, Bool.not_true,
            Bool.not_false, Bool.false_eq_true, if_false, if_true] at h
          exact .inr ⟨segment, queue, rfl, h⟩

end Answers

/-! ## Work

A byte that is to be sent, a segment in flight and one in a queue each count for the steps they can
still cause. Every step of the loops and of the network lowers the sum, and while it is not zero
there is such a step. -/

/-- The rounds it takes to send a write. -/
def rounds (w : Bytes) : Nat := w.length / stcpMss + 1

/-- The steps that a segment in a queue causes: it is taken, and its answers arrive and are
taken. -/
def steps (segment : Bytes) : Nat := if isAck segment then 1 else 5

/-- The work that what `s` has to send and has sent still causes. -/
def Connection.workOf (c : Connection) (s : Side) : Nat :=
  7 * ((c.ends s).appRecvQueue.map rounds).sum
    + ((c.inFlight s).map fun segment => steps segment + 1).sum
    + ((c.ends s.peer).networkRecvQueue.map steps).sum

def Connection.work (c : Connection) : Nat := c.workOf .client + c.workOf .server

section Work

variable {o : Side → ByteOrder} {c c' : Connection}

theorem work_eq (c : Connection) (s : Side) : c.work = c.workOf s + c.workOf s.peer := by
  cases s with
  | client => rfl
  | server => exact Nat.add_comm _ _

theorem steps_le (segment : Bytes) : steps segment ≤ 5 := by
  unfold steps
  split
  · decide
  · exact le_rfl

theorem rounds_stcpAppRecv {queue : List Bytes} (h : queue ≠ []) :
    ((stcpAppRecv queue stcpMss).2.map rounds).sum + 1 ≤ (queue.map rounds).sum := by
  obtain ⟨w, queue, rfl⟩ := List.exists_cons_of_ne_nil h
  rw [stcpAppRecv_cons, List.map_cons, List.sum_cons]
  split
  · next hlong =>
    have hrest : rounds (w.drop stcpMss) + 1 = rounds w := by
      rw [rounds, rounds, List.length_drop]
      simp only [stcpMss] at hlong ⊢
      omega
    rw [List.map_cons, List.sum_cons]
    omega
  · have hone : 1 ≤ rounds w := Nat.le_add_left 1 _
    show (queue.map rounds).sum + 1 ≤ rounds w + (queue.map rounds).sum
    omega

/-- The answers arrive, and are taken. -/
theorem sum_acks {acks : List Bytes} (h : ∀ ack ∈ acks, isAck ack = true) :
    (acks.map fun segment => steps segment + 1).sum = 2 * acks.length := by
  induction acks with
  | nil => rfl
  | cons ack acks ih =>
      have hone : steps ack = 1 := if_pos (h ack (by simp))
      rw [List.map_cons, List.sum_cons, ih fun a ha => h a (by simp [ha]), hone, List.length_cons]
      omega

/-- A segment arrives. -/
theorem arrive_work {s : Side} (h : connectionStep o c (.arrive s) = .ok c') :
    c'.work < c.work := by
  obtain ⟨segment, segments, hflight, rfl⟩ := connectionStep_arrive h
  have hs : ((c.setInFlight s segments).setEnd s.peer
      ((c.ends s.peer).enqueue segment)).workOf s + 1 = c.workOf s := by
    simp only [Connection.workOf, ends_setEnd_of_peer, ends_setInFlight, inFlight_setEnd,
      inFlight_setInFlight_self, ends_setEnd_self, Endpoint.enqueue, hflight, List.map_append,
      List.map_cons, List.map_nil, List.sum_append, List.sum_cons, List.sum_nil]
    omega
  have hpeer : ((c.setInFlight s segments).setEnd s.peer
      ((c.ends s.peer).enqueue segment)).workOf s.peer = c.workOf s.peer := by
    simp only [Connection.workOf, ends_setEnd_self, inFlight_setEnd, inFlight_setInFlight_peer,
      Side.peer_peer, ends_setEnd_of_peer, ends_setInFlight, Endpoint.enqueue]
  rw [work_eq _ s, work_eq c s, hpeer]
  omega

/-- A round of the loop. -/
theorem loop_work {s : Side} {stack : STCPHeader} (hopen : (c.ends s).Open)
    (h : connectionStep o c (.loop s stack) = .ok c') : c'.work < c.work := by
  obtain ⟨e, sent, hloop, rfl⟩ := connectionStep_loop h
  rw [work_eq _ s, work_eq c s]
  simp only [Connection.workOf, ends_setInFlight, ends_setEnd_self, ends_setEnd_peer,
    inFlight_setInFlight_self, inFlight_setInFlight_peer, inFlight_setEnd, Side.peer_peer,
    List.map_append, List.sum_append]
  rcases controlLoop_open hopen hloop with hobtains | ⟨segment, queue, hqueue, htake⟩
  · -- a piece of a write is sent
    obtain ⟨header, hsent⟩ := hobtains.sent
    have hrounds := rounds_stcpAppRecv hobtains.pending
    rw [← hobtains.appRecvQueue] at hrounds
    have hsteps := steps_le
      (header.toBytes (o s) ++ (stcpAppRecv (c.ends s).appRecvQueue stcpMss).1)
    rw [hsent, hobtains.networkRecvQueue, List.map_singleton, List.sum_singleton]
    omega
  · -- a segment is taken
    have htaken := networkData_taken htake
    have hacks : ∀ ack ∈ sent, isAck ack = true := by
      intro ack hack
      obtain ⟨header, rfl, hflags⟩ := htaken.acks ack hack
      exact isAck_header hflags
    obtain ⟨htwo, hnone⟩ := networkData_sent htake
    have hanswers : 2 * sent.length + 1 ≤ steps segment := by
      unfold steps
      split
      · next hack => rw [hnone hack, List.length_nil]
      · omega
    have happ : e.appRecvQueue = (c.ends s).appRecvQueue := htaken.appRecvQueue
    have hrest : e.networkRecvQueue = queue := htaken.networkRecvQueue
    rw [sum_acks hacks, happ, hrest, hqueue, List.map_cons, List.sum_cons]
    omega

end Work

/-! ## Runs -/

/-- A step of the network or of a loop. -/
def Input.moves : Input → Prop
  | .arrive _ => True
  | .loop _ _ => True
  | _ => False

/-- There is nothing left to do. -/
structure Connection.AtRest (c : Connection) : Prop where
  appRecvQueue : ∀ s, (c.ends s).appRecvQueue = []
  networkRecvQueue : ∀ s, (c.ends s).networkRecvQueue = []
  inFlight : ∀ s, c.inFlight s = []

/-- Where there is no work, there is nothing to do. -/
theorem atRest_of_work {c : Connection} (h : c.work = 0) : c.AtRest := by
  have hzero : ∀ {l : List Bytes} {f : Bytes → Nat}, (∀ a, 1 ≤ f a) → (l.map f).sum = 0 →
      l = [] := by
    intro l f hf hsum
    cases l with
    | nil => rfl
    | cons a l =>
        rw [List.map_cons, List.sum_cons] at hsum
        have := hf a
        omega
  have hsteps : ∀ segment, 1 ≤ steps segment := by
    intro segment
    unfold steps
    split
    · exact le_rfl
    · decide
  have hsides : ∀ s, c.workOf s = 0 := by
    intro s
    rw [work_eq c s] at h
    exact (Nat.add_eq_zero_iff.mp h).1
  refine ⟨fun s => ?_, fun s => ?_, fun s => ?_⟩
  · have hs := hsides s
    unfold Connection.workOf at hs
    exact hzero (f := rounds) (fun w => Nat.le_add_left 1 _) (by omega)
  · have hs := hsides s.peer
    unfold Connection.workOf at hs
    rw [Side.peer_peer] at hs
    exact hzero hsteps (by omega)
  · have hs := hsides s
    unfold Connection.workOf at hs
    exact hzero (f := fun segment => steps segment + 1) (fun a => Nat.le_add_left 1 _) (by omega)

/-- What holds of a connection as long as nobody closes, and every segment has its header. -/
structure Connection.Sound (c : Connection) : Prop where
  ok : c.Ok
  headers : ∀ s, ∀ segment ∈ c.inTransit s, headerSize ≤ segment.length

/-- What the application of `s` has written. -/
def written (s : Side) (inputs : List Input) : Bytes :=
  inputs.flatMap fun
    | .write s' data => if s' = s then data else []
    | _ => []

section Runs

variable {o : Side → ByteOrder} {c c' t : Connection} {inputs : List Input}

theorem FlowStep.headers {f f' : Flow} (h : FlowStep f f')
    (hf : ∀ segment ∈ f.transit, headerSize ≤ segment.length) :
    ∀ segment ∈ f'.transit, headerSize ≤ segment.length := by
  cases h with
  | idle => exact hf
  | send o _ header chunk _ =>
      intro segment hsegment
      rcases List.mem_append.mp hsegment with hsegment | hsegment
      · exact hf segment hsegment
      · rw [List.mem_singleton.mp hsegment, List.length_append, length_toBytes]
        exact Nat.le_add_right _ _
  | ack _ acks hacks =>
      intro segment hsegment
      rcases List.mem_append.mp hsegment with hsegment | hsegment
      · exact hf segment hsegment
      · exact le_of_eq (hacks segment hsegment).symm
  | take obtained transit delivered segment =>
      exact fun s hs => hf s (List.mem_cons_of_mem _ hs)

theorem Connection.Fresh.sound (h : c.Fresh) : c.Sound := by
  refine ⟨h.ok, fun s segment hsegment => ?_⟩
  rw [Connection.inTransit, (h.ends s.peer).networkRecvQueue, h.inFlight s] at hsegment
  cases hsegment

theorem Connection.Sound.step {i : Input} (hsound : c.Sound) (hi : ∀ s, i ≠ .close s)
    (h : connectionStep o c i = .ok c') : c'.Sound :=
  ⟨connectionStep_ok hsound.ok hi h, fun s =>
    ((connectionStep_flows hsound.ok hi h).2 s).headers (hsound.headers s)⟩

/-- **Every step does some of the work**, and leaves the connection as sound as it was. -/
theorem Connection.Sound.work_lt {i : Input} (hsound : c.Sound) (hi : i.moves)
    (h : connectionStep o c i = .ok c') : c'.Sound ∧ c'.work < c.work := by
  cases i with
  | write => cases hi
  | close => cases hi
  | arrive s => exact ⟨hsound.step (by simp) h, arrive_work h⟩
  | loop s stack => exact ⟨hsound.step (by simp) h, loop_work (hsound.ok.isOpen s) h⟩

/-- **While there is work, something can happen**: a segment can arrive, or one of the two loops can
go round. -/
theorem Connection.Sound.progress (o : Side → ByteOrder) (hsound : c.Sound) (hwork : ¬ c.AtRest)
    (stack : STCPHeader) : ∃ i c', i.moves ∧ connectionStep o c i = .ok c' := by
  by_cases harrive : ∃ s, c.inFlight s ≠ []
  · obtain ⟨s, hs⟩ := harrive
    obtain ⟨segment, segments, hflight⟩ := List.exists_cons_of_ne_nil hs
    have hstep : connectionStep o c (.arrive s) = .ok ((c.setInFlight s segments).setEnd s.peer
        ((c.ends s.peer).enqueue segment)) := by
      simp only [connectionStep, hflight]
    exact ⟨.arrive s, _, trivial, hstep⟩
  · have hloop : ∃ s, (c.ends s).appRecvQueue ≠ [] ∨ (c.ends s).networkRecvQueue ≠ [] := by
      by_contra hnone
      refine hwork ⟨fun s => ?_, fun s => ?_, fun s => ?_⟩
      · by_contra hs
        exact hnone ⟨s, .inl hs⟩
      · by_contra hs
        exact hnone ⟨s, .inr hs⟩
      · by_contra hs
        exact harrive ⟨s, hs⟩
    obtain ⟨s, hs⟩ := hloop
    obtain ⟨⟨e, sent⟩, hround⟩ := controlLoop_succeeds (o s) stack (hsound.ok.isOpen s)
      (fun segment hsegment => ⟨hsound.headers s.peer segment (by
        simpa [Connection.inTransit] using .inl hsegment), hsound.ok.queue s segment hsegment⟩) hs
    have hstep : connectionStep o c (.loop s stack)
        = .ok ((c.setEnd s e).setInFlight s (c.inFlight s ++ sent)) := by
      simp only [connectionStep, hround]
    exact ⟨.loop s stack, _, trivial, hstep⟩

/-- What has been obtained, and what is still to be obtained. -/
def Endpoint.outgoing (e : Endpoint) : Bytes := e.obtained.flatten ++ e.appRecvQueue.flatten

theorem controlLoop_outgoing {o : ByteOrder} {stack : STCPHeader} {e e' : Endpoint}
    {sent : List Bytes} (hopen : e.Open) (h : controlLoop o stack e = .ok (e', sent)) :
    e'.outgoing = e.outgoing := by
  rcases controlLoop_open hopen h with hobtains | ⟨segment, queue, -, htake⟩
  · rw [Endpoint.outgoing, hobtains.obtained, hobtains.appRecvQueue, List.flatten_append,
      List.flatten_singleton, List.append_assoc, stcpAppRecv_flatten, Endpoint.outgoing]
  · have htaken := networkData_taken htake
    rw [Endpoint.outgoing, htaken.obtained, htaken.appRecvQueue]
    rfl

theorem written_append (s : Side) (inputs later : List Input) :
    written s (inputs ++ later) = written s inputs ++ written s later := List.flatMap_append

theorem run_outgoing (hfresh : c.Fresh) (hclose : ∀ s, .close s ∉ inputs)
    (h : run (connectionStep o) c inputs = .ok t) (s : Side) :
    (t.ends s).outgoing = written s inputs := by
  revert hclose
  apply run_induction (P := fun inputs t => (∀ s, .close s ∉ inputs) →
    (t.ends s).outgoing = written s inputs) ?_ ?_ h
  · intro _
    rw [Endpoint.outgoing, (hfresh.ends s).obtained, (hfresh.ends s).appRecvQueue]
    rfl
  · intro inputs i t t' hrun ih hstep hclose
    have hclose' : ∀ s, .close s ∉ inputs := fun s hs => hclose s (List.mem_append_left _ hs)
    have hsame := ih hclose'
    rw [written_append, ← hsame]
    cases i with
    | close s' => exact absurd (by simp) (hclose s')
    | write s' data =>
        cases hstep
        rcases s'.eq_or_eq_peer s with rfl | rfl
        · simp [Endpoint.outgoing, Endpoint.mywrite, written]
        · simp [written, s'.peer_ne.symm]
    | arrive s' =>
        obtain ⟨segment, segments, -, rfl⟩ := connectionStep_arrive hstep
        have hkept := setEnd_congr (f := Endpoint.outgoing) (c := t.setInFlight s' segments)
          (s := s'.peer) (e := (t.ends s'.peer).enqueue segment) rfl s
        rw [hkept]
        exact (List.append_nil _).symm
    | loop s' stack =>
        obtain ⟨e, sent, hloop, rfl⟩ := connectionStep_loop hstep
        -- a round of an open endpoint only moves bytes from waiting to obtained
        have hopen := (run_ok hfresh hclose' hrun).isOpen s'
        have hkept := setEnd_congr (f := Endpoint.outgoing) (controlLoop_outgoing hopen hloop) s
        rw [ends_setInFlight, hkept]
        exact (List.append_nil _).symm

/-- Nothing is written by the network and the loops. -/
theorem written_moves {later : List Input} (h : ∀ i ∈ later, i.moves) (s : Side) :
    written s later = [] := by
  rw [written, List.flatMap_eq_nil_iff]
  intro i hi
  have hmoves := h i hi
  cases i with
  | write => cases hmoves
  | close => cases hmoves
  | arrive => rfl
  | loop => rfl

theorem run_sound (hfresh : c.Fresh) (hclose : ∀ s, .close s ∉ inputs)
    (h : run (connectionStep o) c inputs = .ok t) : t.Sound := by
  revert hclose
  apply run_induction (P := fun inputs t => (∀ s, .close s ∉ inputs) → t.Sound) ?_ ?_ h
  · exact fun _ => hfresh.sound
  · intro inputs i t t' _ ih hstep hclose
    have hsound := ih fun s hs => hclose s (List.mem_append_left _ hs)
    exact hsound.step (fun s hs => hclose s (by simp [hs])) hstep

/-- **A connection comes to rest.** Whatever the applications have written, once they stop there is
a bounded number of steps left, in any order; something can happen until the connection is at rest;
and then each application has been given all that the other one has written, if no piece of it has a
byte behind a NUL. -/
theorem comes_to_rest (hfresh : c.Fresh) (hclose : ∀ s, .close s ∉ inputs)
    (h : run (connectionStep o) c inputs = .ok t) {later : List Input} {u : Connection}
    (hlater : ∀ i ∈ later, i.moves) (hrun : run (connectionStep o) t later = .ok u) :
    later.length + u.work ≤ t.work ∧
      (¬ u.AtRest → ∃ i u', i.moves ∧ connectionStep o u i = .ok u') ∧
      (u.AtRest → (∀ s data, .write s data ∈ inputs → PlainData data) →
        ∀ s, (u.ends s.peer).delivered.flatten = written s inputs) := by
  have hsound := run_sound hfresh hclose h
  obtain ⟨hsound', hwork⟩ := length_le_of_run (fun _ _ _ hs hi hstep => hs.work_lt hi hstep)
    hsound hlater hrun
  refine ⟨hwork, fun hbusy => hsound'.progress o hbusy .zero, ?_⟩
  intro hrest hdata s
  have hall : run (connectionStep o) c (inputs ++ later) = .ok u := by
    rw [run_append, h]
    exact hrun
  -- the later steps write nothing and close nothing
  have hclose' : ∀ s, .close s ∉ inputs ++ later := by
    intro s hs
    rcases List.mem_append.mp hs with hs | hs
    · exact hclose s hs
    · exact hlater _ hs
  have hdata' : ∀ s data, .write s data ∈ inputs ++ later → PlainData data := by
    intro s data hs
    rcases List.mem_append.mp hs with hs | hs
    · exact hdata s data hs
    · exact (hlater _ hs).elim
  obtain ⟨taken, hflow⟩ := (run_ok hfresh hclose' hall).flows s
  -- at rest nothing is in transit, so what was obtained was delivered
  have htransit : (u.flow s).transit = [] := by
    show (u.ends s.peer).networkRecvQueue ++ u.inFlight s = []
    rw [hrest.networkRecvQueue, hrest.inFlight, List.append_nil]
  have hdelivered : (u.flow s).delivered.flatten = (u.flow s).obtained.flatten :=
    (hflow.streams (run_plain hfresh hclose' hdata' hall s).obtained).2 htransit
  have hobtained := run_outgoing hfresh hclose' hall s
  rw [Endpoint.outgoing, hrest.appRecvQueue, List.flatten_nil, List.append_nil, written_append,
    written_moves hlater, List.append_nil] at hobtained
  exact hdelivered.trans hobtained

end Runs

/-- What happens to one write until the acknowledgement has been taken. -/
def oneExchange : List Input :=
  [.loop .client .zero, .arrive .client, .loop .server .zero, .arrive .server, .loop .client .zero]

/-- One write is sent, acknowledged and delivered: a string with its NUL, and one without. -/
theorem comes_to_rest_oneWrite :
    (∃ u, run (connectionStep littleEndian)
        (quietConnection.setEnd .client ((quietConnection.ends .client).mywrite [65, 66, 0]))
        oneExchange = .ok u ∧
      u.AtRest ∧ (u.ends .server).delivered.flatten = [65, 66, 0]) ∧
    ∃ u, run (connectionStep littleEndian)
        (quietConnection.setEnd .client ((quietConnection.ends .client).mywrite [72, 105]))
        oneExchange = .ok u ∧
      u.AtRest ∧ (u.ends .server).delivered.flatten = [72, 105] := by
  have hwritten : ∀ data u, PlainData data → run (connectionStep littleEndian)
      (quietConnection.setEnd .client ((quietConnection.ends .client).mywrite data))
      oneExchange = .ok u → u.AtRest → (u.ends .server).delivered.flatten = data := by
    intro data u hdata hrun hrest
    have hwrite : run (connectionStep littleEndian) quietConnection [.write .client data]
        = .ok (quietConnection.setEnd .client
          ((quietConnection.ends .client).mywrite data)) := rfl
    obtain ⟨-, -, hdelivered⟩ := comes_to_rest quietConnection_fresh (by simp) hwrite
      (by simp [oneExchange, Input.moves]) hrun
    have hplain : ∀ s data', .write s data' ∈ [Input.write .client data] → PlainData data' := by
      intro s data' hmem
      obtain ⟨-, rfl⟩ : s = .client ∧ data' = data := by simpa using hmem
      exact hdata
    have hall : (u.ends .server).delivered.flatten = written .client [.write .client data] :=
      hdelivered hrest hplain .client
    rw [hall]
    simp [written]
  have hnul : ∃ u, run (connectionStep littleEndian)
      (quietConnection.setEnd .client ((quietConnection.ends .client).mywrite [65, 66, 0]))
      oneExchange = .ok u ∧ decide (u.work = 0) = true := exists_ok_of_check (by decide +kernel)
  have htext : ∃ u, run (connectionStep littleEndian)
      (quietConnection.setEnd .client ((quietConnection.ends .client).mywrite [72, 105]))
      oneExchange = .ok u ∧ decide (u.work = 0) = true := exists_ok_of_check (by decide +kernel)
  obtain ⟨u, hrun, hwork⟩ := hnul
  obtain ⟨u', hrun', hwork'⟩ := htext
  have hrest := atRest_of_work (of_decide_eq_true hwork)
  have hrest' := atRest_of_work (of_decide_eq_true hwork')
  exact ⟨⟨u, hrun, hrest,
      hwritten _ u (plainData_of_length_le (by decide +kernel) (by decide)) hrun hrest⟩,
    u', hrun', hrest',
    hwritten _ u' (plainData_of_length_le (by decide +kernel) (by decide)) hrun' hrest'⟩

end NetworkProjects.Transport
