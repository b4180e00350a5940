import NetworkProjects.Transport.Connection
import NetworkProjects.Lib.Run

/-!
# The byte streams of a connection

Each direction of a connection is a `Flow`: what one application has given to its loop, what is
in transit, and what the other application has been given. While nobody closes, every step of
the two endpoints is a step of both flows (`connectionStep_flows`), and a flow is a queue, except
that `strncpy` clears what stands behind a NUL in a segment (`Flow.Ok`).
-/

namespace NetworkProjects.Transport

open NetworkProjects.Lib

/-! ## Flows

A flow has three parts, and four kinds of steps: nothing, a piece that is sent, an acknowledgement,
and a segment that is taken. -/

/-- One direction of a connection. -/
structure Flow where
  obtained : List Bytes
  transit : List Bytes
  delivered : List Bytes

/-- What can happen in one direction. -/
inductive FlowStep : Flow → Flow → Prop
  | idle (f : Flow) : FlowStep f f
  | send (o : ByteOrder) (f : Flow) (header : STCPHeader) (chunk : Bytes) :
      chunk.length ≤ stcpMss →
      FlowStep f ⟨f.obtained ++ [chunk], f.transit ++ [header.toBytes o ++ chunk], f.delivered⟩
  | ack (f : Flow) (acks : List Bytes) : (∀ ack ∈ acks, ack.length = headerSize) →
      FlowStep f ⟨f.obtained, f.transit ++ acks, f.delivered⟩
  | take (obtained transit delivered : List Bytes) (segment : Bytes) :
      FlowStep ⟨obtained, segment :: transit, delivered⟩
        ⟨obtained, transit, delivered ++ delivery segment⟩

/-- The pieces that are not empty. -/
def chunks (l : List Bytes) : List Bytes := l.filter (· ≠ [])

/-- What has been obtained is what has been taken, followed by the data in transit; and what has
been taken was cleared behind its NULs when it was delivered. -/
structure Flow.Ok (f : Flow) (taken : List Bytes) : Prop where
  size : ∀ segment ∈ f.transit, segment.length ≤ networkBufferSize
  obtained : chunks f.obtained = taken ++ chunks (f.transit.map payload)
  delivered : f.delivered = taken.map clearBehindNul

theorem chunks_append (l l' : List Bytes) : chunks (l ++ l') = chunks l ++ chunks l' :=
  List.filter_append ..

theorem flatten_chunks (l : List Bytes) : (chunks l).flatten = l.flatten := by
  induction l with
  | nil => rfl
  | cons s l ih =>
      cases s with
      | nil => simpa [chunks] using ih
      | cons c s => simpa [chunks] using ih

@[simp] theorem payload_append (o : ByteOrder) (header : STCPHeader) (chunk : Bytes) :
    payload (header.toBytes o ++ chunk) = chunk :=
  List.drop_left' (length_toBytes o header)

theorem payload_ack {ack : Bytes} (h : ack.length = headerSize) : payload ack = [] :=
  List.drop_eq_nil_of_le (by rw [h])

/-- Acknowledgements carry no data. -/
theorem chunks_acks {acks : List Bytes} (h : ∀ ack ∈ acks, ack.length = headerSize) :
    chunks (acks.map payload) = [] := by
  rw [chunks, List.filter_eq_nil_iff]
  intro data hdata
  obtain ⟨ack, hack, rfl⟩ := List.mem_map.mp hdata
  simp [payload_ack (h ack hack)]

/-- **A flow stays a queue**: what has been obtained is what has been taken, followed by what is in
transit. -/
theorem FlowStep.ok {f f' : Flow} {taken : List Bytes} (h : FlowStep f f')
    (hok : f.Ok taken) : ∃ taken', f'.Ok taken' := by
  cases h with
  | idle => exact ⟨taken, hok⟩
  | send o _ header chunk hsize =>
      refine ⟨taken, ?_, ?_, hok.delivered⟩
      · intro segment hsegment
        rcases List.mem_append.mp hsegment with hsegment | hsegment
        · exact hok.size segment hsegment
        · rw [List.mem_singleton.mp hsegment, List.length_append, length_toBytes]
          exact Nat.add_le_add_left hsize headerSize
      · rw [chunks_append, hok.obtained, List.map_append, chunks_append, List.append_assoc]
        simp only [List.map_cons, List.map_nil, payload_append]
  | ack _ acks hacks =>
      refine ⟨taken, ?_, ?_, hok.delivered⟩
      · intro segment hsegment
        rcases List.mem_append.mp hsegment with hsegment | hsegment
        · exact hok.size segment hsegment
        · rw [hacks segment hsegment]
          decide
      · rw [hok.obtained, List.map_append, chunks_append, chunks_acks hacks, List.append_nil]
  | take obtained transit delivered segment =>
      -- a segment moves from the ones in transit to the ones taken
      have hobtained := hok.obtained
      have hdelivered := hok.delivered
      simp only at hobtained hdelivered
      refine ⟨taken ++ chunks [payload segment], ?_, ?_, ?_⟩
      · exact fun s hs => hok.size s (List.mem_cons_of_mem _ hs)
      · rw [hobtained, List.append_assoc, ← chunks_append]
        rfl
      · by_cases hdata : payload segment = []
        · simp [hdelivered, delivery, chunks, hdata]
        · simp [hdelivered, delivery, chunks, hdata]

/-! ## What a flow delivers

What has been obtained is what has been taken and what is in transit, in order. What has been
delivered is what has been taken, each piece with its rest behind a NUL cleared. -/

section Delivery

variable {f : Flow} {taken : List Bytes}

theorem map_clearBehindNul {l : List Bytes} (h : ∀ s ∈ l, Plain s) :
    l.map clearBehindNul = l := by
  induction l with
  | nil => rfl
  | cons s l ih =>
      rw [List.map_cons, clearBehindNul_eq_self.mpr (h s (by simp)),
        ih fun s' hs' => h s' (by simp [hs'])]

/-- Pieces keep their lengths, so what becomes of them can be compared piece by piece. -/
theorem plain_of_flatten_eq {l : List Bytes} (h : (l.map clearBehindNul).flatten = l.flatten) :
    ∀ s ∈ l, Plain s := by
  induction l with
  | nil => simp
  | cons s l ih =>
      rw [List.map_cons, List.flatten_cons, List.flatten_cons] at h
      obtain ⟨hs, hl⟩ := List.append_inj h (length_clearBehindNul s)
      intro s' hs'
      rcases List.mem_cons.mp hs' with rfl | hs'
      · exact clearBehindNul_eq_self.mp hs
      · exact ih hl s' hs'

/-- Nothing else is lost or changed. -/
theorem Flow.Ok.streams (h : f.Ok taken) (hplain : ∀ chunk ∈ f.obtained, Plain chunk) :
    f.delivered.flatten <+: f.obtained.flatten ∧
      (f.transit = [] → f.delivered.flatten = f.obtained.flatten) := by
  have htaken : ∀ s ∈ taken, Plain s := by
    intro s hs
    have hmem : s ∈ chunks f.obtained := by
      rw [h.obtained]
      exact List.mem_append_left _ hs
    exact hplain s (List.mem_of_mem_filter hmem)
  have hall : f.obtained.flatten
      = f.delivered.flatten ++ (chunks (f.transit.map payload)).flatten := by
    rw [← flatten_chunks, h.obtained, List.flatten_append, h.delivered, map_clearBehindNul htaken]
  constructor
  · exact ⟨_, hall.symm⟩
  · intro htransit
    rw [hall, htransit]
    simp [chunks]

/-- Once everything has been taken, nothing is lost if and only if every piece is plain. -/
theorem Flow.Ok.lossless_iff (h : f.Ok taken) (htransit : f.transit = []) :
    f.delivered.flatten = f.obtained.flatten ↔ ∀ chunk ∈ f.obtained, Plain chunk := by
  constructor
  · intro heq
    have htaken : chunks f.obtained = taken := by
      rw [h.obtained, htransit]
      simp [chunks]
    rw [← flatten_chunks f.obtained, htaken, h.delivered] at heq
    have hplain := plain_of_flatten_eq heq
    intro chunk hchunk
    cases chunk with
    | nil => simp [Plain]
    | cons c data =>
        apply hplain
        rw [← htaken]
        exact List.mem_filter.mpr ⟨hchunk, by simp⟩
  · intro hplain
    exact (h.streams hplain).2 htransit

end Delivery

/-! ## The flows of a connection -/

/-- What `s` sends to its peer. -/
def Connection.flow (c : Connection) (s : Side) : Flow where
  obtained := (c.ends s).obtained
  transit := c.inTransit s
  delivered := (c.ends s.peer).delivered

theorem Side.forall_iff {P : Side → Prop} (s : Side) : (∀ s', P s') ↔ P s ∧ P s.peer := by
  constructor
  · exact fun h => ⟨h s, h s.peer⟩
  · rintro ⟨h, hpeer⟩ s'
    cases s <;> cases s' <;> assumption

theorem Side.eq_or_eq_peer (s s' : Side) : s' = s ∨ s' = s.peer := by
  cases s <;> cases s' <;> decide

/-- What a new endpoint has in common with the one it replaces is the same on both sides. -/
theorem setEnd_congr {α : Type} {f : Endpoint → α} {c : Connection} {s : Side} {e : Endpoint}
    (h : f e = f (c.ends s)) (s' : Side) : f ((c.setEnd s e).ends s') = f (c.ends s') := by
  rcases s.eq_or_eq_peer s' with rfl | rfl
  · rw [ends_setEnd_self, h]
  · rw [ends_setEnd_peer]

theorem length_stcpAppRecv_le (queue : List Bytes) (n : Nat) :
    (stcpAppRecv queue n).1.length ≤ n := by
  cases queue with
  | nil => exact Nat.zero_le n
  | cons w queue =>
      rw [stcpAppRecv_cons]
      exact List.length_take_le n w

theorem FlowStep.of_eq {f f' : Flow} (h : f' = f) : FlowStep f f' := by
  rw [h]
  exact .idle f

/-- What holds of a connection as long as nobody closes. -/
structure Connection.Ok (c : Connection) : Prop where
  isOpen : ∀ s, (c.ends s).Open
  flows : ∀ s, ∃ taken, (c.flow s).Ok taken

/-- Whatever waits for a loop fits into its buffer. -/
theorem Connection.Ok.queue {c : Connection} (h : c.Ok) (s : Side) :
    ∀ segment ∈ (c.ends s).networkRecvQueue, segment.length ≤ networkBufferSize := by
  intro segment hsegment
  obtain ⟨taken, hok⟩ := h.flows s.peer
  apply hok.size
  apply List.mem_append_left
  rwa [Side.peer_peer]

theorem Connection.Fresh.ok {c : Connection} (h : c.Fresh) : c.Ok := by
  refine ⟨fun s => (h.ends s).isOpen, fun s => ⟨[], ?_, ?_, ?_⟩⟩
  · simp [Connection.flow, Connection.inTransit, (h.ends s.peer).networkRecvQueue, h.inFlight s]
  · simp [Connection.flow, Connection.inTransit, (h.ends s.peer).networkRecvQueue, h.inFlight s,
      (h.ends s).obtained, chunks]
  · exact (h.ends s.peer).delivered

section Step

variable {o : Side → ByteOrder} {c : Connection}

theorem write_flow (s : Side) (data : Bytes) (s' : Side) :
    (c.setEnd s ((c.ends s).mywrite data)).flow s' = c.flow s' := by
  refine (Side.forall_iff (P := fun s' => Connection.flow _ s' = _) s).mpr ⟨?_, ?_⟩ s'
  · simp [Connection.flow, Connection.inTransit, Endpoint.mywrite]
  · simp [Connection.flow, Connection.inTransit, Endpoint.mywrite]

theorem arrive_flow {s : Side} {segment : Bytes} {segments : List Bytes}
    (h : c.inFlight s = segment :: segments) (s' : Side) :
    ((c.setInFlight s segments).setEnd s.peer ((c.ends s.peer).enqueue segment)).flow s'
      = c.flow s' := by
  refine (Side.forall_iff (P := fun s' => Connection.flow _ s' = _) s).mpr ⟨?_, ?_⟩ s'
  · simp [Connection.flow, Connection.inTransit, Endpoint.enqueue, h]
  · simp [Connection.flow, Connection.inTransit, Endpoint.enqueue]

theorem loop_flows {s : Side} {e : Endpoint} {sent : List Bytes} (hopen : (c.ends s).Open)
    (hsize : ∀ segment ∈ (c.ends s).networkRecvQueue, segment.length ≤ networkBufferSize)
    {stack : STCPHeader} (h : controlLoop (o s) stack (c.ends s) = .ok (e, sent)) :
    e.Open ∧ ∀ s', FlowStep (c.flow s')
      (((c.setEnd s e).setInFlight s (c.inFlight s ++ sent)).flow s') := by
  rcases controlLoop_cases hopen hsize h with hround | ⟨segment, queue, hqueue, hround⟩
  · refine ⟨hround.isOpen, (Side.forall_iff s).mpr ⟨?_, ?_⟩⟩
    · obtain ⟨header, hsent⟩ := hround.sent
      have hstep := FlowStep.send (o s) (c.flow s) header _
        (length_stcpAppRecv_le (c.ends s).appRecvQueue stcpMss)
      simpa [Connection.flow, Connection.inTransit, hround.obtained, hsent] using hstep
    · apply FlowStep.of_eq
      simp [Connection.flow, Connection.inTransit, hround.networkRecvQueue, hround.delivered]
  · refine ⟨hround.isOpen, (Side.forall_iff s).mpr ⟨?_, ?_⟩⟩
    · have hstep := FlowStep.ack (c.flow s) sent hround.sent
      have hobtained : e.obtained = (c.ends s).obtained := hround.obtained
      simpa [Connection.flow, Connection.inTransit, hobtained] using hstep
    · have hstep := FlowStep.take (c.ends s.peer).obtained (queue ++ c.inFlight s.peer)
        (c.ends s).delivered segment
      have hdelivered : e.delivered = (c.ends s).delivered ++ delivery segment := hround.delivered
      have hrest : e.networkRecvQueue = queue := hround.networkRecvQueue
      simpa [Connection.flow, Connection.inTransit, hdelivered, hrest, hqueue] using hstep

/-- **Every step is a step of both flows**, unless an application closes; one of the two may be left
alone. -/
theorem connectionStep_flows {c' : Connection} {i : Input} (hok : c.Ok)
    (hi : ∀ s, i ≠ .close s) (h : connectionStep o c i = .ok c') :
    (∀ s, (c'.ends s).Open) ∧ ∀ s, FlowStep (c.flow s) (c'.flow s) := by
  have hopen := hok.isOpen
  cases i with
  | close s => exact absurd rfl (hi s)
  | write s data =>
      cases h
      refine ⟨(Side.forall_iff s).mpr ⟨?_, ?_⟩, fun s' => .of_eq (write_flow s data s')⟩
      · rw [ends_setEnd_self]
        exact (hopen s).mywrite data
      · rw [ends_setEnd_peer]
        exact hopen s.peer
  | arrive s =>
      obtain ⟨segment, segments, hflight, rfl⟩ := connectionStep_arrive h
      refine ⟨(Side.forall_iff s).mpr ⟨?_, ?_⟩, fun s' => .of_eq (arrive_flow hflight s')⟩
      · rw [ends_setEnd_of_peer]
        exact hopen s
      · rw [ends_setEnd_self]
        exact (hopen s.peer).enqueue segment
  | loop s stack =>
      obtain ⟨e, sent, hloop, rfl⟩ := connectionStep_loop h
      obtain ⟨he, hflows⟩ := loop_flows (hopen s) (hok.queue s) hloop
      refine ⟨(Side.forall_iff s).mpr ⟨?_, ?_⟩, hflows⟩
      · rw [ends_setInFlight, ends_setEnd_self]
        exact he
      · rw [ends_setInFlight, ends_setEnd_peer]
        exact hopen s.peer

/-- **A step keeps both flows queues**, unless an application closes. -/
theorem connectionStep_ok {c' : Connection} {i : Input} (hok : c.Ok) (hi : ∀ s, i ≠ .close s)
    (h : connectionStep o c i = .ok c') : c'.Ok := by
  obtain ⟨hopen, hsteps⟩ := connectionStep_flows hok hi h
  refine ⟨hopen, fun s => ?_⟩
  obtain ⟨taken, hflow⟩ := hok.flows s
  exact (hsteps s).ok hflow

end Step

/-! ## Runs -/

/-- **Every run without a close keeps both flows queues**, from any state in which the endpoints
have just entered their loops. -/
theorem run_ok {o : Side → ByteOrder} {c t : Connection} {inputs : List Input} (hfresh : c.Fresh)
    (hclose : ∀ s, .close s ∉ inputs) (h : run (connectionStep o) c inputs = .ok t) : t.Ok := by
  revert hclose
  apply run_induction (P := fun inputs t => (∀ s, .close s ∉ inputs) → t.Ok) ?_ ?_ h
  · exact fun _ => hfresh.ok
  · intro inputs i t t' _ ih hstep hclose
    have hok := ih fun s hs => hclose s (List.mem_append_left _ hs)
    exact connectionStep_ok hok (fun s hs => hclose s (by simp [hs])) hstep

/-- No piece of at most `STCP_MSS` bytes, as they are cut off one after the other, has another
byte behind a NUL. -/
def PlainData (data : Bytes) : Prop := ∀ k, Plain (slice data (stcpMss * k) stcpMss)

theorem PlainData.take {data : Bytes} (h : PlainData data) : Plain (data.take stcpMss) := h 0

theorem PlainData.drop {data : Bytes} (h : PlainData data) : PlainData (data.drop stcpMss) := by
  intro k
  have hk := h (k + 1)
  rwa [slice, Nat.mul_succ, Nat.add_comm, ← List.drop_drop] at hk

/-- Nothing but plain pieces has been obtained from the application, or will be. -/
structure Endpoint.Plain (e : Endpoint) : Prop where
  appRecvQueue : ∀ w ∈ e.appRecvQueue, PlainData w
  obtained : ∀ chunk ∈ e.obtained, Lib.Plain chunk

theorem Endpoint.Plain.of_eq {e e' : Endpoint} (h : e.Plain)
    (happ : e'.appRecvQueue = e.appRecvQueue) (hobtained : e'.obtained = e.obtained) :
    e'.Plain :=
  ⟨by rw [happ]; exact h.appRecvQueue, by rw [hobtained]; exact h.obtained⟩

theorem Endpoint.Plain.mywrite {e : Endpoint} (h : e.Plain) {data : Bytes}
    (hdata : PlainData data) : (e.mywrite data).Plain := by
  refine ⟨?_, h.obtained⟩
  intro w hw
  rcases List.mem_append.mp hw with hw | hw
  · exact h.appRecvQueue w hw
  · exact List.mem_singleton.mp hw ▸ hdata

theorem Endpoint.Plain.obtains {o : ByteOrder} {e e' : Endpoint} {sent : List Bytes}
    (h : e.Plain) (hround : Obtains o e e' sent) : e'.Plain := by
  obtain ⟨w, queue, hqueue⟩ := List.exists_cons_of_ne_nil hround.pending
  have hw := h.appRecvQueue w (by simp [hqueue])
  have hrecv := stcpAppRecv_cons w queue stcpMss
  rw [← hqueue] at hrecv
  constructor
  · rw [hround.appRecvQueue, hrecv]
    intro w' hw'
    dsimp only at hw'
    split at hw'
    · rcases List.mem_cons.mp hw' with rfl | hw'
      · exact hw.drop
      · exact h.appRecvQueue w' (by simp [hqueue, hw'])
    · exact h.appRecvQueue w' (by simp [hqueue, hw'])
  · rw [hround.obtained, hrecv]
    intro chunk hchunk
    rcases List.mem_append.mp hchunk with hchunk | hchunk
    · exact h.obtained chunk hchunk
    · exact List.mem_singleton.mp hchunk ▸ hw.take

theorem connectionStep_plain {o : Side → ByteOrder} {c c' : Connection} {i : Input} (hok : c.Ok)
    (hi : ∀ s, i ≠ .close s) (hdata : ∀ s data, i = .write s data → PlainData data)
    (h : connectionStep o c i = .ok c') (hplain : ∀ s, (c.ends s).Plain) :
    ∀ s, (c'.ends s).Plain := by
  cases i with
  | close s => exact absurd rfl (hi s)
  | write s data =>
      cases h
      refine (Side.forall_iff s).mpr ⟨?_, ?_⟩
      · rw [ends_setEnd_self]
        exact (hplain s).mywrite (hdata s data rfl)
      · rw [ends_setEnd_peer]
        exact hplain s.peer
  | arrive s =>
      obtain ⟨segment, segments, -, rfl⟩ := connectionStep_arrive h
      refine (Side.forall_iff s).mpr ⟨?_, ?_⟩
      · rw [ends_setEnd_of_peer]
        exact hplain s
      · rw [ends_setEnd_self]
        exact (hplain s.peer).of_eq rfl rfl
  | loop s stack =>
      obtain ⟨e, sent, hloop, rfl⟩ := connectionStep_loop h
      refine (Side.forall_iff s).mpr ⟨?_, ?_⟩
      · rw [ends_setInFlight, ends_setEnd_self]
        -- obtaining a piece of a plain write leaves a plain rest
        rcases controlLoop_cases (hok.isOpen s) (hok.queue s) hloop with
          hround | ⟨segment, queue, -, hround⟩
        · exact (hplain s).obtains hround
        · exact (hplain s).of_eq hround.appRecvQueue hround.obtained
      · rw [ends_setInFlight, ends_setEnd_peer]
        exact hplain s.peer

theorem run_plain {o : Side → ByteOrder} {c t : Connection} {inputs : List Input} (hfresh : c.Fresh)
    (hclose : ∀ s, .close s ∉ inputs) (hdata : ∀ s data, .write s data ∈ inputs → PlainData data)
    (h : run (connectionStep o) c inputs = .ok t) : ∀ s, (t.ends s).Plain := by
  revert hclose hdata
  apply run_induction (P := fun inputs t => (∀ s, .close s ∉ inputs) →
    (∀ s data, .write s data ∈ inputs → PlainData data) → ∀ s, (t.ends s).Plain) ?_ ?_ h
  · intro _ _ s
    have hs := hfresh.ends s
    refine ⟨?_, ?_⟩
    · simp [hs.appRecvQueue]
    · simp [hs.obtained]
  · intro inputs i t t' hrun ih hstep hclose hdata
    have hclose' : ∀ s, .close s ∉ inputs := fun s hs => hclose s (List.mem_append_left _ hs)
    have hplain := ih hclose' fun s data hs => hdata s data (List.mem_append_left _ hs)
    apply connectionStep_plain (run_ok hfresh hclose' hrun) ?_ ?_ hstep hplain
    · exact fun s hs => hclose s (by simp [hs])
    · exact fun s data hs => hdata s data (by simp [hs])

/-! ## Integrity

If no piece has another byte behind a NUL, nothing is cleared, and the two streams agree as far as
the second one goes. -/

/-- In both directions, what has been delivered is a beginning of what has been obtained, and all
of it when nothing is in transit. -/
def StreamIntegrity (c : Connection) : Prop :=
  ∀ s, (c.flow s).delivered.flatten <+: (c.flow s).obtained.flatten ∧
    ((c.flow s).transit = [] → (c.flow s).delivered.flatten = (c.flow s).obtained.flatten)

/-- **Data that is plain in every piece is delivered unchanged**, in every run in which nobody
closes. -/
theorem streamIntegrity_of_plainData (o : Side → ByteOrder) (c t : Connection) (inputs : List Input)
    (hfresh : c.Fresh) (hclose : ∀ s, .close s ∉ inputs)
    (hdata : ∀ s data, .write s data ∈ inputs → PlainData data)
    (h : run (connectionStep o) c inputs = .ok t) : StreamIntegrity t := by
  intro s
  obtain ⟨taken, hok⟩ := (run_ok hfresh hclose h).flows s
  exact hok.streams (run_plain hfresh hclose hdata h s).obtained

/-- A connection at the start. -/
def quietConnection : Connection where
  ends _ :=
    { acknowledgedByte := 0, nextExpectedByte := 0, sequenceNumber := 0
      connectionState := .established, done := false, header := .zero
      networkBuffer := List.replicate networkBufferSize 0, recvFin := false
      appRecvQueue := [], networkRecvQueue := [], closeRequested := false, finReceived := false
      obtained := [], delivered := [] }
  inFlight _ := []

theorem quietConnection_fresh : quietConnection.Fresh := by
  refine ⟨fun s => ⟨⟨rfl, rfl, rfl, by simp [quietConnection], ?_⟩, rfl, rfl, rfl, rfl⟩,
    fun s => rfl⟩
  exact List.length_replicate

/-- Two little-endian hosts. -/
def littleEndian : Side → ByteOrder := fun _ => .little

/-- The client's application writes `data`, and it is brought to the server. -/
def oneWrite (data : Bytes) : List Input :=
  [.write .client data, .loop .client .zero, .arrive .client, .loop .server .zero]

theorem plainData_of_length_le {data : Bytes} (h : Plain data) (hlen : data.length ≤ stcpMss) :
    PlainData data := by
  intro k
  cases k with
  | zero =>
      rw [slice, Nat.mul_zero, List.drop_zero, List.take_of_length_le hlen]
      exact h
  | succ k =>
      have hnil : data.drop (stcpMss * (k + 1)) = [] := by
        apply List.drop_eq_nil_of_le
        rw [Nat.mul_succ]
        omega
      rw [slice, hnil]
      simp [Plain]

/-- A string with its NUL, and one without. -/
theorem streamIntegrity_of_plainData_oneWrite :
    (∃ t, run (connectionStep littleEndian) quietConnection (oneWrite [65, 66, 0]) = .ok t ∧
      (t.flow .client).delivered = [[65, 66, 0]] ∧ StreamIntegrity t) ∧
    ∃ t, run (connectionStep littleEndian) quietConnection (oneWrite [72, 105]) = .ok t ∧
      (t.flow .client).delivered = [[72, 105]] ∧ StreamIntegrity t := by
  have hwrite : ∀ data t, PlainData data →
      run (connectionStep littleEndian) quietConnection (oneWrite data) = .ok t →
        StreamIntegrity t := by
    intro data t hdata hrun
    refine streamIntegrity_of_plainData littleEndian quietConnection t (oneWrite data)
      quietConnection_fresh (by simp [oneWrite]) ?_ hrun
    intro s data' hmem
    obtain ⟨-, rfl⟩ : s = .client ∧ data' = data := by simpa [oneWrite] using hmem
    exact hdata
  have hnul : ∃ t,
      run (connectionStep littleEndian) quietConnection (oneWrite [65, 66, 0]) = .ok t ∧
      decide ((t.flow .client).delivered = [[65, 66, 0]]) = true :=
    exists_ok_of_check (by decide +kernel)
  have htext : ∃ t,
      run (connectionStep littleEndian) quietConnection (oneWrite [72, 105]) = .ok t ∧
      decide ((t.flow .client).delivered = [[72, 105]]) = true :=
    exists_ok_of_check (by decide +kernel)
  obtain ⟨t, hrun, hdelivered⟩ := hnul
  obtain ⟨t', hrun', hdelivered'⟩ := htext
  exact ⟨⟨t, hrun, of_decide_eq_true hdelivered,
      hwrite _ t (plainData_of_length_le (by decide +kernel) (by decide)) hrun⟩,
    t', hrun', of_decide_eq_true hdelivered',
    hwrite _ t' (plainData_of_length_le (by decide +kernel) (by decide)) hrun'⟩

/-- A byte behind a NUL is lost. -/
theorem not_streamIntegrity_zero_inside : quietConnection.Fresh ∧
    (∀ s, .close s ∉ oneWrite [65, 0, 66]) ∧ ∃ t,
      run (connectionStep littleEndian) quietConnection (oneWrite [65, 0, 66]) = .ok t ∧
        ¬ StreamIntegrity t := by
  have hrun : ∃ t,
      run (connectionStep littleEndian) quietConnection (oneWrite [65, 0, 66]) = .ok t ∧
      decide ((t.flow .client).delivered = [[65, 0, 0]] ∧
        (t.flow .client).obtained = [[65, 0, 66]]) = true :=
    exists_ok_of_check (by decide +kernel)
  obtain ⟨t, hrun, hflow⟩ := hrun
  obtain ⟨hdelivered, hobtained⟩ := of_decide_eq_true hflow
  refine ⟨quietConnection_fresh, by simp [oneWrite], t, hrun, ?_⟩
  intro h
  have hgrows := (h .client).1
  rw [hdelivered, hobtained] at hgrows
  exact absurd hgrows (by decide)

end NetworkProjects.Transport
