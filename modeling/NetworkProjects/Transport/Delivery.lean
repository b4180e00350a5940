import NetworkProjects.Transport.Close

/-!
# What becomes of the data

Data that an endpoint takes is handed on, counted and acknowledged, also when the endpoint has
been asked to close: as long as it has not sent its FIN, or has got an answer to it. In between
it takes one segment without looking at it (`nothingSwallowed_iff`).
-/

namespace NetworkProjects.Transport

open NetworkProjects.Lib

/-! ## Sizes

A segment that is longer than the buffer would be cut off. The loop sends none, so none arrives. -/

/-- Whatever is in transit fits into the buffers. -/
structure Connection.Sized (c : Connection) : Prop where
  transit : ∀ s, ∀ segment ∈ c.inTransit s, segment.length ≤ networkBufferSize
  buffer : ∀ s, (c.ends s).networkBuffer.length = networkBufferSize

theorem Connection.Fresh.sized {c : Connection} (h : c.Fresh) : c.Sized := by
  refine ⟨fun s => ?_, fun s => (h.ends s).isOpen.buffer⟩
  simp [Connection.inTransit, (h.ends s.peer).networkRecvQueue, h.inFlight s]

section Round

variable {o : ByteOrder} {e e' : Endpoint} {sent : List Bytes}

/-- A round of an endpoint that only takes what fits. -/
structure SizedRound (e e' : Endpoint) (sent : List Bytes) : Prop where
  sent : ∀ segment ∈ sent, segment.length ≤ networkBufferSize
  queue : ∀ segment ∈ e'.networkRecvQueue, segment ∈ e.networkRecvQueue
  buffer : e'.networkBuffer.length = networkBufferSize

theorem Round.sized (h : Round o e e' sent)
    (hqueue : ∀ segment ∈ e.networkRecvQueue, segment.length ≤ networkBufferSize)
    (hbuffer : e.networkBuffer.length = networkBufferSize) : SizedRound e e' sent := by
  cases h with
  | data =>
      refine ⟨?_, fun segment hsegment => hsegment, hbuffer⟩
      intro segment hsegment
      have hchunk := (length_stcpAppRecv_le e.appRecvQueue
        (min e.openWindow.header.thWin.toNat stcpMss)).trans (Nat.min_le_right _ _)
      rw [List.mem_singleton.mp hsegment, List.length_append, length_toBytes]
      exact Nat.add_le_add_left hchunk headerSize
  | take segment queue _ _ _ _ _ htake htaken =>
      refine ⟨?_, ?_, ?_⟩
      · intro ack hack
        obtain ⟨header, rfl, -⟩ := htaken.acks ack hack
        rw [length_toBytes]
        decide
      · intro x hx
        rw [htaken.networkRecvQueue] at hx
        rw [htake]
        exact List.mem_cons_of_mem _ hx
      · exact (htaken.buffered (hqueue segment (by simp [htake])) hbuffer).1
  | close =>
      refine ⟨?_, fun segment hsegment => hsegment, hbuffer⟩
      intro segment hsegment
      rw [List.mem_singleton.mp hsegment, length_toBytes]
      decide
  | acknowledged segment queue _ htake =>
      obtain ⟨state, done, heq⟩ := finAcknowledged_eq (e := e.dequeue queue)
      rw [heq]
      refine ⟨by simp, ?_, hbuffer⟩
      intro x hx
      rw [htake]
      exact List.mem_cons_of_mem _ hx

end Round

section Step

variable {o : Side → ByteOrder} {c t : Connection} {inputs : List Input}

theorem connectionStep_sized {c' : Connection} {i : Input} (hsized : c.Sized)
    (h : connectionStep o c i = .ok c') : c'.Sized := by
  cases i with
  | write s data =>
      cases h
      refine ⟨fun s' => ?_, fun s' => ?_⟩
      · show ∀ segment ∈ (Connection.flow _ s').transit, _
        rw [write_flow]
        exact hsized.transit s'
      · rw [setEnd_congr (f := Endpoint.networkBuffer) (e := (c.ends s).mywrite data) rfl]
        exact hsized.buffer s'
  | close s =>
      cases h
      refine ⟨fun s' => ?_, fun s' => ?_⟩
      · rw [Connection.inTransit, inFlight_setEnd,
          setEnd_congr (f := Endpoint.networkRecvQueue) (e := (c.ends s).myclose) rfl]
        exact hsized.transit s'
      · rw [setEnd_congr (f := Endpoint.networkBuffer) (e := (c.ends s).myclose) rfl]
        exact hsized.buffer s'
  | arrive s =>
      obtain ⟨segment, segments, hflight, rfl⟩ := connectionStep_arrive h
      refine ⟨fun s' => ?_, fun s' => ?_⟩
      · show ∀ segment ∈ (Connection.flow _ s').transit, _
        rw [arrive_flow hflight]
        exact hsized.transit s'
      · rw [setEnd_congr (f := Endpoint.networkBuffer) (c := c.setInFlight s segments)
          (e := (c.ends s.peer).enqueue segment) rfl]
        exact hsized.buffer s'
  | loop s stack =>
      obtain ⟨e, sent, hloop, rfl⟩ := connectionStep_loop h
      have hqueued : ∀ segment ∈ (c.ends s).networkRecvQueue,
          segment.length ≤ networkBufferSize := by
        intro segment hsegment
        exact hsized.transit s.peer segment (by simp [Connection.inTransit, hsegment])
      -- a round leaves no more in the queue than it found, and what it sends is small
      have hround := (controlLoop_round hloop).sized hqueued (hsized.buffer s)
      refine ⟨(Side.forall_iff s).mpr ⟨?_, ?_⟩, (Side.forall_iff s).mpr ⟨?_, ?_⟩⟩
      · intro segment hsegment
        have hmem : segment ∈ c.inTransit s ∨ segment ∈ sent := by
          simpa [Connection.inTransit, or_assoc] using hsegment
        exact hmem.elim (hsized.transit s segment) (hround.sent segment)
      · intro segment hsegment
        have hmem : segment ∈ e.networkRecvQueue ∨ segment ∈ c.inFlight s.peer := by
          simpa [Connection.inTransit] using hsegment
        apply hsized.transit s.peer
        rw [Connection.inTransit, Side.peer_peer]
        exact List.mem_append.mpr (hmem.imp_left (hround.queue segment))
      · simpa using hround.buffer
      · simpa using hsized.buffer s.peer

theorem run_sized (hfresh : c.Fresh) (h : run (connectionStep o) c inputs = .ok t) : t.Sized := by
  apply run_induction (P := fun _ t => t.Sized) hfresh.sized ?_ h
  exact fun _ _ _ _ _ hsized hstep => connectionStep_sized hsized hstep

end Step

/-! ## Data that is taken

A segment can be taken by the loop, or by the receive that waits for the answer to a FIN; only the
first hands on its data. -/

/-- The segment carries data, and none of it is zero. -/
structure DataSegment (segment : Bytes) : Prop where
  data : payload segment ≠ []
  nonzero : 0 ∉ payload segment

instance (segment : Bytes) : Decidable (DataSegment segment) :=
  decidable_of_iff (payload segment ≠ [] ∧ 0 ∉ payload segment)
    ⟨fun h => ⟨h.1, h.2⟩, fun h => ⟨h.1, h.2⟩⟩

/-- All data of the segment has been handed on, counted and acknowledged. -/
structure Received (segment : Bytes) (e e' : Endpoint) (sent : List Bytes) : Prop where
  delivered : e'.delivered = e.delivered ++ [payload segment]
  nextExpectedByte :
    e'.nextExpectedByte = e.nextExpectedByte + UInt32.ofNat (payload segment).length
  acknowledged : ∃ ack ∈ sent, wireFlags ack = thAck ∧ wireAck ack = e'.nextExpectedByte

/-- **No data is swallowed**: every data segment that a step takes is received. -/
def NothingSwallowed (o : Side → ByteOrder) (c : Connection) (inputs : List Input) : Prop :=
  Along (connectionStep o) c (fun _ t i => ∀ s stack e sent segment, i = .loop s stack →
    controlLoop (o s) stack (t.ends s) = .ok (e, sent) →
    (t.ends s).networkRecvQueue = segment :: e.networkRecvQueue → DataSegment segment →
    Received segment (t.ends s) e sent) inputs

/-- No endpoint takes data for the answer to its FIN. -/
def NoSwallowedData (_ : List Input) (t : Connection) (i : Input) : Prop :=
  ∀ s stack, i = .loop s stack → (t.ends s).recvFin = true →
    ∀ segment ∈ (t.ends s).networkRecvQueue.head?, ¬ DataSegment segment

section Data

variable {o : Side → ByteOrder} {c t : Connection} {inputs : List Input}

theorem plain_of_nonzero {s : Bytes} (h : 0 ∉ s) : Plain s := by
  have hall : s.dropWhile (· ≠ 0) = [] := by
    rw [List.dropWhile_eq_nil_iff]
    intro c hc
    have hne : c ≠ 0 := fun hzero => h (hzero ▸ hc)
    simpa using hne
  rw [Plain, hall]
  simp

/-- Without a close of its own on the way, a round receives the data that it takes. -/
theorem Round.received {o : ByteOrder} {e e' : Endpoint} {sent : List Bytes} {segment : Bytes}
    (h : Round o e e' sent) (hsize : segment.length ≤ networkBufferSize)
    (hbuffer : e.networkBuffer.length = networkBufferSize) (hwaiting : e.recvFin = false)
    (htake : e.networkRecvQueue = segment :: e'.networkRecvQueue) (hdata : DataSegment segment) :
    Received segment e e' sent := by
  cases h with
  | data => exact absurd (congrArg List.length htake) (by simp [appData, Endpoint.openWindow])
  | take taken queue _ _ _ _ _ hqueue htaken =>
      have hrest : e'.networkRecvQueue = queue := htaken.networkRecvQueue
      rw [hrest, hqueue] at htake
      cases htake
      obtain ⟨ack, hack, hnumber⟩ := htaken.answered hdata.data
      obtain ⟨header, rfl, hflags⟩ := htaken.acks ack hack
      refine ⟨?_, htaken.nextExpectedByte, _, hack, by rw [wireFlags_header, hflags], hnumber⟩
      rw [(htaken.buffered hsize hbuffer).2, delivery, if_neg hdata.data,
        clearBehindNul_eq_self.mpr (plain_of_nonzero hdata.nonzero)]
      rfl
  | close => exact absurd (congrArg List.length htake) (by simp [appClose, Endpoint.openWindow])
  | acknowledged _ _ hwaits =>
      rw [hwaiting] at hwaits
      cases hwaits

theorem NothingSwallowed.noSwallowedData (h : NothingSwallowed o c inputs) :
    Along (connectionStep o) c NoSwallowedData inputs := by
  refine h.imp ?_
  rintro past _ t _ _ hreceived s stack rfl hwaiting segment hhead hdata
  obtain ⟨queue, hqueue⟩ : ∃ queue, (t.ends s).networkRecvQueue = segment :: queue :=
    List.head?_eq_some_iff.mp hhead
  have hround := controlLoop_waiting (o s) stack hwaiting hqueue
  obtain ⟨state, done, heq⟩ := finAcknowledged_eq (e := (t.ends s).dequeue queue)
  obtain ⟨ack, hack, -⟩ := (hreceived s stack _ _ segment rfl hround
    (by rw [heq]; exact hqueue) hdata).acknowledged
  cases hack

/-- **Exactly when no data is swallowed**: no endpoint takes data for the answer to its FIN. -/
theorem nothingSwallowed_iff (o : Side → ByteOrder) (c : Connection) (inputs : List Input)
    (hfresh : c.Fresh) :
    NothingSwallowed o c inputs ↔ Along (connectionStep o) c NoSwallowedData inputs := by
  constructor
  · exact NothingSwallowed.noSwallowedData
  · intro h
    refine h.imp ?_
    rintro past _ t ht _ hclean s stack e sent segment rfl hloop htake hdata
    have hsized := run_sized hfresh ht
    have hhead : segment ∈ (t.ends s).networkRecvQueue.head? := by
      rw [htake]
      rfl
    refine (controlLoop_round hloop).received ?_ (hsized.buffer s) ?_ htake hdata
    · apply hsized.transit s.peer
      rw [Connection.inTransit, Side.peer_peer, htake]
      simp
    · by_contra hwaiting
      exact hclean s stack rfl (by simpa using hwaiting) segment hhead hdata

end Data

/-- The server gets data, and then both close. -/
def writeAndClose : List Input :=
  oneWrite [65, 66] ++ [.arrive .server, .loop .client .zero] ++ closeInTurn

theorem nothingSwallowed_iff_writeAndClose :
    (∃ t, run (connectionStep littleEndian) quietConnection writeAndClose = .ok t ∧
      (t.ends .server).delivered = [[65, 66]]) ∧
    NothingSwallowed littleEndian quietConnection writeAndClose := by
  constructor
  · have hrun : ∃ t, run (connectionStep littleEndian) quietConnection writeAndClose = .ok t ∧
        decide ((t.ends .server).delivered = [[65, 66]]) = true :=
      exists_ok_of_check (by decide +kernel)
    obtain ⟨t, hrun, hdelivered⟩ := hrun
    exact ⟨t, hrun, of_decide_eq_true hdelivered⟩
  · apply (nothingSwallowed_iff littleEndian quietConnection writeAndClose
      quietConnection_fresh).mpr
    have hcheck : alongCheck (connectionStep littleEndian)
        (loopCheck fun e => decide (e.recvFin = true →
          ∀ segment ∈ e.networkRecvQueue.head?, ¬ DataSegment segment))
        quietConnection writeAndClose = true := by
      decide +kernel
    refine (along_of_check hcheck).imp ?_
    rintro past _ t _ _ hloop s stack rfl
    exact of_decide_eq_true hloop

/-- The server writes before it has got the client's FIN. -/
def writeAgainstFin : List Input :=
  [.close .client, .loop .client .zero, .write .server [65], .loop .server .zero,
    .arrive .server, .loop .client .zero]

/-- The client takes the data for the answer to its FIN. -/
theorem not_nothingSwallowed_writeAgainstFin : quietConnection.Established ∧
    ¬ NothingSwallowed littleEndian quietConnection writeAgainstFin := by
  refine ⟨quietConnection_established, ?_⟩
  have hrun : ∃ t, run (connectionStep littleEndian) quietConnection (writeAgainstFin.take 5)
        = .ok t ∧
      decide ((t.ends .client).recvFin = true ∧
        ∃ segment ∈ (t.ends .client).networkRecvQueue.head?, DataSegment segment) = true :=
    exists_ok_of_check (by decide +kernel)
  obtain ⟨t, hrun, htaken⟩ := hrun
  obtain ⟨hwaiting, segment, hhead, hdata⟩ := of_decide_eq_true htaken
  refine mt NothingSwallowed.noSwallowedData (Happens.not_along ?_)
  refine ⟨_, .loop .client .zero, [], t, rfl, hrun, ?_⟩
  exact fun hclean => hclean .client .zero rfl hwaiting segment hhead hdata

end NetworkProjects.Transport
