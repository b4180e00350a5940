import NetworkProjects.Transport.Connection

/-!
# A round of the loop

What one round of `control_loop` can do, closing included: it sends a piece of what the
application has written, it takes a segment, it sends the FIN and waits, or it takes whatever
arrives while it waits (`controlLoop_round`). What taking a segment does is collected in `Taken`.
-/

namespace NetworkProjects.Transport

open NetworkProjects.Lib

/-- What `NETWORK_DATA` takes for a FIN. -/
def isFin (segment : Bytes) : Bool :=
  wireFlags segment = thFin ∨ wireFlags segment = thFin + thAck

theorem isFin_of_ack {segment : Bytes} (h : wireFlags segment = thAck) : isFin segment = false := by
  rw [isFin, h]
  decide

/-! ## Taking a segment -/

/-- `NETWORK_DATA` has taken `segment`. -/
structure Taken (o : ByteOrder) (segment : Bytes) (e e' : Endpoint) (sent : List Bytes) : Prop where
  size : headerSize ≤ segment.length
  recvFin : e'.recvFin = e.recvFin
  closeRequested : e'.closeRequested = e.closeRequested
  appRecvQueue : e'.appRecvQueue = e.appRecvQueue
  networkRecvQueue : e'.networkRecvQueue = e.networkRecvQueue
  obtained : e'.obtained = e.obtained
  sequenceNumber : e'.sequenceNumber = e.sequenceNumber
  nextExpectedByte :
    e'.nextExpectedByte = e.nextExpectedByte + UInt32.ofNat (payload segment).length
  done : e'.done = (e.done || (isFin segment && decide (e.connectionState = .finWait1)))
  connectionState : e'.connectionState =
    if isFin segment ∧ e.connectionState ≠ .finWait1 then .finWait2 else e.connectionState
  /-- Nothing but acknowledgements is sent. -/
  acks : ∀ ack ∈ sent, ∃ header : STCPHeader, ack = header.toBytes o ∧ header.thFlags = thAck
  answered : payload segment ≠ [] → ∃ ack ∈ sent, wireAck ack = e'.nextExpectedByte
  finAnswered : isFin segment → sent ≠ []
  buffered : segment.length ≤ networkBufferSize → e.networkBuffer.length = networkBufferSize →
    e'.networkBuffer.length = networkBufferSize ∧ e'.delivered = e.delivered ++ delivery segment

section Branches

variable {o : ByteOrder} {stack : STCPHeader} {e e' : Endpoint} {sent : List Bytes}

/-- The flags stand within the buffer. -/
theorem wireFlags_buffer {segment : Bytes} (h : headerSize ≤ segment.length) (old : Bytes) :
    byteAt (segment.take networkBufferSize ++ old) 13 = wireFlags segment := by
  rw [byteAt_append_left, byteAt_take (by decide), wireFlags]
  rw [List.length_take]
  exact lt_min (by decide) (Nat.lt_of_lt_of_le (by decide) h)

/-- What `NETWORK_DATA` does before it looks for a FIN. Data is acknowledged as a whole. -/
theorem takeData_takeAck (o : ByteOrder) (stack : STCPHeader) (e : Endpoint) (data : Bytes) :
    ∃ win ack acks, takeData o stack data (takeAck o e) =
      ({ e with
          header := { e.header with thWin := win }
          acknowledgedByte := ack
          delivered := e.delivered ++ (if data = [] then [] else [data])
          nextExpectedByte := e.nextExpectedByte + UInt32.ofNat data.length }, acks) ∧
      (∀ ack ∈ acks, ∃ header : STCPHeader, ack = header.toBytes o ∧ header.thFlags = thAck) ∧
      (data ≠ [] →
        ∃ ack ∈ acks, wireAck ack = e.nextExpectedByte + UInt32.ofNat data.length) := by
  have hack : ∃ win ack, takeAck o e
      = { e with header := { e.header with thWin := win }, acknowledgedByte := ack } := by
    unfold takeAck
    split
    · exact ⟨_, _, rfl⟩
    · exact ⟨e.header.thWin, e.acknowledgedByte, rfl⟩
  obtain ⟨win, ack, hack⟩ := hack
  rw [hack]
  cases data with
  | nil => exact ⟨win, ack, [], by simp [takeData], by simp, by simp⟩
  | cons c data =>
      refine ⟨win, ack, _, rfl, ?_, ?_⟩
      · intro ack hmem
        exact ⟨_, List.mem_singleton.mp hmem, rfl⟩
      · intro _
        refine ⟨_, List.mem_singleton_self _, ?_⟩
        rw [wireAck_header]
        exact ByteOrder.ntohl_htonl o _

theorem takeFin_eq : takeFin o stack e =
    if e.header.thFlags = thFin ∨ e.header.thFlags = thFin + thAck then
      ({ e with
          done := e.done || decide (e.connectionState = .finWait1)
          connectionState := if e.connectionState ≠ .finWait1 then .finWait2 else .finWait1
          finReceived := true },
        [({ stack with
          thFlags := thAck, thSeq := o.htonl e.sequenceNumber
          thAck := o.htonl e.nextExpectedByte } : STCPHeader).toBytes o])
    else (e, []) := by
  unfold takeFin
  split
  · cases hstate : e.connectionState with
    | established => simp
    | finWait1 => simp
    | finWait2 => simp
  · rfl

/-- **What `NETWORK_DATA` does** with the segment it takes: the data goes to the application and is
acknowledged, a FIN is acknowledged and noted, and nothing else is sent. Every field that is left
alone is listed, so that a proof about a run need not look at the branch again. -/
theorem networkData_taken {segment : Bytes} (h : networkData o stack segment e = .ok (e', sent)) :
    Taken o segment e e' sent := by
  unfold networkData at h
  split at h
  · cases h
  · next hsize =>
    have hsize := Nat.not_lt.mp hsize
    simp only at h
    split at h
    · cases h
    · next data hcopy =>
      -- `strncpy` gives a chunk as long as the payload, whatever the bytes are
      have hlength : data.length = (payload segment).length := by
        rw [length_of_strncpy hcopy, payload, List.length_drop]
      have hempty : payload segment = [] ↔ data = [] := by
        rw [← List.length_eq_zero_iff, ← hlength, List.length_eq_zero_iff]
      -- for a segment that fits the buffer the chunk is the payload up to its terminator
      have hbuffered : segment.length ≤ networkBufferSize →
          e.networkBuffer.length = networkBufferSize →
          (segment.take networkBufferSize ++ e.networkBuffer.drop segment.length).length
              = networkBufferSize ∧
            (if data = [] then [] else [data]) = delivery segment := by
        intro hfits hold
        obtain ⟨hlen, hpayload⟩ := strncpy_payload hfits hold
        rw [hpayload] at hcopy
        cases hcopy
        exact ⟨hlen, by simp only [delivery, hempty]⟩
      generalize hbuffer : segment.take networkBufferSize
        ++ e.networkBuffer.drop segment.length = buffer at h hbuffered
      -- the header is read from the buffer, and its flags are those on the wire
      have hflags : (STCPHeader.ofBytes o buffer).thFlags = wireFlags segment := by
        rw [← hbuffer]
        exact wireFlags_buffer hsize _
      obtain ⟨win, ack, acks, hanswer, hacked, hanswered⟩ := takeData_takeAck o
        stack { e with networkBuffer := buffer, header := .ofBytes o buffer } data
      simp only [hanswer, takeFin_eq, hflags] at h
      simp only [hlength, ← hempty.not] at h hanswered
      split at h
      · -- a FIN is acknowledged on its own, behind the acknowledgement of the data
        next hfin =>
        have hisFin : isFin segment = true := by simpa [isFin] using hfin
        cases h
        refine ⟨hsize, rfl, rfl, rfl, rfl, rfl, rfl, rfl, ?_, ?_, ?_, ?_, ?_, ?_⟩
        · simp [hisFin]
        · cases hstate : e.connectionState with
          | established => simp [hisFin]
          | finWait1 => simp
          | finWait2 => simp
        · intro ack hmem
          rcases List.mem_append.mp hmem with hmem | hmem
          · exact hacked ack hmem
          · exact ⟨_, List.mem_singleton.mp hmem, rfl⟩
        · intro hdata
          obtain ⟨ack, hmem, hnumber⟩ := hanswered hdata
          exact ⟨ack, List.mem_append_left _ hmem, hnumber⟩
        · simp
        · intro hfits hold
          obtain ⟨hlen, hdelivery⟩ := hbuffered hfits hold
          exact ⟨hlen, by rw [← hdelivery]⟩
      · next hfin =>
        have hisFin : isFin segment = false := by simpa [isFin] using hfin
        cases h
        refine ⟨hsize, rfl, rfl, rfl, rfl, rfl, rfl, rfl, ?_, ?_, ?_, ?_, ?_, ?_⟩
        · simp [hisFin]
        · simp [hisFin]
        · simpa using hacked
        · simpa using hanswered
        · simp [hisFin]
        · intro hfits hold
          obtain ⟨hlen, hdelivery⟩ := hbuffered hfits hold
          exact ⟨hlen, by rw [← hdelivery]⟩

/-- The end of a close changes the state only. -/
theorem finAcknowledged_eq : ∃ state done, finAcknowledged e
    = { e with recvFin := false, connectionState := state, done } := by
  simp only [finAcknowledged]
  split
  · exact ⟨e.connectionState, true, rfl⟩
  · exact ⟨.finWait1, e.done, rfl⟩

/-! ## Rounds -/

/-- What a round of the loop can be. -/
inductive Round (o : ByteOrder) (e : Endpoint) : Endpoint → List Bytes → Prop
  /-- `APP_DATA`. -/
  | data : e.recvFin = false → e.done = false → e.appRecvQueue ≠ [] →
      Round o e (appData o e.openWindow).1 (appData o e.openWindow).2
  /-- `NETWORK_DATA`. A request to close that is reported together with the segment is lost. -/
  | take (segment : Bytes) (queue : List Bytes) (e' : Endpoint) (sent : List Bytes) :
      e.recvFin = false → e.done = false → e.appRecvQueue = [] →
      e.networkRecvQueue = segment :: queue →
      Taken o segment ({ e.openWindow with closeRequested := false }.dequeue queue) e' sent →
      Round o e e' sent
  /-- `APP_CLOSE_REQUESTED`, up to the receive. -/
  | close : e.recvFin = false → e.done = false → e.appRecvQueue = [] →
      e.networkRecvQueue = [] → e.closeRequested = true →
      Round o e (appClose o { e.openWindow with closeRequested := false }).1
        (appClose o { e.openWindow with closeRequested := false }).2
  /-- The receive of `APP_CLOSE_REQUESTED`. -/
  | acknowledged (segment : Bytes) (queue : List Bytes) : e.recvFin = true →
      e.networkRecvQueue = segment :: queue → Round o e (finAcknowledged (e.dequeue queue)) []

/-- What the application has written goes first. -/
theorem controlLoop_data (o : ByteOrder) (stack : STCPHeader) (hwaiting : e.recvFin = false)
    (hdone : e.done = false) (happ : e.appRecvQueue ≠ []) :
    controlLoop o stack e = .ok (appData o e.openWindow) := by
  obtain ⟨w, writes, hwrites⟩ := List.exists_cons_of_ne_nil happ
  simp [controlLoop, stcpWaitForEvent, Endpoint.openWindow, hwaiting, hdone, hwrites]

/-- While the endpoint waits, it takes what comes first. -/
theorem controlLoop_waiting (o : ByteOrder) (stack : STCPHeader) {segment : Bytes}
    {queue : List Bytes} (hwaiting : e.recvFin = true)
    (hqueue : e.networkRecvQueue = segment :: queue) :
    controlLoop o stack e = .ok (finAcknowledged (e.dequeue queue), []) := by
  simp [controlLoop, hwaiting, hqueue]

/-- **What a round can do**: one of the three events, in the order in which the loop looks for them,
or the receive that follows its own FIN. -/
theorem controlLoop_round (h : controlLoop o stack e = .ok (e', sent)) : Round o e e' sent := by
  cases hwait : e.recvFin with
  | true =>
      simp only [controlLoop, hwait, if_true] at h
      split at h
      · cases h
      · next segment queue hqueue =>
        cases h
        exact .acknowledged segment queue hwait hqueue
  | false =>
      cases hdone : e.done with
      | true => simp [controlLoop, hwait, hdone] at h
      | false =>
          cases hwrites : e.appRecvQueue with
          | cons w writes =>
              have happ : e.appRecvQueue ≠ [] := by simp [hwrites]
              have hdata := Round.data (o := o) hwait hdone happ
              rw [controlLoop_data o stack hwait hdone happ] at h
              rwa [Except.ok.inj h] at hdata
          | nil =>
              -- with no data from the application the other two events are looked at, network first
              have hevent : stcpWaitForEvent e.openWindow =
                  (⟨false, !e.networkRecvQueue.isEmpty, e.closeRequested⟩,
                    { e.openWindow with closeRequested := false }) := by
                cases hclose : e.closeRequested with
                | true => simp [stcpWaitForEvent, Endpoint.openWindow, hclose, hwrites]
                | false => simp [stcpWaitForEvent, Endpoint.openWindow, hclose, hwrites]
              simp only [controlLoop, hwait, hdone, hevent, Bool.false_eq_true, if_false] at h
              cases hsegments : e.networkRecvQueue with
              | cons segment queue =>
                  have hqueue : e.openWindow.networkRecvQueue = segment :: queue := hsegments
                  simp only [hsegments, hqueue, List.isEmpty_cons, Bool.not_false, if_true] at h
                  exact .take segment queue e' sent hwait hdone hwrites hsegments
                    (networkData_taken h)
              | nil =>
                  simp only [hsegments, List.isEmpty_nil, Bool.not_true, Bool.false_eq_true,
                    if_false] at h
                  split at h
                  · next hclose =>
                    have hround : appClose o { e.openWindow with closeRequested := false }
                        = (e', sent) := Except.ok.inj h
                    have hfin := Round.close (o := o) hwait hdone hwrites hsegments hclose
                    rwa [hround] at hfin
                  · cases h

end Branches

end NetworkProjects.Transport
