import NetworkProjects.Transport.Segment
import NetworkProjects.Lib.CString

/-!
# The main loop (`control_loop`)

An `Endpoint` is what `control_loop` works on: the globals, its locals, and the queues the stub
keeps for it. `controlLoop` is one round of the loop, or what is left of the round in which the
loop waits for the answer to its FIN.

The counters are `int`s; they are words here, and wrap around. Where a header on the stack is
sent with a field that nobody has set, that field comes from `stack`.

The stub is the one that the project was handed out with (`cse425-proj3-skeleton.ta.tar`); it is
modelled by its queues. What it does to a segment on the way, the ports and the checksum, cannot be
seen here, and neither can its assertions: a segment that is shorter than a header, or whose
checksum is wrong, stops the program there if it has any bytes at all.

What the loop prints is left out.
-/

namespace NetworkProjects.Transport

open NetworkProjects.Lib

/-! ## The state of a connection -/

/-- `ctx->connection_state`. -/
inductive ConnectionState
  | established
  | finWait1
  | finWait2
  deriving DecidableEq, Repr

structure Endpoint where
  acknowledgedByte : UInt32
  nextExpectedByte : UInt32
  sequenceNumber : UInt32
  connectionState : ConnectionState
  done : Bool
  /-- The local `Header`. -/
  header : STCPHeader
  networkBuffer : Bytes
  /-- The FIN has been sent, and `stcp_network_recv(sd, &FIN_Header, 20)` waits. -/
  recvFin : Bool
  /-- What the application has written and `stcp_app_recv` has not returned yet. -/
  appRecvQueue : List Bytes
  /-- What has arrived and `stcp_network_recv` has not returned yet. -/
  networkRecvQueue : List Bytes
  closeRequested : Bool
  /-- `stcp_fin_received` has been called. -/
  finReceived : Bool
  /-- The results of `stcp_app_recv`. -/
  obtained : List Bytes
  /-- The arguments of `stcp_app_send`. -/
  delivered : List Bytes
  deriving DecidableEq, Repr

/-- Why a round does not take place or cannot be completed. -/
inductive Stop
  /-- There is nothing to receive. -/
  | blocked
  /-- The loop is over. -/
  | returned
  /-- An array of negative size, or a read outside a buffer. -/
  | fault
  deriving DecidableEq, Repr

/-- `MAX_WIN_SIZE`. -/
def maxWinSize : UInt16 := 3072

/-- `sizeof(NetworkBuffer)`. -/
def networkBufferSize : Nat := 556

/-! ## The stub -/

/-- `mywrite`. -/
def Endpoint.mywrite (e : Endpoint) (data : Bytes) : Endpoint :=
  { e with appRecvQueue := e.appRecvQueue ++ [data] }

/-- `myclose`. -/
def Endpoint.myclose (e : Endpoint) : Endpoint := { e with closeRequested := true }

/-- A segment arrives. -/
def Endpoint.enqueue (e : Endpoint) (segment : Bytes) : Endpoint :=
  { e with networkRecvQueue := e.networkRecvQueue ++ [segment] }

/-- `stcp_app_recv`: at most `n` bytes of the oldest write, and what is left in the queue. -/
def stcpAppRecv : List Bytes → Nat → Bytes × List Bytes
  | [], _ => ([], [])
  | w :: queue, n => if n < w.length then (w.take n, w.drop n :: queue) else (w, queue)

/-- What is returned is the beginning of the oldest write, even if that is all of it. -/
theorem stcpAppRecv_cons (w : Bytes) (queue : List Bytes) (n : Nat) :
    stcpAppRecv (w :: queue) n
      = (w.take n, if n < w.length then w.drop n :: queue else queue) := by
  rw [stcpAppRecv]
  split
  · rfl
  · next h => rw [List.take_of_length_le (Nat.not_lt.mp h)]

/-- Nothing is lost when a piece is cut off. -/
theorem stcpAppRecv_flatten (queue : List Bytes) (n : Nat) :
    (stcpAppRecv queue n).1 ++ (stcpAppRecv queue n).2.flatten = queue.flatten := by
  cases queue with
  | nil => rfl
  | cons w queue =>
      rw [stcpAppRecv_cons]
      split
      · rw [List.flatten_cons, ← List.append_assoc, List.take_append_drop, List.flatten_cons]
      · next h => rw [List.take_of_length_le (Nat.not_lt.mp h), List.flatten_cons]

/-- The events that are reported together. -/
structure Event where
  appData : Bool
  networkData : Bool
  appCloseRequested : Bool
  deriving DecidableEq, Repr

/-- `stcp_network_recv` leaves `queue`. -/
def Endpoint.dequeue (e : Endpoint) (queue : List Bytes) : Endpoint :=
  { e with networkRecvQueue := queue }

/-- What is offered to the peer is set anew in every round. -/
def Endpoint.openWindow (e : Endpoint) : Endpoint :=
  { e with header := { e.header with thWin := maxWinSize } }

/-- `stcp_wait_for_event(sd, ANY_EVENT, NULL)`, without the waiting. A request to close is
reported once, when all data of the application has been taken. -/
def stcpWaitForEvent (e : Endpoint) : Event × Endpoint :=
  let close := e.closeRequested && e.appRecvQueue.isEmpty
  (⟨!e.appRecvQueue.isEmpty, !e.networkRecvQueue.isEmpty, close⟩,
    if close then { e with closeRequested := false } else e)

/-! ## The branches of the loop

Each branch of the loop is a function of the endpoint, and a round puts them in the order in which
the events are looked at. -/

section Branches

variable (o : ByteOrder) (stack : STCPHeader)

/-- `APP_DATA`. -/
def appData (e : Endpoint) : Endpoint × List Bytes :=
  let (appBuffer, queue) := stcpAppRecv e.appRecvQueue (min e.header.thWin.toNat stcpMss)
  let header := { e.header with
    thSeq := o.htonl e.sequenceNumber
    thAck := o.htonl e.nextExpectedByte
    thWin := o.htons (e.header.thWin + UInt16.ofNat appBuffer.length) }
  ({ e with
      header, appRecvQueue := queue, obtained := e.obtained ++ [appBuffer]
      sequenceNumber := e.sequenceNumber + UInt32.ofNat appBuffer.length },
    [header.toBytes o ++ appBuffer])

/-- `NETWORK_DATA`: an acknowledgement. -/
def takeAck (e : Endpoint) : Endpoint :=
  if e.header.thFlags = thAck then
    let ack := o.ntohl e.header.thAck
    let win := ack - e.acknowledgedByte + (o.ntohs e.header.thWin).toUInt32
    { e with header := { e.header with thWin := win.toUInt16 }, acknowledgedByte := ack }
  else e

/-- `NETWORK_DATA`: data for the application, which is acknowledged. -/
def takeData (data : Bytes) (e : Endpoint) : Endpoint × List Bytes :=
  if data.length = 0 then (e, [])
  else
    let e := { e with
      delivered := e.delivered ++ [data]
      nextExpectedByte := e.nextExpectedByte + UInt32.ofNat data.length }
    let tempHeader := { stack with
      thFlags := thAck, thAck := o.htonl e.nextExpectedByte, thSeq := o.htonl e.sequenceNumber }
    (e, [tempHeader.toBytes o])

/-- `NETWORK_DATA`: a FIN, which is acknowledged. -/
def takeFin (e : Endpoint) : Endpoint × List Bytes :=
  if e.header.thFlags = thFin ∨ e.header.thFlags = thFin + thAck then
    let networkFin := { stack with
      thSeq := o.htonl e.sequenceNumber, thAck := o.htonl e.nextExpectedByte, thFlags := thAck }
    let e := if e.connectionState = .finWait1 then { e with done := true }
      else { e with connectionState := .finWait2 }
    ({ e with finReceived := true }, [networkFin.toBytes o])
  else (e, [])

/-- `NETWORK_DATA`, with the segment that `stcp_network_recv` returns.

Before the data is handed to the application it is printed with `printf("%s")`. That reads on behind
`DataExcludingHeader` if the data has no NUL in it; nothing of what is read there goes anywhere but
to the standard output, so it is not modelled. -/
def networkData (segment : Bytes) (e : Endpoint) : Except Stop (Endpoint × List Bytes) :=
  let networkBuffer := segment.take networkBufferSize ++ e.networkBuffer.drop segment.length
  -- `char DataExcludingHeader[BytesReceivedFromNetworkLayer-20]`
  if segment.length < headerSize then .error .fault
  else
    match strncpy (networkBuffer.drop headerSize) (segment.length - headerSize) with
    | none => .error .fault
    | some data =>
        let e := takeAck o { e with networkBuffer, header := .ofBytes o networkBuffer }
        let (e, acks) := takeData o stack data e
        let (e, finAcks) := takeFin o stack e
        .ok (e, acks ++ finAcks)

/-- `APP_CLOSE_REQUESTED`, up to the receive. -/
def appClose (e : Endpoint) : Endpoint × List Bytes :=
  let finHeader : STCPHeader :=
    { thFlags := thFin, thSeq := o.htonl e.sequenceNumber, thAck := o.htonl e.nextExpectedByte
      thWin := o.htons e.header.thWin }
  ({ e with recvFin := true }, [finHeader.toBytes o])

/-- `APP_CLOSE_REQUESTED`, behind the receive. What it has received is not looked at. -/
def finAcknowledged (e : Endpoint) : Endpoint :=
  let e := { e with recvFin := false }
  if e.connectionState = .finWait2 then { e with done := true }
  else { e with connectionState := .finWait1 }

/-- A round of the loop: the endpoint afterwards, and the segments it has sent. -/
def controlLoop (e : Endpoint) : Except Stop (Endpoint × List Bytes) :=
  if e.recvFin then
    match e.networkRecvQueue with
    | [] => .error .blocked
    | _ :: queue => .ok (finAcknowledged (e.dequeue queue), [])
  else if e.done then .error .returned
  else
    let (event, e) := stcpWaitForEvent e.openWindow
    if event.appData then .ok (appData o e)
    else if event.networkData then
      match e.networkRecvQueue with
      | [] => .error .blocked
      | segment :: queue => networkData o stack segment (e.dequeue queue)
    else if event.appCloseRequested then .ok (appClose o e)
    else .error .blocked

end Branches

end NetworkProjects.Transport
