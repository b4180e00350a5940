import NetworkProjects.Transport.ControlLoop
import NetworkProjects.Transport.Handshake
import Mathlib.Logic.Function.Basic

/-!
# Two endpoints and a network

The network delivers every segment once and in order. A segment is in flight until it has
arrived in the queue of the peer's stub, where the peer's loop takes it.

While no application closes, a round of the loop either obtains data and sends it, or takes a
segment and hands its data on (`controlLoop_cases`).
-/

namespace NetworkProjects.Transport

open NetworkProjects.Lib

/-! ## The system -/

def Side.peer : Side → Side
  | .client => .server
  | .server => .client

@[simp] theorem Side.peer_peer (s : Side) : s.peer.peer = s := by
  cases s <;> rfl

theorem Side.peer_ne (s : Side) : s.peer ≠ s := by
  cases s <;> decide

/-- The two endpoints, and for each the segments it has sent that are in flight. -/
structure Connection where
  ends : Side → Endpoint
  inFlight : Side → List Bytes

/-- What can happen next. -/
inductive Input
  /-- The application calls `mywrite`. -/
  | write (s : Side) (data : Bytes)
  /-- The application calls `myclose`. -/
  | close (s : Side)
  /-- The oldest segment that `s` has sent and that is in flight arrives. -/
  | arrive (s : Side)
  /-- A round of the loop, with that on the stack. -/
  | loop (s : Side) (stack : STCPHeader)
  deriving DecidableEq, Repr

/-- Replace one endpoint. -/
def Connection.setEnd (c : Connection) (s : Side) (e : Endpoint) : Connection :=
  { c with ends := Function.update c.ends s e }

/-- Replace what one side has in flight. -/
def Connection.setInFlight (c : Connection) (s : Side) (segments : List Bytes) : Connection :=
  { c with inFlight := Function.update c.inFlight s segments }

/-- One step, on hosts with the byte orders `o`. -/
def connectionStep (o : Side → ByteOrder) (c : Connection) : Input → Except Stop Connection
  | .write s data => .ok (c.setEnd s ((c.ends s).mywrite data))
  | .close s => .ok (c.setEnd s (c.ends s).myclose)
  | .arrive s =>
      match c.inFlight s with
      | [] => .error .blocked
      | segment :: segments =>
          .ok ((c.setInFlight s segments).setEnd s.peer ((c.ends s.peer).enqueue segment))
  | .loop s stack =>
      match controlLoop (o s) stack (c.ends s) with
      | .error f => .error f
      | .ok (e, sent) => .ok ((c.setEnd s e).setInFlight s (c.inFlight s ++ sent))

/-- The segments `s` has sent that its peer's loop has not taken, oldest first. -/
def Connection.inTransit (c : Connection) (s : Side) : List Bytes :=
  (c.ends s.peer).networkRecvQueue ++ c.inFlight s

section Access

variable (c : Connection) (s : Side) (e : Endpoint) (segments : List Bytes)

@[simp] theorem ends_setEnd_self : (c.setEnd s e).ends s = e := Function.update_self ..

@[simp] theorem ends_setEnd_peer : (c.setEnd s e).ends s.peer = c.ends s.peer :=
  Function.update_of_ne s.peer_ne ..

@[simp] theorem ends_setEnd_of_peer : (c.setEnd s.peer e).ends s = c.ends s :=
  Function.update_of_ne s.peer_ne.symm ..

@[simp] theorem inFlight_setEnd : (c.setEnd s e).inFlight = c.inFlight := rfl

@[simp] theorem ends_setInFlight : (c.setInFlight s segments).ends = c.ends := rfl

@[simp] theorem inFlight_setInFlight_self : (c.setInFlight s segments).inFlight s = segments :=
  Function.update_self ..

@[simp] theorem inFlight_setInFlight_peer :
    (c.setInFlight s segments).inFlight s.peer = c.inFlight s.peer :=
  Function.update_of_ne s.peer_ne ..

@[simp] theorem inFlight_setInFlight_of_peer :
    (c.setInFlight s.peer segments).inFlight s = c.inFlight s :=
  Function.update_of_ne s.peer_ne.symm ..

end Access

section Inversion

variable {o : Side → ByteOrder} {c c' : Connection} {s : Side}

theorem connectionStep_arrive (h : connectionStep o c (.arrive s) = .ok c') :
    ∃ segment segments, c.inFlight s = segment :: segments ∧
      c' = (c.setInFlight s segments).setEnd s.peer ((c.ends s.peer).enqueue segment) := by
  simp only [connectionStep] at h
  split at h
  · cases h
  · next segment segments hflight =>
    cases h
    exact ⟨segment, segments, hflight, rfl⟩

theorem connectionStep_loop {stack : STCPHeader}
    (h : connectionStep o c (.loop s stack) = .ok c') :
    ∃ e sent, controlLoop (o s) stack (c.ends s) = .ok (e, sent) ∧
      c' = (c.setEnd s e).setInFlight s (c.inFlight s ++ sent) := by
  simp only [connectionStep] at h
  split at h
  · cases h
  · next e sent hloop =>
    cases h
    exact ⟨e, sent, hloop, rfl⟩

end Inversion

/-! ## Connected endpoints -/

/-- No close is on its way at this endpoint. -/
structure Endpoint.Open (e : Endpoint) : Prop where
  recvFin : e.recvFin = false
  closeRequested : e.closeRequested = false
  done : e.done = false
  state : e.connectionState ≠ .finWait1
  buffer : e.networkBuffer.length = networkBufferSize

theorem Endpoint.Open.mywrite {e : Endpoint} (h : e.Open) (data : Bytes) :
    (e.mywrite data).Open :=
  ⟨h.recvFin, h.closeRequested, h.done, h.state, h.buffer⟩

theorem Endpoint.Open.enqueue {e : Endpoint} (h : e.Open) (segment : Bytes) :
    (e.enqueue segment).Open :=
  ⟨h.recvFin, h.closeRequested, h.done, h.state, h.buffer⟩

theorem Endpoint.Open.dequeue {e : Endpoint} (h : e.Open) (queue : List Bytes) :
    (e.dequeue queue).Open :=
  ⟨h.recvFin, h.closeRequested, h.done, h.state, h.buffer⟩

theorem Endpoint.Open.openWindow {e : Endpoint} (h : e.Open) : e.openWindow.Open :=
  ⟨h.recvFin, h.closeRequested, h.done, h.state, h.buffer⟩

/-- The endpoint has just entered its loop. Its counters, and what it finds on its stack, are
arbitrary. -/
structure Endpoint.Fresh (e : Endpoint) : Prop where
  isOpen : e.Open
  appRecvQueue : e.appRecvQueue = []
  networkRecvQueue : e.networkRecvQueue = []
  obtained : e.obtained = []
  delivered : e.delivered = []

/-- Both endpoints have just entered their loops, and nothing is in flight. -/
structure Connection.Fresh (c : Connection) : Prop where
  ends : ∀ s, (c.ends s).Fresh
  inFlight : ∀ s, c.inFlight s = []

/-! ## A round of the loop -/

/-- The data of a segment. -/
def payload (segment : Bytes) : Bytes := segment.drop headerSize

/-- What the peer's application gets of a segment. -/
def delivery (segment : Bytes) : List Bytes :=
  if payload segment = [] then [] else [clearBehindNul (payload segment)]

/-- A round that obtains data from the application and sends it. -/
structure Obtains (o : ByteOrder) (e e' : Endpoint) (sent : List Bytes) : Prop where
  isOpen : e'.Open
  pending : e.appRecvQueue ≠ []
  obtained : e'.obtained = e.obtained ++ [(stcpAppRecv e.appRecvQueue stcpMss).1]
  appRecvQueue : e'.appRecvQueue = (stcpAppRecv e.appRecvQueue stcpMss).2
  sent : ∃ header : STCPHeader,
    sent = [header.toBytes o ++ (stcpAppRecv e.appRecvQueue stcpMss).1]
  networkRecvQueue : e'.networkRecvQueue = e.networkRecvQueue
  delivered : e'.delivered = e.delivered

/-- A part of a round that hands `data` to the application and sends acknowledgements. -/
structure Answers (e e' : Endpoint) (data sent : List Bytes) : Prop where
  isOpen : e'.Open
  networkRecvQueue : e'.networkRecvQueue = e.networkRecvQueue
  delivered : e'.delivered = e.delivered ++ data
  sent : ∀ ack ∈ sent, ack.length = headerSize
  obtained : e'.obtained = e.obtained
  appRecvQueue : e'.appRecvQueue = e.appRecvQueue

theorem Answers.trans {e e' e'' : Endpoint} {data data' sent sent' : List Bytes}
    (h : Answers e e' data sent) (h' : Answers e' e'' data' sent') :
    Answers e e'' (data ++ data') (sent ++ sent') where
  isOpen := h'.isOpen
  networkRecvQueue := h'.networkRecvQueue.trans h.networkRecvQueue
  delivered := by rw [h'.delivered, h.delivered, List.append_assoc]
  sent ack hack := (List.mem_append.mp hack).elim (h.sent ack) (h'.sent ack)
  obtained := h'.obtained.trans h.obtained
  appRecvQueue := h'.appRecvQueue.trans h.appRecvQueue

section Branches

variable {o : ByteOrder} {stack : STCPHeader} {e e' : Endpoint} {sent : List Bytes}

theorem appData_obtains (hopen : e.Open) (hpending : e.appRecvQueue ≠ [])
    (hwin : e.header.thWin = maxWinSize) (h : appData o e = (e', sent)) :
    Obtains o e e' sent := by
  have hmin : min e.header.thWin.toNat stcpMss = stcpMss := by
    rw [hwin]
    rfl
  unfold appData at h
  rw [hmin] at h
  cases h
  exact ⟨⟨hopen.recvFin, hopen.closeRequested, hopen.done, hopen.state, hopen.buffer⟩, hpending,
    rfl, rfl, ⟨_, rfl⟩, rfl, rfl⟩

theorem takeAck_answers (hopen : e.Open) : Answers e (takeAck o e) [] [] := by
  unfold takeAck
  split
  · exact ⟨⟨hopen.recvFin, hopen.closeRequested, hopen.done, hopen.state, hopen.buffer⟩, rfl,
      by simp, by simp, rfl, rfl⟩
  · exact ⟨hopen, rfl, by simp, by simp, rfl, rfl⟩

theorem takeData_answers {data : Bytes} (hopen : e.Open)
    (h : takeData o stack data e = (e', sent)) :
    Answers e e' (if data = [] then [] else [data]) sent := by
  unfold takeData at h
  cases data with
  | nil =>
      cases h
      exact ⟨hopen, rfl, by simp, by simp, rfl, rfl⟩
  | cons c data =>
      rw [if_neg (by simp)] at h
      cases h
      exact ⟨⟨hopen.recvFin, hopen.closeRequested, hopen.done, hopen.state, hopen.buffer⟩, rfl,
        by simp, by simp, rfl, rfl⟩

/-- A FIN does not end the loop before the application closes. -/
theorem takeFin_answers (hopen : e.Open) (h : takeFin o stack e = (e', sent)) :
    Answers e e' [] sent := by
  unfold takeFin at h
  split at h
  · rw [if_neg hopen.state] at h
    cases h
    exact ⟨⟨hopen.recvFin, hopen.closeRequested, hopen.done, by simp, hopen.buffer⟩, rfl,
      by simp, by simp, rfl, rfl⟩
  · cases h
    exact ⟨hopen, rfl, by simp, by simp, rfl, rfl⟩

/-- What is copied out of the buffer is the data up to its first NUL. -/
theorem strncpy_payload {segment old : Bytes} (hsize : segment.length ≤ networkBufferSize)
    (hold : old.length = networkBufferSize) :
    (segment.take networkBufferSize ++ old.drop segment.length).length = networkBufferSize ∧
      strncpy ((segment.take networkBufferSize ++ old.drop segment.length).drop headerSize)
        (segment.length - headerSize) = some (clearBehindNul (payload segment)) := by
  rw [List.take_of_length_le hsize]
  have hlen : (segment ++ old.drop segment.length).length = networkBufferSize := by
    rw [List.length_append, List.length_drop, hold]
    omega
  have hdata : ((segment ++ old.drop segment.length).drop headerSize).take
      (segment.length - headerSize) = payload segment := by
    rw [← List.drop_take, List.take_left, payload]
  refine ⟨hlen, ?_⟩
  rw [strncpy_eq, hdata]
  rw [List.length_drop, hlen]
  omega

/-- A segment that has its header and fits into the buffer is taken. -/
theorem networkData_succeeds {segment : Bytes} (o : ByteOrder) (stack : STCPHeader)
    (hbuffer : e.networkBuffer.length = networkBufferSize)
    (hmin : headerSize ≤ segment.length) (hmax : segment.length ≤ networkBufferSize) :
    ∃ r, networkData o stack segment e = .ok r := by
  obtain ⟨-, hcopy⟩ := strncpy_payload hmax hbuffer
  unfold networkData
  simp only [hcopy, if_neg (Nat.not_lt.mpr hmin)]
  exact ⟨_, rfl⟩

theorem networkData_answers {segment : Bytes} (hopen : e.Open)
    (hsize : segment.length ≤ networkBufferSize)
    (h : networkData o stack segment e = .ok (e', sent)) :
    Answers e e' (delivery segment) sent := by
  obtain ⟨hlen, hcopy⟩ := strncpy_payload hsize hopen.buffer
  unfold networkData at h
  simp only [hcopy] at h
  split at h
  · cases h
  · generalize hread : ({ e with
      networkBuffer := segment.take networkBufferSize ++ e.networkBuffer.drop segment.length
      header := .ofBytes o
        (segment.take networkBufferSize ++ e.networkBuffer.drop segment.length) } : Endpoint)
      = e₀ at h
    have hread : Answers e e₀ [] [] := by
      rw [← hread]
      exact ⟨⟨hopen.recvFin, hopen.closeRequested, hopen.done, hopen.state, hlen⟩, rfl, by simp,
        by simp, rfl, rfl⟩
    have hack := takeAck_answers (o := o) hread.isOpen
    obtain ⟨⟨e₁, acks⟩, hdata⟩ : ∃ r, takeData o stack (clearBehindNul (payload segment))
      (takeAck o e₀) = r := ⟨_, rfl⟩
    obtain ⟨⟨e₂, finAcks⟩, hfin⟩ : ∃ r, takeFin o stack e₁ = r := ⟨_, rfl⟩
    simp only [hdata, hfin] at h
    cases h
    have hanswers := takeData_answers hack.isOpen hdata
    have hall := ((hread.trans hack).trans hanswers).trans (takeFin_answers hanswers.isOpen hfin)
    have hempty : clearBehindNul (payload segment) = [] ↔ payload segment = [] := by
      rw [← List.length_eq_zero_iff, length_clearBehindNul, List.length_eq_zero_iff]
    simpa only [hempty, List.nil_append, List.append_nil, delivery] using hall

theorem stcpWaitForEvent_open (hopen : e.Open) :
    stcpWaitForEvent e = (⟨!e.appRecvQueue.isEmpty, !e.networkRecvQueue.isEmpty, false⟩, e) := by
  simp [stcpWaitForEvent, hopen.closeRequested]

/-- **What a round can do** while nobody closes: it obtains data and sends it, or takes a segment,
hands on its data and acknowledges it. -/
theorem controlLoop_cases (hopen : e.Open)
    (hsize : ∀ segment ∈ e.networkRecvQueue, segment.length ≤ networkBufferSize)
    (h : controlLoop o stack e = .ok (e', sent)) :
    Obtains o e e' sent ∨ ∃ segment queue, e.networkRecvQueue = segment :: queue ∧
      Answers (e.dequeue queue) e' (delivery segment) sent := by
  have hround := hopen.openWindow
  have happ : e.openWindow.appRecvQueue = e.appRecvQueue := rfl
  have hnet : e.openWindow.networkRecvQueue = e.networkRecvQueue := rfl
  unfold controlLoop at h
  simp only [hopen.recvFin, hopen.done, stcpWaitForEvent_open hround, happ, hnet,
    Bool.false_eq_true, if_false] at h
  cases hwrites : e.appRecvQueue with
  | cons w writes =>
      simp only [hwrites, List.isEmpty_cons, Bool.not_false, if_true, Except.ok.injEq] at h
      have hobtains := appData_obtains hround (by rw [happ, hwrites]; simp) rfl h
      exact .inl ⟨hobtains.isOpen, hobtains.pending, hobtains.obtained, hobtains.appRecvQueue,
        hobtains.sent, hobtains.networkRecvQueue, hobtains.delivered⟩
  | nil =>
      cases hsegments : e.networkRecvQueue with
      | nil => simp [hwrites, hsegments] at h
      | cons segment queue =>
          simp only [hwrites, hsegments, List.isEmpty_nil, List.isEmpty_cons, Bool.not_true,
            Bool.not_false, Bool.false_eq_true, if_false, if_true] at h
          have hanswers := networkData_answers (hround.dequeue queue)
            (hsize segment (by simp [hsegments])) h
          exact .inr ⟨segment, queue, rfl, hanswers.isOpen, hanswers.networkRecvQueue,
            hanswers.delivered, hanswers.sent, hanswers.obtained, hanswers.appRecvQueue⟩

end Branches

end NetworkProjects.Transport
