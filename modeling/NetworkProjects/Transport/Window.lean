import NetworkProjects.Transport.Round
import NetworkProjects.Transport.Stream

/-!
# The window

An endpoint on its own, with whatever its application and the network give it. The loop sets the
window of its header to `MAX_WIN_SIZE` in every round, and what it has sent does not count
against it. So the bytes that are not acknowledged stay within the window only if the application
never writes too much at once (`outstanding_le`, `exists_outstanding_gt`).
-/

namespace NetworkProjects.Transport

open NetworkProjects.Lib

/-! ## A sender

One endpoint, with acknowledgements from anywhere. What is outstanding is what has been sent less
what has been acknowledged. -/

/-- An endpoint, and how many of the bytes it has sent have been acknowledged. -/
structure Sender where
  endpoint : Endpoint
  acked : Nat
  deriving DecidableEq, Repr

/-- What can happen to it. -/
inductive SenderInput
  | write (data : Bytes)
  | arrive (segment : Bytes)
  | loop (stack : STCPHeader)
  deriving DecidableEq, Repr

/-- The bytes of the application that have been sent. -/
def Sender.sent (s : Sender) : Nat := s.endpoint.obtained.flatten.length

/-- The bytes of the application that are still to be sent. -/
def Sender.waiting (s : Sender) : Nat := s.endpoint.appRecvQueue.flatten.length

/-- The bytes that have been sent and not been acknowledged. -/
def Sender.outstanding (s : Sender) : Nat := s.sent - s.acked

/-- What a segment acknowledges. The first byte that was sent has the number `first`. -/
def ackedBy (first : UInt32) (acked : Nat) (segment : Bytes) : Nat :=
  if wireFlags segment = thAck then
    acked + (wireAck segment - (first + UInt32.ofNat acked)).toNat
  else acked

/-- One step. An acknowledgement counts when the loop takes it. -/
def senderStep (o : ByteOrder) (first : UInt32) (s : Sender) : SenderInput → Except Stop Sender
  | .write data => .ok { s with endpoint := s.endpoint.mywrite data }
  | .arrive segment => .ok { s with endpoint := s.endpoint.enqueue segment }
  | .loop stack =>
      match controlLoop o stack s.endpoint with
      | .error f => .error f
      | .ok (e, _) =>
          match s.endpoint.appRecvQueue, s.endpoint.networkRecvQueue with
          | [], segment :: _ => .ok ⟨e, ackedBy first s.acked segment⟩
          | _, _ => .ok ⟨e, s.acked⟩

/-- The bytes the window has room for. -/
def window : Nat := maxWinSize.toNat

/-- What is written fits into the window, with all that is not acknowledged or not sent. -/
def FitsWindow (_ : List SenderInput) (s : Sender) (i : SenderInput) : Prop :=
  ∀ data, i = .write data → s.outstanding + s.waiting + data.length ≤ window

/-! ## What a step does

A round sends a piece or nothing, and only a write adds to what is still to be sent. -/

/-- The endpoint is not closing. -/
structure Endpoint.Sending (e : Endpoint) : Prop where
  recvFin : e.recvFin = false
  closeRequested : e.closeRequested = false
  done : e.done = false
  state : e.connectionState ≠ .finWait1

section Step

variable {o : ByteOrder} {first : UInt32} {s s' : Sender}

theorem Endpoint.Fresh.sending {e : Endpoint} (h : e.Fresh) : e.Sending :=
  ⟨h.isOpen.recvFin, h.isOpen.closeRequested, h.isOpen.done, h.isOpen.state⟩

/-- A step of the loop that sends a piece. -/
structure SendsPiece (s s' : Sender) : Prop where
  sending : s'.endpoint.Sending
  acked : s'.acked = s.acked
  obtained : ∃ piece, s'.endpoint.obtained = s.endpoint.obtained ++ [piece] ∧
    piece ++ s'.endpoint.appRecvQueue.flatten = s.endpoint.appRecvQueue.flatten

/-- A step that sends nothing of the application. -/
structure SendsNothing (s s' : Sender) : Prop where
  sending : s'.endpoint.Sending
  acked : s.acked ≤ s'.acked
  obtained : s'.endpoint.obtained = s.endpoint.obtained
  appRecvQueue : s'.endpoint.appRecvQueue = s.endpoint.appRecvQueue

theorem le_ackedBy (acked : Nat) (segment : Bytes) : acked ≤ ackedBy first acked segment := by
  unfold ackedBy
  split
  · exact Nat.le_add_right _ _
  · exact Nat.le_refl _

/-- What the application has written goes first, and less of it is left. -/
theorem loop_piece (o : ByteOrder) (first : UInt32) (stack : STCPHeader)
    (hsending : s.endpoint.Sending) (happ : s.endpoint.appRecvQueue ≠ []) :
    ∃ s', senderStep o first s (.loop stack) = .ok s' ∧ SendsPiece s s' ∧
      s'.waiting + s'.endpoint.appRecvQueue.length
        < s.waiting + s.endpoint.appRecvQueue.length := by
  obtain ⟨w, writes, hwrites⟩ := List.exists_cons_of_ne_nil happ
  have hround := controlLoop_data o stack hsending.recvFin hsending.done happ
  refine ⟨⟨(appData o s.endpoint.openWindow).1, s.acked⟩, ?_, ?_, ?_⟩
  · simp only [senderStep, hround, hwrites]
  · refine ⟨⟨hsending.recvFin, hsending.closeRequested, hsending.done, hsending.state⟩, rfl, _,
      rfl, ?_⟩
    exact stcpAppRecv_flatten s.endpoint.appRecvQueue _
  · have hrest : (appData o s.endpoint.openWindow).1.appRecvQueue
        = if stcpMss < w.length then w.drop stcpMss :: writes else writes := by
      show (stcpAppRecv s.endpoint.appRecvQueue stcpMss).2 = _
      rw [hwrites, stcpAppRecv_cons]
    simp only [Sender.waiting, hrest, hwrites]
    split
    · next hlong =>
      simp only [List.flatten_cons, List.length_append, List.length_drop, List.length_cons]
      have hpos : 0 < stcpMss := by decide
      omega
    · simp only [List.flatten_cons, List.length_append, List.length_cons]
      omega

theorem loop_cases {stack : STCPHeader} (hsending : s.endpoint.Sending)
    (h : senderStep o first s (.loop stack) = .ok s') : SendsPiece s s' ∨ SendsNothing s s' := by
  simp only [senderStep] at h
  split at h
  · cases h
  · next e sent hloop =>
    -- a sending endpoint has neither asked to close nor seen a FIN
    cases controlLoop_round hloop with
    | data _ _ happ =>
        obtain ⟨s'', hpiece, hsends, -⟩ :=
          loop_piece o first stack hsending happ
        simp only [senderStep, hloop] at hpiece
        rw [h] at hpiece
        cases hpiece
        exact .inl hsends
    | take segment queue _ _ _ _ happ hqueue htaken =>
        simp only [happ, hqueue] at h
        cases h
        refine .inr ⟨⟨?_, htaken.closeRequested, ?_, ?_⟩, le_ackedBy s.acked segment,
          htaken.obtained, htaken.appRecvQueue⟩
        · rw [htaken.recvFin]
          exact hsending.recvFin
        · rw [htaken.done]
          simp [Endpoint.dequeue, Endpoint.openWindow, hsending.done, hsending.state]
        · rw [htaken.connectionState]
          split
          · simp
          · exact hsending.state
    | close _ _ _ _ hclose =>
        rw [hsending.closeRequested] at hclose
        cases hclose
    | acknowledged _ _ hwaiting =>
        rw [hsending.recvFin] at hwaiting
        cases hwaiting

/-- What the window has to hold: all that has been sent or is to be sent, less what has been
acknowledged. -/
structure Sender.Within (s : Sender) : Prop where
  sending : s.endpoint.Sending
  fits : s.sent + s.waiting ≤ s.acked + window

theorem SendsPiece.sent_add_waiting (h : SendsPiece s s') :
    s'.sent + s'.waiting = s.sent + s.waiting := by
  obtain ⟨piece, hobtained, hpiece⟩ := h.obtained
  have hlength := congrArg List.length hpiece
  rw [List.length_append] at hlength
  simp only [Sender.sent, Sender.waiting, hobtained, List.flatten_append, List.flatten_singleton,
    List.length_append, ← hlength, Nat.add_assoc]

theorem SendsNothing.sent_add_waiting (h : SendsNothing s s') :
    s'.sent + s'.waiting = s.sent + s.waiting := by
  simp only [Sender.sent, Sender.waiting, h.obtained, h.appRecvQueue]

/-- **A step keeps within the window**, if what is written fits into it. -/
theorem Sender.Within.step {i : SenderInput} (hwithin : s.Within) (hi : FitsWindow [] s i)
    (h : senderStep o first s i = .ok s') : s'.Within := by
  have hsending := hwithin.sending
  have hfits := hwithin.fits
  cases i with
  | write data =>
      cases h
      refine ⟨⟨hsending.recvFin, hsending.closeRequested, hsending.done, hsending.state⟩, ?_⟩
      have hdata := hi data rfl
      simp only [Sender.outstanding, Sender.sent, Sender.waiting, Endpoint.mywrite,
        List.flatten_append, List.flatten_singleton, List.length_append] at hdata hfits ⊢
      omega
  | arrive segment =>
      cases h
      exact ⟨⟨hsending.recvFin, hsending.closeRequested, hsending.done, hsending.state⟩, hfits⟩
  | loop stack =>
      rcases loop_cases hsending h with hsends | hsends
      · refine ⟨hsends.sending, ?_⟩
        rw [hsends.sent_add_waiting, hsends.acked]
        exact hfits
      · refine ⟨hsends.sending, ?_⟩
        rw [hsends.sent_add_waiting]
        exact hfits.trans (Nat.add_le_add_right hsends.acked window)

end Step

/-! ## Runs -/

section Run

/-- An endpoint that has just come out of the handshake has sent nothing. -/
def Sender.start (e : Endpoint) : Sender := ⟨e, 0⟩

/-- **Flow control** for an application that never writes more than fits into the window. -/
theorem outstanding_le (o : ByteOrder) (first : UInt32) (e : Endpoint) (inputs : List SenderInput)
    (t : Sender) (hfresh : e.Fresh)
    (hfits : Along (senderStep o first) (.start e) FitsWindow inputs)
    (h : run (senderStep o first) (.start e) inputs = .ok t) : t.outstanding ≤ window := by
  have hwithin : t.Within := by
    apply run_induction_along (R := fun _ t => t.Within) ?_ ?_ hfits h
    · refine ⟨hfresh.sending, ?_⟩
      simp [Sender.sent, Sender.waiting, Sender.start, hfresh.obtained, hfresh.appRecvQueue]
    · exact fun _ i t t' _ hwithin hi hstep => hwithin.step hi hstep
  have hle : t.sent ≤ t.acked + window := (Nat.le_add_right _ _).trans hwithin.fits
  rw [Sender.outstanding]
  exact Nat.sub_le_iff_le_add'.mpr hle

/-- The endpoint of the client, which writes six full segments before an acknowledgement comes. -/
def sixWrites : List SenderInput :=
  List.replicate 6 (.write (List.replicate stcpMss 65)) ++ List.replicate 6 (.loop .zero)

/-- A segment is acknowledged before a whole window is written. -/
def twoWrites : List SenderInput :=
  [.write (List.replicate 536 65), .loop .zero,
    .arrive (({ STCPHeader.zero with thFlags := thAck, thAck := ByteOrder.little.htonl 536 }
      : STCPHeader).toBytes .little), .loop .zero, .write (List.replicate 3072 66), .loop .zero]

theorem outstanding_le_twoWrites : ∃ t,
    run (senderStep .little 0) (.start (quietConnection.ends .client)) twoWrites = .ok t ∧
      t.sent = 1072 ∧ t.acked = 536 ∧ t.outstanding ≤ window := by
  have hrun : ∃ t,
      run (senderStep .little 0) (.start (quietConnection.ends .client)) twoWrites = .ok t ∧
        decide (t.sent = 1072 ∧ t.acked = 536) = true :=
    exists_ok_of_check (by decide +kernel)
  obtain ⟨t, hrun, hcounts⟩ := hrun
  obtain ⟨hsent, hacked⟩ := of_decide_eq_true hcounts
  refine ⟨t, hrun, hsent, hacked, ?_⟩
  refine outstanding_le .little 0 (quietConnection.ends .client) twoWrites t
    (quietConnection_fresh.ends .client) ?_ hrun
  have hcheck : alongCheck (senderStep .little 0) (fun s i =>
      match i with
      | .write data => decide (s.outstanding + s.waiting + data.length ≤ window)
      | _ => true) (.start (quietConnection.ends .client)) twoWrites = true := by
    decide +kernel
  refine (along_of_check hcheck).imp ?_
  rintro past _ t _ _ hfits data rfl
  simpa using hfits

/-- Six segments are sent, and none is acknowledged. -/
theorem outstanding_sixWrites : (quietConnection.ends .client).Fresh ∧ ∃ t,
    run (senderStep .little 0) (.start (quietConnection.ends .client)) sixWrites = .ok t ∧
      t.outstanding = 3216 ∧ ¬ t.outstanding ≤ window := by
  refine ⟨quietConnection_fresh.ends .client, ?_⟩
  have hrun : ∃ t,
      run (senderStep .little 0) (.start (quietConnection.ends .client)) sixWrites = .ok t ∧
        decide (t.outstanding = 3216) = true :=
    exists_ok_of_check (by decide +kernel)
  obtain ⟨t, hrun, hcount⟩ := hrun
  have hcount := of_decide_eq_true hcount
  refine ⟨t, hrun, hcount, ?_⟩
  rw [hcount]
  decide

/-- **That is the exact bound**: the loop does not wait for acknowledgements, so whatever is to
be sent will be outstanding. -/
theorem exists_outstanding_gt (o : ByteOrder) (first : UInt32) (s : Sender)
    (hsending : s.endpoint.Sending) (hacked : s.acked ≤ s.sent)
    (hover : window < s.outstanding + s.waiting) :
    ∃ (rounds : List STCPHeader) (t : Sender),
      run (senderStep o first) s (rounds.map .loop) = .ok t ∧ window < t.outstanding := by
  generalize hsize : s.waiting + s.endpoint.appRecvQueue.length = size
  -- every round turns waiting bytes into outstanding ones
  induction size using Nat.strong_induction_on generalizing s with
  | _ size ih =>
      cases hqueue : s.endpoint.appRecvQueue with
      | nil =>
          have hwaiting : s.waiting = 0 := by simp [Sender.waiting, hqueue]
          rw [hwaiting] at hover
          exact ⟨[], s, rfl, hover⟩
      | cons w writes =>
          obtain ⟨s', hstep, hsends, hless⟩ := loop_piece o first .zero hsending
            (by simp [hqueue])
          have hsame := hsends.sent_add_waiting
          have hmore : s.sent ≤ s'.sent := by
            obtain ⟨piece, hobtained, -⟩ := hsends.obtained
            simp [Sender.sent, hobtained]
          have hacked' : s'.acked ≤ s'.sent := by
            rw [hsends.acked]
            exact hacked.trans hmore
          have hover' : window < s'.outstanding + s'.waiting := by
            simp only [Sender.outstanding, hsends.acked] at hover ⊢
            omega
          obtain ⟨rounds, t, hrun, ht⟩ :=
            ih _ (hsize ▸ hless) s' hsends.sending hacked' hover' rfl
          exact ⟨.zero :: rounds, t, run_cons.mpr ⟨s', hstep, hrun⟩, ht⟩

end Run

end NetworkProjects.Transport
