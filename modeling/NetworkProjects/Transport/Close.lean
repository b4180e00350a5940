import NetworkProjects.Transport.CloseProtocol
import NetworkProjects.Transport.Round
import NetworkProjects.Transport.Stream

/-!
# Closing a connection

The two endpoints are the parties of a close (`connectionStep_closing`), so what holds of the
parties holds of them. Two slips come in between. The loop keeps the header of the last segment it
has taken for the next piece of data, with its flags: after a FIN, data is sent as a FIN. And what
comes first after the endpoint's own FIN is taken for its acknowledgement, even if it is the FIN
of the peer.

Either slip can leave an endpoint waiting for ever. If both close at the same time, each takes the
other's FIN for the answer to its own, and waits for a FIN that has been thrown away. If the data
that follows a FIN is sent as a FIN, the peer may be done with that, and then it takes nothing any
more: the FIN that comes at last stays in its queue, and is not answered. In a run without the two
slips no close is stuck (`noStuckClose_of_noStaleFin_noSwallowedFin`).
-/

namespace NetworkProjects.Transport

open NetworkProjects.Lib

/-! ## The parties

An endpoint is read as a party: what it has asked for, what it has sent, and whether it waits. A
segment is read as a flag. -/

/-- An endpoint as a party of the close. -/
def Endpoint.party (e : Endpoint) (asked : Bool) : Party :=
  ⟨asked, e.closeRequested, e.connectionState, e.recvFin, e.done⟩

/-- The close as `s` sees it, behind `inputs`. -/
def Connection.closing (c : Connection) (inputs : List Input) (s : Side) : Closing where
  me := (c.ends s).party (decide (.close s ∈ inputs))
  peer := (c.ends s.peer).party (decide (.close s.peer ∈ inputs))
  out := (c.inTransit s).map isFin
  inn := (c.inTransit s.peer).map isFin

@[simp] theorem closing_peer (c : Connection) (inputs : List Input) (s : Side) :
    c.closing inputs s.peer = (c.closing inputs s).swap := by
  simp [Connection.closing, Closing.swap]

/-- The next round takes data from the application while the header still has the FIN of the
last segment that was taken. -/
structure Endpoint.StaleFin (e : Endpoint) : Prop where
  recvFin : e.recvFin = false
  done : e.done = false
  appRecvQueue : e.appRecvQueue ≠ []
  header : e.header.thFlags &&& thFin ≠ 0

instance (e : Endpoint) : Decidable e.StaleFin :=
  decidable_of_iff (e.recvFin = false ∧ e.done = false ∧ e.appRecvQueue ≠ [] ∧
      e.header.thFlags &&& thFin ≠ 0)
    ⟨fun h => ⟨h.1, h.2.1, h.2.2.1, h.2.2.2⟩, fun h => ⟨h.1, h.2, h.3, h.4⟩⟩

/-- The endpoint waits for the answer to its FIN, and a FIN comes that it has not seen. -/
structure Endpoint.SwallowsFin (e : Endpoint) : Prop where
  recvFin : e.recvFin = true
  state : e.connectionState ≠ .finWait2
  fin : ∃ segment ∈ e.networkRecvQueue.head?, isFin segment = true

instance (e : Endpoint) : Decidable e.SwallowsFin :=
  decidable_of_iff (e.recvFin = true ∧ e.connectionState ≠ .finWait2 ∧
      ∃ segment ∈ e.networkRecvQueue.head?, isFin segment = true)
    ⟨fun h => ⟨h.1, h.2.1, h.2.2⟩, fun h => ⟨h.1, h.2, h.3⟩⟩

/-! ## Every step is a move of one party

A step of one side does not touch the party of the other, so the move is seen from the side that
acts, and the other view is its `swap`. -/

section Step

variable {o : Side → ByteOrder} {c : Connection} {inputs : List Input}

/-- Only `.close` is a request to close. -/
theorem closing_append {i : Input} (hi : ∀ s, i ≠ .close s) (s : Side) :
    c.closing (inputs ++ [i]) s = c.closing inputs s := by
  have hasked : ∀ s, .close s ∈ inputs ++ [i] ↔ .close s ∈ inputs := by
    intro s
    rw [List.mem_append, List.mem_singleton]
    exact or_iff_left (hi s).symm
  simp only [Connection.closing, hasked]

theorem closing_loop {s : Side} {e : Endpoint} {sent : List Bytes} :
    ((c.setEnd s e).setInFlight s (c.inFlight s ++ sent)).closing inputs s =
      { c.closing inputs s with
        me := e.party (decide (.close s ∈ inputs))
        out := (c.closing inputs s).out ++ sent.map isFin
        inn := (e.networkRecvQueue ++ c.inFlight s.peer).map isFin } := by
  simp [Connection.closing, Connection.inTransit]

/-- An acknowledgement is no FIN. -/
theorem isFin_toBytes {o : ByteOrder} {header : STCPHeader} (h : header.thFlags = thAck) :
    isFin (header.toBytes o) = false := by
  apply isFin_of_ack
  rw [wireFlags_header, h]

theorem isFin_appClose (o : ByteOrder) (e : Endpoint) : (appClose o e).2.map isFin = [true] := by
  simp [appClose, isFin, wireFlags_header]

/-- What the code takes for a FIN has the flag of a FIN. -/
theorem flag_of_isFin {segment : Bytes} (h : isFin segment = true) :
    wireFlags segment &&& thFin ≠ 0 := by
  have hflags : wireFlags segment = thFin ∨ wireFlags segment = thFin + thAck := by
    simpa [isFin] using h
  rcases hflags with hflags | hflags
  · rw [hflags]
    decide
  · rw [hflags]
    decide

theorem party_finAcknowledged (e : Endpoint) (asked : Bool) :
    (finAcknowledged e).party asked = (e.party asked).acknowledged := by
  by_cases hstate : e.connectionState = .finWait2
  · simp [finAcknowledged, Party.acknowledged, Endpoint.party, hstate]
  · simp [finAcknowledged, Party.acknowledged, Endpoint.party, hstate]

/-- A round that takes a segment, as a move of a party. -/
theorem Taken.party {o : ByteOrder} {segment : Bytes} {e e' : Endpoint} {sent : List Bytes}
    (h : Taken o segment e e' sent) (asked : Bool) :
    e'.party asked = (e.party asked).take (isFin segment) e.closeRequested := by
  simp only [Endpoint.party, Party.take, h.closeRequested, h.connectionState, h.recvFin, h.done]
  cases isFin segment with
  | false => simp
  | true =>
      simp only [if_true, true_and, Bool.true_and]
      by_cases hstate : e.connectionState = .finWait1
      · simp [hstate]
      · simp [hstate]

theorem loop_closing (inputs : List Input) {s : Side} {stack : STCPHeader} {e : Endpoint}
    {sent : List Bytes} (h : controlLoop (o s) stack (c.ends s) = .ok (e, sent)) :
    ∃ m, CloseStep m (c.closing inputs s)
        (((c.setEnd s e).setInFlight s (c.inFlight s ++ sent)).closing inputs s) ∧
      (m = .data true → (c.ends s).StaleFin) ∧
      (m = .acknowledged true →
        (c.ends s).SwallowsFin ∨ (c.ends s).connectionState = .finWait2) := by
  rw [closing_loop]
  have hsame : (c.closing inputs s).inn
      = ((c.ends s).networkRecvQueue ++ c.inFlight s.peer).map isFin := by
    simp [Connection.closing, Connection.inTransit]
  cases controlLoop_round h with
  | data hwaiting hdone hpending =>
      -- `th_flags` is what the last received header left in it
      obtain ⟨header, chunk, hsent, hflags⟩ : ∃ header chunk,
          (appData (o s) (c.ends s).openWindow).2 = [STCPHeader.toBytes (o s) header ++ chunk] ∧
            header.thFlags = (c.ends s).header.thFlags := ⟨_, _, rfl, rfl⟩
      refine ⟨.data (isFin (header.toBytes (o s) ++ chunk)), ?_, ?_, by simp⟩
      · have hstep := CloseStep.data (c.closing inputs s) (isFin (header.toBytes (o s) ++ chunk))
          hwaiting hdone
        rw [hsame] at hstep
        rw [hsent]
        exact hstep
      · -- the segment taken as the acknowledgement may have been the FIN of the peer
        intro hfin
        have hflag := flag_of_isFin (CloseMove.data.inj hfin)
        rw [wireFlags_toBytes, hflags] at hflag
        exact ⟨hwaiting, hdone, hpending, hflag⟩
  | take segment queue _ _ hwaiting hdone hpending hqueue htaken =>
      refine ⟨.take (isFin segment), ?_, by simp, by simp⟩
      have hrest : e.networkRecvQueue = queue := htaken.networkRecvQueue
      rw [hqueue] at hsame
      rw [htaken.party, hrest]
      refine CloseStep.take (c.closing inputs s) (isFin segment) false _ (sent.map isFin) hwaiting
        hdone hsame (by simp) ?_ ?_
      · intro ack hack
        obtain ⟨segment, hsegment, rfl⟩ := List.mem_map.mp hack
        obtain ⟨header, rfl, hflags⟩ := htaken.acks segment hsegment
        exact isFin_toBytes hflags
      · simpa using htaken.finAnswered
  | close hwaiting hdone hpending hqueue hclose =>
      refine ⟨.close, ?_, by simp, by simp⟩
      have hstep := CloseStep.close (c.closing inputs s) hwaiting hdone hclose
      rw [hsame] at hstep
      rw [isFin_appClose]
      exact hstep
  | acknowledged segment queue hwaiting hqueue =>
      refine ⟨.acknowledged (isFin segment), ?_, by simp, ?_⟩
      · have hrest : (finAcknowledged ((c.ends s).dequeue queue)).networkRecvQueue = queue := by
          obtain ⟨state, done, heq⟩ := finAcknowledged_eq (e := (c.ends s).dequeue queue)
          rw [heq]
          rfl
        rw [hqueue] at hsame
        rw [party_finAcknowledged, hrest, List.map_nil, List.append_nil]
        exact CloseStep.acknowledged (c.closing inputs s) (isFin segment) _ hwaiting hsame
      · intro hfin
        by_cases hstate : (c.ends s).connectionState = .finWait2
        · exact .inr hstate
        · refine .inl ⟨hwaiting, hstate, segment, ?_, CloseMove.acknowledged.inj hfin⟩
          rw [hqueue]
          rfl

/-- **Every step is a move of one party**, seen from its side; data under a FIN and a FIN that is
swallowed are the moves that the two slips make possible. -/
theorem connectionStep_closing (inputs : List Input) {c' : Connection} {i : Input}
    (h : connectionStep o c i = .ok c') :
    ∃ s m, CloseStep m (c.closing inputs s) (c'.closing (inputs ++ [i]) s) ∧
      (m = .data true → ∃ stack, i = .loop s stack ∧ (c.ends s).StaleFin) ∧
      (m = .acknowledged true → ∃ stack, i = .loop s stack ∧
        ((c.ends s).SwallowsFin ∨ (c.ends s).connectionState = .finWait2)) := by
  cases i with
  | write s data =>
      cases h
      refine ⟨s, .idle, ?_, by simp, by simp⟩
      rw [closing_append (by simp)]
      have hsame :
          (c.setEnd s ((c.ends s).mywrite data)).closing inputs s = c.closing inputs s := by
        simp [Connection.closing, Connection.inTransit, Endpoint.mywrite, Endpoint.party]
      rw [hsame]
      exact .idle _
  | close s =>
      cases h
      refine ⟨s, .ask, ?_, by simp, by simp⟩
      have hask : (c.setEnd s (c.ends s).myclose).closing (inputs ++ [.close s]) s
          = { c.closing inputs s with me := (c.closing inputs s).me.ask } := by
        simp [Connection.closing, Connection.inTransit, Endpoint.myclose, Endpoint.party,
          Party.ask, s.peer_ne]
      rw [hask]
      exact .ask _
  | arrive s =>
      obtain ⟨segment, segments, hflight, rfl⟩ := connectionStep_arrive h
      refine ⟨s, .idle, ?_, by simp, by simp⟩
      rw [closing_append (by simp)]
      -- arrival moves a segment from the network to the queue, and both count as in transit
      have hsame : ((c.setInFlight s segments).setEnd s.peer
          ((c.ends s.peer).enqueue segment)).closing inputs s = c.closing inputs s := by
        simp [Connection.closing, Connection.inTransit, Endpoint.enqueue, Endpoint.party, hflight]
      rw [hsame]
      exact .idle _
  | loop s stack =>
      obtain ⟨e, sent, hloop, rfl⟩ := connectionStep_loop h
      obtain ⟨m, hstep, hdata, hack⟩ := loop_closing inputs hloop
      refine ⟨s, m, ?_, fun hm => ⟨stack, rfl, hdata hm⟩, fun hm => ⟨stack, rfl, hack hm⟩⟩
      rw [closing_append (by simp)]
      exact hstep

/-- What holds of the acting party and of its peer holds from both sides. -/
theorem forall_closing {P : Closing → Prop} {s : Side} (h : P (c.closing inputs s))
    (hpeer : P (c.closing inputs s).swap) (s' : Side) : P (c.closing inputs s') := by
  apply (Side.forall_iff (P := fun s' => P (c.closing inputs s')) s).mpr
  rw [closing_peer]
  exact ⟨h, hpeer⟩

end Step

/-! ## Runs -/

/-- Both endpoints have come out of the handshake. -/
structure Connection.Established (c : Connection) : Prop extends Connection.Fresh c where
  state : ∀ s, (c.ends s).connectionState = .established

section Run

variable {o : Side → ByteOrder} {c t : Connection} {inputs : List Input}

theorem Connection.Established.closing (h : c.Established) (s : Side) :
    c.closing [] s = ⟨⟨false, false, .established, false, false⟩,
      ⟨false, false, .established, false, false⟩, [], []⟩ := by
  have hme := (h.ends s).isOpen
  have hpeer := (h.ends s.peer).isOpen
  simp [Connection.closing, Connection.inTransit, Endpoint.party, hme.closeRequested, h.state,
    hme.recvFin, hme.done, hpeer.closeRequested, hpeer.recvFin, hpeer.done, h.inFlight,
    (h.ends s).networkRecvQueue, (h.ends s.peer).networkRecvQueue]

/-- No data is sent under the FIN of a segment that has been taken. -/
def NoStaleFin (_ : List Input) (t : Connection) (i : Input) : Prop :=
  ∀ s stack, i = .loop s stack → ¬ (t.ends s).StaleFin

/-- No FIN is taken for the answer to one. -/
def NoSwallowedFin (_ : List Input) (t : Connection) (i : Input) : Prop :=
  ∀ s stack, i = .loop s stack → ¬ (t.ends s).SwallowsFin

/-- **Whoever is done has agreed with its peer to close**, in a run in which no data is sent as a
FIN. -/
theorem run_agreed (hestablished : c.Established)
    (hstale : Along (connectionStep o) c NoStaleFin inputs)
    (h : run (connectionStep o) c inputs = .ok t) (s : Side) : Agreed (t.closing inputs s) := by
  revert s
  apply run_induction_along (R := fun inputs t => ∀ s, Agreed (t.closing inputs s)) ?_ ?_ hstale h
  · intro s
    rw [hestablished.closing]
    exact ⟨by simp [Party.FinSent], by simp, by simp, by simp⟩
  · intro inputs i t t' _ hagreed hclean hstep
    obtain ⟨s, m, hmove, hdata, -⟩ := connectionStep_closing inputs hstep
    have hm : m ≠ .data true := by
      intro hm
      obtain ⟨stack, hi, hbad⟩ := hdata hm
      exact hclean s stack hi hbad
    obtain ⟨hme, hpeer⟩ := hmove.agreed hm (hagreed s) (closing_peer t inputs s ▸ hagreed s.peer)
    exact forall_closing hme hpeer

/-- **Something is on its way to whoever waits**, in a run in which no FIN is taken for the answer
to one. -/
theorem run_unstuck (hestablished : c.Established)
    (hswallow : Along (connectionStep o) c NoSwallowedFin inputs)
    (h : run (connectionStep o) c inputs = .ok t) (s : Side) : Unstuck (t.closing inputs s) := by
  revert s
  apply run_induction_along (R := fun inputs t => ∀ s, Unstuck (t.closing inputs s)) ?_ ?_
    hswallow h
  · intro s
    rw [hestablished.closing]
    exact ⟨by simp [Party.FinSent], by simp, by simp, by simp⟩
  · intro inputs i t t' _ hunstuck hclean hstep
    obtain ⟨s, m, hmove, -, hack⟩ := connectionStep_closing inputs hstep
    have hm : m = .acknowledged true → (t.closing inputs s).me.state = .finWait2 := by
      intro hm
      obtain ⟨stack, hi, hbad | hstate⟩ := hack hm
      · exact absurd hbad (hclean s stack hi)
      · exact hstate
    obtain ⟨hme, hpeer⟩ :=
      hmove.unstuck hm (hunstuck s) (closing_peer t inputs s ▸ hunstuck s.peer)
    exact forall_closing hme hpeer

/-- **Nobody is done before it has answered its peer**, in a run with neither of the two slips. -/
theorem run_answered (hestablished : c.Established)
    (hstale : Along (connectionStep o) c NoStaleFin inputs)
    (hswallow : Along (connectionStep o) c NoSwallowedFin inputs)
    (h : run (connectionStep o) c inputs = .ok t) (s : Side) : Answered (t.closing inputs s) := by
  revert s
  -- the step needs `Unstuck` too, so the induction is over runs that are clean in both ways
  apply run_induction_along (R := fun inputs t => Along (connectionStep o) c NoSwallowedFin inputs →
    ∀ s, Answered (t.closing inputs s)) ?_ ?_ hstale h hswallow
  · intro _ s
    rw [hestablished.closing]
    exact ⟨by simp, by simp, by simp, by simp, by simp⟩
  · intro inputs i t t' ht hanswered hclean hstep hswallow
    obtain ⟨hbefore, -⟩ := along_snoc.mp hswallow
    obtain ⟨s, m, hmove, hdata, -⟩ := connectionStep_closing inputs hstep
    have hm : m ≠ .data true := by
      intro hm
      obtain ⟨stack, hi, hbad⟩ := hdata hm
      exact hclean s stack hi hbad
    have hunstuck := run_unstuck hestablished hbefore ht
    have hanswered := hanswered hbefore
    obtain ⟨hme, hpeer⟩ := hmove.answered hm (hunstuck s) (closing_peer t inputs s ▸ hunstuck s.peer)
      (hanswered s) (closing_peer t inputs s ▸ hanswered s.peer)
    exact forall_closing hme hpeer

end Run

/-! ## Agreement about the close

A run agrees if each of its steps does. The condition is on the state before a round: the loop is
about to send data with the header of a FIN. -/

/-- The round takes its application's request to close: it sends the FIN, and waits. -/
structure Closes (e e' : Endpoint) : Prop where
  requested : e.closeRequested = true
  idle : e.recvFin = false
  waits : e'.recvFin = true

/-- What a step should do: whoever is done afterwards has agreed with its peer to close, and
whatever is flagged as a FIN is the FIN of the application's own close, not data. -/
structure AgreedStep (o : Side → ByteOrder) (past : List Input) (t : Connection) (i : Input) :
    Prop where
  done : ∀ t' s, connectionStep o t i = .ok t' → (t'.ends s).done = true →
    ∀ s', .close s' ∈ past ++ [i]
  fin : ∀ s stack e sent segment, i = .loop s stack →
    controlLoop (o s) stack (t.ends s) = .ok (e, sent) → segment ∈ sent →
    wireFlags segment &&& thFin ≠ 0 →
    .close s ∈ past ∧ Closes (t.ends s) e ∧ payload segment = []

/-- **Close agreement** throughout a run. -/
def CloseAgreement (o : Side → ByteOrder) (c : Connection) (inputs : List Input) : Prop :=
  Along (connectionStep o) c (AgreedStep o) inputs

section Agreement

variable {o : Side → ByteOrder} {c t : Connection} {inputs : List Input}

theorem agreedStep_of_noStaleFin {i : Input} (hestablished : c.Established)
    (hstale : Along (connectionStep o) c NoStaleFin (inputs ++ [i]))
    (h : run (connectionStep o) c inputs = .ok t) : AgreedStep o inputs t i := by
  obtain ⟨hbefore, hnow⟩ := along_snoc.mp hstale
  constructor
  · intro t' s hstep hdone s'
    have hagreed := run_agreed hestablished hstale (run_snoc.mpr ⟨t, h, hstep⟩) s
    refine (Side.forall_iff (P := fun s' => .close s' ∈ inputs ++ [i]) s).mpr ⟨?_, ?_⟩ s'
    · exact of_decide_eq_true (hagreed.finSent (.inr (.inr (.inr hdone))))
    · exact of_decide_eq_true (hagreed.done hdone)
  · intro s stack e sent segment hi hloop hsegment hflag
    cases controlLoop_round hloop with
    | data hwaiting hdone hpending =>
        rw [List.mem_singleton.mp hsegment, wireFlags_toBytes] at hflag
        exact absurd ⟨hwaiting, hdone, hpending, hflag⟩ (hnow t h s stack hi)
    | take _ queue _ _ _ _ _ _ htaken =>
        obtain ⟨header, rfl, hack⟩ := htaken.acks segment hsegment
        rw [wireFlags_header, hack] at hflag
        exact absurd rfl hflag
    | close hwaiting hdone hpending hqueue hclose =>
        have hagreed := run_agreed hestablished hbefore h s
        refine ⟨of_decide_eq_true (hagreed.finSent (.inl hclose)), ⟨hclose, hwaiting, rfl⟩, ?_⟩
        rw [List.mem_singleton.mp hsegment]
        exact payload_ack (length_toBytes _ _)
    | acknowledged => cases hsegment

theorem CloseAgreement.noStaleFin (h : CloseAgreement o c inputs) :
    Along (connectionStep o) c NoStaleFin inputs := by
  refine h.imp ?_
  rintro past _ t _ _ hagreed s stack rfl hstale
  have hround := controlLoop_data (o s) stack hstale.recvFin hstale.done
    hstale.appRecvQueue
  obtain ⟨-, hcloses, -⟩ := hagreed.fin s stack _ _ _ rfl hround (List.mem_singleton_self _)
    (by rw [wireFlags_toBytes]; exact hstale.header)
  have hwaits : (t.ends s).recvFin = true := hcloses.waits
  rw [hstale.recvFin] at hwaits
  cases hwaits

/-- **Exactly when the close is agreed upon**: no data is sent while the header still has the
flag of a FIN that was taken. -/
theorem closeAgreement_iff (o : Side → ByteOrder) (c : Connection) (inputs : List Input)
    (hestablished : c.Established) :
    CloseAgreement o c inputs ↔ Along (connectionStep o) c NoStaleFin inputs := by
  constructor
  · exact CloseAgreement.noStaleFin
  · intro h
    refine h.imp ?_
    intro past i t ht hbefore hnow
    refine agreedStep_of_noStaleFin hestablished (along_snoc.mpr ⟨hbefore, ?_⟩) ht
    intro t' ht'
    rw [ht] at ht'
    cases ht'
    exact hnow

end Agreement

theorem quietConnection_established : quietConnection.Established :=
  ⟨quietConnection_fresh, fun _ => rfl⟩

/-- What is computed of the endpoint whose loop runs. -/
def loopCheck (p : Endpoint → Bool) (t : Connection) : Input → Bool
  | .loop s _ => p (t.ends s)
  | _ => true

/-- The client closes, and then the server. -/
def closeInTurn : List Input :=
  [.close .client, .loop .client .zero, .arrive .client, .loop .server .zero, .arrive .server,
    .loop .client .zero, .close .server, .loop .server .zero, .arrive .server,
    .loop .client .zero, .arrive .client, .loop .server .zero]

theorem closeAgreement_iff_closeInTurn :
    CloseAgreement littleEndian quietConnection closeInTurn := by
  apply (closeAgreement_iff littleEndian quietConnection closeInTurn
    quietConnection_established).mpr
  have hcheck : alongCheck (connectionStep littleEndian)
      (loopCheck fun e => !decide e.StaleFin) quietConnection closeInTurn = true := by
    decide +kernel
  refine (along_of_check hcheck).imp ?_
  rintro past _ t _ _ hloop s stack rfl
  simpa [loopCheck] using hloop

/-- The client closes, and the server writes when it has taken the client's FIN. -/
def writeBehindFin : List Input :=
  [.close .client, .loop .client .zero, .arrive .client, .loop .server .zero,
    .write .server [65], .loop .server .zero]

/-- Data is sent as a FIN, although the application that has written it has not closed. -/
theorem not_closeAgreement_writeBehindFin :
    quietConnection.Established ∧ (∀ s, (quietConnection.ends s).header.thFlags = 0) ∧
      ¬ CloseAgreement littleEndian quietConnection writeBehindFin := by
  refine ⟨quietConnection_established, fun _ => rfl, ?_⟩
  have hrun : ∃ t,
      run (connectionStep littleEndian) quietConnection (writeBehindFin.take 5) = .ok t ∧
      decide ((t.ends .server).recvFin = false ∧ (t.ends .server).done = false ∧
        (t.ends .server).appRecvQueue ≠ [] ∧
        (t.ends .server).header.thFlags &&& thFin ≠ 0) = true :=
    exists_ok_of_check (by decide +kernel)
  obtain ⟨t, hrun, hstale⟩ := hrun
  obtain ⟨hwaiting, hdone, happ, hflag⟩ := of_decide_eq_true hstale
  refine mt CloseAgreement.noStaleFin (Happens.not_along ?_)
  refine ⟨_, .loop .server .zero, [], t, rfl, hrun, ?_⟩
  exact fun hclean => hclean .server .zero rfl ⟨hwaiting, hdone, happ, hflag⟩

/-! ## The end of the close

At the end nothing is in flight, and what has arrived at an endpoint that is done stays in its queue
for ever. A request that the loop has not taken, or has lost, starts no close
(`processed_or_pending`). -/

/-- `s` has taken the request of its application to close. -/
def Processed (o : Side → ByteOrder) (c : Connection) (inputs : List Input) (s : Side) : Prop :=
  Happens (connectionStep o) c (fun _ t i => ∃ stack e sent, i = .loop s stack ∧
    controlLoop (o s) stack (t.ends s) = .ok (e, sent) ∧ Closes (t.ends s) e) inputs

/-- **No stuck close**: when both have taken their requests to close, no segment is in flight and
nothing is left to be sent, both are done. What has arrived counts as in flight until it is taken;
but an endpoint that is done takes nothing, so its own queue does not count. -/
def NoStuckClose (o : Side → ByteOrder) (c : Connection) (inputs : List Input) (t : Connection) :
    Prop :=
  (∀ s, .close s ∈ inputs) → (∀ s, Processed o c inputs s) → (∀ s, t.inFlight s = []) →
    (∀ s, (t.ends s).done = false → (t.ends s).networkRecvQueue = []) →
    (∀ s, (t.ends s).appRecvQueue = []) → ∀ s, (t.ends s).done = true

section Stuck

variable {o : Side → ByteOrder} {c t : Connection} {inputs : List Input}

/-- Whoever has taken its request has sent its FIN. -/
theorem Processed.finSent {s : Side} (hprocessed : Processed o c inputs s)
    (h : run (connectionStep o) c inputs = .ok t) : (t.closing inputs s).me.FinSent := by
  revert hprocessed
  apply run_induction (P := fun inputs t =>
    Processed o c inputs s → (t.closing inputs s).me.FinSent) ?_ ?_ h
  · rintro ⟨past, i, later, t, hnil, -⟩
    simp at hnil
  · intro inputs i t t' ht ih hstep hprocessed
    rcases happens_snoc.mp hprocessed with hbefore | ⟨t₀, ht₀, stack, e, sent, rfl, hloop, hcloses⟩
    · obtain ⟨s', m, hmove, -⟩ := connectionStep_closing inputs hstep
      have hstays : ∀ s, (t.closing inputs s).me.FinSent →
          (t'.closing (inputs ++ [i]) s).me.FinSent := by
        refine (Side.forall_iff s').mpr ⟨hmove.finSent, ?_⟩
        rw [closing_peer, closing_peer, Closing.swap_me, Closing.swap_me, hmove.peer]
        exact id
      exact hstays s (ih hbefore)
    · rw [ht] at ht₀
      cases ht₀
      simp only [connectionStep, hloop] at hstep
      cases hstep
      apply Or.inl
      simpa [Connection.closing, Endpoint.party] using hcloses.waits

/-- No request to close is reported together with a segment. The code would take the segment,
and the request would not be reported again. -/
def NoLostRequest (_ : List Input) (t : Connection) (i : Input) : Prop :=
  ∀ s stack, i = .loop s stack → (t.ends s).recvFin = false → (t.ends s).closeRequested = true →
    (t.ends s).appRecvQueue = [] → (t.ends s).networkRecvQueue = []

/-- A request that is not lost is pending until it is taken. -/
theorem processed_or_pending (hlost : Along (connectionStep o) c NoLostRequest inputs)
    (h : run (connectionStep o) c inputs = .ok t) (s : Side) (hclose : .close s ∈ inputs) :
    (t.ends s).closeRequested = true ∨ Processed o c inputs s := by
  revert s
  apply run_induction_along (R := fun inputs t => ∀ s, .close s ∈ inputs →
    (t.ends s).closeRequested = true ∨ Processed o c inputs s) ?_ ?_ hlost h
  · simp
  · intro inputs i t t' ht ih hkept hstep s hclose
    have hbefore : .close s ∈ inputs →
        (t.ends s).closeRequested = true ∨ Processed o c (inputs ++ [i]) s :=
      fun hmem => (ih s hmem).imp_right fun hp => happens_snoc.mpr (.inl hp)
    cases i with
    | write s₀ data =>
        cases hstep
        rw [setEnd_congr (f := Endpoint.closeRequested) (e := (t.ends s₀).mywrite data) rfl]
        exact hbefore (by simpa using hclose)
    | close s₀ =>
        cases hstep
        rcases s₀.eq_or_eq_peer s with rfl | rfl
        · exact .inl (by rw [ends_setEnd_self]; rfl)
        · rw [ends_setEnd_peer]
          apply hbefore
          simpa [s₀.peer_ne] using hclose
    | arrive s₀ =>
        obtain ⟨segment, segments, -, rfl⟩ := connectionStep_arrive hstep
        rw [setEnd_congr (f := Endpoint.closeRequested) (c := t.setInFlight s₀ segments)
          (e := (t.ends s₀.peer).enqueue segment) rfl, ends_setInFlight]
        exact hbefore (by simpa using hclose)
    | loop s₀ stack =>
        obtain ⟨e, sent, hloop, rfl⟩ := connectionStep_loop hstep
        have hbefore := hbefore (by simpa using hclose)
        rw [ends_setInFlight]
        rcases s₀.eq_or_eq_peer s with rfl | rfl
        · rw [ends_setEnd_self]
          rcases hbefore with hpending | hprocessed
          · cases controlLoop_round hloop with
            | data => exact .inl hpending
            | take segment queue _ _ hwaiting _ happ hqueue _ =>
                -- a request that is due when a segment is taken would be lost
                have hnil := hkept s stack rfl hwaiting hpending happ
                rw [hqueue] at hnil
                cases hnil
            | close hwaiting hdone happ hqueue hrequested =>
                apply Or.inr
                apply happens_snoc.mpr
                exact .inr ⟨t, ht, stack, _, _, rfl, hloop, hrequested, hwaiting, rfl⟩
            | acknowledged segment queue =>
                obtain ⟨state, done, heq⟩ := finAcknowledged_eq (e := (t.ends s).dequeue queue)
                rw [heq]
                exact .inl hpending
          · exact .inr hprocessed
        · rw [ends_setEnd_peer]
          exact hbefore

/-- **No close is stuck** in a run in which no endpoint sends data as a FIN, and none takes the
peer's FIN for the answer to its own. -/
theorem noStuckClose_of_noStaleFin_noSwallowedFin (o : Side → ByteOrder) (c : Connection)
    (inputs : List Input) (t : Connection) (hestablished : c.Established)
    (hstale : Along (connectionStep o) c NoStaleFin inputs)
    (hswallow : Along (connectionStep o) c NoSwallowedFin inputs)
    (h : run (connectionStep o) c inputs = .ok t) : NoStuckClose o c inputs t := by
  intro _ hprocessed hflight hqueue _ s
  -- what is on its way to `s` is in the queue of `s`
  have hnothing : ∀ s, (t.ends s).done = false → (t.closing inputs s).inn = [] := by
    intro s hdone
    simp [Connection.closing, Connection.inTransit, hflight, hqueue s hdone]
  have hanswered := run_answered hestablished hstale hswallow h s
  refine hanswered.done (run_unstuck hestablished hswallow h s) ((hprocessed s).finSent h) ?_
    (hnothing s) ?_
  · simpa using (hprocessed s.peer).finSent h
  · intro hdone
    simpa using hnothing s.peer hdone

theorem processed_of_check {s : Side} (past later : List Input) {stack : STCPHeader}
    (h : (run (connectionStep o) c past).toOption.any (fun t =>
      (controlLoop (o s) stack (t.ends s)).toOption.any fun (e, _) =>
        (t.ends s).closeRequested && !(t.ends s).recvFin && e.recvFin) = true) :
    Processed o c (past ++ .loop s stack :: later) s := by
  obtain ⟨t, ht, hloop⟩ := exists_ok_of_check h
  obtain ⟨⟨e, sent⟩, he, hcloses⟩ := exists_ok_of_check hloop
  obtain ⟨⟨hrequested, hidle⟩, hwaits⟩ : ((t.ends s).closeRequested = true ∧
      (t.ends s).recvFin = false) ∧ e.recvFin = true := by simpa using hcloses
  exact ⟨past, _, later, t, rfl, ht, stack, e, sent, rfl, he, hrequested, hidle, hwaits⟩

end Stuck

theorem noStuckClose_of_noStaleFin_noSwallowedFin_closeInTurn : ∃ t,
    run (connectionStep littleEndian) quietConnection closeInTurn = .ok t ∧
      ((t.ends .client).done = true ∧ (t.ends .server).done = true) ∧
      NoStuckClose littleEndian quietConnection closeInTurn t := by
  have hrun : ∃ t, run (connectionStep littleEndian) quietConnection closeInTurn = .ok t ∧
      decide ((t.ends .client).done = true ∧ (t.ends .server).done = true) = true :=
    exists_ok_of_check (by decide +kernel)
  obtain ⟨t, hrun, hdone⟩ := hrun
  refine ⟨t, hrun, of_decide_eq_true hdone, ?_⟩
  have hcheck : alongCheck (connectionStep littleEndian)
      (loopCheck fun e => !decide e.StaleFin && !decide e.SwallowsFin) quietConnection
      closeInTurn = true := by
    decide +kernel
  have hclean := along_of_check hcheck
  refine noStuckClose_of_noStaleFin_noSwallowedFin littleEndian quietConnection closeInTurn t
    quietConnection_established (hclean.imp ?_) (hclean.imp ?_) hrun
  · rintro past _ t _ _ hloop s stack rfl
    simp only [loopCheck, Bool.and_eq_true] at hloop
    simpa using hloop.1
  · rintro past _ t _ _ hloop s stack rfl
    simp only [loopCheck, Bool.and_eq_true] at hloop
    simpa using hloop.2

/-- Both applications close at the same time. -/
def closeBoth : List Input :=
  [.close .client, .close .server, .loop .client .zero, .loop .server .zero, .arrive .client,
    .arrive .server, .loop .client .zero, .loop .server .zero]

/-- Each takes the other's FIN for the answer to its own. -/
theorem not_noStuckClose_closeBoth : quietConnection.Established ∧ ∃ t,
    run (connectionStep littleEndian) quietConnection closeBoth = .ok t ∧
      ¬ NoStuckClose littleEndian quietConnection closeBoth t := by
  have hrun : ∃ t, run (connectionStep littleEndian) quietConnection closeBoth = .ok t ∧
      decide ((∀ s ∈ [Side.client, .server], t.inFlight s = [] ∧
          (t.ends s).networkRecvQueue = [] ∧ (t.ends s).appRecvQueue = []) ∧
        (t.ends .client).done = false) = true :=
    exists_ok_of_check (by decide +kernel)
  obtain ⟨t, hrun, hquiet⟩ := hrun
  obtain ⟨hquiet, hdone⟩ := of_decide_eq_true hquiet
  have hquiet : ∀ s, t.inFlight s = [] ∧ (t.ends s).networkRecvQueue = [] ∧
      (t.ends s).appRecvQueue = [] := by
    intro s
    apply hquiet
    cases s <;> decide
  refine ⟨quietConnection_established, t, hrun, ?_⟩
  intro h
  have hboth := h ?_ ?_ (fun s => (hquiet s).1) (fun s _ => (hquiet s).2.1)
    (fun s => (hquiet s).2.2) .client
  · rw [hdone] at hboth
    cases hboth
  · intro s
    cases s <;> decide
  · intro s
    cases s with
    | client =>
        exact processed_of_check (closeBoth.take 2) (closeBoth.drop 3) (by decide +kernel)
    | server =>
        exact processed_of_check (closeBoth.take 3) (closeBoth.drop 4) (by decide +kernel)

end NetworkProjects.Transport
