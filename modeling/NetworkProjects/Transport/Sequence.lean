import NetworkProjects.Transport.Round
import NetworkProjects.Transport.Stream

/-!
# Sequence numbers

What the server expects next, the data in transit and the client's own sequence number fit
together, byte for byte (`Sequenced`). They do so from the end of the handshake on, since both
sides make the same mistake with the client's first number; the numbers of the other direction do
not fit.
-/

namespace NetworkProjects.Transport

open NetworkProjects.Lib

/-! ## Segments in sequence

The numbers are 32 bits wide and wrap around, so a list of segments is in sequence if each number is
the one before plus the length, modulo `2 ^ 32`. -/

/-- The numbers of the segments lead from `next` to `last`. -/
def Sequenced (next : UInt32) : List Bytes → UInt32 → Prop
  | [], last => next = last
  | segment :: segments, last => (payload segment ≠ [] → wireSeq segment = next) ∧
      Sequenced (next + UInt32.ofNat (payload segment).length) segments last

/-- The bytes of data that the segments carry. -/
def payloadBytes (segments : List Bytes) : Nat := (segments.map payload).flatten.length

section Sequenced

variable {next last : UInt32} {segments : List Bytes}

theorem ofNat_add (m n : Nat) : UInt32.ofNat (m + n) = UInt32.ofNat m + UInt32.ofNat n := by
  apply UInt32.toNat_inj.mp
  simp [UInt32.toNat_ofNat']

/-- **The last number** is as many bytes behind the next one as are in transit. -/
theorem Sequenced.last_eq (h : Sequenced next segments last) :
    last = next + UInt32.ofNat (payloadBytes segments) := by
  induction segments generalizing next with
  | nil => simpa [payloadBytes] using h.symm
  | cons segment segments ih =>
      have hbytes : payloadBytes (segment :: segments)
          = (payload segment).length + payloadBytes segments := by simp [payloadBytes]
      rw [ih h.2, hbytes, ofNat_add, UInt32.add_assoc]

/-- More data under the last number. -/
theorem Sequenced.snoc (h : Sequenced next segments last) (segment : Bytes)
    (hseq : payload segment ≠ [] → wireSeq segment = last) :
    Sequenced next (segments ++ [segment])
      (last + UInt32.ofNat (payload segment).length) := by
  induction segments generalizing next with
  | nil =>
      cases h
      exact ⟨hseq, rfl⟩
  | cons first segments ih => exact ⟨h.1, ih h.2⟩

/-- Acknowledgements do not count. -/
theorem Sequenced.append_acks (h : Sequenced next segments last) {acks : List Bytes}
    (hacks : ∀ ack ∈ acks, payload ack = []) : Sequenced next (segments ++ acks) last := by
  induction acks using List.reverseRecOn with
  | nil => simpa using h
  | append_singleton acks ack ih =>
      have hnil := hacks ack (by simp)
      have hsnoc := (ih fun ack hack => hacks ack (List.mem_append_left _ hack)).snoc
        ack (fun hne => absurd hnil hne)
      rw [hnil] at hsnoc
      simpa using hsnoc

end Sequenced

/-! ## The numbers of a connection

A sender numbers what it sends, and the receiver counts what it takes: the segments in transit lead
from the one number to the other. -/

/-- What `s` sends is in sequence. -/
def Connection.Sequenced (c : Connection) (s : Side) : Prop :=
  Transport.Sequenced (c.ends s.peer).nextExpectedByte (c.inTransit s) (c.ends s).sequenceNumber

section Step

variable {o : Side → ByteOrder} {c c' : Connection}

/-- What a round of a connected endpoint can be. -/
theorem Round.open_cases {o : ByteOrder} {e e' : Endpoint} {sent : List Bytes} (hopen : e.Open)
    (h : Round o e e' sent) :
    e' = (appData o e.openWindow).1 ∧ sent = (appData o e.openWindow).2 ∨ ∃ segment queue,
      e.networkRecvQueue = segment :: queue ∧
      Taken o segment ({ e.openWindow with closeRequested := false }.dequeue queue) e' sent := by
  cases h with
  | data => exact .inl ⟨rfl, rfl⟩
  | take segment queue _ _ _ _ _ hqueue htaken => exact .inr ⟨segment, queue, hqueue, htaken⟩
  | close _ _ _ _ hclose =>
      rw [hopen.closeRequested] at hclose
      cases hclose
  | acknowledged _ _ hwaiting =>
      rw [hopen.recvFin] at hwaiting
      cases hwaiting

theorem loop_sequenced {s : Side} {stack : STCPHeader} {e : Endpoint} {sent : List Bytes}
    (hopen : (c.ends s).Open) (h : controlLoop (o s) stack (c.ends s) = .ok (e, sent))
    (s' : Side) (hsequenced : c.Sequenced s') :
    ((c.setEnd s e).setInFlight s (c.inFlight s ++ sent)).Sequenced s' := by
  revert s'
  rcases (controlLoop_round h).open_cases hopen with
    ⟨rfl, rfl⟩ | ⟨segment, queue, hqueue, htaken⟩
  · refine (Side.forall_iff s).mpr ⟨fun hsequenced => ?_, fun hsequenced => ?_⟩
    · obtain ⟨header, chunk, hsent, hseq, hnumber⟩ : ∃ header chunk,
          (appData (o s) (c.ends s).openWindow).2 = [STCPHeader.toBytes (o s) header ++ chunk] ∧
          header.thSeq = (o s).htonl (c.ends s).sequenceNumber ∧
          (appData (o s) (c.ends s).openWindow).1.sequenceNumber
            = (c.ends s).sequenceNumber + UInt32.ofNat chunk.length := ⟨_, _, rfl, rfl, rfl⟩
      -- the piece carries the next number, and the number moves on by its length
      have hsnoc := hsequenced.snoc (header.toBytes (o s) ++ chunk) fun _ => by
        rw [wireSeq_toBytes, hseq, ByteOrder.ntohl_htonl]
      rw [payload_append] at hsnoc
      simpa [Connection.Sequenced, Connection.inTransit, hsent, hnumber] using hsnoc
    · simpa [Connection.Sequenced, Connection.inTransit, appData, Endpoint.openWindow]
        using hsequenced
  · refine (Side.forall_iff s).mpr ⟨fun hsequenced => ?_, fun hsequenced => ?_⟩
    · have hacks : ∀ ack ∈ sent, payload ack = [] := by
        intro ack hack
        obtain ⟨header, rfl, -⟩ := htaken.acks ack hack
        exact payload_ack (length_toBytes _ _)
      have hnumber : e.sequenceNumber = (c.ends s).sequenceNumber := htaken.sequenceNumber
      simpa [Connection.Sequenced, Connection.inTransit, hnumber]
        using hsequenced.append_acks hacks
    · have hrest : e.networkRecvQueue = queue := htaken.networkRecvQueue
      have hnext : e.nextExpectedByte
          = (c.ends s).nextExpectedByte + UInt32.ofNat (payload segment).length :=
        htaken.nextExpectedByte
      have htail : Transport.Sequenced (c.ends s).nextExpectedByte
          (segment :: (queue ++ c.inFlight s.peer)) (c.ends s.peer).sequenceNumber := by
        simpa [Connection.Sequenced, Connection.inTransit, hqueue] using hsequenced
      simpa [Connection.Sequenced, Connection.inTransit, hrest, hnext] using htail.2

/-- **Every step keeps both directions in sequence**, unless an application closes: each piece
carries the number behind the one before it. -/
theorem connectionStep_sequenced {i : Input} (hopen : ∀ s, (c.ends s).Open)
    (hi : ∀ s, i ≠ .close s) (h : connectionStep o c i = .ok c') {s : Side}
    (hsequenced : c.Sequenced s) : c'.Sequenced s := by
  cases i with
  | close s => exact absurd rfl (hi s)
  | write s₀ data =>
      cases h
      have htransit := congrArg Flow.transit (write_flow (c := c) s₀ data s)
      have hnext := setEnd_congr (f := Endpoint.nextExpectedByte)
        (e := (c.ends s₀).mywrite data) rfl s.peer
      have hnumber := setEnd_congr (f := Endpoint.sequenceNumber)
        (e := (c.ends s₀).mywrite data) rfl s
      show Transport.Sequenced _ (Connection.flow _ s).transit _
      rw [htransit, hnext, hnumber]
      exact hsequenced
  | arrive s₀ =>
      obtain ⟨segment, segments, hflight, rfl⟩ := connectionStep_arrive h
      have htransit := congrArg Flow.transit (arrive_flow hflight s)
      have hnext := setEnd_congr (f := Endpoint.nextExpectedByte)
        (c := c.setInFlight s₀ segments) (e := (c.ends s₀.peer).enqueue segment) rfl s.peer
      have hnumber := setEnd_congr (f := Endpoint.sequenceNumber)
        (c := c.setInFlight s₀ segments) (e := (c.ends s₀.peer).enqueue segment) rfl s
      show Transport.Sequenced _ (Connection.flow _ s).transit _
      rw [htransit, hnext, hnumber]
      exact hsequenced
  | loop s₀ stack =>
      obtain ⟨e, sent, hloop, rfl⟩ := connectionStep_loop h
      exact loop_sequenced (hopen s₀) hloop s hsequenced

theorem run_sequenced {t : Connection} {inputs : List Input} {s : Side} (hfresh : c.Fresh)
    (hclose : ∀ s, .close s ∉ inputs) (hstart : c.Sequenced s)
    (h : run (connectionStep o) c inputs = .ok t) : t.Sequenced s := by
  revert hclose
  apply run_induction (P := fun inputs t => (∀ s, .close s ∉ inputs) → t.Sequenced s) ?_ ?_ h
  · exact fun _ => hstart
  · intro inputs i t t' ht ih hstep hclose
    have hbefore : ∀ s, .close s ∉ inputs := fun s hs => hclose s (List.mem_append_left _ hs)
    have hopen := (run_ok hfresh hbefore ht).isOpen
    exact connectionStep_sequenced hopen (fun s hs => hclose s (by simp [hs])) hstep (ih hbefore)

end Step

/-! ## From client to server -/

/-- Both endpoints come out of the handshake `hs`. -/
structure Connection.After (c : Connection) (hs : Handshake) : Prop where
  fresh : c.Fresh
  client : hs.client.point = .controlLoop
  server : hs.server.point = .controlLoop
  sequenceNumber : (c.ends .client).sequenceNumber = hs.client.sequenceNumber ∧
    (c.ends .server).sequenceNumber = hs.server.sequenceNumber
  nextExpectedByte : (c.ends .client).nextExpectedByte = hs.client.nextExpectedByte ∧
    (c.ends .server).nextExpectedByte = hs.server.nextExpectedByte
  acknowledgedByte : (c.ends .client).acknowledgedByte = hs.client.acknowledgedByte ∧
    (c.ends .server).acknowledgedByte = hs.server.acknowledgedByte

/-- The numbers of the client and of the server. -/
structure SequenceAccounting (o : ByteOrder) (t : Connection) : Prop where
  inFlight : (t.ends .client).sequenceNumber =
    (t.ends .server).nextExpectedByte + UInt32.ofNat (payloadBytes (t.inTransit .client))
  /-- The server takes a segment with data under the number that it expects, and acknowledges the
  data. -/
  taken : ∀ stack e sent segment, controlLoop o stack (t.ends .server) = .ok (e, sent) →
    (t.ends .server).networkRecvQueue = segment :: e.networkRecvQueue → payload segment ≠ [] →
    wireSeq segment = (t.ends .server).nextExpectedByte ∧
      ∃ ack ∈ sent, wireFlags ack = thAck ∧
        wireAck ack = wireSeq segment + UInt32.ofNat (payload segment).length

theorem Connection.Sequenced.accounting {o : ByteOrder} {t : Connection}
    (hopen : (t.ends .server).Open) (h : t.Sequenced .client) : SequenceAccounting o t := by
  refine ⟨h.last_eq, ?_⟩
  intro stack e sent segment hloop hqueue hdata
  have htransit : t.inTransit .client
      = segment :: (e.networkRecvQueue ++ t.inFlight .client) := by
    simp [Connection.inTransit, Side.peer, hqueue]
  have hseq : wireSeq segment = (t.ends .server).nextExpectedByte := by
    rw [Connection.Sequenced, htransit] at h
    exact h.1 hdata
  refine ⟨hseq, ?_⟩
  rcases (controlLoop_round hloop).open_cases hopen with
    ⟨rfl, -⟩ | ⟨taken, queue, htake, htaken⟩
  · exact absurd (congrArg List.length hqueue) (by simp [appData, Endpoint.openWindow])
  · have hrest : e.networkRecvQueue = queue := htaken.networkRecvQueue
    rw [hrest, htake] at hqueue
    cases hqueue
    obtain ⟨ack, hack, hnumber⟩ := htaken.answered hdata
    obtain ⟨header, rfl, hflags⟩ := htaken.acks ack hack
    refine ⟨_, hack, by rw [wireFlags_header, hflags], ?_⟩
    rw [hnumber, hseq]
    exact htaken.nextExpectedByte

/-- **The numbers from client to server fit** from the handshake until an application closes. -/
theorem sequenceAccounting (o : ByteOrder) (x y : UInt32) (sides : List Side) (hs : Handshake)
    (c t : Connection) (inputs : List Input)
    (hhandshake : run (handshakeStep o x y) .start sides = .ok hs) (hafter : c.After hs)
    (hclose : ∀ s, .close s ∉ inputs)
    (h : run (connectionStep fun _ => o) c inputs = .ok t) : SequenceAccounting o t := by
  have hestablished := eq_established (mem_course hhandshake) hafter.client hafter.server
  have hstart : c.Sequenced .client := by
    have hfresh := hafter.fresh
    have htransit : c.inTransit .client = [] := by
      simp [Connection.inTransit, (hfresh.ends _).networkRecvQueue, hfresh.inFlight]
    rw [Connection.Sequenced, htransit]
    show (c.ends .server).nextExpectedByte = (c.ends .client).sequenceNumber
    rw [hafter.nextExpectedByte.2, hafter.sequenceNumber.1, hestablished]
    rfl
  have hopen := (run_ok hafter.fresh hclose h).isOpen
  exact (run_sequenced hafter.fresh hclose hstart h).accounting (hopen .server)

/-- Two endpoints that have just come out of the handshake `hs`. -/
def Handshake.connection (hs : Handshake) : Connection where
  ends
    | .client => { quietConnection.ends .client with
        acknowledgedByte := hs.client.acknowledgedByte
        nextExpectedByte := hs.client.nextExpectedByte
        sequenceNumber := hs.client.sequenceNumber }
    | .server => { quietConnection.ends .server with
        acknowledgedByte := hs.server.acknowledgedByte
        nextExpectedByte := hs.server.nextExpectedByte
        sequenceNumber := hs.server.sequenceNumber }
  inFlight _ := []

theorem Handshake.connection_after {hs : Handshake} (hclient : hs.client.point = .controlLoop)
    (hserver : hs.server.point = .controlLoop) : hs.connection.After hs where
  fresh := by
    refine ⟨fun s => ?_, fun s => rfl⟩
    cases s with
    | client => exact ⟨⟨rfl, rfl, rfl, by simp [connection, quietConnection],
        List.length_replicate⟩, rfl, rfl, rfl, rfl⟩
    | server => exact ⟨⟨rfl, rfl, rfl, by simp [connection, quietConnection],
        List.length_replicate⟩, rfl, rfl, rfl, rfl⟩
  client := hclient
  server := hserver
  sequenceNumber := ⟨rfl, rfl⟩
  nextExpectedByte := ⟨rfl, rfl⟩
  acknowledgedByte := ⟨rfl, rfl⟩

theorem sequenceAccounting_oneWrite : ∃ t,
    run (connectionStep littleEndian) (established .little 7 29).connection
      (oneWrite [65] ++ [.write .client [66, 67], .loop .client .zero]) = .ok t ∧
      payloadBytes (t.inTransit .client) = 2 ∧ SequenceAccounting .little t := by
  have hrun : ∃ t, run (connectionStep littleEndian) (established .little 7 29).connection
      (oneWrite [65] ++ [.write .client [66, 67], .loop .client .zero]) = .ok t ∧
      decide (payloadBytes (t.inTransit .client) = 2) = true :=
    exists_ok_of_check (by decide +kernel)
  obtain ⟨t, hrun, hbytes⟩ := hrun
  refine ⟨t, hrun, of_decide_eq_true hbytes, ?_⟩
  exact sequenceAccounting .little 7 29 [.client, .server, .client, .server] _ _ t _ run_established
    (Handshake.connection_after rfl rfl) (by simp [oneWrite]) hrun

end NetworkProjects.Transport
