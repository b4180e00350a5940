import NetworkProjects.Transport.Stream

/-!
# Segments without a whole header

What `stcp_network_recv` returns may be shorter than a header. Before the `NETWORK_DATA` branch
asks whether more than a header has arrived, it has made an array of the length less 20 and copied
as many bytes into it, and has looked at the flags of a header that is partly left from an earlier
segment. So a segment is handled without harm if and only if it holds a header
(`shortHarmless_iff`).

The stub asserts that there is a header in everything that has any bytes. But when its thread cannot
receive, it puts nothing in the queue to signal the error, and then the length is 0.
-/

namespace NetworkProjects.Transport

open NetworkProjects.Lib

/-- A use of the length that has been received. -/
inductive LengthUse
  /-- As the size of an array. -/
  | arraySize (n : Int)
  /-- As the number of bytes to copy. -/
  | copyLength (n : Int)
  /-- The header that has been copied from the buffer is looked at. -/
  | headerFields
  deriving DecidableEq, Repr

/-- What the `NETWORK_DATA` branch does with `BytesReceivedFromNetworkLayer`: the array, `strncpy`,
`Header.th_flags`, and `stcp_app_send`. -/
def lengthUses (received : Int) : List LengthUse :=
  [.arraySize (received - 20), .copyLength (received - 20), .headerFields] ++
    if 20 < received then [.copyLength (received - 20)] else []

/-- The use is in order. -/
def LengthUse.InOrder (received : Int) : LengthUse → Prop
  | arraySize n => 0 ≤ n
  | copyLength n => 0 ≤ n
  | headerFields => 20 ≤ received

instance (received : Int) : (u : LengthUse) → Decidable (u.InOrder received)
  | .arraySize n => inferInstanceAs (Decidable (0 ≤ n))
  | .copyLength n => inferInstanceAs (Decidable (0 ≤ n))
  | .headerFields => inferInstanceAs (Decidable (20 ≤ received))

/-- A statement that puts the length to use, and what comes after it: what the length has been used
for, and what comes of it. There is no way on from a use that is not in order. -/
def useLength {α : Type} (received : Int) (u : LengthUse) (after : List LengthUse × Except Stop α) :
    List LengthUse × Except Stop α :=
  if u.InOrder received then (u :: after.1, after.2) else ([u], .error .fault)

/-- `networkData`, with what it does with the length, statement by statement. -/
def networkDataTraced (o : ByteOrder) (stack : STCPHeader) (segment : Bytes) (e : Endpoint) :
    List LengthUse × Except Stop (Endpoint × List Bytes) :=
  let received : Int := segment.length
  let networkBuffer := segment.take networkBufferSize ++ e.networkBuffer.drop segment.length
  useLength received (.arraySize (received - 20)) <|
  useLength received (.copyLength (received - 20)) <|
  match strncpy (networkBuffer.drop headerSize) (segment.length - headerSize) with
  | none => ([], .error .fault)
  | some data =>
      useLength received .headerFields <|
      let e := takeAck o { e with networkBuffer, header := .ofBytes o networkBuffer }
      let (e, acks) := takeData o stack data e
      let (e, finAcks) := takeFin o stack e
      -- `stcp_app_send`, which `takeData` has done
      if 20 < received then
        useLength received (.copyLength (received - 20)) ([], .ok (e, acks ++ finAcks))
      else ([], .ok (e, acks ++ finAcks))

theorem useLength_inOrder {α : Type} {received : Int} {u : LengthUse} (h : u.InOrder received)
    (after : List LengthUse × Except Stop α) :
    useLength received u after = (u :: after.1, after.2) := if_pos h

/-- Nothing that outlives the segment is different. -/
structure Untouched (e e' : Endpoint) : Prop where
  sequenceNumber : e'.sequenceNumber = e.sequenceNumber
  nextExpectedByte : e'.nextExpectedByte = e.nextExpectedByte
  acknowledgedByte : e'.acknowledgedByte = e.acknowledgedByte
  connectionState : e'.connectionState = e.connectionState
  delivered : e'.delivered = e.delivered
  finReceived : e'.finReceived = e.finReceived

/-- What a segment should do, whatever its length: the length is put to no use that it is too short
for, and a segment without a whole header changes nothing. -/
structure ShortHarmless (o : ByteOrder) (stack : STCPHeader) (segment : Bytes) (e : Endpoint) :
    Prop where
  uses : ∀ u ∈ lengthUses segment.length, u.InOrder segment.length
  handled : ∃ e' sent, networkData o stack segment e = .ok (e', sent) ∧
    (segment.length < headerSize → Untouched e e')

section Segments

variable {o : ByteOrder} {stack : STCPHeader} {segment : Bytes} {e : Endpoint}

theorem inOrder_lengthUses {received : Int} :
    (∀ u ∈ lengthUses received, u.InOrder received) ↔ 20 ≤ received := by
  constructor
  · intro h
    exact h .headerFields (by simp [lengthUses])
  · intro h u hu
    have hcases : u = .arraySize (received - 20) ∨ u = .copyLength (received - 20) ∨
        u = .headerFields := by
      simp only [lengthUses, List.mem_append, List.mem_cons, List.not_mem_nil, or_false] at hu
      rcases hu with hu | hu
      · exact hu
      · split at hu
        · exact .inr (.inl (List.mem_singleton.mp hu))
        · cases hu
    rcases hcases with rfl | rfl | rfl
    · exact Int.sub_nonneg_of_le h
    · exact Int.sub_nonneg_of_le h
    · exact h

/-- **With a header, the length is used as listed**, and what comes of it is what comes of the
branch. -/
theorem networkDataTraced_header (o : ByteOrder) (stack : STCPHeader)
    (hbuffer : e.networkBuffer.length = networkBufferSize)
    (hsize : segment.length ≤ networkBufferSize) (hheader : headerSize ≤ segment.length) :
    networkDataTraced o stack segment e
      = (lengthUses segment.length, networkData o stack segment e) := by
  obtain ⟨-, hcopy⟩ := strncpy_payload hsize hbuffer
  have hinOrder : ∀ u ∈ lengthUses segment.length, u.InOrder segment.length :=
    inOrder_lengthUses.mpr (by exact_mod_cast hheader)
  simp only [lengthUses, List.forall_mem_append, List.forall_mem_cons] at hinOrder
  obtain ⟨⟨harray, hcopied, hfields, -⟩, -⟩ := hinOrder
  simp only [networkDataTraced, networkData, lengthUses, hcopy, useLength_inOrder harray,
    useLength_inOrder hcopied, useLength_inOrder hfields, if_neg (Nat.not_lt.mpr hheader)]
  split
  · rfl
  · rfl

/-- **Without a header, the first use is out of order**, and the branch comes to nothing. -/
theorem networkDataTraced_short (o : ByteOrder) (stack : STCPHeader)
    (hshort : segment.length < headerSize) :
    networkDataTraced o stack segment e = ([.arraySize ((segment.length : Int) - 20)], .error .fault)
      ∧ networkData o stack segment e = .error .fault := by
  refine ⟨if_neg ?_, if_pos hshort⟩
  show ¬ (0 : Int) ≤ segment.length - 20
  unfold headerSize at hshort
  omega

/-- The branch runs into a fault where a use of the length is out of order, and nowhere else. -/
theorem networkData_faults_iff (hbuffer : e.networkBuffer.length = networkBufferSize)
    (hsize : segment.length ≤ networkBufferSize) :
    networkData o stack segment e = .error .fault ↔
      ∃ u ∈ lengthUses segment.length, ¬ u.InOrder segment.length := by
  have huses : (∀ u ∈ lengthUses segment.length, u.InOrder segment.length) ↔ _ :=
    inOrder_lengthUses
  by_cases hheader : headerSize ≤ segment.length
  · obtain ⟨⟨e', sent⟩, hok⟩ := networkData_succeeds o stack hbuffer hheader hsize
    rw [hok]
    simp only [reduceCtorEq, false_iff, not_exists, not_and, not_not]
    exact huses.mpr (by exact_mod_cast hheader)
  · obtain ⟨-, hfault⟩ := networkDataTraced_short (e := e) o stack (Nat.not_le.mp hheader)
    simp only [hfault, true_iff]
    by_contra hno
    push Not at hno
    exact hheader (by exact_mod_cast huses.mp hno)

/-- **Short segments are harmless when there are none**: a segment is handled as it should be if and
only if it holds a header. -/
theorem shortHarmless_iff (o : ByteOrder) (stack : STCPHeader) (segment : Bytes) (e : Endpoint)
    (hbuffer : e.networkBuffer.length = networkBufferSize)
    (hsize : segment.length ≤ networkBufferSize) :
    ShortHarmless o stack segment e ↔ headerSize ≤ segment.length := by
  constructor
  · intro h
    exact_mod_cast inOrder_lengthUses.mp h.uses
  · intro hheader
    obtain ⟨⟨e', sent⟩, hok⟩ := networkData_succeeds o stack hbuffer hheader hsize
    exact ⟨inOrder_lengthUses.mpr (by exact_mod_cast hheader), e', sent, hok,
      fun hshort => absurd hheader (Nat.not_le.mpr hshort)⟩

end Segments

/-- A bare acknowledgement is handled. -/
theorem shortHarmless_ack : ShortHarmless .little .zero
    (({ STCPHeader.zero with thFlags := thAck } : STCPHeader).toBytes .little)
    (quietConnection.ends .client) :=
  (shortHarmless_iff .little .zero _ (quietConnection.ends .client)
    (quietConnection_fresh.ends .client).isOpen.buffer (by decide)).mpr (by decide)

/-- If nothing has been received, an array of size -20 is made. -/
theorem not_shortHarmless_empty :
    (LengthUse.arraySize (-20) ∈ lengthUses ([] : Bytes).length ∧
      networkData .little .zero [] (quietConnection.ends .client) = .error .fault) ∧
    ¬ ∀ (o : ByteOrder) (stack : STCPHeader) (segment : Bytes) (e : Endpoint),
      e.networkBuffer.length = networkBufferSize → segment.length ≤ networkBufferSize →
        ShortHarmless o stack segment e := by
  refine ⟨⟨by decide, rfl⟩, fun hall => ?_⟩
  have hempty := hall .little .zero [] (quietConnection.ends .client)
    (quietConnection_fresh.ends .client).isOpen.buffer (by decide)
  have hsize : (0 : Int) ≤ -20 := hempty.uses (.arraySize (-20)) (by decide)
  exact absurd hsize (by decide)

end NetworkProjects.Transport
