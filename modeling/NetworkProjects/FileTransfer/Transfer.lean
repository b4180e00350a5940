import NetworkProjects.Lib.Decimal
import NetworkProjects.Lib.Records

/-!
# A file sent in packets (`server.cpp` and `client.cpp`)

The server sends the number of packets, in a record of 255 bytes, and then the file in packets of
255 bytes. The client takes the result of its first `read` for the number and then calls `read` as
many times. But a `read` returns what has arrived: the client counts pieces of the stream where
the server counts packets. So the file is shown, and the next reply is found where it starts, if
and only if every `read` has returned a whole packet, and the length of the file is an `int`
(`exact_iff`).
-/

namespace NetworkProjects.FileTransfer

open NetworkProjects.Lib

/-! ## The server

The server writes the number of packets, and then the file in packets of 255 bytes. -/

/-- The number of bytes of a packet. -/
def packetSize : Nat := 255

/-- Why a reply is not sent. -/
inductive Fault
  /-- `while (count--)` counts down from a negative number, until the `int` overflows. -/
  | overflow
  deriving DecidableEq, Repr

/-- `count`, for a file of which `ftell` returns this length. -/
def packetCount (length : Nat) : Int :=
  let fileLen := intOfLong length
  if fileLen.tmod 255 = 0 then fileLen.tdiv 255 else fileLen.tdiv 255 + 1

/-- What the server writes when it has opened a file with this content. -/
def serverReply (content : Bytes) : Except Fault Bytes :=
  let count := packetCount content.length
  if count < 0 then .error .overflow
  else
    let str := padded packetSize (decimal count.toNat)
    .ok (str ++ (records packetSize count.toNat content).flatten)

/-! ## The client

The client counts reads, not bytes. Each `read` returns a piece that may be shorter than a packet.
-/

/-- What the client shows of a reply. -/
inductive Shown
  /-- `"no such file exists"` -/
  | missing
  /-- `"Note:File is empty,nothing to show"` -/
  | empty
  | text (t : Bytes)
  deriving DecidableEq, Repr

/-- What stands in the cleared `buffer`, as a string, after a `read` that has returned `piece`. -/
def bufferText (piece : Bytes) : Bytes := untilNul (padded (packetSize + 1) piece)

/-- The loop over `count` reads: what it prints, and what has not been read. It waits if there is
nothing more. -/
def printLoop : Nat → List Bytes → Option (Bytes × List Bytes)
  | 0, reads => some ([], reads)
  | _ + 1, [] => none
  | count + 1, piece :: reads =>
      (printLoop count reads).map fun r => (bufferText piece ++ r.1, r.2)

/-- How the client takes a reply from the results of `read`, and what it leaves. -/
def clientReply : List Bytes → Option (Shown × List Bytes)
  | [] => none
  | piece :: reads =>
      let count := atoi (bufferText piece)
      if count = -1 then some (.missing, reads)
      else if count = 0 then some (.empty, reads)
      else (printLoop count.toNat reads).map fun r => (.text r.1, r.2)

/-- What should be shown of a file. -/
def shownOf (content : Bytes) : Shown := if content = [] then .empty else .text content

/-- The reply is sent, the client shows the file, and it leaves nothing of the reply unread. -/
structure Exact (content : Bytes) (reads : List Bytes) : Prop where
  sent : serverReply content = .ok reads.flatten
  shown : clientReply reads = some (shownOf content, [])

/-! ## Counting packets -/

section Count

variable {n : Nat}

theorem packetCount_eq (n : Nat) : packetCount n =
    if 0 ≤ intOfLong n then (intOfLong n + 254) / 255
    else if intOfLong n % 255 = 0 then intOfLong n / 255 else intOfLong n / 255 + 2 := by
  have hsign : Int.sign 255 = 1 := rfl
  simp only [packetCount]
  rw [Int.tdiv_eq_ediv, Int.tmod_eq_emod, hsign]
  split_ifs <;> omega

theorem packetCount_of_lt (h : n < 2 ^ 31) : packetCount n = ((n + 254) / 255 : Nat) := by
  have hint : intOfLong n = n := by
    rw [intOfLong, Int.bmod]
    omega
  rw [packetCount_eq, hint, if_pos (Int.natCast_nonneg n)]
  omega

theorem packetCount_lt (n : Nat) : packetCount n < 2 ^ 31 := by
  have hint : intOfLong n < 2 ^ 31 := by
    rw [intOfLong, Int.bmod]
    omega
  rw [packetCount_eq]
  split_ifs <;> omega

/-- A length that is no `int` does not fit in the packets that are sent. -/
theorem packetCount_of_le (h : 2 ^ 31 ≤ n) : packetCount n * 255 < n := by
  have hint : intOfLong n < 2 ^ 31 ∧ (0 ≤ intOfLong n → 2 ^ 32 ≤ n) := by
    rw [intOfLong, Int.bmod]
    omega
  rw [packetCount_eq]
  split_ifs <;> omega

end Count

/-! ## What is sent -/

section Sent

variable {content : Bytes} {reads : List Bytes}

/-- What is sent is one packet more than there are packets in the file. -/
theorem serverReply_eq (hcount : 0 ≤ packetCount content.length) :
    serverReply content = .ok (padded packetSize (decimal (packetCount content.length).toNat) ::
      records packetSize (packetCount content.length).toNat content).flatten := by
  rw [serverReply, if_neg (Int.not_lt.mpr hcount), List.flatten_cons]

theorem serverReply_ok {stream : Bytes} (h : serverReply content = .ok stream) :
    0 ≤ packetCount content.length := by
  by_contra hcount
  rw [serverReply, if_pos (Int.not_le.mp hcount)] at h
  cases h

/-- The number fits in its record. -/
theorem length_count_le (h : packetCount content.length < 2 ^ 31) :
    (decimal (packetCount content.length).toNat).length ≤ packetSize := by
  have hdigits : (packetCount content.length).toNat < 10 ^ 10 := by omega
  exact (length_decimal_le (by decide) hdigits).trans (by decide)

/-- What is sent are whole packets. -/
theorem length_of_mem_packets {n : Nat} (hdigits : (decimal n).length ≤ packetSize) :
    ∀ p ∈ padded packetSize (decimal n) :: records packetSize n content,
      p.length = packetSize := by
  intro p hp
  rcases List.mem_cons.mp hp with rfl | hp
  · exact length_padded hdigits
  · exact length_of_mem_records p hp

end Sent

/-! ## What is shown

A piece is shown up to its first NUL, so the padding of a packet is not shown, and neither is what a
file has behind a NUL. -/

section Show

variable {content piece : Bytes} {reads : List Bytes} {count : Nat} {shown : Shown}

theorem bufferText_eq (piece : Bytes) : bufferText piece = untilNul piece := untilNul_padded _ _

/-- The loop takes as many pieces as it counts, if there are that many. -/
theorem printLoop_eq (count : Nat) (reads : List Bytes) : printLoop count reads =
    if count ≤ reads.length then some ((reads.take count).flatMap untilNul, reads.drop count)
    else none := by
  induction count generalizing reads with
  | zero => rfl
  | succ count ih =>
      cases reads with
      | nil => rfl
      | cons piece reads =>
          rw [printLoop, ih, bufferText_eq]
          simp only [List.length_cons, Nat.add_le_add_iff_right]
          by_cases hmore : count ≤ reads.length
          · rw [if_pos hmore, if_pos hmore]
            rfl
          · rw [if_neg hmore, if_neg hmore]
            rfl

/-- A client that leaves nothing has called `read` as often as it has read that it should. -/
theorem clientReply_all (h : clientReply (piece :: reads) = some (shown, []))
    (hcount : 0 ≤ atoi (untilNul piece)) : reads.length = (atoi (untilNul piece)).toNat ∧
      (shown = .empty ∨ shown = .text (reads.flatMap untilNul)) := by
  simp only [clientReply, bufferText_eq] at h
  rw [if_neg (by omega)] at h
  split at h
  · next hzero =>
    cases h
    exact ⟨by rw [hzero]; rfl, .inl rfl⟩
  · obtain ⟨⟨t, rest⟩, hloop, heq⟩ := Option.map_eq_some_iff.mp h
    cases heq
    rw [printLoop_eq] at hloop
    split at hloop
    · next hle =>
      rw [Option.some.injEq, Prod.mk.injEq] at hloop
      have hlen := List.drop_eq_nil_iff.mp hloop.2
      refine ⟨Nat.le_antisymm hlen hle, .inr ?_⟩
      rw [← hloop.1, List.take_of_length_le hlen]
    · cases hloop

/-- What is read for the number is no more than the number. -/
theorem atoi_piece_le {n : Nat} {stream : Bytes} (hn : n < 2 ^ 31)
    (hpiece : piece.length ≤ packetSize) (hlen : (decimal n).length ≤ packetSize)
    (h : piece <+: padded packetSize (decimal n) ++ stream) :
    0 ≤ atoi (untilNul piece) ∧ atoi (untilNul piece) ≤ n := by
  have hrecord : piece <+: padded packetSize (decimal n) := by
    refine List.prefix_of_prefix_length_le h (List.prefix_append _ _) ?_
    rwa [length_padded hlen]
  have htext := untilNul_prefix hrecord
  rw [untilNul_padded, untilNul_eq_self (not_mem_decimal n)] at htext
  exact atoi_prefix_le hn htext

/-- Packets that are read one at a time are shown as the file. -/
theorem clientReply_packets (hnul : 0 ∉ content) (hlen : content.length < 2 ^ 31) :
    clientReply (padded packetSize (decimal ((content.length + 254) / 255)) ::
      records packetSize ((content.length + 254) / 255) content)
        = some (shownOf content, []) := by
  have hsmall : (content.length + 254) / 255 < 2 ^ 31 := by omega
  simp only [clientReply, bufferText_eq, untilNul_padded]
  rw [untilNul_eq_self (not_mem_decimal _), atoi_decimal hsmall, if_neg (by omega)]
  by_cases hempty : content = []
  · rw [hempty]
    rfl
  · have hpos := List.length_pos_iff.mpr hempty
    have hall : (content.length + 254) / 255 = (records packetSize
        ((content.length + 254) / 255) content).length := (length_records _ _ _).symm
    have hfits : content.length ≤ (content.length + 254) / 255 * packetSize := by
      rw [packetSize]
      omega
    rw [if_neg (by omega), Int.toNat_natCast, printLoop_eq, if_pos (Nat.le_of_eq hall),
      List.take_of_length_le (Nat.le_of_eq hall.symm),
      List.drop_of_length_le (Nat.le_of_eq hall.symm), flatMap_untilNul_records hnul hfits,
      shownOf, if_neg hempty]
    rfl

end Show

/-! ## When a file is shown as it is

The pieces have to be the packets: as many reads as packets, so that none can be short. -/

section Whole

variable {content : Bytes} {reads : List Bytes}

/-- A file is short if its text is in as many pieces as there are packets of it. -/
theorem length_lt_of_text {rest : List Bytes} (hsize : ∀ p ∈ rest, p.length ≤ packetSize)
    (hfew : rest.length ≤ (packetCount content.length).toNat)
    (htext : content = rest.flatMap untilNul) : content.length < 2 ^ 31 := by
  by_contra hlong
  have htoo := packetCount_of_le (Nat.not_lt.mp hlong)
  have hlen := congrArg List.length htext
  have hshort := length_flatMap_untilNul_le rest
  have hrest := length_flatten_le hsize
  have hbound : rest.length * packetSize ≤ (packetCount content.length).toNat * packetSize :=
    Nat.mul_le_mul_right _ hfew
  rw [packetSize] at hrest hbound
  omega

/-- A reply that is left without a rest has been read packet by packet. -/
theorem Exact.full (h : Exact content reads) (hsize : ∀ p ∈ reads, p.length ≤ packetSize) :
    content.length < 2 ^ 31 ∧ ∀ p ∈ reads, p.length = packetSize := by
  have hcount := serverReply_ok h.sent
  have hlt := packetCount_lt content.length
  have hstream := h.sent.symm.trans (serverReply_eq hcount)
  have hdigits := length_count_le hlt
  generalize hn : (packetCount content.length).toNat = n at hstream hdigits
  have hflat := Except.ok.inj hstream
  have htotal : reads.flatten.length = (n + 1) * packetSize := by
    rw [hflat, length_flatten_of_full (length_of_mem_packets hdigits), List.length_cons,
      length_records]
  cases reads with
  | nil => cases h.shown
  | cons piece rest =>
      have hpiece := hsize piece List.mem_cons_self
      have hprefix : piece <+: padded packetSize (decimal n) ++
          (records packetSize n content).flatten := by
        rw [← List.flatten_cons, ← hflat, List.flatten_cons]
        exact List.prefix_append _ _
      obtain ⟨hpos, hle⟩ := atoi_piece_le (by omega) hpiece hdigits hprefix
      obtain ⟨hlen, hshown⟩ := clientReply_all h.shown hpos
      have hfew : (piece :: rest).length * packetSize ≤ (piece :: rest).flatten.length := by
        rw [htotal, List.length_cons]
        exact Nat.mul_le_mul_right _ (by omega)
      refine ⟨?_, full_of_length hsize hfew⟩
      -- a longer file would not fit in what has been read
      by_contra hlong
      have hne : content ≠ [] := by
        rintro rfl
        exact hlong (by decide)
      rw [shownOf, if_neg hne] at hshown
      have htext : content = rest.flatMap untilNul := by
        rcases hshown with hshown | hshown
        · cases hshown
        · exact Shown.text.inj hshown
      refine hlong (length_lt_of_text ?_ (by omega) htext)
      exact fun p hp => hsize p (List.mem_cons_of_mem piece hp)

/-- **A file is shown as it is**, and the next reply is found, if and only if its length is an `int`
and every `read` has returned a whole packet. -/
theorem exact_iff (content : Bytes) (reads : List Bytes) (hnul : 0 ∉ content)
    (hsize : ∀ p ∈ reads, 1 ≤ p.length ∧ p.length ≤ packetSize)
    (hsplit : ∀ stream, serverReply content = .ok stream → reads.flatten = stream) :
    Exact content reads ↔
      content.length < 2 ^ 31 ∧ ∀ p ∈ reads, p.length = packetSize := by
  constructor
  · exact fun h => h.full fun p hp => (hsize p hp).2
  · rintro ⟨hlen, hfull⟩
    have hpackets := packetCount_of_lt hlen
    have hcount : 0 ≤ packetCount content.length := by omega
    have hsent := serverReply_eq hcount
    have hdigits := length_count_le (packetCount_lt content.length)
    rw [hpackets, Int.toNat_natCast] at hsent hdigits
    have hflat := hsplit _ hsent
    have hreads : reads = padded packetSize (decimal ((content.length + 254) / 255)) ::
        records packetSize ((content.length + 254) / 255) content :=
      eq_of_full (by decide) hfull (length_of_mem_packets hdigits) hflat
    refine ⟨by rw [hflat, hsent], ?_⟩
    rw [hreads]
    exact clientReply_packets hnul hlen

end Whole

/-- `"hi"`. -/
def hi : Bytes := [104, 105]

theorem serverReply_hi :
    serverReply hi = .ok (padded packetSize [49] ++ padded packetSize hi) := by
  decide +kernel

/-- Two whole packets. -/
theorem exact_hi : Exact hi [padded packetSize [49], padded packetSize hi] := by
  refine (exact_iff hi [padded packetSize [49], padded packetSize hi] (by decide)
    (by decide +kernel) ?_).mpr ⟨by decide, by decide +kernel⟩
  intro stream h
  cases serverReply_hi.symm.trans h
  simp

/-- The record with the number arrives in two pieces: the client reads the second for the file, and
leaves the file. -/
theorem not_exact_hi :
    clientReply [(padded packetSize [49]).take 100, (padded packetSize [49]).drop 100,
      padded packetSize hi] = some (.text [], [padded packetSize hi]) ∧
    ¬ ∀ (content : Bytes) (reads : List Bytes), 0 ∉ content →
      (∀ p ∈ reads, 1 ≤ p.length ∧ p.length ≤ packetSize) →
      (∀ stream, serverReply content = .ok stream → reads.flatten = stream) →
        Exact content reads := by
  have hcut : clientReply [(padded packetSize [49]).take 100, (padded packetSize [49]).drop 100,
      padded packetSize hi] = some (.text [], [padded packetSize hi]) := by
    decide +kernel
  refine ⟨hcut, fun hall => ?_⟩
  have hexact := hall hi [(padded packetSize [49]).take 100, (padded packetSize [49]).drop 100,
    padded packetSize hi] (by decide) (by decide +kernel) (by
      intro stream h
      cases serverReply_hi.symm.trans h
      simp [← List.append_assoc])
  cases hcut.symm.trans hexact.shown

end NetworkProjects.FileTransfer
