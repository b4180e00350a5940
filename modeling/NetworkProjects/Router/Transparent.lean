import NetworkProjects.Router.Checksum
import NetworkProjects.Router.Learning
import NetworkProjects.Router.Ttl

/-!
# Transparent forwarding

What the router makes of a well-formed datagram that is not for itself: a copy of `ip_len` bytes in
which the TTL is one less and the checksum is new (`Transparent`). The checksum is right again, so
the next router takes the copy, whatever padding the wire has put behind it.

The copy goes out at once if the gateway is in the cache. If not, it waits for the gateway, and what
waits goes out as it is: for each gateway the router is a buffer that holds datagrams and never
changes them (`transparent_forwarding`).
-/

namespace NetworkProjects.Router

open NetworkProjects.Lib

/-! ## A correct header checksum

The code tests the checksum by computing it again over the cleared header, and compares the result
with the field bit by bit. -/

/-- The checksum field holds the complement of the ones' complement sum of the header, with the
field itself taken as zero. -/
def HasChecksum (d : Bytes) : Prop :=
  BitVec.ofNat 16 (ntohs (ipSum d)) = ~~~ onesSum (store (d.take (ipIhl d)) 10 [0, 0])

instance (d : Bytes) : Decidable (HasChecksum d) := inferInstanceAs (Decidable (_ = _))

theorem ipSum_lt (d : Bytes) : ipSum d < 2 ^ 16 := by
  have h := (byteAt d 10).toNat_lt
  have h' := (byteAt d (10 + 1)).toNat_lt
  unfold ipSum load16
  omega

/-- That is what `cksum` computes. -/
theorem hasChecksum_iff {d : Bytes} :
    HasChecksum d ↔ cksum (store (d.take (ipIhl d)) 10 [0, 0]) = ipSum d := by
  have hlen : (store (d.take (ipIhl d)) 10 [0, 0]).length ≤ maxCksumLen := by
    have := ipHl_le d
    simp only [store, ipIhl, maxCksumLen, List.length_append, List.length_take, List.length_drop,
      List.length_cons, List.length_nil]
    omega
  have hlt := (onesSum (store (d.take (ipIhl d)) 10 [0, 0])).isLt
  unfold HasChecksum
  rw [← not_onesSum, cksum_eq hlen]
  constructor
  · intro h
    have hfield : ntohs (ipSum d)
        = 0xffff - (onesSum (store (d.take (ipIhl d)) 10 [0, 0])).toNat := by
      have hnat := congrArg BitVec.toNat h
      rw [BitVec.toNat_ofNat, BitVec.toNat_ofNat, Nat.mod_eq_of_lt (ntohs_lt _),
        Nat.mod_eq_of_lt (by omega)] at hnat
      exact hnat
    rw [← hfield, ntohs_ntohs (ipSum_lt d)]
  · intro h
    rw [← h, ntohs_ntohs (by omega)]

/-- The header with its checksum cleared, in the frame and on its own. -/
theorem slice_cleared {packet : Bytes} {ihl : Nat} (hihl : 12 ≤ ihl)
    (hlen : 14 + ihl ≤ packet.length) :
    slice (store packet 24 [0, 0]) 14 ihl = store ((ipHeader packet).take ihl) 10 [0, 0] := by
  rw [slice_around_cleared_sum hihl hlen]
  simp only [store, slice, ipHeader, sizeofEthernetHdr, List.take_take, List.drop_take,
    List.drop_drop, List.length_cons, List.length_nil]
  rw [Nat.min_eq_left (by omega)]

/-- On a frame whose header is all there, the dispatcher's test is whether the checksum is right. -/
theorem checked_iff {packet : Bytes} (htype : ethertype packet ≠ SrEthertype.arp.value)
    (hihl : sizeofIpHdr ≤ ipIhl (ipHeader packet))
    (hlen : sizeofEthernetHdr + ipIhl (ipHeader packet) ≤ packet.length) :
    Checked packet ↔ HasChecksum (ipHeader packet) := by
  simp only [sizeofIpHdr, sizeofEthernetHdr] at hihl hlen
  rw [hasChecksum_iff, ← slice_cleared (by omega) hlen]
  constructor
  · intro h
    exact h.checksum
  · intro h
    exact ⟨htype, by simp only [sizeofIpHdr, sizeofEthernetHdr]; omega, hlen, h⟩

/-- The header length is in the first byte. -/
theorem ipIhl_append {d : Bytes} (hd : d ≠ []) (rest : Bytes) : ipIhl (d ++ rest) = ipIhl d := by
  simp only [ipIhl, ipHl]
  rw [byteAt_append_left (List.length_pos_of_ne_nil hd)]

/-- What follows the header has no part in its checksum. -/
theorem hasChecksum_append {d : Bytes} (hihl : 12 ≤ ipIhl d) (hlen : ipIhl d ≤ d.length)
    (rest : Bytes) : HasChecksum (d ++ rest) ↔ HasChecksum d := by
  have hd : d ≠ [] := List.ne_nil_of_length_pos (by omega)
  have hsum : ipSum (d ++ rest) = ipSum d :=
    load16_congr fun k hk => byteAt_append_left (by omega)
  unfold HasChecksum
  rw [hsum, ipIhl_append hd, List.take_append_of_le_length hlen]

/-! ## The copy

What `ForwardToNextHop` hands on is the datagram alone, without the padding: it copies `ip_len`
bytes. -/

/-- A frame with a well-formed datagram that is not for the router. -/
structure InTransit (sr : SrConfig) (packet : Bytes) : Prop where
  ethertype : ethertype packet = SrEthertype.ip.value
  version : ipV (ipHeader packet) = 4
  ihl_ge : sizeofIpHdr ≤ ipIhl (ipHeader packet)
  len_ge : ipIhl (ipHeader packet) ≤ ipLen (ipHeader packet)
  len_le : sizeofEthernetHdr + ipLen (ipHeader packet) ≤ packet.length
  checksum : HasChecksum (ipHeader packet)
  ttl_pos : 1 ≤ ttl (ipHeader packet)
  foreign : srInterfaceIpMatch sr (ipDst (ipHeader packet)) = false

/-- `d` is the datagram of the frame: its first `ip_len` bytes, with the TTL one less and a correct
checksum. -/
structure Transparent (packet d : Bytes) : Prop where
  length : d.length = ipLen (ipHeader packet)
  ttl : ttl d + 1 = ttl (ipHeader packet)
  checksum : HasChecksum d
  other : ∀ i < d.length, i ≠ 8 → i ≠ 10 → i ≠ 11 →
    byteAt d i = byteAt packet (sizeofEthernetHdr + i)

section Copy

variable {sr : SrConfig} {packet : Bytes}

/-- Bounds that follow from the lengths in the header. -/
theorem InTransit.lengths (h : InTransit sr packet) :
    20 ≤ ipIhl (ipHeader packet) ∧ ipIhl (ipHeader packet) ≤ ipLen (ipHeader packet) ∧
      14 + ipLen (ipHeader packet) ≤ packet.length :=
  ⟨h.ihl_ge, h.len_ge, h.len_le⟩

theorem InTransit.notArp (h : InTransit sr packet) :
    NetworkProjects.Router.ethertype packet ≠ SrEthertype.arp.value := by
  rw [h.ethertype]
  decide

/-- The dispatcher accepts the frame. -/
theorem InTransit.accepted (h : InTransit sr packet) :
    ipAccepted packet = some (store packet 24 [0, 0]) := by
  obtain ⟨h20, hle, hlen⟩ := h.lengths
  have hihl : sizeofEthernetHdr + ipIhl (ipHeader packet) ≤ packet.length := by
    simp only [sizeofEthernetHdr]
    omega
  exact ipAccepted_eq_some.mpr ⟨(checked_iff h.notArp h.ihl_ge hihl).mpr h.checksum, rfl⟩

/-- The destination is not touched. -/
theorem ipDst_cleared (h34 : 34 ≤ packet.length) :
    ipDst (ipHeader (store packet 24 [0, 0])) = ipDst (ipHeader packet) ∧
      ipDst (ipHeader (forwardEdits (store packet 24 [0, 0]))) = ipDst (ipHeader packet) := by
  have hclear : 24 + ([0, 0] : Bytes).length ≤ packet.length := by simp; omega
  have hlen : (store packet 24 [0, 0]).length = packet.length := length_store hclear
  have hbyte : ∀ k < 4, byteAt (store packet 24 [0, 0]) (30 + k) = byteAt packet (30 + k) :=
    fun k _ => byteAt_store_of_not_mem hclear (.inr (by simp; omega))
  constructor
  · apply load32_congr
    intro k hk
    simpa [ipHeader, sizeofEthernetHdr, ← Nat.add_assoc] using hbyte k hk
  · apply load32_congr
    intro k hk
    have hedit := byteAt_forwardEdits (p := store packet 24 [0, 0]) (i := 30 + k) (by omega)
      (by omega) (.inr (by omega))
    simpa [ipHeader, sizeofEthernetHdr, ← Nat.add_assoc, hbyte k hk] using hedit

theorem InTransit.forwarded (h : InTransit sr packet) :
    forwardedFrame sr packet = some (store packet 24 [0, 0]) := by
  obtain ⟨h20, hle, hlen⟩ := h.lengths
  have hgate : ipGate packet = some (store packet 24 [0, 0]) := by
    have haccepted := h.accepted
    rw [ipAccepted, if_neg (by simp only [sizeofEthernetHdr]; omega), if_neg h.notArp] at haccepted
    exact haccepted
  rw [forwardedFrame, if_neg (by simp only [sizeofEthernetHdr]; omega), if_neg h.notArp, hgate]
  have h34 : 34 ≤ packet.length := by omega
  have hdst := (ipDst_cleared h34).1
  simp [hdst, h.foreign]

/-- The edits leave a correct checksum behind. -/
theorem hasChecksum_forwardEdits {p : Bytes} (h34 : 34 ≤ p.length)
    (hihl : 20 ≤ ipIhl (ipHeader p)) (hlen : 14 + ipIhl (ipHeader p) ≤ p.length) :
    HasChecksum (ipHeader (forwardEdits p)) := by
  obtain ⟨h1, h2⟩ := length_edited h34 (byteAt p 22 - 1)
  have hedits := length_forwardEdits h34
  have hfirst : ∀ q : Bytes, byteAt q 14 = byteAt p 14 →
      ipIhl (ipHeader q) = ipIhl (ipHeader p) := by
    intro q hq
    simp only [ipIhl, ipHl, ipHeader, byteAt_drop, sizeofEthernetHdr, Nat.add_zero, hq]
  have hsame : ipIhl (ipHeader (forwardEdits p)) = ipIhl (ipHeader p) :=
    hfirst _ (byteAt_forwardEdits h34 (by decide) (.inl (by decide)))
  have hread : ipIhl (ipHeader (store (store p 22 [byteAt p 22 - 1]) 24 [0, 0]))
      = ipIhl (ipHeader p) := by
    apply hfirst
    rw [byteAt_store_of_not_mem (by simp [h1]; omega) (by simp),
      byteAt_store_of_not_mem (by simp; omega) (by simp)]
  rw [hasChecksum_iff, hsame, ← slice_cleared (by omega) (by omega)]
  have hfield : ipSum (ipHeader (forwardEdits p))
      = load16 (bytes16 (cksum (slice (store (store p 22 [byteAt p 22 - 1]) 24 [0, 0]) 14
          (ipIhl (ipHeader p))))) 0 := by
    apply load16_congr
    intro k hk
    simp only [ipHeader, byteAt_drop, sizeofEthernetHdr, ← Nat.add_assoc]
    rw [forwardEdits, hread, byteAt_store_of_mem (by simp [bytes16, h2]; omega) (by omega)
      (by simp [bytes16]; omega)]
    congr 1
    omega
  have hclear : store (forwardEdits p) 24 [0, 0]
      = store (store p 22 [byteAt p 22 - 1]) 24 [0, 0] := by
    rw [forwardEdits, store_store (by simp [bytes16, h2]; omega) (by simp [bytes16]),
      store_store (by simp [h1]; omega) rfl]
  have hlt : cksum (slice (store (store p 22 [byteAt p 22 - 1]) 24 [0, 0]) 14
      (ipIhl (ipHeader p))) < 2 ^ 16 := ntohs_lt _
  rw [hclear, hfield, load16_bytes16_of_lt hlt]

/-- **The copy that is forwarded** is the datagram of the frame, with its TTL one less and a correct
checksum. -/
theorem InTransit.transparent (h : InTransit sr packet) (beyond : Nat → UInt8) :
    Transparent packet (fwdIpPkt (store packet 24 [0, 0]) beyond) := by
  obtain ⟨h20, hle, hlen⟩ := h.lengths
  have h34 : 34 ≤ packet.length := by omega
  obtain ⟨hihl, htotal⟩ := lengths_cleared h34
  have hcleared : (store packet 24 [0, 0]).length = packet.length :=
    length_store (by simp; omega)
  have hedits := length_forwardEdits (p := store packet 24 [0, 0]) (by omega)
  refine ⟨by rw [length_fwdIpPkt, htotal], ?_, ?_, ?_⟩
  · rw [ttl_fwdIpPkt h.forwarded (by simp only [sizeofIpHdr]; omega)]
    have hpos := h.ttl_pos
    have hlt := ttl_lt (ipHeader packet)
    omega
  · -- what lies behind the copy has no part in its checksum
    have hslice : ipHeader (forwardEdits (store packet 24 [0, 0]))
        = fwdIpPkt (store packet 24 [0, 0]) beyond
          ++ (ipHeader (forwardEdits (store packet 24 [0, 0]))).drop (ipLen (ipHeader packet)) := by
      rw [fwdIpPkt, htotal, readFrame_eq_slice (by simp only [sizeofEthernetHdr]; omega)]
      exact (List.take_append_drop _ _).symm
    have hall := hasChecksum_forwardEdits (p := store packet 24 [0, 0]) (by omega) (by omega)
      (by omega)
    have hfirst : ipIhl (fwdIpPkt (store packet 24 [0, 0]) beyond) = ipIhl (ipHeader packet) := by
      rw [← hihl]
      simp only [ipIhl, ipHl]
      rw [byteAt_fwdIpPkt (by omega) (by omega) (by decide),
        byteAt_forwardEdits (by omega) (by decide) (.inl (by decide))]
      simp [ipHeader, sizeofEthernetHdr]
    rw [hslice] at hall
    exact (hasChecksum_append (by omega) (by rw [length_fwdIpPkt]; omega) _).mp hall
  · intro i hi h8 h10 h11
    obtain ⟨-, hcopied⟩ := copiesFrame h34 hlen beyond i hi
    rcases hcopied with heq | heq | heq | heq
    · exact absurd heq h8
    · exact absurd heq h10
    · exact absurd heq h11
    · exact heq

/-- The next router takes the copy, in any Ethernet header and with any padding behind it. -/
theorem Transparent.accepted {d : Bytes} (h : Transparent packet d) (hw : InTransit sr packet)
    (dhost shost : EtherAddr) (padding : Bytes) :
    ipAccepted (ethFrame dhost shost .ip (d ++ padding))
      = some (store (ethFrame dhost shost .ip (d ++ padding)) 24 [0, 0]) := by
  obtain ⟨h20, hle, hlen⟩ := hw.lengths
  have hd : d.length = ipLen (ipHeader packet) := h.length
  have hne : d ≠ [] := List.ne_nil_of_length_pos (by omega)
  have hihl : ipIhl (d ++ padding) = ipIhl (ipHeader packet) := by
    rw [ipIhl_append hne]
    simp only [ipIhl, ipHl]
    rw [h.other 0 (by omega) (by decide) (by decide) (by decide)]
    simp [ipHeader]
  have htype : ethertype (ethFrame dhost shost .ip (d ++ padding)) ≠ SrEthertype.arp.value := by
    rw [ethertype_ethFrame]
    decide
  refine ipAccepted_eq_some.mpr ⟨(checked_iff htype ?_ ?_).mpr ?_, rfl⟩
  · rw [ipHeader_ethFrame, hihl]
    exact hw.ihl_ge
  · rw [ipHeader_ethFrame, hihl, length_ethFrame, List.length_append]
    omega
  · rw [ipHeader_ethFrame]
    rw [ipIhl_append hne] at hihl
    exact (hasChecksum_append (by omega) (by omega) padding).mpr h.checksum

end Copy

/-! ## Where the copy goes

At once, later, or nowhere, if the gateway never answers. In the first two cases it is sent as it
is. -/

section Ways

variable {sr : SrConfig} {s s' : SrState} {packet : Bytes} {rt : SrRt}

/-- The step of the frame hands the copy to `FillAndSendPkt`, for the datagram's destination. -/
theorem InTransit.step (h : InTransit sr packet) (s : SrState) (interface : String) (now : Nat)
    (mem : Memory) :
    srStep sr s (.frame interface packet now mem) =
      fillAndSendPkt sr ((s.arrived interface packet now mem).emit
          (.forwarded (fwdIpPkt (store packet 24 [0, 0]) mem.beyond)))
        (fwdIpPkt (store packet 24 [0, 0]) mem.beyond) (ipDst (ipHeader packet)) .ip := by
  obtain ⟨h20, hle, hlen⟩ := h.lengths
  have h34 : 34 ≤ packet.length := by omega
  obtain ⟨hdst, hdst'⟩ := ipDst_cleared h34
  show srHandlepacket sr (s.tick (.frame interface packet now mem)) interface packet = _
  rw [srHandlepacket_eq (.inr h.notArp), h.accepted]
  simp only [hdst, h.foreign, Bool.false_eq_true, if_false]
  rw [forwardToNextHop, hdst']
  rfl

/-- A datagram without an address for its gateway is not sent: it waits, or is discarded with all
that waits for the gateway. -/
theorem fillAndSendPkt_queued {d : Bytes} {dip : InAddr} (haddrs : AddrsOk s.cache) (hd : d ≠ [])
    (hrt : longestPrefixMatch sr dip = some rt) (habsent : srArpcacheLookup s.cache rt.gw = none)
    (h : fillAndSendPkt sr s d dip .ip = .ok s') :
    sentOut s'.history = sentOut s.history ∧ ∃ r, r.ip = rt.gw ∧ ⟨d, rt.interface⟩ ∈ r.packets ∧
      (r ∈ s'.cache.requests ∨ .destroyed r ∈ s'.history) := by
  obtain ⟨rt', hrt', ⟨e, i, he, -, -⟩ | ⟨-, hhandle⟩⟩ := fillAndSendPkt_ip_cases h
  · rw [hrt] at hrt'
    cases hrt'
    rw [habsent] at he
    cases he
  · rw [hrt] at hrt'
    cases hrt'
    have haddrs' := haddrs.queue rt.gw d rt.interface
    obtain ⟨before, r, after, hsplit, hptr, hip, hmem⟩ : ∃ before r after,
        (srArpcacheQueuereq s.cache rt.gw d rt.interface).1.requests = before ++ r :: after ∧
        (srArpcacheQueuereq s.cache rt.gw d rt.interface).2 = r.addr ∧ r.ip = rt.gw ∧
        ⟨d, rt.interface⟩ ∈ r.packets := by
      rcases srArpcacheQueuereq_cases haddrs rt.gw hd rt.interface with
        ⟨before, r, after, -, hip, heq⟩ | ⟨-, heq⟩
      · rw [heq]
        exact ⟨before, { r with packets := ⟨d, rt.interface⟩ :: r.packets }, after, rfl, rfl, hip,
          by simp⟩
      · rw [heq]
        exact ⟨[], _, s.cache.requests, rfl, rfl, rfl, by simp⟩
    rw [hptr] at hhandle
    rcases srArpreqHandle_cases (s := s.withCache _) hsplit haddrs'.nodup hhandle with
      ⟨-, rfl⟩ | ⟨-, -, rfl⟩ | ⟨-, -, iface, frame, rfl⟩
    · exact ⟨rfl, r, hip, hmem, .inl (by simp [hsplit])⟩
    · exact ⟨by simp [sentOut, SrEvent.sent], r, hip, hmem, .inr (by simp)⟩
    · exact ⟨by simp [sentOut, SrEvent.sent],
        { r with sent := s.clock, timesSent := r.timesSent + 1 },
        hip, hmem, .inl (by simp)⟩

theorem exists_of_forall₂ {α β : Type} {R : α → β → Prop} {as : List α} {bs : List β}
    (h : List.Forall₂ R as bs) {a : α} (ha : a ∈ as) : ∃ b ∈ bs, R a b := by
  induction h with
  | nil => cases ha
  | cons hr _ ih =>
      rcases List.mem_cons.mp ha with rfl | ha
      · exact ⟨_, by simp, hr⟩
      · obtain ⟨b, hb, hab⟩ := ih ha
        exact ⟨b, by simp [hb], hab⟩

/-- An ARP frame from the gateway, with a free slot in the cache, sends what waits as it is. -/
theorem sent_of_answer {inputs : List SrInput} (hrun : srRun sr inputs = .ok s) {r : SrArpreq}
    {p : SrPacket} (hr : r ∈ s.cache.requests) (hp : p ∈ r.packets)
    (hfree : ∃ k, (s.cache.entries k).valid = false) {interface : String} {answer : Bytes}
    {mac : EtherAddr} (hteach : Teaches sr r.ip mac (.received interface answer)) {now : Nat}
    {mem : Memory} (h : srStep sr s (.frame interface answer now mem) = .ok s') :
    ∃ es e, s'.history = s.history ++ es ∧ e ∈ es ∧ SentTo sr mac p e := by
  obtain ⟨-, hok⟩ := hopsOk_of_srRun hrun
  have habsent := hok.keys.absent_of_request hr
  obtain ⟨hsome, -⟩ := srArpcacheInsert_takes hok.keys hr mac now
  obtain ⟨recIf, -, -, hstep⟩ := srStep_teaches (s := s) hteach now mem
  rw [hstep, learnSender_answers (s := s.arrived interface answer now mem) habsent hsome] at h
  split at h
  · cases h
  · next s₁ hs₁ =>
    have hlookup : srArpcacheLookup (srArpcacheInsert s.cache mac r.ip now).1 r.ip
        = some ⟨mac, r.ip, now, true⟩ := by
      obtain ⟨k, hk⟩ := Option.isSome_iff_exists.mp (freeSlot_isSome.mpr hfree)
      rw [srArpcacheLookup_insert_self mac now habsent, hk]
      rfl
    obtain ⟨es, hes, hall⟩ := srArpreqSendPackets_sent (hok.routed r hr) (by exact hlookup) hs₁
    obtain ⟨e, he, hsent⟩ := exists_of_forall₂ hall hp
    obtain ⟨more, hmore⟩ : ∃ more, s'.history = s₁.history ++ more := by
      split at h
      · obtain ⟨iface, dhost, shost, rfl⟩ := fillAndSendPktWith_arp_frame h
        exact ⟨_, rfl⟩
      · cases h
        exact ⟨[], by simp⟩
    refine ⟨.received interface answer :: .answered r :: es ++ more, e, ?_, by simp [he], hsent⟩
    rw [hmore, hes]
    simp

end Ways

/-- **Transparent forwarding.** In every reachable state, for every frame with a well-formed
datagram that is not for the router and has a route with an interface: the router makes a
transparent copy of it, which the next router accepts. The copy goes out at once if the gateway is
in the cache. If not, it waits for the gateway; an answer with room for it in the cache sends it,
and until then the router keeps it as it is, like everything that waits. -/
theorem transparent_forwarding {sr : SrConfig} {inputs : List SrInput} {s : SrState}
    (hrun : srRun sr inputs = .ok s) {packet : Bytes} (hw : InTransit sr packet) {rt : SrRt}
    {i : SrIf} (hrt : longestPrefixMatch sr (ipDst (ipHeader packet)) = some rt)
    (hi : srGetInterface sr rt.interface = some i) (interface : String) (now : Nat)
    (mem : Memory) :
    ∃ d, Transparent packet d ∧
      (∀ dhost shost padding, ipAccepted (ethFrame dhost shost .ip (d ++ padding)) ≠ none) ∧
      (∀ e, srArpcacheLookup s.cache rt.gw = some e →
        srStep sr s (.frame interface packet now mem)
          = .ok (((s.arrived interface packet now mem).emit (.forwarded d)).emit
            (.transmitted (.fillAndSendPkt .ip) rt.interface (ethFrame e.mac i.addr .ip d)))) ∧
      (srArpcacheLookup s.cache rt.gw = none →
        ∀ s', srStep sr s (.frame interface packet now mem) = .ok s' →
          sentOut s'.history = sentOut s.history ∧
          ∃ r, r.ip = rt.gw ∧ ⟨d, rt.interface⟩ ∈ r.packets ∧
            (r ∈ s'.cache.requests ∨ .destroyed r ∈ s'.history)) ∧
      (∀ later u, srRun sr later = .ok u → ∀ r ∈ u.cache.requests, ⟨d, rt.interface⟩ ∈ r.packets →
        (∃ k, (u.cache.entries k).valid = false) →
        ∀ mac interface' answer now' mem' u', Teaches sr r.ip mac (.received interface' answer) →
          srStep sr u (.frame interface' answer now' mem') = .ok u' →
          ∃ es, u'.history = u.history ++ es ∧
            .transmitted (.fillAndSendPkt .ip) rt.interface (ethFrame mac i.addr .ip d) ∈ es) ∧
      ∀ s' later t, srStep sr s (.frame interface packet now mem) = .ok s' →
        run (srStep sr) s' later = .ok t →
        BufferRun (waitingFor rt.gw s'.cache.requests) (hopTrace sr rt.gw s' later)
          (waitingFor rt.gw t.cache.requests) := by
  have htransparent := hw.transparent mem.beyond
  have hstep := hw.step s interface now mem
  obtain ⟨h20, hle, -⟩ := hw.lengths
  have haddrs := (hopsOk_of_srRun hrun).1
  -- accepted by the next router, sent with an entry, queued without, sent on the answer, in order
  refine ⟨_, htransparent, ?_, ?_, ?_, ?_, ?_⟩
  · intro dhost shost padding
    rw [htransparent.accepted hw dhost shost padding]
    simp
  · intro e he
    rw [hstep]
    exact fillAndSendPkt_cached hrt (by exact he) hi
  · intro habsent s' hs'
    rw [hstep] at hs'
    have hne : fwdIpPkt (store packet 24 [0, 0]) mem.beyond ≠ [] := by
      apply List.ne_nil_of_length_pos
      rw [htransparent.length]
      omega
    obtain ⟨hsent, hqueued⟩ :=
      fillAndSendPkt_queued (by exact haddrs) hne hrt (by exact habsent) hs'
    refine ⟨hsent.trans ?_, hqueued⟩
    simp [sentOut, SrEvent.sent]
  · intro later u hu r hr hp hfree mac interface' answer now' mem' u' hteach hs'
    obtain ⟨es, e, hes, he, rt', j, hrt', hj, rfl⟩ :=
      sent_of_answer hu hr hp hfree hteach hs'
    have hdst : ipDst (fwdIpPkt (store packet 24 [0, 0]) mem.beyond) = ipDst (ipHeader packet) := by
      apply load32_congr
      intro k hk
      rw [htransparent.other (16 + k) (by rw [htransparent.length]; omega) (by omega) (by omega)
        (by omega), ipHeader, byteAt_drop]
    rw [hdst, hrt] at hrt'
    cases hrt'
    rw [hi] at hj
    cases hj
    exact ⟨es, hes, he⟩
  · intro s' later t hs' hlater
    exact hopRun_from (run_snoc.mpr ⟨s, hrun, hs'⟩) hlater rt.gw

/-- A datagram for the server in a frame that the wire has padded. -/
def paddedFrame : Bytes := clientFrame 64 (dotted 192 168 2 2) ++ List.replicate 8 0

/-- It goes out at once, without the padding. -/
theorem transparent_forwarding_padded : ∃ s d e,
    srRun rtableConfig [.frame "eth1" serverArpReply 6 srInit.mem] = .ok s ∧
    Transparent paddedFrame d ∧ d.length + 22 = paddedFrame.length ∧
    srStep rtableConfig s (.frame "eth3" paddedFrame 7 srInit.mem)
      = .ok (((s.arrived "eth3" paddedFrame 7 srInit.mem).emit (.forwarded d)).emit
        (.transmitted (.fillAndSendPkt .ip) "eth1"
          (ethFrame e ⟨[2, 0, 0, 0, 0, 1], rfl⟩ .ip d))) := by
  obtain ⟨s, hrun, hcheck⟩ : ∃ s,
      srRun rtableConfig [.frame "eth1" serverArpReply 6 srInit.mem] = .ok s ∧
      (srArpcacheLookup s.cache (dotted 192 168 2 2)).isSome = true :=
    exists_ok_of_check (by decide +kernel)
  obtain ⟨e, he⟩ := Option.isSome_iff_exists.mp hcheck
  have hw : InTransit rtableConfig paddedFrame :=
    ⟨by decide +kernel, by decide +kernel, by decide +kernel, by decide +kernel,
      by decide +kernel, by decide +kernel, by decide +kernel, by decide +kernel⟩
  have hrt : longestPrefixMatch rtableConfig (ipDst (ipHeader paddedFrame))
      = some (hostRoute (dotted 192 168 2 2) "eth1") := by
    have hdst : ipDst (ipHeader paddedFrame) = dotted 192 168 2 2 := by decide +kernel
    rw [hdst]
    rfl
  obtain ⟨d, hd, -, hdirect, -⟩ := transparent_forwarding hrun hw hrt rfl "eth3" 7 srInit.mem
  have hlen : ipLen (ipHeader paddedFrame) + 22 = paddedFrame.length := by decide +kernel
  exact ⟨s, d, e.mac, hrun, hd, by rw [hd.length, hlen], hdirect e he⟩

end NetworkProjects.Router
