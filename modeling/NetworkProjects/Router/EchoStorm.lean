import NetworkProjects.Router.GiveUp
import NetworkProjects.Router.ArpFrames
import NetworkProjects.Router.Transparent

/-!
# Answers that are answered

`sr_handlepacket` answers every ICMP message for the router with an echo reply. It looks at the
protocol field only: `ICMP_ECHO_REQUEST_CODE` is defined and never used. An echo reply is such a
message itself, and so is a port unreachable, so two routers can go on answering each other, each
time with a fresh TTL.

A `Round` is one reception that follows from another: a router has received a frame and made up an
ICMP message, and another router receives it. If the messages that are answered are echo requests
without IP options, there is at most one round (`echoReplies_iff`).
-/

namespace NetworkProjects.Router

open NetworkProjects.Lib

/-! ## Requests, and what is answered -/

/-- `ICMP_ECHO_REQUEST_CODE`, the type of an echo request. The source never uses it. -/
def icmpEchoRequestCode : UInt8 := 8

/-- The frame carries an ICMP echo request: `ip_len` leaves room for an ICMP header, and that has
type 8 and code 0. -/
structure IsEchoRequest (packet : Bytes) : Prop where
  protocol : ipP (ipHeader packet) = ipProtocolIcmp
  len : ipIhl (ipHeader packet) + sizeofIcmpHdr ≤ ipLen (ipHeader packet)
  type : byteAt (ipHeader packet) (ipIhl (ipHeader packet)) = icmpEchoRequestCode
  code : byteAt (ipHeader packet) (ipIhl (ipHeader packet) + 1) = 0

/-- What `sr_handlepacket` answers with an echo reply: an ICMP message for the router, in a frame
that passes the checks and is for the hardware address of the interface it comes in on. -/
structure Answerable (sr : SrConfig) (interface : String) (packet : Bytes) : Prop where
  checked : Checked packet
  mine : srInterfaceIpMatch sr (ipDst (ipHeader packet)) = true
  icmp : ipP (ipHeader packet) = ipProtocolIcmp
  long : sizeofEthernetHdr + sizeofIpHdr + sizeofIcmpHdr ≤ packet.length
  addressed : ∃ i, srGetInterface sr interface = some i ∧ etherDhost packet = i.addr

/-- The ICMP messages the router makes up, among the frames an event writes to the wire. -/
def SrEvent.icmp : SrEvent → List Bytes
  | .transmitted .echoReply _ frame => [frame]
  | .transmitted .portUnreachable _ frame => [frame]
  | _ => []

/-- The ICMP messages of its own that a router sends in a history. -/
def icmpSent (h : List SrEvent) : List Bytes := h.flatMap SrEvent.icmp

theorem icmpSent_append (h es : List SrEvent) : icmpSent (h ++ es) = icmpSent h ++ icmpSent es := by
  simp [icmpSent]

theorem icmpSent_routine {es : List SrEvent} (h : ∀ e ∈ es, e.Routine) : icmpSent es = [] := by
  apply List.flatMap_eq_nil_iff.mpr
  intro e he
  cases h e he with
  | forwarded => rfl
  | datagram => rfl
  | request => rfl
  | asked => rfl
  | answered => rfl
  | destroyed => rfl

/-- The step sends an ICMP echo reply. -/
def EmitsEchoReply (sr : SrConfig) (s : SrState) (i : SrInput) : Prop :=
  ∃ s' es iface frame, srStep sr s i = .ok s' ∧ s'.history = s.history ++ es ∧
    .transmitted .echoReply iface frame ∈ es

/-! ## The frames the router makes up -/

section Frames

variable {packet : Bytes} {n : Nat} {buf : Bytes}

theorem length_copyBytes {pos off m : Nat} {src : Bytes} (h : buf.length = n)
    (hfits : pos + m ≤ n) : (copyBytes buf pos src off m).length = n := by
  have hlen : (slice src off m).length ≤ m := List.length_take_le _ _
  rw [copyBytes, length_store (by omega), h]

theorem length_store_eq {off : Nat} {bs : Bytes} (h : buf.length = n)
    (hfits : off + bs.length ≤ n) : (store buf off bs).length = n := by
  rw [length_store (by omega), h]

/-- The source address of an echo reply is the destination address of the frame it answers. -/
theorem etherShost_echoReplyFrame {heap : Nat → UInt8}
    (h : sizeofEthernetHdr + sizeofIpHdr + sizeofIcmpHdr ≤ packet.length) :
    etherShost (echoReplyFrame packet heap) = etherDhost packet := by
  have h38 : 38 ≤ packet.length := h
  apply etherAddrAt_eq
  intro i hi
  have hi' : i < 6 := hi
  have hcopy : (echoReplyWrites (packet.length - 38))[16]? = some (.copy 6 0 6) := rfl
  rw [byteAt_echoReplyFrame_copy h38 heap hcopy hi' (by omega) (by simp [echoReplyWrites]; omega)]
  simp [etherDhost, etherAddrAt, byteAt, hi]

/-- The protocol of an echo reply is that of the frame it answers. -/
theorem protocol_echoReplyFrame {heap : Nat → UInt8}
    (h : sizeofEthernetHdr + sizeofIpHdr + sizeofIcmpHdr ≤ packet.length) :
    byteAt (echoReplyFrame packet heap) 23 = byteAt packet 23 := by
  have h38 : 38 ≤ packet.length := h
  have hcopy : (echoReplyWrites (packet.length - 38))[9]? = some (.copy 23 23 1) := rfl
  exact byteAt_echoReplyFrame_copy h38 heap (i := 0) hcopy (by decide) (by omega)
    (by simp [echoReplyWrites])

/-- A port unreachable is an ICMP message. -/
theorem holdsAt_portUnreachableFrame (packet : Bytes) (i : SrIf) (mem : Memory) :
    HoldsAt 70 23 ipProtocolIcmp (portUnreachableFrame packet i mem) := by
  unfold portUnreachableFrame
  refine HoldsAt.copyBytes ?_ (by omega) (by omega)
  refine HoldsAt.store ?_ (by simp [i.addr.property, etherAddrLen])
    (by simp [i.addr.property, etherAddrLen])
  refine HoldsAt.copyBytes ?_ (by omega) (by omega)
  iterate 2 refine HoldsAt.store ?_ (by simp [bytes16]) (by simp [bytes16])
  refine holdsAt_store ?_ (by omega)
  iterate 2 refine length_copyBytes ?_ (by omega)
  refine length_store_eq ?_ (by simp [bytes16])
  iterate 2 refine length_copyBytes ?_ (by omega)
  refine length_store_eq ?_ (by simp [bytes32])
  refine length_copyBytes ?_ (by omega)
  refine length_store_eq ?_ (by simp [bytes16])
  refine length_store_eq ?_ (by simp [readFrame])
  iterate 2 refine length_store_eq ?_ (by simp)
  simp [sizeofEthernetHdr, sizeofIpHdr, sizeofIcmpT3Hdr]

/-- What the router makes up: an ICMP message that is not an echo request. -/
structure IsAnswer (frame : Bytes) : Prop where
  length : sizeofEthernetHdr + sizeofIpHdr + sizeofIcmpHdr ≤ frame.length
  protocol : byteAt frame 23 = ipProtocolIcmp
  noRequest : byteAt frame 34 ≠ icmpEchoRequestCode ∨ byteAt frame 35 ≠ 0

theorem isAnswer_echoReplyFrame {heap : Nat → UInt8}
    (h : sizeofEthernetHdr + sizeofIpHdr + sizeofIcmpHdr ≤ packet.length)
    (hproto : byteAt packet 23 = ipProtocolIcmp) : IsAnswer (echoReplyFrame packet heap) where
  length := by rwa [length_echoReplyFrame h]
  protocol := by rw [protocol_echoReplyFrame h, hproto]
  noRequest := by
    left
    rw [byteAt_echoReplyFrame h]
    decide

theorem isAnswer_portUnreachableFrame (packet : Bytes) (i : SrIf) (mem : Memory) :
    IsAnswer (portUnreachableFrame packet i mem) where
  length := by
    rw [(holdsAt_portUnreachableFrame packet i mem).length]
    decide
  protocol := (holdsAt_portUnreachableFrame packet i mem).byte
  noRequest := by
    right
    rw [byteAt_portUnreachableFrame]
    decide

end Frames

/-! ## What a router does with a frame -/

/-- What a router sends of its own accord when `packet` comes in on `interface`. -/
inductive Reaction (sr : SrConfig) (interface : String) (packet : Bytes) (mem : Memory) :
    List SrEvent → Prop
  | silent {es : List SrEvent} (h : icmpSent es = []) : Reaction sr interface packet mem es
  | echoReply (h : Answerable sr interface packet) : Reaction sr interface packet mem
      [.received interface packet, .transmitted .echoReply interface
        (echoReplyFrame (store packet 24 [0, 0]) mem.heap)]
  | portUnreachable (h : ipP (ipHeader packet) ≠ ipProtocolIcmp) (i : SrIf) :
      Reaction sr interface packet mem
        [.received interface packet, .transmitted .portUnreachable interface
          (portUnreachableFrame (store packet 24 [0, 0]) i mem)]

section Reactions

variable {sr : SrConfig} {s s' : SrState} {interface : String} {packet : Bytes}

/-- The addresses and the protocol stand beside the checksum field. -/
theorem fields_cleared (h34 : 34 ≤ packet.length) :
    etherDhost (store packet 24 [0, 0]) = etherDhost packet ∧
      ipP (ipHeader (store packet 24 [0, 0])) = ipP (ipHeader packet) := by
  have hbyte : ∀ i < 24, byteAt (store packet 24 [0, 0]) i = byteAt packet i := by
    intro i hi
    exact byteAt_store_of_not_mem (by simp; omega) (.inl hi)
  constructor
  · apply etherAddrAt_eq
    intro i hi
    have hi' : i < 6 := hi
    rw [hbyte _ (by omega)]
    simp [etherDhost, etherAddrAt, byteAt, hi]
  · simp only [ipP, ipHeader, byteAt_drop, sizeofEthernetHdr]
    exact hbyte _ (by decide)

/-- The step of `packet` adds a reaction to the history. -/
def Reacts (sr : SrConfig) (interface : String) (packet : Bytes) (mem : Memory) (s s' : SrState) :
    Prop :=
  ∃ es, s'.history = s.history ++ es ∧ Reaction sr interface packet mem es

/-- Routine is no answer. -/
theorem reacts_of_routinely {mem : Memory} {now : Nat}
    (h : Routinely (s.arrived interface packet now mem) s') :
    Reacts sr interface packet mem s s' := by
  obtain ⟨es, hes, hall⟩ := h
  refine ⟨.received interface packet :: es, by simp [hes], .silent ?_⟩
  rw [← List.singleton_append, icmpSent_append, icmpSent_routine hall]
  rfl

/-- An answer is sent, or dropped. -/
theorem srSendPacket_reacts {now : Nat} {mem : Memory} {sender : SrSender} {buf : Bytes}
    (h : (∃ i, srGetInterface sr interface = some i ∧ etherShost buf = i.addr) →
      Reaction sr interface packet mem
        [.received interface packet, .transmitted sender interface buf]) :
    Reacts sr interface packet mem s
      (srSendPacket sr (s.arrived interface packet now mem) sender buf interface) := by
  rcases srSendPacket_cases sr (s.arrived interface packet now mem) sender buf interface with
    heq | ⟨hi, heq⟩
  · rw [heq]
    exact reacts_of_routinely (.refl _)
  · rw [heq]
    refine ⟨_, ?_, h hi⟩
    rw [SrState.emit_history, SrState.arrived_history, List.append_assoc]
    rfl

/-- What happens to an accepted frame. -/
theorem accepted_reacts {now : Nat} {mem : Memory} (hchecked : Checked packet)
    (h : (if srInterfaceIpMatch sr (ipDst (ipHeader packet)) then
        if ipP (ipHeader packet) = ipProtocolIcmp then
          srSendEchoReply sr (s.arrived interface packet now mem) (store packet 24 [0, 0]) interface
        else srSendPortUnreachable sr (s.arrived interface packet now mem) (store packet 24 [0, 0])
          interface
      else forwardToNextHop sr (s.arrived interface packet now mem) (store packet 24 [0, 0]))
        = .ok s') : Reacts sr interface packet mem s s' := by
  have h34 : 34 ≤ packet.length := hchecked.length
  split at h
  · next hmine =>
    split at h
    · next hicmp =>
      unfold srSendEchoReply at h
      split at h
      · cases h
      · next hlong =>
        rw [← Except.ok.inj h]
        apply srSendPacket_reacts
        -- the reply gets through if its source, the frame's destination, is the interface's address
        rintro ⟨i, hi, hsrc⟩
        rw [etherShost_echoReplyFrame (Nat.le_of_not_lt hlong), (fields_cleared h34).1] at hsrc
        rw [length_store (by simp; omega)] at hlong
        exact .echoReply ⟨hchecked, hmine, hicmp, Nat.le_of_not_lt hlong, i, hi, hsrc⟩
    · next hother =>
      unfold srSendPortUnreachable at h
      split at h
      · cases h
      · next i hi =>
        rw [← Except.ok.inj h]
        exact srSendPacket_reacts fun _ => .portUnreachable hother i
  · exact reacts_of_routinely ((Routinely.emit _ (.forwarded _)).trans (fillAndSendPkt_routinely h))

/-- Everything that is not ARP. -/
theorem ipStep_reacts {now : Nat} {mem : Memory}
    (hip : packet.length < sizeofEthernetHdr ∨ ethertype packet ≠ SrEthertype.arp.value)
    (h : srStep sr s (.frame interface packet now mem) = .ok s') :
    Reacts sr interface packet mem s s' := by
  have hstep : srStep sr s (.frame interface packet now mem)
      = srHandlepacket sr (s.tick (.frame interface packet now mem)) interface packet := rfl
  rw [hstep, srHandlepacket_eq hip] at h
  cases haccepted : ipAccepted packet with
  | none =>
      rw [haccepted] at h
      cases h
      exact reacts_of_routinely (.refl _)
  | some p =>
      obtain ⟨hchecked, rfl⟩ := ipAccepted_eq_some.mp haccepted
      have h34 : 34 ≤ packet.length := hchecked.length
      simp only [haccepted, (fields_cleared h34).2, (ipDst_cleared h34).1] at h
      exact accepted_reacts hchecked h

theorem arpStep_reacts {now : Nat} {mem : Memory} (hlen : sizeofEthernetHdr ≤ packet.length)
    (harp : ethertype packet = SrEthertype.arp.value)
    (h : srStep sr s (.frame interface packet now mem) = .ok s') :
    Reacts sr interface packet mem s s' := by
  have hstep : srStep sr s (.frame interface packet now mem)
      = handleArp sr (s.arrived interface packet now mem) interface packet := by
    simp only [srStep, srHandlepacket, harp, Nat.not_lt.mpr hlen, if_true, if_false]
    rfl
  rw [hstep] at h
  obtain rfl | ⟨recIf, s₁, -, hlearn, hanswer⟩ := handleArp_cases h
  · exact reacts_of_routinely (.refl _)
  have hlearned : Routinely (s.arrived interface packet now mem) s₁ := by
    obtain rfl | ⟨-, hlearn⟩ := hlearn
    · exact .refl _
    · exact learnMapping_routinely hlearn
  obtain rfl | hanswer := hanswer
  · exact reacts_of_routinely hlearned
  · obtain ⟨rt, i, dhost, -, -, -, rfl⟩ := (fillAndSendPktWith_arp_iff (.inr rfl)).mp hanswer
    obtain ⟨es, hes, hall⟩ := hlearned
    refine ⟨.received interface packet :: es ++ [_], by simp [hes]; rfl, .silent ?_⟩
    rw [← List.singleton_append, icmpSent_append, icmpSent_append, icmpSent_routine hall]
    rfl

/-- What a router that receives a frame sends of its own accord. -/
theorem srStep_reacts {now : Nat} {mem : Memory}
    (h : srStep sr s (.frame interface packet now mem) = .ok s') :
    Reacts sr interface packet mem s s' := by
  by_cases hip : packet.length < sizeofEthernetHdr ∨ ethertype packet ≠ SrEthertype.arp.value
  · exact ipStep_reacts hip h
  · rw [not_or, not_not, Nat.not_lt] at hip
    exact arpStep_reacts hip.1 hip.2 h

/-- One frame is answered with one ICMP message at most. -/
theorem Reaction.length_le {mem : Memory} {es : List SrEvent}
    (h : Reaction sr interface packet mem es) : (icmpSent es).length ≤ 1 := by
  cases h with
  | silent hnone => simp [hnone]
  | echoReply => exact Nat.le_refl 1
  | portUnreachable => exact Nat.le_refl 1

/-- An answerable frame is answered. -/
theorem Answerable.answered (h : Answerable sr interface packet) (s : SrState) (now : Nat)
    (mem : Memory) :
    srStep sr s (.frame interface packet now mem) = .ok ((s.arrived interface packet now mem).emit
      (.transmitted .echoReply interface (echoReplyFrame (store packet 24 [0, 0]) mem.heap))) := by
  have h34 : 34 ≤ packet.length := h.checked.length
  have hcleared : (store packet 24 [0, 0]).length = packet.length := length_store (by simp; omega)
  have hlong : ¬ (store packet 24 [0, 0]).length
      < sizeofEthernetHdr + sizeofIpHdr + sizeofIcmpHdr := hcleared ▸ Nat.not_lt.mpr h.long
  have hlong' := Nat.le_of_not_lt hlong
  obtain ⟨i, hi, hdhost⟩ := h.addressed
  have hsrc : etherShost (echoReplyFrame (store packet 24 [0, 0]) mem.heap) = i.addr := by
    rw [etherShost_echoReplyFrame hlong', (fields_cleared h34).1, hdhost]
  have hmin : ¬ (echoReplyFrame (store packet 24 [0, 0]) mem.heap).length < sizeofEthernetHdr := by
    rw [length_echoReplyFrame hlong']
    simp only [sizeofEthernetHdr, sizeofIpHdr, sizeofIcmpHdr] at hlong ⊢
    omega
  have hstep : srStep sr s (.frame interface packet now mem)
      = srHandlepacket sr (s.tick (.frame interface packet now mem)) interface packet := rfl
  rw [hstep, srHandlepacket_eq (.inr h.checked.notArp),
    ipAccepted_eq_some.mpr ⟨h.checked, rfl⟩]
  simp only [(fields_cleared h34).2, (ipDst_cleared h34).1, h.mine, h.icmp, if_true]
  rw [srSendEchoReply, if_neg hlong]
  show Except.ok (srSendPacket sr (s.arrived interface packet now mem) .echoReply
    (echoReplyFrame (store packet 24 [0, 0]) mem.heap) interface) = _
  rw [srSendPacket, if_neg hmin, hi]
  simp only [hsrc, if_true]

/-- The router sends an echo reply for what is answerable, and for nothing else. -/
theorem emitsEchoReply_iff {now : Nat} {mem : Memory} :
    EmitsEchoReply sr s (.frame interface packet now mem) ↔ Answerable sr interface packet := by
  constructor
  · rintro ⟨s', es, iface, frame, hstep, hes, hmem⟩
    obtain ⟨es', hes', hreaction⟩ := srStep_reacts hstep
    cases List.append_cancel_left (hes.symm.trans hes')
    cases hreaction with
    | silent hnone =>
        have hsent : frame ∈ icmpSent es := List.mem_flatMap.mpr ⟨_, hmem, by simp [SrEvent.icmp]⟩
        simp [hnone] at hsent
    | echoReply h => exact h
    | portUnreachable => simp at hmem
  · intro h
    refine ⟨_, [.received interface packet, .transmitted .echoReply interface
      (echoReplyFrame (store packet 24 [0, 0]) mem.heap)], interface, _, h.answered s now mem, ?_,
      List.mem_cons_of_mem _ (List.mem_singleton_self _)⟩
    simp

/-- What is sent is an ICMP message, and no echo request. -/
theorem Reaction.isAnswer {mem : Memory} {es : List SrEvent}
    (h : Reaction sr interface packet mem es) : ∀ frame ∈ icmpSent es, IsAnswer frame := by
  intro frame hframe
  cases h with
  | silent hnone => simp [hnone] at hframe
  | echoReply h =>
      have heq : frame = echoReplyFrame (store packet 24 [0, 0]) mem.heap := by
        simpa [icmpSent, SrEvent.icmp] using hframe
      have h34 : 34 ≤ packet.length := h.checked.length
      have hproto : byteAt (store packet 24 [0, 0]) 23 = ipProtocolIcmp := by
        have := (fields_cleared h34).2.trans h.icmp
        simpa [ipP, ipHeader, sizeofEthernetHdr] using this
      rw [heq]
      apply isAnswer_echoReplyFrame _ hproto
      rw [length_store (by simp; omega)]
      exact h.long
  | portUnreachable _ i =>
      have heq : frame = portUnreachableFrame (store packet 24 [0, 0]) i mem := by
        simpa [icmpSent, SrEvent.icmp] using hframe
      rw [heq]
      exact isAnswer_portUnreachableFrame _ _ _

end Reactions

/-! ## Rounds of an exchange -/

/-- A frame that a router receives. -/
structure Reception where
  router : SrConfig
  interface : String
  packet : Bytes

/-- The datagram in `frame` arrives in `packet`: the header and what else is in `ip_len`, but for
the TTL and the checksum that the routers in between change. -/
def Delivers (frame packet : Bytes) : Prop :=
  ∀ i, i < sizeofIpHdr ∨ i < ipLen (ipHeader frame) → sizeofEthernetHdr + i < frame.length →
    i ≠ 8 → i ≠ 10 → i ≠ 11 → byteAt (ipHeader packet) i = byteAt (ipHeader frame) i

/-- One round: the router of `x`, in whatever state, receives its frame and sends an ICMP message,
and that is what the router of `y` receives. -/
def Round (x y : Reception) : Prop :=
  ∃ s s' es now mem frame, srStep x.router s (.frame x.interface x.packet now mem) = .ok s' ∧
    s'.history = s.history ++ es ∧ frame ∈ icmpSent es ∧ Delivers frame y.packet

/-- What is answered is an echo request without IP options. -/
def Orderly (x : Reception) : Prop :=
  Answerable x.router x.interface x.packet →
    IsEchoRequest x.packet ∧ ipHl (ipHeader x.packet) = 5

/-- An answer that has arrived is an ICMP message and no echo request. -/
theorem Delivers.noRequest {frame packet : Bytes} (h : Delivers frame packet)
    (hanswer : IsAnswer frame) : ipP (ipHeader packet) = ipProtocolIcmp ∧
      ¬ (IsEchoRequest packet ∧ ipHl (ipHeader packet) = 5) := by
  have hlen : 38 ≤ frame.length := hanswer.length
  have hframe : ∀ i, byteAt (ipHeader frame) i = byteAt frame (14 + i) := byteAt_drop frame 14
  constructor
  · have hproto := h 9 (.inl (by decide)) (by simp only [sizeofEthernetHdr]; omega) (by decide)
      (by decide) (by decide)
    rw [ipP, hproto, hframe, hanswer.protocol]
  · rintro ⟨hrequest, hhl⟩
    have hihl : ipIhl (ipHeader packet) = 20 := by rw [ipIhl, hhl]
    have hsame : ipLen (ipHeader packet) = ipLen (ipHeader frame) := by
      unfold ipLen
      congr 1
      apply load16_congr
      intro k hk
      exact h (2 + k) (.inl (by simp only [sizeofIpHdr]; omega))
        (by simp only [sizeofEthernetHdr]; omega) (by omega) (by omega) (by omega)
    have htotal := hrequest.len
    rw [hihl, hsame] at htotal
    simp only [sizeofIcmpHdr] at htotal
    -- without options, type and code are where the answer has its own
    have hicmp : ∀ i, i < 2 → byteAt (ipHeader packet) (20 + i) = byteAt frame (34 + i) := by
      intro i hi
      rw [h (20 + i) (.inr (by omega)) (by simp only [sizeofEthernetHdr]; omega) (by omega)
        (by omega) (by omega), hframe, ← Nat.add_assoc]
    have htype := hrequest.type
    have hcode := hrequest.code
    rw [hihl] at htype hcode
    rcases hanswer.noRequest with hne | hne
    · exact hne (hicmp 0 (by decide) ▸ htype)
    · exact hne (hicmp 1 (by decide) ▸ hcode)

/-- A round ends at a router that answers echo requests only. -/
theorem Round.ends {x y z : Reception} (hxy : Round x y) (hyz : Round y z) : ¬ Orderly y := by
  intro horderly
  obtain ⟨s, s', es, now, mem, frame, hstep, hes, hframe, hdelivers⟩ := hxy
  obtain ⟨es', hes', hreaction⟩ := srStep_reacts hstep
  cases List.append_cancel_left (hes.symm.trans hes')
  obtain ⟨hicmp, hnot⟩ := hdelivers.noRequest (hreaction.isAnswer frame hframe)
  obtain ⟨t, t', fs, now', mem', frame', hstep', hfs, hframe', -⟩ := hyz
  obtain ⟨fs', hfs', hreaction'⟩ := srStep_reacts hstep'
  cases List.append_cancel_left (hfs.symm.trans hfs')
  cases hreaction' with
  | silent hnone => simp [hnone] at hframe'
  | echoReply h => exact hnot (horderly h)
  | portUnreachable hother => exact hother hicmp

/-- **Echo replies, and when they come to an end.** The router sends an echo reply only for an echo
request if and only if the frame is not answerable or is an echo request. One frame is answered with
one ICMP message at most, and as long as what is answered in an exchange are echo requests without
options, the exchange ends with the first answer. -/
theorem echoReplies_iff (sr : SrConfig) (s : SrState) (interface : String) (packet : Bytes)
    (now : Nat) (mem : Memory) (exchange : List Reception) :
    ((EmitsEchoReply sr s (.frame interface packet now mem) → IsEchoRequest packet) ↔
      (Answerable sr interface packet → IsEchoRequest packet)) ∧
    (∀ s' es, srStep sr s (.frame interface packet now mem) = .ok s' →
      s'.history = s.history ++ es → (icmpSent es).length ≤ 1) ∧
    (exchange.IsChain Round → (∀ x ∈ exchange, Orderly x) → exchange.length ≤ 2) := by
  refine ⟨?_, ?_, ?_⟩
  · rw [emitsEchoReply_iff]
  · intro s' es hstep hes
    obtain ⟨es', hes', hreaction⟩ := srStep_reacts hstep
    cases List.append_cancel_left (hes.symm.trans hes')
    exact hreaction.length_le
  · intro hchain horderly
    match exchange, hchain with
    | [], _ => exact Nat.zero_le 2
    | [_], _ => exact Nat.le_succ 1
    | [_, _], _ => exact Nat.le_refl 2
    | x :: y :: z :: rest, hchain =>
        obtain ⟨hxy, hrest⟩ := List.isChain_cons_cons.mp hchain
        obtain ⟨hyz, -⟩ := List.isChain_cons_cons.mp hrest
        exact absurd (horderly y (by simp)) (hxy.ends hyz)

/-! ## Two routers -/

/-- A second router, on the wire of the interface `eth1` of the first. -/
def peerConfig : SrConfig where
  ifList := [⟨"eth0", serverAddr, dotted 192 168 2 2⟩]
  routingTable := [hostRoute (dotted 192 168 2 1) "eth0"]

/-- An ICMP message of four bytes. -/
def icmpFrame (dhost shost : EtherAddr) (src dst : InAddr) (type : UInt8) : Bytes :=
  let icmp := [type, 0] ++ bytes16 (cksum [type, 0, 0, 0])
  ethFrame dhost shost .ip (ipDatagram 63 ipProtocolIcmp src dst icmp)

/-- An echo reply from the second router to the first, and one back. -/
def echoReplyTo : Bytes :=
  icmpFrame (etherDhost serverArpReply) serverAddr (dotted 192 168 2 2) (dotted 192 168 2 1) 0
def echoReplyBack : Bytes :=
  icmpFrame serverAddr (etherDhost serverArpReply) (dotted 192 168 2 1) (dotted 192 168 2 2) 0

/-- What a router sends in a step, evaluated. -/
theorem round_of_check {x y : Reception}
    (h : ∃ s', srStep x.router srInit (.frame x.interface x.packet 0 srInit.mem) = .ok s' ∧
      (icmpSent s'.history == [y.packet]) = true) : Round x y := by
  obtain ⟨s', hstep, hsent⟩ := h
  refine ⟨srInit, s', s'.history, 0, srInit.mem, y.packet, hstep, rfl, ?_, ?_⟩
  · rw [beq_iff_eq.mp hsent]
    exact List.mem_singleton_self _
  · intro i _ _ _ _ _
    rfl

/-- A ping from behind the second router is answered, and the answer is not for that router. -/
theorem echoReplies_ping : ∃ x y, Answerable x.router x.interface x.packet ∧ Round x y ∧
    [x, y].length ≤ 2 := by
  let x : Reception := ⟨rtableConfig, "eth1", icmpFrame (etherDhost serverArpReply) serverAddr
    (dotted 192 168 2 9) (dotted 192 168 2 1) 8⟩
  let y : Reception := ⟨peerConfig, "eth0", icmpFrame serverAddr (etherDhost serverArpReply)
    (dotted 192 168 2 1) (dotted 192 168 2 9) 0⟩
  have hround : Round x y := round_of_check (exists_ok_of_check (by decide +kernel))
  have hanswerable : Answerable x.router x.interface x.packet :=
    ⟨⟨by decide +kernel, by decide +kernel, by decide +kernel, by decide +kernel⟩,
      by decide +kernel, by decide +kernel, by decide +kernel, _, rfl, by decide +kernel⟩
  have hx : Orderly x := fun _ =>
    ⟨⟨by decide +kernel, by decide +kernel, by decide +kernel, by decide +kernel⟩,
      by decide +kernel⟩
  have hy : Orderly y := by
    intro h
    have hforeign : srInterfaceIpMatch y.router (ipDst (ipHeader y.packet)) = false := by
      decide +kernel
    exact absurd h.mine (by rw [hforeign]; decide)
  have h := echoReplies_iff x.router srInit x.interface x.packet 0 srInit.mem [x, y]
  refine ⟨x, y, hanswerable, hround, h.2.2 ?_ ?_⟩
  · simpa using hround
  · simp [hx, hy]

/-- An echo reply is answered with an echo reply, for ever. -/
theorem not_echoReplies_bounce :
    (¬ ∀ sr s interface packet now mem,
      EmitsEchoReply sr s (.frame interface packet now mem) → IsEchoRequest packet) ∧
    ¬ ∀ sr₁ sr₂, ¬ ∃ exchange : Nat → Reception,
      (∀ n, (exchange n).router = sr₁ ∨ (exchange n).router = sr₂) ∧
      ∀ n, Round (exchange n) (exchange (n + 1)) := by
  -- each frame makes the other router send the other frame, for ever
  have hto : Round ⟨rtableConfig, "eth1", echoReplyTo⟩ ⟨peerConfig, "eth0", echoReplyBack⟩ :=
    round_of_check (exists_ok_of_check (by decide +kernel))
  have hback : Round ⟨peerConfig, "eth0", echoReplyBack⟩ ⟨rtableConfig, "eth1", echoReplyTo⟩ :=
    round_of_check (exists_ok_of_check (by decide +kernel))
  constructor
  · intro h
    have hemits : EmitsEchoReply rtableConfig srInit (.frame "eth1" echoReplyTo 0 srInit.mem) :=
      emitsEchoReply_iff.mpr
        ⟨⟨by decide +kernel, by decide +kernel, by decide +kernel, by decide +kernel⟩,
          by decide +kernel, by decide +kernel, by decide +kernel, _, rfl, by decide +kernel⟩
    exact absurd (h _ _ _ _ _ _ hemits).type (by decide +kernel)
  · intro h
    refine h rtableConfig peerConfig ⟨fun n => if n % 2 = 0
      then ⟨rtableConfig, "eth1", echoReplyTo⟩ else ⟨peerConfig, "eth0", echoReplyBack⟩, ?_, ?_⟩
    · intro n
      dsimp only
      split
      · exact .inl rfl
      · exact .inr rfl
    · intro n
      rcases Nat.mod_two_eq_zero_or_one n with heven | hodd
      · simp only [heven, if_true, show (n + 1) % 2 ≠ 0 by omega, if_false]
        exact hto
      · simp only [hodd, one_ne_zero, if_false, show (n + 1) % 2 = 0 by omega, if_true]
        exact hback

end NetworkProjects.Router
