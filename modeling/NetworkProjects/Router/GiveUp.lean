import NetworkProjects.Router.Answers
import NetworkProjects.Router.Retry

/-!
# Giving up without a word

The comment over `sr_arpreq_handle` and the pseudo-code in `sr_arpcache.h` have the router report
a request it gives up on: an ICMP host unreachable to the source of every packet that waits. The
code calls `sr_arpreq_destroy` and nothing else.

That no such message ever leaves the router takes three facts: a frame with an IP datagram in it
carries one that was handed over (`Unreported.handed`), the two kinds of answers the router makes
up itself are of other ICMP types, and ARP frames are ARP frames. A destroyed request has at least
one packet (`Unreported.waiting`), so there is always something left unreported.
-/

namespace NetworkProjects.Router

open NetworkProjects.Lib

/-! ## The message

What the source of a datagram should get, described on the bytes of the frame. -/

/-- An ICMP host unreachable message to `dst`, behind an IP header without options as the router
builds it. -/
structure IsHostUnreachable (dst : InAddr) (frame : Bytes) : Prop where
  ethertype : ethertype frame = SrEthertype.ip.value
  ihl : ipHl (ipHeader frame) = 5
  protocol : ipP (ipHeader frame) = ipProtocolIcmp
  dst : ipDst (ipHeader frame) = dst
  type : byteAt frame 34 = 3
  code : byteAt frame 35 = 1

/-- The router sends a host unreachable message to `dst`, and does not merely forward one. -/
def Reports (dst : InAddr) (past : List SrEvent) : SrEvent → Prop
  | .transmitted _ _ frame => IsHostUnreachable dst frame ∧ .forwarded (ipHeader frame) ∉ past
  | _ => False

/-- The source of each waiting datagram has been sent a host unreachable message. -/
def Reported (past : List SrEvent) (r : SrArpreq) : Prop :=
  ∀ p ∈ r.packets, ∃ before e later, past = before ++ e :: later ∧
    Reports (ipSrc p.buf) before e

/-! ## What the router makes up itself

The ICMP type and code tell the frames apart: an echo reply has type 0, and a port unreachable has
code 3. -/

theorem HoldsAt.copyBytes {n k pos off m : Nat} {v : UInt8} {buf src : Bytes}
    (h : HoldsAt n k v buf) (hfits : pos + m ≤ n) (haway : k < pos ∨ pos + m ≤ k) :
    HoldsAt n k v (copyBytes buf pos src off m) := by
  have hlen : (slice src off m).length ≤ m := List.length_take_le _ _
  apply h.store <;> omega

/-- `sr_send_echo_reply` sets the ICMP type to 0. -/
theorem byteAt_echoReplyFrame {packet : Bytes} {heap : Nat → UInt8}
    (h : sizeofEthernetHdr + sizeofIpHdr + sizeofIcmpHdr ≤ packet.length) :
    byteAt (echoReplyFrame packet heap) 34 = 0 := by
  have h38 : 38 ≤ packet.length := h
  have hput : (echoReplyWrites (packet.length - 38))[0]? = some (.put 34 [0]) := rfl
  rw [echoReplyFrame_eq_fill h38 heap fun _ => 0]
  -- none of the writes that follow touches the type again
  exact byteAt_fill_put (i := 0) (show _ = packet.length by simp) (fits_echoReplyWrites (by omega))
    hput (by decide) (by simp [echoReplyWrites])

/-- `sr_send_port_unreachable` sets the ICMP type and the code to 3. -/
theorem byteAt_portUnreachableFrame (packet : Bytes) (i : SrIf) (mem : Memory) :
    byteAt (portUnreachableFrame packet i mem) 35 = 3 := by
  have hcode : HoldsAt 70 35 3 (store (store ((List.range 70).map mem.heap) 34 [3]) 35 [3]) := by
    refine holdsAt_store ?_ (by omega)
    rw [length_store (by simp)]
    simp
  have hframe : HoldsAt 70 35 3 (portUnreachableFrame packet i mem) := by
    unfold portUnreachableFrame
    refine HoldsAt.copyBytes ?_ (by omega) (by omega)
    refine HoldsAt.store ?_ (by simp [i.addr.property, etherAddrLen])
      (by simp [i.addr.property, etherAddrLen])
    refine HoldsAt.copyBytes ?_ (by omega) (by omega)
    iterate 3 refine HoldsAt.store ?_ (by simp [bytes16]) (by simp [bytes16])
    iterate 2 refine HoldsAt.copyBytes ?_ (by omega) (by omega)
    refine HoldsAt.store ?_ (by simp [bytes16]) (by simp [bytes16])
    iterate 2 refine HoldsAt.copyBytes ?_ (by omega) (by omega)
    refine HoldsAt.store ?_ (by simp [bytes32]) (by simp [bytes32])
    refine HoldsAt.copyBytes ?_ (by omega) (by omega)
    refine HoldsAt.store ?_ (by simp [bytes16]) (by simp [bytes16])
    refine HoldsAt.store ?_ (by simp [readFrame]) (by simp [readFrame])
    exact hcode
  exact hframe.byte

/-! ## The invariant

The frames on the wires are looked at through their origins, and requests are destroyed with their
packets, which the history knows. -/

/-- Destroyed requests have packets, and no report has been sent for any of them. -/
structure Unreported (s : SrState) : Prop where
  /-- A request that was sent for has a packet: `send_arp_request` reads its interface. -/
  waiting : ∀ r ∈ s.cache.requests, 1 ≤ r.timesSent → r.packets ≠ []
  handed : ∀ r ∈ s.cache.requests, ∀ p ∈ r.packets, .forwarded p.buf ∈ s.history
  answered : ∀ r, .answered r ∈ s.history → ∀ p ∈ r.packets, .forwarded p.buf ∈ s.history
  destroyed : ∀ r, .destroyed r ∈ s.history → r.packets ≠ []
  silent : Always (fun past e => ∀ dst, ¬ Reports dst past e) s.history

section Invariant

variable {sr : SrConfig} {s₀ s s' : SrState} {i : SrInput}

/-- A frame on the wire is no report, wherever it comes from. -/
theorem Origin.not_reports {sender : SrSender} {interface : String} {frame : Bytes}
    (horigin : Origin s.history sender frame) (h : Unreported s) (dst : InAddr) :
    ¬ Reports dst s.history (.transmitted sender interface frame) := by
  rintro ⟨hmsg, hown⟩
  cases horigin with
  | @datagram dhost shost d known =>
      rw [ipHeader_ethFrame] at hown
      rcases known with hfwd | ⟨req, hans, p, hp, rfl⟩
      · exact hown hfwd
      · exact hown (h.answered req hans p hp)
  | arp =>
      have htype := hmsg.ethertype
      rw [ethertype_ethFrame] at htype
      cases htype
  | echoReply long =>
      have htype := hmsg.type
      rw [byteAt_echoReplyFrame long] at htype
      cases htype
  | portUnreachable =>
      have hcode := hmsg.code
      rw [byteAt_portUnreachableFrame] at hcode
      cases hcode

/-- One more event on the same queue. -/
theorem Unreported.emit {e : SrEvent} (h : Unreported s)
    (hans : ∀ r, e = .answered r → ∀ p ∈ r.packets, .forwarded p.buf ∈ s.history)
    (hdes : ∀ r, e = .destroyed r → r.packets ≠ [])
    (hsilent : ∀ dst, ¬ Reports dst s.history e) : Unreported (s.emit e) where
  waiting := h.waiting
  handed := fun r hr p hp => List.mem_append_left _ (h.handed r hr p hp)
  answered := by
    intro r hr p hp
    apply List.mem_append_left
    rcases List.mem_append.mp hr with hr | hr
    · exact h.answered r hr p hp
    · exact hans r (List.mem_singleton.mp hr).symm p hp
  destroyed := by
    intro r hr
    rcases List.mem_append.mp hr with hr | hr
    · exact h.destroyed r hr
    · exact hdes r (List.mem_singleton.mp hr).symm
  silent := always_snoc.mpr ⟨h.silent, hsilent⟩

/-- The queue changes, and what is on it now has packets that were handed over. -/
theorem Unreported.withCache {c : SrArpcache} (h : Unreported s)
    (hreqs : ∀ r ∈ c.requests, (1 ≤ r.timesSent → r.packets ≠ []) ∧
      ∀ p ∈ r.packets, .forwarded p.buf ∈ s.history) : Unreported (s.withCache c) where
  waiting := fun r hr => (hreqs r hr).1
  handed := fun r hr => (hreqs r hr).2
  answered := h.answered
  destroyed := h.destroyed
  silent := h.silent

theorem Unreported.enqueue (h : Unreported s) (haddrs : AddrsOk s.cache) (ip : InAddr)
    {packet : Bytes} (iface : String) (hknown : Known s.history packet) :
    Unreported (s.withCache (srArpcacheQueuereq s.cache ip packet iface).1) := by
  have hfwd : .forwarded packet ∈ s.history := by
    rcases hknown with hfwd | ⟨req, hans, p, hp, rfl⟩
    · exact hfwd
    · exact h.answered req hans p hp
  apply h.withCache
  intro x hx
  constructor
  · rcases srArpcacheQueuereq_split haddrs ip packet iface with
      ⟨before, r, after, hsplit, -, heq⟩ | ⟨-, heq⟩
    · rw [heq] at hx
      rcases mem_split.mp hx with rfl | hx
      · intro hsent
        simp [h.waiting r (by simp [hsplit]) hsent]
      · apply h.waiting x
        rw [hsplit]
        exact mem_split.mpr (.inr hx)
    · rw [heq] at hx
      rcases List.mem_cons.mp hx with rfl | hx
      · simp
      · exact h.waiting x hx
  · intro p hp
    rcases mem_packets_of_queuereq haddrs hx hp with ⟨rfl, -⟩ | ⟨r₀, hr₀, -, hp⟩
    · exact hfwd
    · exact h.handed r₀ hr₀ p hp

theorem Unreported.move (haddrs : AddrsOk s.cache) (h : Unreported s)
    (hmove : QueueMove sr s₀ i s s') : Unreported s' := by
  have hold : ∀ r ∈ s.cache.requests, (1 ≤ r.timesSent → r.packets ≠ []) ∧
      ∀ p ∈ r.packets, .forwarded p.buf ∈ s.history :=
    fun r hr => ⟨h.waiting r hr, h.handed r hr⟩
  cases hmove with
  | receive => exact h.emit (by simp) (by simp) fun _ => id
  | forward => exact h.emit (by simp) (by simp) fun _ => id
  -- what is sent has an origin, and none of the origins is a report
  | transmit origin => exact h.emit (by simp) (by simp) fun dst => origin.not_reports h dst
  | enqueue route own absent known => exact h.enqueue haddrs _ _ known
  | @ask _ before after r hsplit _ _ hwaiting =>
      refine Unreported.emit (h.withCache ?_) (by simp) (by simp) fun _ => id
      intro x hx
      rcases mem_split.mp hx with rfl | hx
      · exact ⟨fun _ => hwaiting, h.handed r (by simp [hsplit])⟩
      · apply hold
        rw [hsplit]
        exact mem_split.mpr (.inr hx)
  | @giveUp _ before after r hsplit _ hlimit =>
      -- a request that is given up was sent five times, so packets wait on it
      have hr := h.waiting r (by simp [hsplit]) (by omega)
      refine Unreported.emit (h.withCache ?_) (by simp) ?_ fun _ => id
      · intro x hx
        apply hold
        rw [hsplit]
        exact mem_split.mpr (.inr hx)
      · rintro x hx
        cases hx
        exact hr
  | learn => exact h.withCache fun x hx => hold x (srArpcacheInsert_subset x hx)
  | @answer interface packet now mem ip mac req _ _ _ awaited =>
      have hreq : req ∈ s₀.cache.requests := List.mem_of_find?_eq_some awaited
      refine Unreported.emit (h.withCache ?_) ?_ (by simp) fun _ => id
      · exact fun x hx => hold x (srArpcacheInsert_subset x hx)
      · rintro x hx
        cases hx
        exact h.handed req hreq

theorem unreported_init : Unreported srInit where
  waiting := by simp [srInit, srArpcacheInit]
  handed := by simp [srInit, srArpcacheInit]
  answered := by simp [srInit]
  destroyed := by simp [srInit]
  silent := always_nil _

/-- Entries that expire are no report. -/
theorem Unreported.begun (h : Unreported s) (i : SrInput) : Unreported (s.begun i) := by
  obtain ⟨es, hhist, hes⟩ := s.begun_history i
  have hmem : ∀ e, (∀ ip mac, e ≠ .expired ip mac) → e ∈ (s.begun i).history → e ∈ s.history := by
    intro e hne he
    rw [hhist] at he
    rcases List.mem_append.mp he with he | he
    · exact he
    · obtain ⟨ip, mac, rfl⟩ := hes e he
      exact absurd rfl (hne ip mac)
  have hkeep : s.history ⊆ (s.begun i).history := by
    rw [hhist]
    exact List.subset_append_left _ _
  refine ⟨?_, ?_, ?_, ?_, ?_⟩
  · rw [SrState.begun_requests]
    exact h.waiting
  · rw [SrState.begun_requests]
    exact fun r hr p hp => hkeep (h.handed r hr p hp)
  · exact fun r hr p hp => hkeep (h.answered r (hmem _ (by simp) hr) p hp)
  · exact fun r hr => h.destroyed r (hmem _ (by simp) hr)
  · rw [hhist]
    apply always_append h.silent
    intro past e he dst
    obtain ⟨ip, mac, rfl⟩ := hes e he
    exact id

theorem unreported_of_srRun {inputs : List SrInput} (hrun : srRun sr inputs = .ok s) :
    Unreported s := by
  refine (srRun_queueRule unreported_init ?_ ?_ hrun).2
  · exact fun s i h => h.begun i
  · intro s₀ i s s' haddrs h hmove
    exact h.move haddrs hmove

end Invariant

/-! ## Every run -/

/-- A destroyed request is never reported. -/
theorem Unreported.not_reported {s : SrState} {past later : List SrEvent} {r : SrArpreq}
    (h : Unreported s) (hsplit : s.history = past ++ .destroyed r :: later) :
    ¬ Reported past r := by
  intro hreported
  obtain ⟨p, hp⟩ := List.exists_mem_of_ne_nil _ (h.destroyed r (by simp [hsplit]))
  obtain ⟨before, e, rest, hpast, hrep⟩ := hreported p hp
  exact h.silent before e (rest ++ .destroyed r :: later) (by simp [hsplit, hpast]) _ hrep

/-- **The router never reports that it has given up.** In no run has the source of every datagram
that waited on a destroyed request been sent an ICMP host unreachable message before. -/
theorem never_reported {sr : SrConfig} {inputs : List SrInput} {t : SrState}
    (hrun : srRun sr inputs = .ok t) :
    Always (fun past e => ∀ r, e = .destroyed r → ¬ Reported past r) t.history := by
  rintro past e later hsplit r rfl
  exact (unreported_of_srRun hrun).not_reported hsplit

theorem never_reported_queueAndGiveUp : ∃ t, srRun rtableConfig queueAndGiveUp = .ok t ∧
    (t.history.any fun e => e matches .destroyed _) ∧
    Always (fun past e => ∀ r, e = .destroyed r → ¬ Reported past r) t.history := by
  obtain ⟨t, hrun, hdestroyed⟩ : ∃ t, srRun rtableConfig queueAndGiveUp = .ok t ∧
      (t.history.any fun e => e matches .destroyed _) = true :=
    exists_ok_of_check (by decide +kernel)
  exact ⟨t, hrun, hdestroyed, never_reported hrun⟩

/-- The router gives up on a datagram for the other server, and the client hears nothing. -/
theorem not_reported_queueAndGiveUp :
    ¬ ∀ sr inputs t, srRun sr inputs = .ok t →
      Always (fun past e => ∀ r, e = .destroyed r → Reported past r) t.history := by
  intro h
  obtain ⟨t, hrun, hdestroyed⟩ : ∃ t, srRun rtableConfig queueAndGiveUp = .ok t ∧
      (t.history.any fun e => e matches .destroyed _) = true :=
    exists_ok_of_check (by decide +kernel)
  obtain ⟨e, he, hmatch⟩ := List.any_eq_true.mp hdestroyed
  obtain ⟨past, later, hsplit⟩ := List.append_of_mem he
  split at hmatch
  · next r =>
    exact (unreported_of_srRun hrun).not_reported hsplit (h _ _ t hrun past _ later hsplit r rfl)
  · cases hmatch

end NetworkProjects.Router
