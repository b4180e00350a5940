import NetworkProjects.Router.NoRoute
import NetworkProjects.Router.Retry

/-!
# What an ARP frame does to the cache and the queue

An ARP frame addressed to the interface it comes in on makes `sr_handlepacket` look up its sender
and, if the sender is not in the cache, insert it (`lookupAndInsert`) and flush what waited for it.

The cache is current afterwards if the sender was not in it and there was a free slot, or if it was
in it with the address it still has (`cacheCurrent_iff`). Nothing is inserted into a full cache, and
an entry is never changed. With a free slot, everything that waited for the sender is transmitted,
as long as each packet is long enough to hold a destination address (`answerFlushes_iff`).
-/

namespace NetworkProjects.Router

open NetworkProjects.Lib

/-! ## The cache as a map

Lookup as a function of the IP. An insertion changes it at one IP, and only if a slot is free. -/

section Map

variable {c : SrArpcache} {ip ip' : InAddr}

/-- Filling an invalid slot changes what is found for one IP only. -/
theorem srArpcacheLookup_insert_of_ne (mac : EtherAddr) (now : Nat) (hne : ip' ≠ ip) :
    srArpcacheLookup (srArpcacheInsert c mac ip now).1 ip' = srArpcacheLookup c ip' := by
  rcases srArpcacheInsert_entries c mac ip now with ⟨k, hk, hentries⟩ | hentries
  · unfold srArpcacheLookup
    congr 1
    funext entry i
    rw [hentries]
    by_cases hik : i = k
    · subst hik
      simp [hk, Ne.symm hne]
    · simp [hik]
  · exact srArpcacheLookup_congr hentries ip'

/-- What is inserted is found again, if there was a slot for it. -/
theorem srArpcacheLookup_insert_self (mac : EtherAddr) (now : Nat)
    (habsent : srArpcacheLookup c ip = none) :
    srArpcacheLookup (srArpcacheInsert c mac ip now).1 ip
      = (freeSlot c.entries).map fun _ => ⟨mac, ip, now, true⟩ := by
  cases hslot : freeSlot c.entries with
  | none =>
      have hsame : (srArpcacheInsert c mac ip now).1.entries = c.entries := by
        simp [srArpcacheInsert, hslot]
      rw [srArpcacheLookup_congr hsame, habsent]
      rfl
  | some k =>
      have hentries : (srArpcacheInsert c mac ip now).1.entries
          = Function.update c.entries k ⟨mac, ip, now, true⟩ := by
        simp [srArpcacheInsert, hslot]
      cases hlookup : srArpcacheLookup (srArpcacheInsert c mac ip now).1 ip with
      | none =>
          have hnot := srArpcacheLookup_eq_none hlookup k
          simp [hentries] at hnot
      | some e =>
          obtain ⟨i, rfl, hvalid, hip⟩ := srArpcacheLookup_eq_some hlookup
          rw [hentries] at hvalid hip ⊢
          by_cases hik : i = k
          · subst hik
            simp
          · -- another valid entry for the IP would have been found before
            simp only [ne_eq, hik, not_false_eq_true, Function.update_of_ne] at hvalid hip
            exact absurd hip (srArpcacheLookup_eq_none habsent i hvalid)

/-- A slot is free if one of them is invalid. -/
theorem freeSlot_isSome {entries : Fin srArpcacheSz → SrArpentry} :
    (freeSlot entries).isSome ↔ ∃ k, (entries k).valid = false := by
  simp [freeSlot, List.find?_isSome]

end Map

/-! ## Lookup and insert -/

/-- The lookup-and-insert step of `sr_handlepacket`. -/
def lookupAndInsert (cache : SrArpcache) (mac : EtherAddr) (ip : InAddr) (now : Nat) :
    SrArpcache :=
  match srArpcacheLookup cache ip with
  | some _ => cache
  | none => (srArpcacheInsert cache mac ip now).1

/-- What it leaves in the cache for the sender. -/
theorem srArpcacheLookup_lookupAndInsert (c : SrArpcache) (mac : EtherAddr) (ip : InAddr)
    (now : Nat) :
    srArpcacheLookup (lookupAndInsert c mac ip now) ip
      = (srArpcacheLookup c ip).or ((freeSlot c.entries).map fun _ => ⟨mac, ip, now, true⟩) := by
  unfold lookupAndInsert
  cases h : srArpcacheLookup c ip with
  | some e => simp [h]
  | none => simp [srArpcacheLookup_insert_self mac now h]

theorem srArpcacheLookup_lookupAndInsert_of_ne {c : SrArpcache} {ip ip' : InAddr}
    (mac : EtherAddr) (now : Nat) (hne : ip' ≠ ip) :
    srArpcacheLookup (lookupAndInsert c mac ip now) ip' = srArpcacheLookup c ip' := by
  unfold lookupAndInsert
  split
  · rfl
  · exact srArpcacheLookup_insert_of_ne mac now hne

/-- Lookup finds the sender's own address afterwards if it is there already, or if nothing is
there and a slot is free. -/
theorem lookupAndInsert_current_iff (c : SrArpcache) (mac : EtherAddr) (ip : InAddr) (now : Nat) :
    (srArpcacheLookup (lookupAndInsert c mac ip now) ip).map SrArpentry.mac = some mac ↔
      (∃ e, srArpcacheLookup c ip = some e ∧ e.mac = mac) ∨
      (srArpcacheLookup c ip = none ∧ ∃ k, (c.entries k).valid = false) := by
  rw [srArpcacheLookup_lookupAndInsert, ← freeSlot_isSome]
  cases srArpcacheLookup c ip with
  | some e => simp
  | none => cases freeSlot c.entries <;> simp

/-! ## The ARP branch

The branch in two halves: the sender is learned, and a request is answered. The flush in the first
half leaves the entries alone. -/

section Branch

variable {sr : SrConfig} {s s' : SrState} {interface : String} {packet : Bytes} {ip : InAddr}
  {mac : EtherAddr}

/-- What `sr_handlepacket` does about the sender of an ARP frame: lookup, insert and flush. -/
def learnSender (sr : SrConfig) (s : SrState) (mac : EtherAddr) (ip : InAddr) :
    Except Fault SrState :=
  match srArpcacheLookup s.cache ip with
  | some _ => .ok s
  | none => learnMapping sr s mac ip

/-- The state in which a frame is handled. -/
def SrState.arrived (s : SrState) (interface : String) (packet : Bytes) (now : Nat)
    (mem : Memory) : SrState :=
  (s.tick (.frame interface packet now mem)).emit (.received interface packet)

@[simp] theorem SrState.arrived_cache (s : SrState) (interface : String) (packet : Bytes)
    (now : Nat) (mem : Memory) : (s.arrived interface packet now mem).cache = s.cache := rfl
@[simp] theorem SrState.arrived_clock (s : SrState) (interface : String) (packet : Bytes)
    (now : Nat) (mem : Memory) : (s.arrived interface packet now mem).clock = now := rfl
@[simp] theorem SrState.arrived_history (s : SrState) (interface : String) (packet : Bytes)
    (now : Nat) (mem : Memory) : (s.arrived interface packet now mem).history
      = s.history ++ [.received interface packet] := rfl

/-- The ARP branch: first the sender is learned, then a request is answered. -/
theorem handleArp_eq : handleArp sr s interface packet =
    if packet.length < sizeofEthernetHdr + sizeofArpHdr then .ok s
    else
      match srGetInterface sr interface with
      | none => .error .nullInterface
      | some recIf =>
          if recIf.ip ≠ arTip packet then .ok s
          else
            match learnSender sr s (arSha packet) (arSip packet) with
            | .error e => .error e
            | .ok s =>
                if arpOpcode packet = arpOpRequest then handleArpRequst sr s packet recIf
                else .ok s := rfl

/-- The step of an ARP frame for the interface it comes in on. -/
theorem srStep_teaches (h : Teaches sr ip mac (.received interface packet)) (now : Nat)
    (mem : Memory) :
    ∃ recIf, srGetInterface sr interface = some recIf ∧ arTip packet = recIf.ip ∧
      srStep sr s (.frame interface packet now mem) =
        match learnSender sr (s.arrived interface packet now mem) mac ip with
        | .error e => .error e
        | .ok s =>
            if arpOpcode packet = arpOpRequest then handleArpRequst sr s packet recIf
            else .ok s := by
  obtain ⟨hlen, htype, rfl, rfl, recIf, hrec, htip⟩ := h
  have hlen' : ¬ packet.length < sizeofEthernetHdr + sizeofArpHdr := Nat.not_lt.mpr hlen
  have hmin : ¬ packet.length < sizeofEthernetHdr := by
    simp only [sizeofEthernetHdr, sizeofArpHdr] at hlen' ⊢
    omega
  refine ⟨recIf, hrec, htip, ?_⟩
  simp only [srStep, srHandlepacket, hmin, htype, handleArp_eq, hlen', hrec, htip, if_true,
    if_false, ne_eq, not_true_eq_false]
  rfl

/-- Learning a sender leaves the entries of `lookupAndInsert` behind, whatever is flushed. -/
theorem learnSender_entries (haddrs : AddrsOk s.cache) (h : learnSender sr s mac ip = .ok s') :
    s'.cache.entries = (lookupAndInsert s.cache mac ip s.clock).entries := by
  unfold learnSender at h
  unfold lookupAndInsert
  split at h
  · next e he =>
    cases h
    rfl
  · next hnone =>
    cases hins : (srArpcacheInsert s.cache mac ip s.clock).2 with
    | none =>
        rw [learnMapping_none hins] at h
        cases h
        rfl
    | some req =>
        rw [learnMapping_some hins] at h
        exact (srArpreqSendPackets_entries (by exact haddrs.insert mac ip s.clock) h).1

/-- The entries after the step of the frame. -/
theorem srStep_entries (haddrs : AddrsOk s.cache)
    (hteach : Teaches sr ip mac (.received interface packet)) {now : Nat} {mem : Memory}
    (h : srStep sr s (.frame interface packet now mem) = .ok s') :
    s'.cache.entries = (lookupAndInsert s.cache mac ip now).entries := by
  obtain ⟨recIf, -, -, heq⟩ := srStep_teaches (s := s) hteach now mem
  rw [heq] at h
  split at h
  · cases h
  · next s₁ hs₁ =>
    have hlearned := learnSender_entries (by exact haddrs) hs₁
    split at h
    · obtain ⟨iface, dhost, shost, rfl⟩ := fillAndSendPktWith_arp_frame h
      exact hlearned
    · cases h
      exact hlearned

end Branch

/-- **ARP learning keeps the cache current, and exactly when.** In a reachable state, an ARP frame
from `ip` at `mac` leaves `mac` in the cache for `ip` if and only if it was there before, or nothing
was there for `ip` and a slot was free. -/
theorem cacheCurrent_iff {sr : SrConfig} {inputs : List SrInput} {s : SrState}
    (hrun : srRun sr inputs = .ok s) {interface : String} {packet : Bytes} {ip : InAddr}
    {mac : EtherAddr} (hteach : Teaches sr ip mac (.received interface packet)) (now : Nat) :
    ((srArpcacheLookup (lookupAndInsert s.cache mac ip now) ip).map SrArpentry.mac = some mac ↔
      (∃ e, srArpcacheLookup s.cache ip = some e ∧ e.mac = mac) ∨
      (srArpcacheLookup s.cache ip = none ∧ ∃ k, (s.cache.entries k).valid = false)) ∧
    ∀ mem s', srStep sr s (.frame interface packet now mem) = .ok s' →
      s'.cache.entries = (lookupAndInsert s.cache mac ip now).entries := by
  refine ⟨lookupAndInsert_current_iff s.cache mac ip now, ?_⟩
  intro mem s' hstep
  exact srStep_entries (hopsOk_of_srRun hrun).1 hteach hstep

/-- A datagram waits for the server, and an ARP frame from it arrives. -/
theorem serverArpReply_teaches :
    Teaches rtableConfig (dotted 192 168 2 2) serverAddr (.received "eth1" serverArpReply) :=
  ⟨by decide, by decide, by decide +kernel, by decide +kernel, _, rfl, by decide⟩

theorem cacheCurrent_oneWaiting : ∃ s,
    srRun rtableConfig [.frame "eth3" (clientFrame 64 (dotted 192 168 2 2)) 5 srInit.mem] = .ok s ∧
    (srArpcacheLookup (lookupAndInsert s.cache serverAddr (dotted 192 168 2 2) 6)
      (dotted 192 168 2 2)).map SrArpentry.mac = some serverAddr := by
  obtain ⟨s, hrun, hcheck⟩ : ∃ s,
      srRun rtableConfig [.frame "eth3" (clientFrame 64 (dotted 192 168 2 2)) 5 srInit.mem]
        = .ok s ∧
      ((srArpcacheLookup s.cache (dotted 192 168 2 2)).isNone && (freeSlot s.cache.entries).isSome)
        = true := exists_ok_of_check (by decide +kernel)
  rw [Bool.and_eq_true, Option.isNone_iff_eq_none, freeSlot_isSome] at hcheck
  exact ⟨s, hrun, (cacheCurrent_iff hrun serverArpReply_teaches 6).1.mpr (.inr hcheck)⟩

/-- In a full cache the server's answer leaves no mapping behind. -/
theorem not_cacheCurrent_crowd :
    ¬ ∀ sr inputs s interface packet ip mac now, srRun sr inputs = .ok s →
      Teaches sr ip mac (.received interface packet) →
      (srArpcacheLookup (lookupAndInsert s.cache mac ip now) ip).map SrArpentry.mac
        = some mac := by
  intro h
  obtain ⟨s, hrun, hfull, habsent, -⟩ := crowd_fills
  have hcurrent := h _ _ s "eth1" serverArpReply _ _ 6 hrun serverArpReply_teaches
  rw [srArpcacheLookup_lookupAndInsert, habsent, hfull] at hcurrent
  cases hcurrent

/-! ## The flush

With the mapping in the cache each packet is sent to it. A packet that is too short to hold a
destination stops the flush with a fault. -/

section Flush

variable {sr : SrConfig} {s s' : SrState}

/-- A datagram whose gateway is in the cache is transmitted. -/
theorem fillAndSendPkt_cached {d : Bytes} {dip : InAddr} {rt : SrRt} {e : SrArpentry} {i : SrIf}
    (hrt : longestPrefixMatch sr dip = some rt) (he : srArpcacheLookup s.cache rt.gw = some e)
    (hi : srGetInterface sr rt.interface = some i) :
    fillAndSendPkt sr s d dip .ip = .ok (s.emit (.transmitted (.fillAndSendPkt .ip) rt.interface
      (ethFrame e.mac i.addr .ip d))) := by
  unfold fillAndSendPkt fillAndSendPktWith
  simp only [hrt, he, hi, Option.isSome_some, true_or, if_true, reduceCtorEq, false_and,
    if_false, Option.map_some]
  rw [srSendPacket_ethFrame hi]

/-- The flush of packets that hold a destination address, with routes through a gateway in the
cache. -/
theorem srArpreqSendPackets_cached {g : InAddr} {e : SrArpentry} :
    ∀ {ps : List SrPacket} {s : SrState},
      (∀ p ∈ ps, sizeofIpHdr ≤ p.buf.length ∧ ∃ rt i,
        longestPrefixMatch sr (ipDst p.buf) = some rt ∧ rt.gw = g ∧
        srGetInterface sr rt.interface = some i) →
      srArpcacheLookup s.cache g = some e → ∃ s', srArpreqSendPackets sr s ps = .ok s'
  | [], s, _, _ => ⟨s, rfl⟩
  | cur :: next, s, hps, he => by
      obtain ⟨hlen, rt, i, hrt, hgw, hi⟩ := hps cur (by simp)
      have hfirst := fillAndSendPkt_cached (s := s) (d := cur.buf) hrt (by rwa [hgw]) hi
      obtain ⟨s', hrest⟩ := srArpreqSendPackets_cached (s := s.emit _)
        (fun p hp => hps p (List.mem_cons_of_mem cur hp)) (by exact he)
      exact ⟨s', srArpreqSendPackets_cons.mpr ⟨hlen, _, hfirst, hrest⟩⟩

/-- What the answer for the request `r` should do: everything that waited on it is sent to `mac`,
and nothing else; the request leaves the queue and the mapping enters the cache, and neither changes
otherwise. -/
structure Flushed (sr : SrConfig) (interface : String) (packet : Bytes) (mac : EtherAddr)
    (now : Nat) (r : SrArpreq) (s s' : SrState) : Prop where
  sent : ∃ es, s'.history = s.history ++ .received interface packet :: .answered r :: es ∧
    List.Forall₂ (SentTo sr mac) r.packets es
  queue : ∃ before after, s.cache.requests = before ++ r :: after ∧
    s'.cache.requests = before ++ after
  unqueued : ∀ x ∈ s'.cache.requests, x.ip ≠ r.ip
  learned : srArpcacheLookup s'.cache r.ip = some ⟨mac, r.ip, now, true⟩
  entries : ∃ k, (s.cache.entries k).valid = false ∧
    s'.cache.entries = Function.update s.cache.entries k ⟨mac, r.ip, now, true⟩

/-- The insertion of an IP takes the one request for it off the queue. -/
theorem srArpcacheInsert_takes {c : SrArpcache} (hkeys : KeysOk c) {r : SrArpreq}
    (hr : r ∈ c.requests) (mac : EtherAddr) (now : Nat) :
    (srArpcacheInsert c mac r.ip now).2 = some r ∧
    ∃ before after, c.requests = before ++ r :: after ∧
      (srArpcacheInsert c mac r.ip now).1.requests = before ++ after := by
  rcases srArpcacheInsert_cases c mac r.ip now with
    ⟨before, r', after, hsplit, hip, hreqs, hsome⟩ | ⟨hno, -, -⟩
  · have hsame : r = r' := by
      rw [hsplit] at hr
      rcases mem_split.mp hr with heq | hmem
      · exact heq
      · exact absurd hip.symm (hkeys.ip_ne_of_split hsplit r hmem)
    subst hsame
    exact ⟨hsome, before, after, hsplit, hreqs⟩
  · exact absurd rfl (hno r hr)

/-- The sender of an ARP frame is learned, and packets have waited for it. -/
theorem learnSender_answers {r : SrArpreq} {mac : EtherAddr}
    (habsent : srArpcacheLookup s.cache r.ip = none)
    (hsome : (srArpcacheInsert s.cache mac r.ip s.clock).2 = some r) :
    learnSender sr s mac r.ip = srArpreqSendPackets sr
      ((s.withCache (srArpcacheInsert s.cache mac r.ip s.clock).1).emit (.answered r))
      r.packets := by
  simp only [learnSender, habsent]
  exact learnMapping_some hsome

/-- **An ARP answer flushes its queue, and exactly when.** In a reachable state with a free slot, an
ARP reply from an IP that packets wait for sends all of them, and does nothing else, if and only if
each of them is long enough to hold a destination address. -/
theorem answerFlushes_iff {inputs : List SrInput} (hrun : srRun sr inputs = .ok s) {r : SrArpreq}
    (hr : r ∈ s.cache.requests) (hfree : ∃ k, (s.cache.entries k).valid = false)
    {interface : String} {packet : Bytes} {mac : EtherAddr}
    (hteach : Teaches sr r.ip mac (.received interface packet))
    (hreply : arpOpcode packet = arpOpReply)
    (hroutes : ∀ p ∈ r.packets, sizeofIpHdr ≤ p.buf.length → ∃ rt i,
      longestPrefixMatch sr (ipDst p.buf) = some rt ∧ srGetInterface sr rt.interface = some i)
    (now : Nat) (mem : Memory) :
    (∃ s', srStep sr s (.frame interface packet now mem) = .ok s' ∧
      Flushed sr interface packet mac now r s s') ↔
    ∀ p ∈ r.packets, sizeofIpHdr ≤ p.buf.length := by
  obtain ⟨-, hok⟩ := hopsOk_of_srRun hrun
  have habsent := hok.keys.absent_of_request hr
  obtain ⟨hsome, before, after, hsplit, hqueue⟩ := srArpcacheInsert_takes hok.keys hr mac now
  obtain ⟨k, hk⟩ := Option.isSome_iff_exists.mp (freeSlot_isSome.mpr hfree)
  have hlookup : srArpcacheLookup (srArpcacheInsert s.cache mac r.ip now).1 r.ip
      = some ⟨mac, r.ip, now, true⟩ := by
    rw [srArpcacheLookup_insert_self mac now habsent, hk]
    rfl
  -- a reply is not answered, so the step is the flush
  have hstep : srStep sr s (.frame interface packet now mem) = srArpreqSendPackets sr
      (((s.arrived interface packet now mem).withCache
        (srArpcacheInsert s.cache mac r.ip now).1).emit (.answered r)) r.packets := by
    obtain ⟨recIf, -, -, heq⟩ := srStep_teaches (s := s) hteach now mem
    have hnot : arpOpcode packet ≠ arpOpRequest := by
      rw [hreply]
      decide
    rw [heq, learnSender_answers (s := s.arrived interface packet now mem) habsent hsome,
      SrState.arrived_cache, SrState.arrived_clock]
    split
    · next e he => exact he.symm
    · next s₁ hs₁ =>
      rw [if_neg hnot]
      exact hs₁.symm
  constructor
  · rintro ⟨s', hs', -⟩
    rw [hstep] at hs'
    exact length_of_srArpreqSendPackets hs'
  · intro hlong
    have hready : ∀ p ∈ r.packets, sizeofIpHdr ≤ p.buf.length ∧ ∃ rt i,
        longestPrefixMatch sr (ipDst p.buf) = some rt ∧ rt.gw = r.ip ∧
        srGetInterface sr rt.interface = some i := by
      intro p hp
      obtain ⟨rt, i, hrt, hi⟩ := hroutes p hp (hlong p hp)
      obtain ⟨rt', hrt', hgw⟩ := nextHop_eq_some (hok.routed r hr p hp (hlong p hp))
      rw [hrt] at hrt'
      cases hrt'
      exact ⟨hlong p hp, rt, i, hrt, hgw, hi⟩
    obtain ⟨s', hsend⟩ := srArpreqSendPackets_cached
      (s := ((s.arrived interface packet now mem).withCache
        (srArpcacheInsert s.cache mac r.ip now).1).emit (.answered r)) hready (by exact hlookup)
    obtain ⟨es, rfl, hall⟩ := srArpreqSendPackets_sent (hok.routed r hr) (by exact hlookup) hsend
    refine ⟨_, hstep.trans hsend, ?_, ?_, ?_, hlookup, k, ?_, ?_⟩
    · exact ⟨es, by simp, hall⟩
    · exact ⟨before, after, hsplit, hqueue⟩
    · intro x hx
      exact hok.keys.ip_ne_of_split hsplit x (hqueue ▸ hx)
    · simpa using List.find?_some hk
    · simp [srArpcacheInsert, hk]

end Flush

/-- A datagram waits for the server, and the server's answer sends it. -/
theorem answerFlushes_oneWaiting : ∃ s r s',
    srRun rtableConfig [.frame "eth3" (clientFrame 64 (dotted 192 168 2 2)) 5 srInit.mem] = .ok s ∧
    r ∈ s.cache.requests ∧ r.packets ≠ [] ∧
    srStep rtableConfig s (.frame "eth1" serverArpReply 6 srInit.mem) = .ok s' ∧
    Flushed rtableConfig "eth1" serverArpReply serverAddr 6 r s s' := by
  obtain ⟨s, hrun, hcheck⟩ : ∃ s,
      srRun rtableConfig [.frame "eth3" (clientFrame 64 (dotted 192 168 2 2)) 5 srInit.mem]
        = .ok s ∧
      ((freeSlot s.cache.entries).isSome && s.cache.requests.any fun r =>
        r.ip == dotted 192 168 2 2 && !r.packets.isEmpty && r.packets.all fun p =>
          decide (sizeofIpHdr ≤ p.buf.length) &&
            (longestPrefixMatch rtableConfig (ipDst p.buf)).isSome)
        = true := exists_ok_of_check (by decide +kernel)
  simp only [Bool.and_eq_true, freeSlot_isSome, List.any_eq_true, List.all_eq_true,
    decide_eq_true_eq, beq_iff_eq, Bool.not_eq_true', List.isEmpty_eq_false_iff] at hcheck
  obtain ⟨hfree, r, hr, ⟨hip, hsome⟩, hpackets⟩ := hcheck
  have hteach : Teaches rtableConfig r.ip serverAddr (.received "eth1" serverArpReply) :=
    hip ▸ serverArpReply_teaches
  have hroutes : ∀ p ∈ r.packets, sizeofIpHdr ≤ p.buf.length → ∃ rt i,
      longestPrefixMatch rtableConfig (ipDst p.buf) = some rt ∧
      srGetInterface rtableConfig rt.interface = some i := by
    intro p hp _
    obtain ⟨rt, hrt⟩ := Option.isSome_iff_exists.mp (hpackets p hp).2
    obtain ⟨i, hi⟩ := Option.isSome_iff_exists.mp (rtable_route hrt).2
    exact ⟨rt, i, hrt, hi⟩
  obtain ⟨s', hstep, hflushed⟩ := (answerFlushes_iff hrun hr hfree hteach (by decide +kernel)
    hroutes 6 srInit.mem).mpr fun p hp => (hpackets p hp).1
  exact ⟨s, r, s', hrun, hr, hsome, hstep, hflushed⟩

/-- A datagram that announces ten bytes, half of its own header. -/
def shortFrame : Bytes :=
  let frame := store (clientFrame 64 (dotted 192 168 2 2)) 16 (bytes16 (ntohs 10))
  let frame := store frame 24 [0, 0]
  store frame 24 (bytes16 (cksum (slice frame 14 20)))

/-- It is queued, and the flush looks for its destination behind its end. -/
theorem not_answerFlushes_shortFrame :
    ¬ ∀ sr inputs s r interface packet mac now mem, srRun sr inputs = .ok s →
      r ∈ s.cache.requests → (∃ k, (s.cache.entries k).valid = false) →
      Teaches sr r.ip mac (.received interface packet) → arpOpcode packet = arpOpReply →
      (∀ p ∈ r.packets, sizeofIpHdr ≤ p.buf.length → ∃ rt i,
        longestPrefixMatch sr (ipDst p.buf) = some rt ∧ srGetInterface sr rt.interface = some i) →
      ∃ s', srStep sr s (.frame interface packet now mem) = .ok s' ∧
        Flushed sr interface packet mac now r s s' := by
  intro h
  obtain ⟨s, hrun, hcheck⟩ : ∃ s,
      srRun rtableConfig [.frame "eth3" shortFrame 5 srInit.mem] = .ok s ∧
      ((freeSlot s.cache.entries).isSome &&
        (s.cache.requests.any fun r => r.ip == dotted 192 168 2 2 &&
          r.packets.all fun p => decide (p.buf.length < sizeofIpHdr)) &&
        (srStep rtableConfig s serverAnswers).toOption.isNone) = true :=
    exists_ok_of_check (by decide +kernel)
  simp only [Bool.and_eq_true, freeSlot_isSome, List.any_eq_true, List.all_eq_true,
    decide_eq_true_eq, beq_iff_eq] at hcheck
  obtain ⟨⟨hfree, r, hr, hip, hshort⟩, hfault⟩ := hcheck
  obtain ⟨s', hstep, -⟩ := h rtableConfig _ s r "eth1" serverArpReply serverAddr 6 srInit.mem hrun
    hr hfree (hip ▸ serverArpReply_teaches) (by decide +kernel)
    fun p hp hlong => absurd (hshort p hp) (Nat.not_lt.mpr hlong)
  rw [serverAnswers, hstep] at hfault
  cases hfault

end NetworkProjects.Router
