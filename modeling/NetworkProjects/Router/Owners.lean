import NetworkProjects.Router.Freshness
import NetworkProjects.Router.Network
import NetworkProjects.Router.PortUnreachable

/-!
# Whose address it is

A router believes every ARP frame for one of its interfaces. What it says itself in an ARP frame is
about an interface of its own (`srStep_honest`). So if every IP address in a network belongs to one
hardware address, and the frames that are put into the network do not lie about it, then no cache
is ever wrong, whatever gets lost and in whatever order the rest arrives, and a datagram goes to the
hardware address that the gateway of its route has (`mappings_agree`).
-/

namespace NetworkProjects.Router

open NetworkProjects.Lib

/-! ## What a router says

ARP frames of a router name its own interfaces, and all other frames that it makes are no ARP
frames. -/

/-- If the event is an ARP frame that goes out, the sender in it is an interface of the router. -/
def SrEvent.Honest (sr : SrConfig) (e : SrEvent) : Prop :=
  ∀ sender interface frame, e = .transmitted sender interface frame →
    ethertype frame = SrEthertype.arp.value →
    ∃ i ∈ sr.ifList, arSip frame = i.ip ∧ arSha frame = i.addr

/-- All that is written down between `s` and `s'` is honest. -/
def Honestly (sr : SrConfig) (s s' : SrState) : Prop :=
  ∃ es, s'.history = s.history ++ es ∧ ∀ e ∈ es, e.Honest sr

section Honest

variable {sr : SrConfig} {s s' t : SrState}

theorem honest_of_ne {e : SrEvent}
    (h : ∀ sender interface frame, e ≠ .transmitted sender interface frame) : e.Honest sr :=
  fun sender interface frame he => absurd he (h sender interface frame)

theorem honest_of_ethertype {sender : SrSender} {interface : String} {frame : Bytes}
    (h : ethertype frame ≠ SrEthertype.arp.value) :
    (SrEvent.transmitted sender interface frame).Honest sr := by
  rintro _ _ _ heq htype
  cases heq
  exact absurd htype h

theorem honest_arpFrame {sender : SrSender} {interface : String} {i : SrIf} (hi : i ∈ sr.ifList)
    (dhost shost : EtherAddr) (op : Nat) (tha : EtherAddr) (tip : InAddr) :
    (SrEvent.transmitted sender interface
      (arpFrame dhost shost op i.addr i.ip tha tip)).Honest sr := by
  rintro _ _ _ heq -
  cases heq
  exact ⟨i, hi, arSip_arpFrame _ _ _ _ _ _ _, arSha_arpFrame _ _ _ _ _ _ _⟩

theorem mem_ifList {name : String} {i : SrIf} (h : srGetInterface sr name = some i) :
    i ∈ sr.ifList := List.mem_of_find?_eq_some h

theorem Honestly.refl (s : SrState) : Honestly sr s s := ⟨[], by simp, by simp⟩

theorem Honestly.trans (h : Honestly sr s t) (h' : Honestly sr t s') : Honestly sr s s' := by
  obtain ⟨es, hes, hall⟩ := h
  obtain ⟨es', hes', hall'⟩ := h'
  refine ⟨es ++ es', by rw [hes', hes, List.append_assoc], ?_⟩
  intro e he
  exact (List.mem_append.mp he).elim (hall e) (hall' e)

theorem Honestly.emit {e : SrEvent} (s : SrState) (h : e.Honest sr) : Honestly sr s (s.emit e) :=
  ⟨[e], rfl, by simpa using h⟩

/-- A request names the interface that the first packet waits for. -/
theorem sendArpRequest_honest {req : SrArpreq} (h : sendArpRequest sr s req = .ok s') :
    Honestly sr s s' := by
  obtain ⟨packet, rest, i, rt, j, -, hi, -, -, rfl⟩ := sendArpRequest_iff.mp h
  exact (Honestly.emit s (honest_of_ne (by simp))).trans
    (.emit _ (honest_arpFrame (mem_ifList hi) _ _ _ _ _))

theorem srArpreqHandle_honest {addr : Nat} (h : srArpreqHandle sr s addr = .ok s') :
    Honestly sr s s' := by
  unfold srArpreqHandle at h
  split at h
  · cases h
  · split at h
    · split at h
      -- given up after five requests
      · cases h
        exact .emit s (honest_of_ne (by simp))
      · split at h
        · cases h
        · next s₁ hs₁ =>
          cases h
          have hsend : Honestly sr s s₁ := sendArpRequest_honest hs₁
          exact hsend
    · cases h
      exact .refl s

theorem fillAndSendPkt_honest {d : Bytes} {dip : InAddr}
    (h : fillAndSendPkt sr s d dip .ip = .ok s') : Honestly sr s s' := by
  obtain ⟨rt, -, ⟨e, i, -, -, rfl⟩ | ⟨-, hhandle⟩⟩ := fillAndSendPkt_ip_cases h
  · refine .emit s (honest_of_ethertype ?_)
    rw [ethertype_ethFrame]
    decide
  · have hqueue : Honestly sr (s.withCache _) s' := srArpreqHandle_honest hhandle
    exact hqueue

theorem srArpreqSendPackets_honest :
    ∀ {ps : List SrPacket} {s : SrState}, srArpreqSendPackets sr s ps = .ok s' → Honestly sr s s'
  | [], _, h => by
      cases h
      exact .refl _
  | cur :: next, s, h => by
      obtain ⟨-, s₁, hs₁, h⟩ := srArpreqSendPackets_cons.mp h
      exact (fillAndSendPkt_honest hs₁).trans (srArpreqSendPackets_honest h)

theorem learnMapping_honest {mac : EtherAddr} {ip : InAddr}
    (h : learnMapping sr s mac ip = .ok s') : Honestly sr s s' := by
  cases hins : (srArpcacheInsert s.cache mac ip s.clock).2 with
  | none =>
      rw [learnMapping_none hins] at h
      cases h
      exact .refl s
  | some req =>
      rw [learnMapping_some hins] at h
      have hflush := srArpreqSendPackets_honest h
      exact (Honestly.emit (s.withCache _) (honest_of_ne (by simp))).trans hflush

/-- A reply names the interface that the request came in on. -/
theorem handleArp_honest {interface : String} {packet : Bytes}
    (h : handleArp sr s interface packet = .ok s') : Honestly sr s s' := by
  unfold handleArp at h
  split at h
  · cases h
    exact .refl _
  · split at h
    · cases h
    · next recIf hrec =>
      split at h
      · cases h
        exact .refl _
      · dsimp only at h
        split at h
        · cases h
        · next t hlearned =>
          -- the sender is looked up first, and inserted if it is not there
          have hlearn : Honestly sr s t := by
            split at hlearned
            · cases hlearned
              exact .refl _
            · exact learnMapping_honest hlearned
          split at h
          -- only a request is answered, with the fields of `recIf`
          · rw [handleArpRequst, fillAndSendPkt, fillAndSendPktWith_arp_iff (.inr rfl)] at h
            obtain ⟨rt, i, dhost, -, -, -, rfl⟩ := h
            exact hlearn.trans (.emit t (honest_arpFrame (mem_ifList hrec) _ _ _ _ _))
          · cases h
            exact hlearn

theorem ethertype_cleared {packet : Bytes} (h34 : 34 ≤ packet.length) :
    ethertype (store packet 24 [0, 0]) = ethertype packet := by
  apply congrArg ntohs
  apply load16_congr
  intro k hk
  exact byteAt_store_of_not_mem (by simp; omega) (.inl (by omega))

/-- An echo reply has the type of the frame that it answers. -/
theorem ethertype_echoReplyFrame {packet : Bytes} (h : 38 ≤ packet.length) (heap : Nat → UInt8) :
    ethertype (echoReplyFrame packet heap) = ethertype packet := by
  have hcopy : (echoReplyWrites (packet.length - 38))[17]? = some (.copy 12 12 2) := rfl
  apply congrArg ntohs
  apply load16_congr
  intro k hk
  exact byteAt_echoReplyFrame_copy h heap hcopy hk (by omega) (by simp [echoReplyWrites]; omega)

theorem srSendPacket_honest {sender : SrSender} {buf : Bytes} (interface : String)
    (h : ethertype buf ≠ SrEthertype.arp.value) :
    Honestly sr s (srSendPacket sr s sender buf interface) := by
  rcases srSendPacket_cases sr s sender buf interface with hsame | ⟨-, hsent⟩
  · rw [hsame]
    exact .refl s
  · rw [hsent]
    exact .emit s (honest_of_ethertype h)

/-- What answers an IP frame is no ARP frame. -/
theorem handleIp_honest {interface : String} {packet : Bytes}
    (htype : ethertype packet ≠ SrEthertype.arp.value)
    (h : handleIp sr s interface packet = .ok s') : Honestly sr s s' := by
  unfold handleIp at h
  split at h
  · cases h
    exact .refl s
  · next p hgate =>
    obtain ⟨h34, -, hp, -⟩ := ipGate_eq_some hgate
    have hlen : p.length = packet.length := by
      rw [hp]
      exact length_store (by simp; omega)
    -- clearing the checksum leaves the type, and both answers copy it
    rw [← ethertype_cleared h34, ← hp] at htype
    split at h
    · split at h
      · unfold srSendEchoReply at h
        split at h
        · cases h
        · next hlong =>
          cases h
          apply srSendPacket_honest
          rwa [ethertype_echoReplyFrame (Nat.le_of_not_lt hlong)]
      · unfold srSendPortUnreachable at h
        split at h
        · cases h
        · next i hi =>
          cases h
          apply srSendPacket_honest
          rwa [(portUnreachable_fields (hlen ▸ h34) i s.mem).1]
    · unfold forwardToNextHop at h
      exact (Honestly.emit s (honest_of_ne (by simp))).trans (fillAndSendPkt_honest h)

/-- **A router says nothing about addresses that are not its own**: the sender in an ARP frame that
it sends is one of its interfaces. -/
theorem srStep_honest {i : SrInput} (haddrs : AddrsOk s.cache) (hstep : srStep sr s i = .ok s') :
    Honestly sr s s' := by
  cases i with
  | frame interface packet now mem =>
      have hreceived : Honestly sr s ((s.tick (.frame interface packet now mem)).emit
          (.received interface packet)) := Honestly.emit s (honest_of_ne (by simp))
      simp only [srStep, srHandlepacket] at hstep
      split at hstep
      · cases hstep
        exact hreceived
      · split at hstep
        · exact hreceived.trans (handleArp_honest hstep)
        · next htype => exact hreceived.trans (handleIp_honest htype hstep)
  | timeout now mem =>
      have hsweep : srArpcacheSweepreqs sr (s.begun (.timeout now mem)) = .ok s' := hstep
      obtain ⟨es, hhist, hes⟩ := s.begun_history (.timeout now mem)
      have hbegun : Honestly sr s (s.begun (.timeout now mem)) := by
        refine ⟨es, hhist, fun e he => honest_of_ne ?_⟩
        obtain ⟨ip, mac, rfl⟩ := hes e he
        simp
      rw [srArpcacheSweepreqs_eq (haddrs.begun (.timeout now mem)).nodup] at hsweep
      refine run_induction (P := fun _ t => Honestly sr s t) hbegun ?_ hsweep
      intro _ addr t t' _ ht hhandle
      exact ht.trans (srArpreqHandle_honest hhandle)

end Honest

/-! ## Who owns an address

The truth is a function from IP addresses to hardware addresses. Entries are right if they agree
with it. -/

/-- The frame does not lie: if it is an ARP frame, the sender in it is the owner of its address. -/
def Truthful (owner : InAddr → EtherAddr) (frame : Bytes) : Prop :=
  sizeofEthernetHdr + sizeofArpHdr ≤ frame.length → ethertype frame = SrEthertype.arp.value →
    arSha frame = owner (arSip frame)

/-- Every valid entry names the owner of its address. -/
def Right (owner : InAddr → EtherAddr) (c : SrArpcache) : Prop :=
  ∀ k, (c.entries k).valid = true → (c.entries k).mac = owner (c.entries k).ip

/-- If the event is a datagram leaving `FillAndSendPkt`, it goes to the owner of the gateway of a
route, and that is the route of its destination if it has a whole header. -/
def SrEvent.ToOwner (sr : SrConfig) (owner : InAddr → EtherAddr) (e : SrEvent) : Prop :=
  ∀ interface frame, e = .transmitted (.fillAndSendPkt .ip) interface frame →
    ∃ dip rt, longestPrefixMatch sr dip = some rt ∧
      (sizeofIpHdr ≤ (ipHeader frame).length → dip = ipDst (ipHeader frame)) ∧
      etherDhost frame = owner rt.gw

section Owners

variable {sr : SrConfig} {s s' : SrState} {owner : InAddr → EtherAddr}

/-- What a step begins with was there before. -/
theorem begun_entry {i : SrInput} {k : Fin srArpcacheSz}
    (hk : ((s.begun i).cache.entries k).valid = true) :
    (s.begun i).cache.entries k = s.cache.entries k := by
  cases i with
  | frame => rfl
  | timeout now mem => exact (expireEntries_valid hk).2.1

/-- A step that is told the truth keeps the cache right. -/
theorem Right.step {i : SrInput} (haddrs : AddrsOk s.cache) (h : Right owner s.cache)
    (htold : ∀ interface packet now mem, i = .frame interface packet now mem →
      Truthful owner packet) (hstep : srStep sr s i = .ok s') : Right owner s'.cache := by
  intro k hk
  rcases srStep_entered haddrs hstep k hk with hsame | hteaches
  -- an entry that has stayed was right, and one that is new comes from a frame that tells the truth
  · have hbegun := begun_entry (hsame ▸ hk)
    rw [hsame, hbegun] at hk ⊢
    exact h k hk
  · cases i with
    | frame interface packet now mem =>
        obtain ⟨-, hlong, htype, hip, hmac, -⟩ := hteaches
        rw [← hip, ← hmac]
        exact htold interface packet now mem rfl hlong htype
    | timeout => exact hteaches.elim

/-- With a right cache, datagrams go to the owners. -/
theorem FromCache.toOwner {e : SrEvent} (hright : Right owner s.cache)
    (h : FromCache sr s.cache.entries e) : e.ToOwner sr owner := by
  intro interface frame he
  obtain ⟨dip, rt, k, hrt, hown, hvalid, hip, hmac⟩ := h interface frame he
  exact ⟨dip, rt, hrt, hown, by rw [← hmac, ← hip, hright k hvalid]⟩

/-- What an honest router sends is the truth. -/
theorem truthful_onWires {es : List SrEvent} (howns : ∀ f ∈ sr.ifList, owner f.ip = f.addr)
    (hes : ∀ e ∈ es, e.Honest sr) : ∀ m ∈ onWires es, Truthful owner m.2 := by
  intro m hm _ htype
  obtain ⟨e, he, hwired⟩ := List.mem_flatMap.mp hm
  cases e with
  | transmitted sender interface frame =>
      cases List.mem_singleton.mp hwired
      obtain ⟨i, hi, hip, hmac⟩ := hes _ he sender interface frame rfl htype
      rw [hip, hmac, howns i hi]
  | _ => exact absurd hwired (List.not_mem_nil)

end Owners

/-! ## The network

If everybody tells the truth about itself, everybody knows the truth about the others. -/

section Network

variable {ι : Type} [DecidableEq ι] {config : ι → SrConfig}
  {wire : ι → String → Option (ι × String)} {owner : InAddr → EtherAddr}

/-- What holds of a router in a network that tells the truth. -/
structure Informed (sr : SrConfig) (owner : InAddr → EtherAddr) (s : SrState) : Prop where
  addrs : AddrsOk s.cache
  right : Right owner s.cache
  sent : ∀ e ∈ s.history, e.ToOwner sr owner

omit [DecidableEq ι] in
theorem routers_keep (howns : ∀ i, ∀ f ∈ (config i).ifList, owner f.ip = f.addr) :
    (routers config wire).Keeps (fun i s => Informed (config i) owner s) (Truthful owner) where
  init _ := ⟨addrsOk_init, fun _ hk => (nomatch hk), fun _ he => absurd he List.not_mem_nil⟩
  react := by
    rintro i s input s' out h hin ⟨⟨now, mem, hstep⟩, es, hes, rfl⟩
    obtain ⟨es', hes', hhonest⟩ := srStep_honest h.addrs hstep
    -- what is put on the wires is what the step has written down
    cases List.append_cancel_left (hes.symm.trans hes')
    have hright : Right owner s'.cache := by
      refine h.right.step h.addrs ?_ hstep
      intro interface packet now' mem' hinput
      cases input with
      | none => cases hinput
      | some m =>
          cases hinput
          exact hin m rfl
    refine ⟨⟨?_, hright, ?_⟩, truthful_onWires (howns i) hhonest⟩
    · exact (h.addrs.begun _).queueMoves (srStep_queueMoves h.addrs hstep)
    · obtain ⟨new, hnew, hfresh⟩ := srStep_fresh h.addrs hstep
      rw [hnew]
      intro e he
      exact (List.mem_append.mp he).elim (h.sent e) fun he => (hfresh e he).toOwner hright

end Network

end NetworkProjects.Router
