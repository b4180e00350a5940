import NetworkProjects.Router.Network
import NetworkProjects.Router.Transparent

/-!
# From router to router

A datagram that has several routers to pass, none of which knows its neighbours yet. Each of them
keeps it and asks for the next one, the next one answers over the same wire, and the answer sends
what has been kept. So the datagram gets to the end of the path with a TTL that is less by the
number of hops, and is otherwise the same (`datagram_delivered`).
-/

namespace NetworkProjects.Router

open NetworkProjects.Lib

/-! ## One router

What the router takes and what it writes to the wires, when nothing waits on it and it has room. The
lemmas follow the ARP exchange from the first datagram to the answer. -/

/-- The router takes a frame and writes `out` to the wires. -/
def Takes (sr : SrConfig) (s : SrState) (input : SrInput) (s' : SrState)
    (out : List (String × Bytes)) : Prop :=
  srStep sr s input = .ok s' ∧ ∃ es, s'.history = s.history ++ es ∧ onWires es = out

/-- The slots that are not in use. -/
def slots (c : SrArpcache) : Nat := (Finset.univ.filter fun k => (c.entries k).valid = false).card

/-- Nothing waits, and there is room for `n` mappings. -/
structure Quiet (n : Nat) (s : SrState) : Prop where
  idle : s.cache.requests = []
  room : n ≤ slots s.cache

/-- Nothing waits afterwards, and `n` slots at most have been filled. -/
structure Used (n : Nat) (s s' : SrState) : Prop where
  idle : s'.cache.requests = []
  room : slots s.cache ≤ slots s'.cache + n

section Router

variable {sr : SrConfig} {s s' t : SrState} {m n : Nat}

theorem slots_congr {c c' : SrArpcache} (h : c'.entries = c.entries) : slots c' = slots c := by
  rw [slots, h, slots]

theorem exists_free {c : SrArpcache} (h : 1 ≤ slots c) : ∃ k, (c.entries k).valid = false := by
  obtain ⟨k, hk⟩ := Finset.card_pos.mp h
  exact ⟨k, (Finset.mem_filter.mp hk).2⟩

/-- A mapping takes one slot at most. -/
theorem slots_srArpcacheInsert (c : SrArpcache) (mac : EtherAddr) (ip : InAddr) (now : Nat) :
    slots c ≤ slots (srArpcacheInsert c mac ip now).1 + 1 := by
  rcases srArpcacheInsert_entries c mac ip now with ⟨k, -, hentries⟩ | hsame
  · rw [slots, slots, ← Nat.sub_le_iff_le_add]
    refine le_trans (Finset.pred_card_le_card_erase (a := k)) (Finset.card_le_card ?_)
    intro i hi
    obtain ⟨hik, hfree⟩ := Finset.mem_erase.mp hi
    rw [Finset.mem_filter, hentries, Function.update_of_ne hik]
    exact Finset.mem_filter.mp hfree
  · rw [slots_congr hsame]
    exact Nat.le_succ _

theorem slots_lookupAndInsert (c : SrArpcache) (mac : EtherAddr) (ip : InAddr) (now : Nat) :
    slots c ≤ slots (lookupAndInsert c mac ip now) + 1 := by
  unfold lookupAndInsert
  split
  · exact Nat.le_succ _
  · exact slots_srArpcacheInsert c mac ip now

theorem Quiet.addrsOk (h : Quiet n s) : AddrsOk s.cache := by
  refine ⟨?_, ?_⟩
  · rw [h.idle]
    exact List.nodup_nil
  · rw [h.idle]
    intro r hr
    cases hr

theorem Quiet.used (h : Quiet (m + n) s) (hused : Used n s s') : Quiet m s' :=
  ⟨hused.idle, Nat.le_of_add_le_add_right (le_trans h.room hused.room)⟩

theorem Quiet.mono (h : Quiet n s) (hle : m ≤ n) : Quiet m s := ⟨h.idle, le_trans hle h.room⟩

theorem Quiet.unused (h : Quiet m s) : Used n s s := ⟨h.idle, Nat.le_add_right _ n⟩

theorem Used.trans (h : Used m s t) (h' : Used n t s') : Used (m + n) s s' := by
  refine ⟨h'.idle, ?_⟩
  have hroom := h.room
  have hroom' := h'.room
  omega

/-- After a step the clock shows the time of its input. -/
theorem Takes.clock {input : SrInput} {out : List (String × Bytes)} (haddrs : AddrsOk s.cache)
    (h : Takes sr s input s' out) : s'.clock = input.now :=
  (srStep_queueMoves haddrs h.1).clock.trans (s.begun_clock input)

theorem Takes.addrsOk {input : SrInput} {out : List (String × Bytes)} (haddrs : AddrsOk s.cache)
    (h : Takes sr s input s' out) : AddrsOk s'.cache :=
  (haddrs.begun input).queueMoves (srStep_queueMoves haddrs h.1)

/-- A datagram for a gateway that the router knows goes out at once. -/
theorem takes_datagram_cached {packet : Bytes} (hw : InTransit sr packet) {rt : SrRt} {i : SrIf}
    {e : SrArpentry} (hrt : longestPrefixMatch sr (ipDst (ipHeader packet)) = some rt)
    (hi : srGetInterface sr rt.interface = some i)
    (he : srArpcacheLookup s.cache rt.gw = some e) (interface : String) (now : Nat)
    (mem : Memory) : ∃ s' d, Transparent packet d ∧ s'.cache = s.cache ∧
      Takes sr s (.frame interface packet now mem) s'
        [(rt.interface, ethFrame e.mac i.addr .ip d)] := by
  have hsend := fillAndSendPkt_cached (d := fwdIpPkt (store packet 24 [0, 0]) mem.beyond)
    (s := (s.arrived interface packet now mem).emit
      (.forwarded (fwdIpPkt (store packet 24 [0, 0]) mem.beyond))) hrt he hi
  refine ⟨_, _, hw.transparent mem.beyond, ?_, (hw.step s interface now mem).trans hsend, ?_⟩
  · rfl
  · exact ⟨_, by rw [SrState.emit_history, SrState.emit_history, SrState.arrived_history,
      List.append_assoc, List.append_assoc], rfl⟩

/-- A request that is due is sent. -/
theorem srArpreqHandle_asks {r : SrArpreq} {s₁ : SrState} (hrequests : s.cache.requests = [r])
    (hdue : r.sent + 1 < s.clock) (hfew : r.timesSent < 5)
    (hsend : sendArpRequest sr s r = .ok s₁) (hkeeps : s₁.cache = s.cache) :
    srArpreqHandle sr s r.addr = .ok (s₁.withCache ⟨s.cache.entries,
      [{ r with sent := s.clock, timesSent := r.timesSent + 1 }], s.cache.brk⟩) := by
  have hderef : derefReq s.cache.requests r.addr = some r := by
    rw [hrequests]
    simp [derefReq]
  rw [srArpreqHandle, hderef]
  simp only [hdue, if_true, ge_iff_le, Nat.not_le.mpr hfew, if_false, hsend, hkeeps, hrequests]
  simp [updateReq]

/-- The first datagram for a gateway waits, and the router asks for the gateway. -/
theorem takes_datagram_asks {packet : Bytes} (hw : InTransit sr packet) {rt rt' : SrRt} {i : SrIf}
    (hrt : longestPrefixMatch sr (ipDst (ipHeader packet)) = some rt)
    (hi : srGetInterface sr rt.interface = some i)
    (hrt' : longestPrefixMatch sr rt.gw = some rt') (hsame : rt'.interface = rt.interface)
    (hquiet : Quiet n s) (habsent : srArpcacheLookup s.cache rt.gw = none) (interface : String)
    {now : Nat} (hnow : 2 ≤ now) (mem : Memory) : ∃ s' d r tha, Transparent packet d ∧
      s'.cache.entries = s.cache.entries ∧ s'.cache.requests = [r] ∧ r.ip = rt.gw ∧
      r.packets = [⟨d, rt.interface⟩] ∧
      Takes sr s (.frame interface packet now mem) s'
        [(rt.interface, arpFrame broadcastAddr i.addr arpOpRequest i.addr i.ip tha rt.gw)] := by
  have htransparent := hw.transparent mem.beyond
  have hstep := hw.step s interface now mem
  generalize fwdIpPkt (store packet 24 [0, 0]) mem.beyond = d at htransparent hstep
  have hd : d ≠ [] := by
    apply List.ne_nil_of_length_pos
    have hlengths := hw.lengths
    rw [htransparent.length]
    omega
  have hqueue : srArpcacheQueuereq s.cache rt.gw d rt.interface
      = (⟨s.cache.entries, [⟨s.cache.brk, rt.gw, 0, 0, [⟨d, rt.interface⟩]⟩], s.cache.brk + 1⟩,
          s.cache.brk) := by
    rcases srArpcacheQueuereq_cases hquiet.addrsOk rt.gw hd rt.interface with
      ⟨before, r, after, hsplit, -, -⟩ | ⟨-, heq⟩
    · rw [hquiet.idle] at hsplit
      cases before <;> cases hsplit
    · rw [heq, hquiet.idle]
  let r : SrArpreq := ⟨s.cache.brk, rt.gw, 0, 0, [⟨d, rt.interface⟩]⟩
  let asking := ((s.arrived interface packet now mem).emit (.forwarded d)).withCache
    ⟨s.cache.entries, [r], s.cache.brk + 1⟩
  have hfill : srStep sr s (.frame interface packet now mem) = srArpreqHandle sr asking r.addr := by
    rw [hstep]
    unfold fillAndSendPkt fillAndSendPktWith
    simp only [hrt, SrState.emit_cache, SrState.arrived_cache, habsent, hqueue, Option.isSome_none,
      Bool.false_eq_true, reduceCtorEq, or_self, if_false]
    rfl
  have hsend : sendArpRequest sr asking r = .ok _ :=
    sendArpRequest_iff.mpr ⟨_, [], i, rt', i, rfl, hi, hrt', by rwa [hsame], rfl⟩
  -- the new request has never been sent, so it is sent now
  have hhandle :=
    srArpreqHandle_asks (s := asking) rfl (by exact hnow) (Nat.zero_lt_succ 4) hsend rfl
  rw [hsame] at hhandle
  let tha := asking.mem.stack asking.history.length
  let frame := arpFrame broadcastAddr i.addr arpOpRequest i.addr i.ip tha rt.gw
  refine ⟨_, d, { r with sent := now, timesSent := 1 }, tha, htransparent, ?_, ?_, ?_, ?_,
    hfill.trans hhandle, [.received interface packet, .forwarded d, .arpRequested r.addr now,
      .transmitted (.fillAndSendPkt .arp) rt.interface frame], ?_, ?_⟩
  · rfl
  · rfl
  · rfl
  · rfl
  · simp [asking, frame, tha, r]
  · rfl

/-- An ARP frame for the interface it comes in on. -/
theorem teaches_arpFrame {interface : String} {i : SrIf} (hi : srGetInterface sr interface = some i)
    (dhost shost : EtherAddr) (op : Nat) (sha : EtherAddr) (sip : InAddr) (tha : EtherAddr) :
    Teaches sr sip sha (.received interface (arpFrame dhost shost op sha sip tha i.ip)) := by
  refine ⟨?_, ethertype_arpFrame _ _ _ _ _ _ _, arSip_arpFrame _ _ _ _ _ _ _,
    arSha_arpFrame _ _ _ _ _ _ _, i, hi, arTip_arpFrame _ _ _ _ _ _ _⟩
  rw [arpFrame, length_ethFrame]
  simp [arpHdr, bytes16, bytes32, sha.property, tha.property, sizeofArpHdr, etherAddrLen]

/-- With nothing waiting, learning is all that happens. -/
theorem learnSender_quiet (sr : SrConfig) (hquiet : Quiet n s) (mac : EtherAddr) (ip : InAddr) :
    learnSender sr s mac ip = .ok (s.withCache (lookupAndInsert s.cache mac ip s.clock)) ∧
      (lookupAndInsert s.cache mac ip s.clock).requests = [] := by
  unfold learnSender lookupAndInsert
  split
  · exact ⟨rfl, hquiet.idle⟩
  · rcases srArpcacheInsert_cases s.cache mac ip s.clock with
      ⟨before, r, after, hsplit, -, -, -⟩ | ⟨-, hrequests, hnone⟩
    · rw [hquiet.idle] at hsplit
      cases before <;> cases hsplit
    · exact ⟨learnMapping_none hnone, hrequests.trans hquiet.idle⟩

/-- The router asked for answers on the wire the request came over, and knows the other one. -/
theorem takes_request {interface : String} {i : SrIf} {back : SrRt} (sha tha : EtherAddr)
    {sip : InAddr} (hi : srGetInterface sr interface = some i)
    (hback : longestPrefixMatch sr sip = some back) (hsame : back.interface = interface)
    (hgw : back.gw = sip) (hquiet : Quiet 1 s) (now : Nat) (mem : Memory) :
    ∃ s' dhost, Used 1 s s' ∧ Takes sr s
      (.frame interface (arpFrame broadcastAddr sha arpOpRequest sha sip tha i.ip) now mem) s'
      [(interface, arpFrame dhost i.addr arpOpReply i.addr i.ip sha sip)] := by
  have hteach := teaches_arpFrame hi broadcastAddr sha arpOpRequest sha sip tha
  have hop := arpOpcode_arpFrame broadcastAddr sha arpOpRequest sha sip tha i.ip (.inl rfl)
  generalize arpFrame broadcastAddr sha arpOpRequest sha sip tha i.ip = frame at hteach hop
  obtain ⟨i', hi', hstep⟩ := srStep_request_iff (s := s) hteach hop now mem
  cases hi.symm.trans hi'
  have hquiet' : Quiet 1 (s.arrived interface frame now mem) := ⟨hquiet.idle, hquiet.room⟩
  obtain ⟨hlearn, hidle⟩ := learnSender_quiet sr hquiet' sha sip
  -- the sender is known, from before or from the request
  obtain ⟨dhost, hdhost⟩ : ∃ dhost, (srArpcacheLookup (lookupAndInsert s.cache sha sip now)
      back.gw).map SrArpentry.mac = some dhost := by
    obtain ⟨k, hk⟩ := Option.isSome_iff_exists.mp
      (freeSlot_isSome.mpr (exists_free hquiet.room))
    rw [hgw, srArpcacheLookup_lookupAndInsert, hk]
    cases srArpcacheLookup s.cache sip with
    | some e => exact ⟨e.mac, rfl⟩
    | none => exact ⟨sha, rfl⟩
  subst hsame
  let reply := SrEvent.transmitted (.fillAndSendPkt .arp) back.interface
    (arpFrame dhost i.addr arpOpReply i.addr i.ip sha sip)
  let learned := (s.arrived back.interface frame now mem).withCache
    (lookupAndInsert s.cache sha sip now)
  refine ⟨learned.emit reply, dhost, ⟨hidle, slots_lookupAndInsert s.cache sha sip now⟩,
    (hstep _).mpr ⟨learned, back, i, dhost, hlearn, hback, hi, hdhost, rfl⟩,
    [.received back.interface frame, reply], ?_, ?_⟩
  · simp [learned]
  · rfl

/-- The answer sends the datagram that has waited for it. -/
theorem takes_reply {interface : String} {i : SrIf} {r : SrArpreq} {d : Bytes} {rt : SrRt}
    (dhost shost sha tha : EtherAddr) (hi : srGetInterface sr interface = some i)
    (hrequests : s.cache.requests = [r]) (hpackets : r.packets = [⟨d, interface⟩])
    (hlong : sizeofIpHdr ≤ d.length) (hrt : longestPrefixMatch sr (ipDst d) = some rt)
    (hgw : rt.gw = r.ip) (hsame : rt.interface = interface)
    (habsent : srArpcacheLookup s.cache r.ip = none) (hroom : 1 ≤ slots s.cache) (now : Nat)
    (mem : Memory) : ∃ s', Used 1 s s' ∧ Takes sr s
      (.frame interface (arpFrame dhost shost arpOpReply sha r.ip tha i.ip) now mem) s'
      [(interface, ethFrame sha i.addr .ip d)] := by
  -- the reply teaches the gateway, and the one datagram that waits for it is sent
  have hteach := teaches_arpFrame hi dhost shost arpOpReply sha r.ip tha
  have hop := arpOpcode_arpFrame dhost shost arpOpReply sha r.ip tha i.ip (.inr rfl)
  generalize arpFrame dhost shost arpOpReply sha r.ip tha i.ip = frame at hteach hop
  obtain ⟨i', -, -, hstep⟩ := srStep_teaches (s := s) hteach now mem
  have hrest : (srArpcacheInsert s.cache sha r.ip now).1.requests = [] ∧
      (srArpcacheInsert s.cache sha r.ip now).2 = some r := by
    simp [srArpcacheInsert, hrequests]
  obtain ⟨k, hk⟩ := Option.isSome_iff_exists.mp
    (freeSlot_isSome.mpr (exists_free hroom))
  have hlookup : srArpcacheLookup (srArpcacheInsert s.cache sha r.ip now).1 rt.gw
      = some ⟨sha, r.ip, now, true⟩ := by
    rw [hgw, srArpcacheLookup_insert_self sha now habsent, hk]
    rfl
  subst hsame
  let learned := ((s.arrived rt.interface frame now mem).withCache
    (srArpcacheInsert s.cache sha r.ip now).1).emit (.answered r)
  let datagram := SrEvent.transmitted (.fillAndSendPkt .ip) rt.interface
    (ethFrame sha i.addr .ip d)
  have hsend : srArpreqSendPackets sr learned r.packets = .ok (learned.emit datagram) := by
    rw [hpackets]
    exact srArpreqSendPackets_cons.mpr
      ⟨hlong, _, fillAndSendPkt_cached hrt (by exact hlookup) hi, rfl⟩
  have hreply : arpOpcode frame ≠ arpOpRequest := by
    rw [hop]
    decide
  have hlearn : learnSender sr (s.arrived rt.interface frame now mem) sha r.ip
      = .ok (learned.emit datagram) :=
    (learnSender_answers (s := s.arrived rt.interface frame now mem) habsent hrest.2).trans hsend
  rw [hlearn] at hstep
  refine ⟨learned.emit datagram, ⟨hrest.1, slots_srArpcacheInsert s.cache sha r.ip now⟩,
    hstep.trans (if_neg hreply), [.received rt.interface frame, .answered r, datagram], ?_, ?_⟩
  · simp [learned]
  · rfl

end Router

/-! ## The datagram

A sound frame has a well-formed datagram in it. The copy of a sound frame is sound again, with a TTL
that is one less. -/

/-- A frame with a well-formed datagram. -/
structure Sound (packet : Bytes) : Prop where
  ethertype : ethertype packet = SrEthertype.ip.value
  version : ipV (ipHeader packet) = 4
  ihl_ge : sizeofIpHdr ≤ ipIhl (ipHeader packet)
  len_ge : ipIhl (ipHeader packet) ≤ ipLen (ipHeader packet)
  len_le : sizeofEthernetHdr + ipLen (ipHeader packet) ≤ packet.length
  checksum : HasChecksum (ipHeader packet)

/-- The second frame carries the datagram of the first one, some hops later. -/
structure Carried (hops : Nat) (packet packet' : Bytes) : Prop where
  total : ipLen (ipHeader packet') = ipLen (ipHeader packet)
  ttl : ttl (ipHeader packet') + hops = ttl (ipHeader packet)
  other : ∀ i < ipLen (ipHeader packet), i ≠ 8 → i ≠ 10 → i ≠ 11 →
    byteAt (ipHeader packet') i = byteAt (ipHeader packet) i

section Datagram

variable {sr : SrConfig} {packet packet' packet'' d : Bytes} {m n : Nat}

theorem Sound.inTransit (h : Sound packet) (httl : 1 ≤ ttl (ipHeader packet))
    (hforeign : srInterfaceIpMatch sr (ipDst (ipHeader packet)) = false) : InTransit sr packet :=
  ⟨h.ethertype, h.version, h.ihl_ge, h.len_ge, h.len_le, h.checksum, httl, hforeign⟩

theorem Carried.refl (packet : Bytes) : Carried 0 packet packet :=
  ⟨rfl, rfl, fun _ _ _ _ _ => rfl⟩

theorem Carried.trans (h : Carried m packet packet') (h' : Carried n packet' packet'') :
    Carried (m + n) packet packet'' := by
  refine ⟨h'.total.trans h.total, ?_, ?_⟩
  · rw [← h.ttl, ← h'.ttl]
    omega
  · intro i hi h8 h10 h11
    rw [h'.other i (by rwa [h.total]) h8 h10 h11, h.other i hi h8 h10 h11]

/-- The destination stays the same. -/
theorem Carried.dst (h : Carried n packet packet') (hlong : 20 ≤ ipLen (ipHeader packet)) :
    ipDst (ipHeader packet') = ipDst (ipHeader packet) :=
  load32_congr fun k hk => h.other (16 + k) (by omega) (by omega) (by omega) (by omega)

/-- The copy in the next frame. -/
theorem Transparent.next (h : Transparent packet d) (hw : InTransit sr packet)
    (dhost shost : EtherAddr) : Sound (ethFrame dhost shost .ip d) ∧
      Carried 1 packet (ethFrame dhost shost .ip d) := by
  obtain ⟨h20, hle, hlen⟩ := hw.lengths
  have hd : d.length = ipLen (ipHeader packet) := h.length
  have hbyte : ∀ i < d.length, i ≠ 8 → i ≠ 10 → i ≠ 11 →
      byteAt d i = byteAt (ipHeader packet) i := by
    intro i hi h8 h10 h11
    rw [h.other i hi h8 h10 h11, ipHeader, byteAt_drop]
  have hfirst : byteAt d 0 = byteAt (ipHeader packet) 0 :=
    hbyte 0 (by omega) (by decide) (by decide) (by decide)
  have hihl : ipIhl d = ipIhl (ipHeader packet) := by
    simp only [ipIhl, ipHl, hfirst]
  have htotal : ipLen d = ipLen (ipHeader packet) := by
    unfold ipLen
    congr 1
    exact load16_congr fun k hk => hbyte (2 + k) (by omega) (by omega) (by omega) (by omega)
  constructor
  · refine ⟨ethertype_ethFrame _ _ _ _, ?_, ?_, ?_, ?_, ?_⟩ <;> rw [ipHeader_ethFrame]
    · rw [← hw.version]
      simp only [ipV, hfirst]
    · rw [hihl]
      exact hw.ihl_ge
    · rw [hihl, htotal]
      exact hw.len_ge
    · rw [length_ethFrame, htotal, hd]
    · exact h.checksum
  · refine ⟨?_, ?_, ?_⟩ <;> rw [ipHeader_ethFrame]
    · exact htotal
    · exact h.ttl
    · rw [← hd]
      exact hbyte

end Datagram

/-! ## Neighbours

Two routers at the ends of one wire, each the gateway of a route of the other. One hop takes
three frames when they do not know each other, and one when they do; the path is by induction on the
ports. -/

/-- The routers, with clocks that never go back. -/
def routersOnTime {ι : Type} (config : ι → SrConfig) (wire : ι → String → Option (ι × String)) :
    Wiring ι SrState String Bytes where
  init _ := srInit
  react i s input s' out := (routers config wire).react i s input s' out ∧ s.clock ≤ s'.clock
  wire := wire

section Network

variable {ι : Type} {config : ι → SrConfig} {wire : ι → String → Option (ι × String)}

/-- `there` is the gateway of the route `rt`, at the other end of the wire, and each of the two
routers finds the other one over that wire. -/
structure Neighbours (config : ι → SrConfig) (wire : ι → String → Option (ι × String))
    (here there : ι × String) (rt : SrRt) (i j : SrIf) : Prop where
  out : srGetInterface (config here.1) rt.interface = some i
  far : srGetInterface (config there.1) there.2 = some j
  gateway : j.ip = rt.gw
  wired : wire here.1 rt.interface = some there
  wiredBack : wire there.1 there.2 = some (here.1, rt.interface)
  asks : ∃ rt', longestPrefixMatch (config here.1) rt.gw = some rt' ∧ rt'.interface = rt.interface
  answers : ∃ back, longestPrefixMatch (config there.1) i.ip = some back ∧
    back.interface = there.2 ∧ back.gw = i.ip

/-- What comes in `here` for `dst` is passed on to `there`. -/
def Leads (config : ι → SrConfig) (wire : ι → String → Option (ι × String)) (dst : InAddr)
    (here there : ι × String) : Prop :=
  srInterfaceIpMatch (config here.1) dst = false ∧
    ∃ rt i j, longestPrefixMatch (config here.1) dst = some rt ∧
      Neighbours config wire here there rt i j

variable [DecidableEq ι]

/-- A frame is taken from its wire, and another one goes out. -/
theorem Takes.step {g : Wiring.Global ι SrState String Bytes}
    {rest : Multiset (Bound ι String Bytes)} {i : ι} {interface name : String}
    {packet frame : Bytes} {now : Nat} {mem : Memory} {s' : SrState} {there : ι × String}
    (hflight : g.flight = ⟨i, interface, packet⟩ ::ₘ rest)
    (haddrs : AddrsOk (g.node i).cache) (hnow : (g.node i).clock ≤ now)
    (h : Takes (config i) (g.node i) (.frame interface packet now mem) s' [(name, frame)])
    (hwire : wire i name = some there) : ∃ g', (routersOnTime config wire).Step g g' ∧
      g'.node = Function.update g.node i s' ∧
      g'.flight = ⟨there.1, there.2, frame⟩ ::ₘ rest ∧ g'.injected = g.injected := by
  have hcarry : (routersOnTime config wire).carry i [(name, frame)]
      = {⟨there.1, there.2, frame⟩} := by
    have hacross : (routersOnTime config wire).across i (name, frame)
        = some ⟨there.1, there.2, frame⟩ := by
      show (wire i name).map _ = _
      rw [hwire, Option.map_some]
    rw [Wiring.carry, List.filterMap_cons_some hacross, List.filterMap_nil]
    rfl
  obtain ⟨es, hes, hout⟩ := h.2
  have hstep := Wiring.Step.deliver (W := routersOnTime config wire) hflight
    ⟨⟨⟨now, mem, h.1⟩, es, hes, hout.symm⟩, (h.clock haddrs).symm ▸ hnow⟩
  rw [hcarry, add_comm, Multiset.singleton_add] at hstep
  exact ⟨_, hstep, rfl, rfl, rfl⟩

/-- **One hop**, whether or not the routers know each other. The frame is for the next interface if
the cache is not wrong about that. -/
theorem Leads.delivers {g : Wiring.Global ι SrState String Bytes}
    {rest : Multiset (Bound ι String Bytes)} {here there : ι × String} {packet : Bytes}
    (hleads : Leads config wire (ipDst (ipHeader packet)) here there) (hne : here.1 ≠ there.1)
    (hflight : g.flight = ⟨here.1, here.2, packet⟩ ::ₘ rest) (hsound : Sound packet)
    (httl : 1 ≤ ttl (ipHeader packet)) (hquiet : Quiet 1 (g.node here.1))
    (hquiet' : Quiet 1 (g.node there.1)) :
    ∃ g' packet', Relation.ReflTransGen (routersOnTime config wire).Step g g' ∧
      g'.flight = ⟨there.1, there.2, packet'⟩ ::ₘ rest ∧ Sound packet' ∧
      Carried 1 packet packet' ∧ g'.injected = g.injected ∧
      Used 1 (g.node here.1) (g'.node here.1) ∧ Used 1 (g.node there.1) (g'.node there.1) ∧
      (∀ k, k ≠ here.1 → k ≠ there.1 → g'.node k = g.node k) ∧
      ∃ j, srGetInterface (config there.1) there.2 = some j ∧
        ((∀ e, srArpcacheLookup (g.node here.1).cache j.ip = some e → e.mac = j.addr) →
          etherDhost packet' = j.addr) := by
  obtain ⟨hforeign, rt, i, j, hrt, hlink⟩ := hleads
  have hw := hsound.inTransit httl hforeign
  have hclock : ∀ s : SrState, s.clock ≤ max 2 s.clock := fun s => Nat.le_max_right _ _
  cases he : srArpcacheLookup (g.node here.1).cache rt.gw with
  | some e =>
      obtain ⟨s', d, htransparent, hcache, htakes⟩ := takes_datagram_cached hw hrt hlink.out he
        here.2 (max 2 (g.node here.1).clock) (g.node here.1).mem
      obtain ⟨hsound', hcarried⟩ := htransparent.next hw e.mac i.addr
      obtain ⟨g', hstep, hnode, hflight', hinjected⟩ :=
        htakes.step hflight hquiet.addrsOk (hclock _) hlink.wired
      refine ⟨g', _, .single hstep, hflight', hsound', hcarried, hinjected, ?_, ?_, ?_, j,
        hlink.far, ?_⟩
      · rw [hnode, Function.update_self]
        exact ⟨by rw [hcache, hquiet.idle], by rw [hcache]; exact Nat.le_add_right _ 1⟩
      · rw [hnode, Function.update_of_ne hne.symm]
        exact hquiet'.unused
      · intro k hk _
        rw [hnode, Function.update_of_ne hk]
      · intro hknown
        rw [etherDhost_ethFrame]
        exact hknown e (hlink.gateway ▸ he)
  | none =>
      obtain ⟨rt', hrt', hsame⟩ := hlink.asks
      obtain ⟨back, hback, hinterface, hgw⟩ := hlink.answers
      -- the first router keeps the datagram and asks
      obtain ⟨s₁, d, r, tha, htransparent, hentries, hrequests, hip, hpackets, htakes₁⟩ :=
        takes_datagram_asks hw hrt hlink.out hrt' hsame hquiet he here.2
          (Nat.le_max_left 2 (g.node here.1).clock) (g.node here.1).mem
      have haddrs₁ := Takes.addrsOk hquiet.addrsOk htakes₁
      rw [← hlink.gateway] at htakes₁
      obtain ⟨g₁, hstep₁, hnode₁, hflight₁, hinjected₁⟩ :=
        htakes₁.step hflight hquiet.addrsOk (hclock _) hlink.wired
      have hthere : g₁.node there.1 = g.node there.1 := by
        rw [hnode₁, Function.update_of_ne hne.symm]
      -- the second one answers
      rw [← hthere] at hquiet'
      obtain ⟨s₂, dhost, hused₂, htakes₂⟩ := takes_request i.addr tha hlink.far hback hinterface
        hgw hquiet' (max 2 (g₁.node there.1).clock) (g₁.node there.1).mem
      obtain ⟨g₂, hstep₂, hnode₂, hflight₂, hinjected₂⟩ :=
        htakes₂.step hflight₁ hquiet'.addrsOk (hclock _) hlink.wiredBack
      have hhere : g₂.node here.1 = s₁ := by
        rw [hnode₂, Function.update_of_ne hne, hnode₁, Function.update_self]
      -- and the answer sends the datagram
      obtain ⟨hsound', hcarried⟩ := htransparent.next hw j.addr i.addr
      have hlong : sizeofIpHdr ≤ ipLen (ipHeader packet) := le_trans hw.ihl_ge hw.len_ge
      have hdst : ipDst d = ipDst (ipHeader packet) := by
        have hsame := hcarried.dst hlong
        rwa [ipHeader_ethFrame] at hsame
      obtain ⟨s₃, hused₃, htakes₃⟩ := takes_reply dhost j.addr j.addr i.addr hlink.out
        hrequests hpackets (by rw [htransparent.length]; exact hlong) (by rw [hdst]; exact hrt)
        hip.symm rfl (by rw [hip, srArpcacheLookup_congr hentries]; exact he)
        (by rw [slots_congr hentries]; exact hquiet.room) (max 2 s₁.clock) s₁.mem
      rw [hip, ← hlink.gateway] at htakes₃
      rw [← hhere] at htakes₃ haddrs₁
      obtain ⟨g₃, hstep₃, hnode₃, hflight₃, hinjected₃⟩ :=
        htakes₃.step hflight₂ haddrs₁ (hclock _) hlink.wired
      refine ⟨g₃, _, ((Relation.ReflTransGen.single hstep₁).tail hstep₂).tail hstep₃, hflight₃,
        hsound', hcarried, by rw [hinjected₃, hinjected₂, hinjected₁], ?_, ?_, ?_, j, hlink.far,
        fun _ => etherDhost_ethFrame _ _ _ _⟩
      · rw [hnode₃, Function.update_self]
        exact ⟨hused₃.idle, by rw [← slots_congr hentries]; exact hused₃.room⟩
      · rw [hnode₃, Function.update_of_ne hne.symm, hnode₂, Function.update_self, ← hthere]
        exact hused₂
      · intro k hk hk'
        rw [hnode₃, Function.update_of_ne hk, hnode₂, Function.update_of_ne hk', hnode₁,
          Function.update_of_ne hk]

/-- The datagram in flight at `here` has got to the end of the path, and nothing else has happened
but that the routers on the path have learned where their neighbours are. -/
structure Delivery (config : ι → SrConfig) (wire : ι → String → Option (ι × String))
    (g : Wiring.Global ι SrState String Bytes) (rest : Multiset (Bound ι String Bytes))
    (here : ι × String) (path : List (ι × String)) (packet : Bytes)
    (g' : Wiring.Global ι SrState String Bytes) (packet' : Bytes) : Prop where
  run : Relation.ReflTransGen (routersOnTime config wire).Step g g'
  flight : g'.flight = ⟨((here :: path).getLast (List.cons_ne_nil _ _)).1,
    ((here :: path).getLast (List.cons_ne_nil _ _)).2, packet'⟩ ::ₘ rest
  sound : Sound packet'
  carried : Carried path.length packet packet'
  injected : g'.injected = g.injected
  others : ∀ k ∉ (here :: path).map Prod.fst, g'.node k = g.node k
  first : Used 1 (g.node here.1) (g'.node here.1)
  used : ∀ port ∈ path, Used 2 (g.node port.1) (g'.node port.1)
  same : path = [] → packet' = packet
  /-- The frame is for the last interface if the cache of the last sender was not wrong. -/
  addressed : path ≠ [] → ∃ before sender j,
    Relation.ReflTransGen (routersOnTime config wire).Step g before ∧
    before.injected = g.injected ∧
    srGetInterface (config ((here :: path).getLast (List.cons_ne_nil _ _)).1)
      ((here :: path).getLast (List.cons_ne_nil _ _)).2 = some j ∧
    ((∀ e, srArpcacheLookup (before.node sender).cache j.ip = some e → e.mac = j.addr) →
      etherDhost packet' = j.addr)

theorem Delivery.quiet {g g' : Wiring.Global ι SrState String Bytes}
    {rest : Multiset (Bound ι String Bytes)} {here : ι × String} {path : List (ι × String)}
    {packet packet' : Bytes} (h : Delivery config wire g rest here path packet g' packet') {n : Nat}
    {k : ι} (hquiet : Quiet (n + 2) (g.node k)) : Quiet n (g'.node k) := by
  by_cases hk : k ∈ (here :: path).map Prod.fst
  · obtain ⟨port, hport, rfl⟩ := List.mem_map.mp hk
    rcases List.mem_cons.mp hport with rfl | hport
    · exact Quiet.used (hquiet.mono (Nat.le_succ _)) h.first
    · exact hquiet.used (h.used port hport)
  · rw [h.others k hk]
    exact hquiet.mono (Nat.le_add_right n 2)

theorem exists_delivery {g : Wiring.Global ι SrState String Bytes}
    {rest : Multiset (Bound ι String Bytes)} {here : ι × String} {path : List (ι × String)}
    {packet : Bytes} (hflight : g.flight = ⟨here.1, here.2, packet⟩ ::ₘ rest)
    (hsound : Sound packet) (httl : path.length ≤ ttl (ipHeader packet))
    (hpath : List.IsChain (Leads config wire (ipDst (ipHeader packet))) (here :: path))
    (hnodup : ((here :: path).map Prod.fst).Nodup) (hfirst : Quiet 1 (g.node here.1))
    (hquiet : ∀ port ∈ path, Quiet 2 (g.node port.1)) :
    ∃ g' packet', Delivery config wire g rest here path packet g' packet' := by
  induction path generalizing g here packet with
  | nil =>
      exact ⟨g, packet, .refl, hflight, hsound, .refl packet, rfl, fun _ _ => rfl, hfirst.unused,
        by simp, fun _ => rfl, fun hpath => absurd rfl hpath⟩
  | cons there path ih =>
      obtain ⟨hleads, hpath'⟩ := List.isChain_cons_cons.mp hpath
      have hnodup' := hnodup
      rw [List.map_cons, List.map_cons, List.nodup_cons, List.nodup_cons, List.mem_cons, not_or]
        at hnodup'
      obtain ⟨⟨hne, hhere⟩, hthere, -⟩ := hnodup'
      rw [List.length_cons] at httl
      -- the first hop, with its own ARP exchange; the other nodes on the path are still untouched
      obtain ⟨g₁, packet₁, hrun₁, hflight₁, hsound₁, hcarried₁, hinjected₁, hused, hused', hsame₁,
        j, hj, haddressed⟩ := hleads.delivers hne hflight hsound (by omega) hfirst
          ((hquiet there List.mem_cons_self).mono (by decide))
      have httl₁ := hcarried₁.ttl
      have hlong : 20 ≤ ipLen (ipHeader packet) := le_trans hsound.ihl_ge hsound.len_ge
      rw [← hcarried₁.dst hlong] at hpath'
      -- no router stands twice on the path
      have hrest : ∀ port ∈ path, g₁.node port.1 = g.node port.1 := by
        intro port hport
        have hnode := List.mem_map_of_mem (f := Prod.fst) hport
        exact hsame₁ port.1 (fun h => hhere (h ▸ hnode)) (fun h => hthere (h ▸ hnode))
      obtain ⟨g', packet', h⟩ := ih hflight₁ hsound₁ (by omega) hpath' (List.nodup_cons.mp hnodup).2
        ((hquiet there List.mem_cons_self).used hused') fun port hport => by
          rw [hrest port hport]
          exact hquiet port (List.mem_cons_of_mem there hport)
      refine ⟨g', packet', hrun₁.trans h.run, h.flight, h.sound, ?_, h.injected.trans hinjected₁,
        ?_, ?_, ?_, nofun, fun _ => ?_⟩
      · rw [List.length_cons, add_comm]
        exact hcarried₁.trans h.carried
      · intro k hk
        rw [List.map_cons, List.mem_cons, not_or] at hk
        rw [h.others k hk.2, hsame₁ k hk.1 fun h => hk.2 (h ▸ List.mem_cons_self)]
      · rw [h.others here.1 (by simp [hne, hhere])]
        exact hused
      · intro port hport
        rcases List.mem_cons.mp hport with rfl | hport
        · exact hused'.trans h.first
        · rw [← hrest port hport]
          exact h.used port hport
      · cases path with
        | nil =>
            rw [h.same rfl]
            exact ⟨g, here.1, j, .refl, rfl, hj, haddressed⟩
        | cons next path =>
            obtain ⟨before, sender, j', hrun, hinjected, hj', haddressed'⟩ :=
              h.addressed (List.cons_ne_nil _ _)
            exact ⟨before, sender, j', hrun₁.trans hrun, hinjected.trans hinjected₁, hj',
              haddressed'⟩

/-- **A datagram gets to the end of its path.** Each port leads to the next one, the routers are
different ones, nothing waits on them and their caches have room, and the TTL is not less than the
number of hops. Then there is a run after which the datagram is in flight at the last port, with a
TTL that is less by the number of hops and a correct checksum, and otherwise as it was. Nothing else
is sent by then, and no other router has noticed. -/
theorem datagram_delivered {g : Wiring.Global ι SrState String Bytes}
    {rest : Multiset (Bound ι String Bytes)} {here : ι × String} {path : List (ι × String)}
    {packet : Bytes} (hflight : g.flight = ⟨here.1, here.2, packet⟩ ::ₘ rest)
    (hsound : Sound packet) (httl : path.length ≤ ttl (ipHeader packet))
    (hpath : List.IsChain (Leads config wire (ipDst (ipHeader packet))) (here :: path))
    (hnodup : ((here :: path).map Prod.fst).Nodup) (hfirst : Quiet 1 (g.node here.1))
    (hquiet : ∀ port ∈ path, Quiet 2 (g.node port.1)) :
    ∃ g' packet', Relation.ReflTransGen (routersOnTime config wire).Step g g' ∧
      g'.flight = ⟨((here :: path).getLast (List.cons_ne_nil _ _)).1,
        ((here :: path).getLast (List.cons_ne_nil _ _)).2, packet'⟩ ::ₘ rest ∧
      Sound packet' ∧ Carried path.length packet packet' ∧ g'.injected = g.injected ∧
      ∀ k ∉ (here :: path).map Prod.fst, g'.node k = g.node k := by
  obtain ⟨g', packet', h⟩ := exists_delivery hflight hsound httl hpath hnodup hfirst hquiet
  exact ⟨g', packet', h.run, h.flight, h.sound, h.carried, h.injected, h.others⟩

end Network

/-- Three routers in a line. The one on the left of a link has the address that ends in 1, the one
on its right the address that ends in 2; the client is on the left, and the server is far away on
the right. -/
def lineConfig (k : Fin 3) : SrConfig where
  ifList :=
    [⟨"eth0", ⟨[2, 0, 0, 0, k.val.toUInt8, 1], rfl⟩, dotted 10 0 k.val.toUInt8 2⟩,
      ⟨"eth1", ⟨[2, 0, 0, 0, k.val.toUInt8, 2], rfl⟩, dotted 10 0 (k.val.toUInt8 + 1) 1⟩]
  routingTable :=
    [hostRoute (dotted 10 0 k.val.toUInt8 1) "eth0",
      hostRoute (dotted 10 0 (k.val.toUInt8 + 1) 2) "eth1",
      ⟨dotted 192 168 2 2, dotted 10 0 (k.val.toUInt8 + 1) 2, dotted 255 255 255 255, "eth1"⟩,
      ⟨dotted 10 0 2 0, dotted 10 0 (k.val.toUInt8 + 1) 2, dotted 255 255 255 0, "eth1"⟩,
      ⟨dotted 10 0 0 0, dotted 10 0 k.val.toUInt8 1, dotted 255 255 255 0, "eth0"⟩]

def lineWire (k : Fin 3) (name : String) : Option (Fin 3 × String) :=
  if name = "eth1" ∧ k ≠ 2 then some (k + 1, "eth0")
  else if name = "eth0" ∧ k ≠ 0 then some (k - 1, "eth1")
  else none

/-- The first datagram gets to the third router. -/
theorem datagram_delivered_line : ∃ g packet,
    (routersOnTime lineConfig lineWire).Reachable g ∧ g.flight = {⟨2, "eth0", packet⟩} ∧
    Sound packet ∧ ttl (ipHeader packet) = 62 := by
  let frame := clientFrame 64 (dotted 192 168 2 2)
  have hsound : Sound frame :=
    ⟨by decide +kernel, by decide +kernel, by decide +kernel, by decide +kernel, by decide +kernel,
      by decide +kernel⟩
  have hdst : ipDst (ipHeader frame) = dotted 192 168 2 2 := by decide +kernel
  have httl : ttl (ipHeader frame) = 64 := by decide +kernel
  have hquiet : Quiet 2 srInit := ⟨rfl, by decide⟩
  have hfirst : Leads lineConfig lineWire (dotted 192 168 2 2) (0, "eth0") (1, "eth0") :=
    ⟨by decide, _, _, _, rfl, rfl, rfl, rfl, rfl, rfl, ⟨_, rfl, rfl⟩, ⟨_, rfl, rfl, rfl⟩⟩
  have hsecond : Leads lineConfig lineWire (dotted 192 168 2 2) (1, "eth0") (2, "eth0") :=
    ⟨by decide, _, _, _, rfl, rfl, rfl, rfl, rfl, rfl, ⟨_, rfl, rfl⟩, ⟨_, rfl, rfl, rfl⟩⟩
  generalize frame = packet at hsound hdst httl
  have hpath : List.IsChain (Leads lineConfig lineWire (ipDst (ipHeader packet)))
      [(0, "eth0"), (1, "eth0"), (2, "eth0")] := by
    rw [hdst]
    simp [hfirst, hsecond]
  let g : Wiring.Global (Fin 3) SrState String Bytes :=
    ⟨fun _ => srInit, {⟨0, "eth0", packet⟩}, {⟨0, "eth0", packet⟩}⟩
  have hinject : (routersOnTime lineConfig lineWire).Step ⟨fun _ => srInit, 0, 0⟩ g :=
    .inject ⟨0, "eth0", packet⟩
  have hflight : g.flight = ⟨0, "eth0", packet⟩ ::ₘ 0 := rfl
  obtain ⟨g', packet', hrun, hflight', hsound', hcarried, -⟩ :=
    datagram_delivered hflight hsound (by simp [httl]) hpath (by decide)
      ⟨hquiet.idle, le_trans (by decide) hquiet.room⟩ (fun _ _ => hquiet)
  have hend := hcarried.ttl
  refine ⟨g', packet', .head hinject hrun, hflight', hsound', ?_⟩
  rw [httl] at hend
  simpa using hend

end NetworkProjects.Router
