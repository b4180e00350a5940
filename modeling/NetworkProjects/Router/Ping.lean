import NetworkProjects.Router.Path
import NetworkProjects.Router.Owners
import NetworkProjects.Router.EchoReply

/-!
# An echo request and its reply

An ICMP message for a router that is several hops away. It gets there, the router answers it over
the wire it came in on, and the answer is passed on from router to router to where the message came
from (`ping_returns`). That needs caches that are not wrong: an answer goes out only if the frame
that it answers was for the hardware address of the interface. In a network that tells the truth
they never are (`mappings_agree`).
-/

namespace NetworkProjects.Router

open NetworkProjects.Lib

/-! ## The reply -/

/-- The datagram in `reply` answers the one in `packet`: the addresses are exchanged, type and code
are zero and the checksum is the one of these four bytes alone, and the rest is as it was. -/
structure EchoOf (packet reply : Bytes) : Prop where
  total : ipLen (ipHeader reply) = ipLen (ipHeader packet)
  protocol : ipP (ipHeader reply) = ipP (ipHeader packet)
  src : ipSrc (ipHeader reply) = ipDst (ipHeader packet)
  dst : ipDst (ipHeader reply) = ipSrc (ipHeader packet)
  icmp : ∀ i < 4, byteAt (ipHeader reply) (20 + i) = byteAt [0, 0, 255, 255] i
  rest : ∀ i < ipLen (ipHeader packet), 24 ≤ i →
    byteAt (ipHeader reply) i = byteAt (ipHeader packet) i

section Reply

variable {sr : SrConfig} {s : SrState} {packet packet' reply reply' : Bytes} {n : Nat}

/-- The source stays the same. -/
theorem Carried.src (h : Carried n packet packet') (hlong : 20 ≤ ipLen (ipHeader packet)) :
    ipSrc (ipHeader packet') = ipSrc (ipHeader packet) :=
  load32_congr fun k hk => h.other (12 + k) (by omega) (by omega) (by omega) (by omega)

theorem Carried.protocol (h : Carried n packet packet') (hlong : 20 ≤ ipLen (ipHeader packet)) :
    ipP (ipHeader packet') = ipP (ipHeader packet) :=
  h.other 9 (by omega) (by decide) (by decide) (by decide)

theorem Carried.hl (h : Carried n packet packet') (hlong : 20 ≤ ipLen (ipHeader packet)) :
    ipHl (ipHeader packet') = ipHl (ipHeader packet) := by
  simp only [ipHl, h.other 0 (by omega) (by decide) (by decide) (by decide)]

/-- An answer to what has arrived answers what was sent. -/
theorem EchoOf.before (h : EchoOf packet' reply) (hcarried : Carried n packet packet')
    (hlong : 20 ≤ ipLen (ipHeader packet)) : EchoOf packet reply where
  total := h.total.trans hcarried.total
  protocol := h.protocol.trans (hcarried.protocol hlong)
  src := h.src.trans (hcarried.dst hlong)
  dst := h.dst.trans (hcarried.src hlong)
  icmp := h.icmp
  rest := by
    intro i hi h24
    rw [h.rest i (by rwa [hcarried.total]) h24]
    exact hcarried.other i hi (by omega) (by omega) (by omega)

/-- An answer that has arrived is the answer that was sent. -/
theorem EchoOf.after (h : EchoOf packet reply) (hcarried : Carried n reply reply')
    (hlong : 24 ≤ ipLen (ipHeader packet)) : EchoOf packet reply' := by
  have hlong' : 24 ≤ ipLen (ipHeader reply) := by rwa [h.total]
  have h20 : 20 ≤ ipLen (ipHeader reply) := by omega
  refine ⟨hcarried.total.trans h.total, (hcarried.protocol h20).trans h.protocol,
    (hcarried.src h20).trans h.src, (hcarried.dst h20).trans h.dst, ?_, ?_⟩
  · intro i hi
    rw [hcarried.other (20 + i) (by omega) (by omega) (by omega) (by omega)]
    exact h.icmp i hi
  · intro i hi h24
    rw [hcarried.other i (by rwa [h.total]) (by omega) (by omega) (by omega)]
    exact h.rest i hi h24

/-- What `sr_send_echo_reply` makes of a well-formed message without options. -/
theorem sound_echoReplyFrame (hsound : Sound packet) (hhl : ipHl (ipHeader packet) = 5)
    (hlong : 24 ≤ ipLen (ipHeader packet)) (heap : Nat → UInt8) :
    Sound (echoReplyFrame (store packet 24 [0, 0]) heap) ∧
      ttl (ipHeader (echoReplyFrame (store packet 24 [0, 0]) heap)) = 63 ∧
      EchoOf packet (echoReplyFrame (store packet 24 [0, 0]) heap) := by
  have hle := hsound.len_le
  have hihl : ipIhl (ipHeader packet) = 20 := by rw [ipIhl, hhl]
  simp only [sizeofEthernetHdr] at hle
  have hclear : 24 + ([0, 0] : Bytes).length ≤ packet.length := by simp; omega
  have hlen : (store packet 24 [0, 0]).length = packet.length := length_store hclear
  have hsame : ∀ k, k < 24 ∨ 26 ≤ k → byteAt (store packet 24 [0, 0]) k = byteAt packet k :=
    fun k hk => byteAt_store_of_not_mem hclear hk
  have htype : ethertype (store packet 24 [0, 0]) = ethertype packet :=
    ethertype_cleared (by omega)
  have hhl' : ipHl (ipHeader (store packet 24 [0, 0])) = 5 := by
    simp only [ipHl, ipHeader, byteAt_drop, sizeofEthernetHdr] at hhl ⊢
    rw [hsame _ (by omega)]
    exact hhl
  -- from here on only the bytes of `p` that the reply copies matter
  generalize store packet 24 [0, 0] = p at hlen hsame htype hhl'
  have h38 : 38 ≤ p.length := by omega
  have hfirst : byteAt (echoReplyFrame p heap) 14 = byteAt packet 14 := by
    rw [← hsame 14 (by decide)]
    exact byteAt_echoReplyFrame_copy h38 heap (j := 4) (i := 0) (n := 1) rfl (by decide) (by omega)
      (by simp [echoReplyWrites])
  have htotal : ipLen (ipHeader (echoReplyFrame p heap)) = ipLen (ipHeader packet) := by
    apply congrArg ntohs
    apply load16_congr
    intro k hk
    simp only [ipHeader, byteAt_drop, sizeofEthernetHdr, ← Nat.add_assoc, Nat.reduceAdd]
    rw [← hsame (16 + k) (by omega)]
    exact byteAt_echoReplyFrame_copy h38 heap (j := 6) (n := 2) rfl hk (by omega)
      (by simp [echoReplyWrites]; omega)
  have hhl'' : ipHl (ipHeader (echoReplyFrame p heap)) = ipHl (ipHeader packet) := by
    simp only [ipHl, ipHeader, byteAt_drop, sizeofEthernetHdr, Nat.add_zero, hfirst]
  obtain ⟨hsrc, hdst⟩ := ipAddrs_echoReplyFrame h38 heap
  have haddrs : ipSrc (ipHeader p) = ipSrc (ipHeader packet) ∧
      ipDst (ipHeader p) = ipDst (ipHeader packet) := by
    constructor
    all_goals
      apply load32_congr
      intro k hk
      simp only [ipHeader, byteAt_drop, sizeofEthernetHdr]
      exact hsame _ (by omega)
  refine ⟨⟨?_, ?_, ?_, ?_, ?_, hasChecksum_echoReplyFrame h38 heap hhl'⟩, ?_, ⟨htotal, ?_,
    hsrc.trans haddrs.2, hdst.trans haddrs.1, ?_, ?_⟩⟩
  · rw [ethertype_echoReplyFrame h38, htype, hsound.ethertype]
  · rw [← hsound.version]
    simp only [ipV, ipHeader, byteAt_drop, sizeofEthernetHdr, Nat.add_zero, hfirst]
  · rw [ipIhl, hhl'', ← ipIhl]
    exact hsound.ihl_ge
  · rw [ipIhl, hhl'', ← ipIhl, htotal]
    exact hsound.len_ge
  · rw [htotal, length_echoReplyFrame h38, hlen]
    exact hsound.len_le
  · have httl : byteAt (echoReplyFrame p heap) 22 = 63 := by
      rw [echoReplyFrame_eq_fill h38 heap fun _ => 0]
      exact byteAt_fill_put (j := 10) (i := 0) (show _ = p.length by simp)
        (fits_echoReplyWrites (by omega)) rfl (by decide) (by simp [echoReplyWrites])
    simp only [ttl, ipTtl, ipHeader, byteAt_drop, sizeofEthernetHdr, Nat.reduceAdd, httl]
    rfl
  · simp only [ipP, ipHeader, byteAt_drop, sizeofEthernetHdr, Nat.reduceAdd]
    rw [protocol_echoReplyFrame h38, hsame 23 (by decide)]
  · intro i hi
    rw [← icmpHdr_echoReplyFrame h38 heap, byteAt_slice hi, ipHeader, byteAt_drop,
      sizeofEthernetHdr, ← Nat.add_assoc]
  · intro i hi h24
    obtain ⟨k, rfl⟩ := Nat.exists_eq_add_of_le h24
    simp only [ipHeader, byteAt_drop, sizeofEthernetHdr, ← Nat.add_assoc, Nat.reduceAdd]
    rw [← hsame (38 + k) (by omega)]
    exact byteAt_echoReplyFrame_copy h38 heap (j := 18) (n := p.length - 38) rfl (by omega)
      (by omega) (by simp [echoReplyWrites])

/-- An ICMP message for the router is answered over the wire it came in on. -/
theorem takes_icmp {interface : String} {j : SrIf} (hsound : Sound packet)
    (hicmp : ipP (ipHeader packet) = ipProtocolIcmp) (hhl : ipHl (ipHeader packet) = 5)
    (hlong : 24 ≤ ipLen (ipHeader packet))
    (hmine : srInterfaceIpMatch sr (ipDst (ipHeader packet)) = true)
    (hj : srGetInterface sr interface = some j) (hdhost : etherDhost packet = j.addr) (now : Nat)
    (mem : Memory) : ∃ s' reply, s'.cache = s.cache ∧ Sound reply ∧ ttl (ipHeader reply) = 63 ∧
      EchoOf packet reply ∧
      Takes sr s (.frame interface packet now mem) s' [(interface, reply)] := by
  have hle := hsound.len_le
  have hihl : ipIhl (ipHeader packet) = 20 := by rw [ipIhl, hhl]
  have hnotArp : ethertype packet ≠ SrEthertype.arp.value := by
    rw [hsound.ethertype]
    decide
  have hchecked : Checked packet := by
    refine (checked_iff hnotArp ?_ ?_).mpr hsound.checksum
    · rw [hihl]
      decide
    · rw [hihl, sizeofEthernetHdr]
      simp only [sizeofEthernetHdr] at hle
      omega
  -- it passes the gate, is for this router, and has the MAC of the interface it came in on
  have hanswerable : Answerable sr interface packet := by
    refine ⟨hchecked, hmine, hicmp, ?_, j, hj, hdhost⟩
    simp only [sizeofEthernetHdr, sizeofIpHdr, sizeofIcmpHdr] at hle ⊢
    omega
  obtain ⟨hreply, httl, hecho⟩ := sound_echoReplyFrame hsound hhl hlong mem.heap
  refine ⟨_, _, ?_, hreply, httl, hecho, hanswerable.answered s now mem,
    [.received interface packet, .transmitted .echoReply interface
      (echoReplyFrame (store packet 24 [0, 0]) mem.heap)], ?_, rfl⟩
  · rfl
  · simp

end Reply

/-! ## The way there and the way back -/

section Network

variable {ι : Type} [DecidableEq ι] {config : ι → SrConfig}
  {wire : ι → String → Option (ι × String)} {owner : InAddr → EtherAddr}

/-- What routers on time do, routers do. -/
theorem reachable_of_onTime {g : Wiring.Global ι SrState String Bytes}
    (hg : (routersOnTime config wire).Reachable g) : (routers config wire).Reachable g := by
  refine Relation.ReflTransGen.mono (fun g g' hstep => ?_) _ _ hg
  cases hstep with
  | inject b => exact .inject b
  | lose flight => exact .lose flight
  | deliver flight react => exact .deliver flight react.1
  | wake react => exact .wake react.1

/-- In a network that tells the truth, what is in a cache is what one would be told. -/
theorem lookup_right (howns : ∀ i, ∀ f ∈ (config i).ifList, owner f.ip = f.addr)
    {g : Wiring.Global ι SrState String Bytes} (hg : (routersOnTime config wire).Reachable g)
    (htold : ∀ b ∈ g.injected, Truthful owner b.message) (i : ι) {ip : InAddr} {e : SrArpentry}
    (he : srArpcacheLookup (g.node i).cache ip = some e) : e.mac = owner ip := by
  obtain ⟨k, rfl, hvalid, rfl⟩ := srArpcacheLookup_eq_some he
  exact ((Wiring.keeps_of_reachable (routers_keep howns) (reachable_of_onTime hg) htold).1 i).right
    k hvalid

/-- **A ping returns.** A well-formed ICMP message without options is in flight to a router that is
several hops away; nothing waits on the routers on the way there and back and their caches have
room, and it tells the truth what has been put into the network. Then there is a run after which
the answer is in flight where the way back ends: it has a correct header checksum and a TTL of 63
less the number of hops, and all but its first four bytes is what was in the message. -/
theorem ping_returns (howns : ∀ i, ∀ f ∈ (config i).ifList, owner f.ip = f.addr)
    {g : Wiring.Global ι SrState String Bytes} (hg : (routersOnTime config wire).Reachable g)
    (htold : ∀ b ∈ g.injected, Truthful owner b.message)
    {rest : Multiset (Bound ι String Bytes)} {here first : ι × String}
    {path back : List (ι × String)} {packet : Bytes}
    (hflight : g.flight = ⟨here.1, here.2, packet⟩ ::ₘ rest) (hsound : Sound packet)
    (hicmp : ipP (ipHeader packet) = ipProtocolIcmp) (hhl : ipHl (ipHeader packet) = 5)
    (hlong : 24 ≤ ipLen (ipHeader packet)) (hfar : path ≠ [])
    (httl : path.length ≤ ttl (ipHeader packet))
    (hpath : List.IsChain (Leads config wire (ipDst (ipHeader packet))) (here :: path))
    (hnodup : ((here :: path).map Prod.fst).Nodup)
    (hmine : srInterfaceIpMatch (config ((here :: path).getLast (List.cons_ne_nil _ _)).1)
      (ipDst (ipHeader packet)) = true)
    (hwire : wire ((here :: path).getLast (List.cons_ne_nil _ _)).1
      ((here :: path).getLast (List.cons_ne_nil _ _)).2 = some first)
    (hshort : back.length ≤ 63)
    (hback : List.IsChain (Leads config wire (ipSrc (ipHeader packet))) (first :: back))
    (hnodup' : ((first :: back).map Prod.fst).Nodup)
    (hquiet : ∀ port ∈ (here :: path) ++ (first :: back), Quiet 4 (g.node port.1)) :
    ∃ g' reply, Relation.ReflTransGen (routersOnTime config wire).Step g g' ∧
      g'.flight = ⟨((first :: back).getLast (List.cons_ne_nil _ _)).1,
        ((first :: back).getLast (List.cons_ne_nil _ _)).2, reply⟩ ::ₘ rest ∧
      Sound reply ∧ ttl (ipHeader reply) + back.length = 63 ∧ EchoOf packet reply := by
  have h20 : 20 ≤ ipLen (ipHeader packet) := by omega
  -- the way there
  obtain ⟨g₁, packet₁, hthere⟩ := exists_delivery hflight hsound httl hpath hnodup
    ((hquiet here (by simp)).mono (by decide))
    fun port hport => (hquiet port (by simp [hport])).mono (by decide)
  obtain ⟨before, sender, j, hbefore, hinjected, hj, haddressed⟩ := hthere.addressed hfar
  have hquiet₁ : ∀ port ∈ (here :: path) ++ (first :: back), Quiet 2 (g₁.node port.1) :=
    fun port hport => hthere.quiet (hquiet port hport)
  have hlast := hquiet₁ _ (List.mem_append_left _ (List.getLast_mem (List.cons_ne_nil here path)))
  have hflight₁ := hthere.flight
  generalize (here :: path).getLast (List.cons_ne_nil _ _) = last at hmine hwire hj hlast hflight₁
  -- the last sender had its address from its cache, where it is right
  have hdhost : etherDhost packet₁ = j.addr := by
    refine haddressed fun e he => ?_
    rw [lookup_right howns (hg.trans hbefore) (by rwa [hinjected]) sender he]
    exact howns last.1 j (mem_ifList hj)
  -- the answer
  have hcarried := hthere.carried
  obtain ⟨s₂, reply, hcache, hsound₂, httl₂, hecho, htakes⟩ := takes_icmp (s := g₁.node last.1)
    hthere.sound ((hcarried.protocol h20).trans hicmp) ((hcarried.hl h20).trans hhl)
    (by rwa [hcarried.total]) (by rwa [hcarried.dst h20]) hj hdhost (g₁.node last.1).clock
    (g₁.node last.1).mem
  obtain ⟨g₂, hstep, hnode, hflight₂, -⟩ :=
    htakes.step hflight₁ hlast.addrsOk (Nat.le_refl _) hwire
  have hecho' := hecho.before hcarried h20
  have hquiet₂ : ∀ port ∈ first :: back, Quiet 2 (g₂.node port.1) := by
    intro port hport
    have hport₁ := hquiet₁ port (List.mem_append_right _ hport)
    rw [hnode]
    -- the answering router may be on the way back, and its cache is as it was
    by_cases hsame : port.1 = last.1
    · rw [hsame] at hport₁ ⊢
      rw [Function.update_self]
      exact ⟨by rw [hcache, hport₁.idle], by rw [hcache]; exact hport₁.room⟩
    · rwa [Function.update_of_ne hsame]
  -- the way back
  obtain ⟨g₃, reply', hreturn⟩ := exists_delivery hflight₂ hsound₂ (by rw [httl₂]; exact hshort)
    (by rwa [hecho'.dst]) hnodup' ((hquiet₂ first (by simp)).mono (by decide))
    fun port hport => hquiet₂ port (List.mem_cons_of_mem first hport)
  refine ⟨g₃, reply', (hthere.run.tail hstep).trans hreturn.run, hreturn.flight, hreturn.sound, ?_,
    hecho'.after hreturn.carried hlong⟩
  rw [hreturn.carried.ttl, httl₂]

end Network

/-- The interfaces of the three routers. -/
def lineOwner (ip : InAddr) : EtherAddr :=
  (((List.finRange 3).flatMap fun k => (lineConfig k).ifList).find? fun f => f.ip == ip).elim
    broadcastAddr SrIf.addr

/-- An echo request from the client to the third router. -/
def linePing : Bytes :=
  ethFrame (lineOwner (dotted 10 0 0 2)) serverAddr .ip
    (ipDatagram 64 ipProtocolIcmp (dotted 10 0 0 1) (dotted 10 0 2 2)
      ([icmpEchoRequestCode, 0] ++ bytes16 (cksum [icmpEchoRequestCode, 0, 0, 0, 0, 1, 0, 1])
        ++ [0, 1, 0, 1]))

/-- The request passes two routers, and the answer comes back to the first one. -/
theorem ping_returns_line : ∃ g reply, (routersOnTime lineConfig lineWire).Reachable g ∧
    g.flight = {⟨0, "eth1", reply⟩} ∧ Sound reply ∧ ttl (ipHeader reply) + 1 = 63 ∧
    EchoOf linePing reply := by
  have hsound : Sound linePing :=
    ⟨by decide +kernel, by decide +kernel, by decide +kernel, by decide +kernel, by decide +kernel,
      by decide +kernel⟩
  have hfields : ipP (ipHeader linePing) = ipProtocolIcmp ∧ ipHl (ipHeader linePing) = 5 ∧
      24 ≤ ipLen (ipHeader linePing) ∧ 2 ≤ ttl (ipHeader linePing) := by decide +kernel
  have haddrs : ipSrc (ipHeader linePing) = dotted 10 0 0 1 ∧
      ipDst (ipHeader linePing) = dotted 10 0 2 2 := by decide +kernel
  have htold : Truthful lineOwner linePing := by
    intro _ htype
    rw [hsound.ethertype] at htype
    cases htype
  have howns : ∀ k, ∀ f ∈ (lineConfig k).ifList, lineOwner f.ip = f.addr := by decide
  have hfirst : Leads lineConfig lineWire (dotted 10 0 2 2) (0, "eth0") (1, "eth0") :=
    ⟨by decide, _, _, _, rfl, rfl, rfl, rfl, rfl, rfl, ⟨_, rfl, rfl⟩, ⟨_, rfl, rfl, rfl⟩⟩
  have hsecond : Leads lineConfig lineWire (dotted 10 0 2 2) (1, "eth0") (2, "eth0") :=
    ⟨by decide, _, _, _, rfl, rfl, rfl, rfl, rfl, rfl, ⟨_, rfl, rfl⟩, ⟨_, rfl, rfl, rfl⟩⟩
  have hreturn : Leads lineConfig lineWire (dotted 10 0 0 1) (1, "eth1") (0, "eth1") :=
    ⟨by decide, _, _, _, rfl, rfl, rfl, rfl, rfl, rfl, ⟨_, rfl, rfl⟩, ⟨_, rfl, rfl, rfl⟩⟩
  obtain ⟨hicmp, hhl, hlong, httl⟩ := hfields
  -- the fields are evaluated; from here on the bytes of the frame stay closed
  generalize linePing = packet at hsound hicmp hhl hlong httl haddrs htold
  have hpath : List.IsChain (Leads lineConfig lineWire (ipDst (ipHeader packet)))
      [(0, "eth0"), (1, "eth0"), (2, "eth0")] := by
    rw [haddrs.2]
    simp [hfirst, hsecond]
  have hback : List.IsChain (Leads lineConfig lineWire (ipSrc (ipHeader packet)))
      [(1, "eth1"), (0, "eth1")] := by
    rw [haddrs.1]
    simp [hreturn]
  let g : Wiring.Global (Fin 3) SrState String Bytes :=
    ⟨fun _ => srInit, {⟨0, "eth0", packet⟩}, {⟨0, "eth0", packet⟩}⟩
  have hinject : (routersOnTime lineConfig lineWire).Reachable g :=
    .single (.inject ⟨0, "eth0", packet⟩)
  have hflight : g.flight = ⟨0, "eth0", packet⟩ ::ₘ 0 := rfl
  have hquiet : Quiet 4 srInit := ⟨rfl, by decide⟩
  have hfar : [((1 : Fin 3), "eth0"), (2, "eth0")] ≠ [] := List.cons_ne_nil _ _
  have hmine : srInterfaceIpMatch (lineConfig 2) (ipDst (ipHeader packet)) = true := by
    rw [haddrs.2]
    decide
  obtain ⟨g', reply, hrun, hend⟩ := ping_returns howns hinject (by simpa [g] using htold) hflight
    hsound hicmp hhl hlong hfar httl hpath (by decide) hmine rfl (by decide) hback
    (by decide) fun _ _ => hquiet
  exact ⟨g', reply, hinject.trans hrun, hend⟩

end NetworkProjects.Router
