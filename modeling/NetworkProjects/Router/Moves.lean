import NetworkProjects.Router.Datagram
import Mathlib.Logic.Relation

/-!
# What the router does, move by move

A step of the router is a sequence of *moves*. Between two moves some datagrams are in hand:
taken out of a received frame or off a detached request, and not yet given to the wire or to
the queue. `Move sr` lists everything that can happen, over pairs of a state and the datagrams
in hand, and `srStep_moves` shows that the code's step is a sequence of them that starts and
ends with empty hands.

Every invariant of whole runs is proved on moves, through `srRun_rule`.
-/

namespace NetworkProjects.Router

open NetworkProjects.Lib

/-! ## Moves

A move names what the code does to the datagrams in hand, on the queue, and on the wires. The moves
are few, so an invariant has few cases. -/

/-- Events that say nothing about a forwarded datagram or a cached mapping. -/
def SrEvent.Quiet : SrEvent → Prop
  | .received _ _ => True
  | .transmitted sender _ _ => sender ≠ .fillAndSendPkt .ip
  | _ => False

/-- The event is an ARP frame that maps `ip` to `mac`, addressed to the interface it came in
on. -/
def Teaches (sr : SrConfig) (ip : InAddr) (mac : EtherAddr) : SrEvent → Prop
  | .received interface packet =>
      sizeofEthernetHdr + sizeofArpHdr ≤ packet.length ∧
      ethertype packet = SrEthertype.arp.value ∧ arSip packet = ip ∧ arSha packet = mac ∧
      ∃ i, srGetInterface sr interface = some i ∧ arTip packet = i.ip
  | _ => False

/-- The state after `sr_arpcache_timeout` has been over the entries. -/
def SrState.expire (s : SrState) : SrState :=
  { s with cache := { s.cache with entries := expireEntries s.clock s.cache.entries },
           history := s.history ++ expiredEvents s.clock s.cache.entries }

/-- One move, on the state and the datagrams in hand. -/
inductive Move (sr : SrConfig) : SrState × List Bytes → SrState × List Bytes → Prop
  /-- Something unrelated to forwarding is written down. -/
  | log {s : SrState} {hand : List Bytes} {e : SrEvent} (quiet : e.Quiet) :
      Move sr (s, hand) (s.emit e, hand)
  /-- `ForwardToNextHop` takes a datagram out of the received frame. -/
  | forward {s : SrState} {d : Bytes} (long : sizeofIpHdr ≤ d.length) :
      Move sr (s, []) (s.emit (.forwarded d), [d])
  /-- A datagram goes out to the cached address of its gateway. -/
  | send {s : SrState} {d : Bytes} {hand : List Bytes} {rt : SrRt} {e : SrArpentry} {i : SrIf}
      (long : sizeofIpHdr ≤ d.length) (route : longestPrefixMatch sr (ipDst d) = some rt)
      (entry : srArpcacheLookup s.cache rt.gw = some e)
      (interface : srGetInterface sr rt.interface = some i) :
      Move sr (s, d :: hand) (s.emit (.transmitted (.fillAndSendPkt .ip) rt.interface
        (ethFrame e.mac i.addr .ip d)), hand)
  /-- A datagram is queued for its gateway, and the request is handled. -/
  | queue {s s' : SrState} {d : Bytes} {hand : List Bytes} {rt : SrRt}
      (long : sizeofIpHdr ≤ d.length) (route : longestPrefixMatch sr (ipDst d) = some rt)
      (absent : srArpcacheLookup s.cache rt.gw = none)
      (handled : srArpreqHandle sr
        (s.withCache (srArpcacheQueuereq s.cache rt.gw d rt.interface).1)
        (srArpcacheQueuereq s.cache rt.gw d rt.interface).2 = .ok s') :
      Move sr (s, d :: hand) (s', hand)
  /-- The sender of the ARP frame just received enters the cache; nobody waited for it. -/
  | learn {s : SrState} {past : List SrEvent} {e : SrEvent} {ip : InAddr} {mac : EtherAddr}
      (last : s.history = past ++ [e]) (teaches : Teaches sr ip mac e)
      (absent : srArpcacheLookup s.cache ip = none)
      (unawaited : (srArpcacheInsert s.cache mac ip s.clock).2 = none) :
      Move sr (s, []) (s.withCache (srArpcacheInsert s.cache mac ip s.clock).1, [])
  /-- The same, and the request that waited for it leaves the queue, its packets in hand. -/
  | answer {s : SrState} {past : List SrEvent} {e : SrEvent} {ip : InAddr} {mac : EtherAddr}
      {req : SrArpreq} (last : s.history = past ++ [e]) (teaches : Teaches sr ip mac e)
      (absent : srArpcacheLookup s.cache ip = none)
      (awaited : (srArpcacheInsert s.cache mac ip s.clock).2 = some req) :
      Move sr (s, []) ((s.withCache (srArpcacheInsert s.cache mac ip s.clock).1).emit
        (.answered req), req.packets.map SrPacket.buf)
  /-- A sweep handles a queued request. -/
  | handle {s s' : SrState} {addr : Nat} (handled : srArpreqHandle sr s addr = .ok s') :
      Move sr (s, []) (s', [])
  /-- A sweep invalidates the entries that are too old. -/
  | expire {s : SrState} : Move sr (s, []) (s.expire, [])

/-- Any number of moves. -/
abbrev Moves (sr : SrConfig) := Relation.ReflTransGen (Move sr)

/-! ## The code's functions as moves

One lemma for each function: what it does is a sequence of moves, whatever it is given, as long as
datagrams are not shorter than a header. -/

section Functions

variable {sr : SrConfig} {s s' : SrState}

theorem srSendPacket_moves {sender : SrSender} (hsender : sender ≠ .fillAndSendPkt .ip)
    (buf : Bytes) (iface : String) (hand : List Bytes) :
    Moves sr (s, hand) (srSendPacket sr s sender buf iface, hand) := by
  rcases srSendPacket_cases sr s sender buf iface with h | ⟨-, h⟩
  · rw [h]
  · rw [h]
    exact .single (.log hsender)

theorem fillAndSendPkt_move {d : Bytes} {hand : List Bytes} (hlong : sizeofIpHdr ≤ d.length)
    (h : fillAndSendPkt sr s d (ipDst d) .ip = .ok s') : Move sr (s, d :: hand) (s', hand) := by
  obtain ⟨rt, hrt, ⟨e, i, he, hi, rfl⟩ | ⟨habsent, hhandle⟩⟩ := fillAndSendPkt_ip_cases h
  · exact .send hlong hrt he hi
  · exact .queue hlong hrt habsent hhandle

theorem srArpreqSendPackets_moves :
    ∀ {ps : List SrPacket} {s : SrState}, srArpreqSendPackets sr s ps = .ok s' →
      Moves sr (s, ps.map SrPacket.buf) (s', [])
  | [], s, h => by
      cases h
      exact .refl
  | cur :: next, s, h => by
      obtain ⟨hlong, s₁, hs₁, h⟩ := srArpreqSendPackets_cons.mp h
      have hmove : Move sr (s, cur.buf :: next.map SrPacket.buf) (s₁, next.map SrPacket.buf) :=
        fillAndSendPkt_move hlong hs₁
      exact .head hmove (srArpreqSendPackets_moves h)

theorem learnMapping_moves {past : List SrEvent} {e : SrEvent} {ip : InAddr} {mac : EtherAddr}
    (hlast : s.history = past ++ [e]) (hteach : Teaches sr ip mac e)
    (habsent : srArpcacheLookup s.cache ip = none)
    (h : learnMapping sr s mac ip = .ok s') : Moves sr (s, []) (s', []) := by
  cases hins : (srArpcacheInsert s.cache mac ip s.clock).2 with
  | none =>
      rw [learnMapping_none hins] at h
      cases h
      exact .single (.learn hlast hteach habsent hins)
  | some req =>
      rw [learnMapping_some hins] at h
      exact .head (.answer hlast hteach habsent hins) (srArpreqSendPackets_moves h)

theorem handleArpRequst_moves {packet : Bytes} {i : SrIf}
    (h : handleArpRequst sr s packet i = .ok s') : Moves sr (s, []) (s', []) := by
  obtain ⟨iface, frame, rfl⟩ := fillAndSendPktWith_arp_cases h
  exact .single (.log (by simp [SrEvent.Quiet]))

/-- The ARP branch does nothing, or it learns the sender unless it is known, and may answer. -/
theorem handleArp_cases {interface : String} {packet : Bytes}
    (h : handleArp sr s interface packet = .ok s') :
    s' = s ∨ ∃ recIf s₁,
      (ethertype packet = SrEthertype.arp.value →
        Teaches sr (arSip packet) (arSha packet) (.received interface packet)) ∧
      (s₁ = s ∨ srArpcacheLookup s.cache (arSip packet) = none ∧
        learnMapping sr s (arSha packet) (arSip packet) = .ok s₁) ∧
      (s' = s₁ ∨ handleArpRequst sr s₁ packet recIf = .ok s') := by
  unfold handleArp at h
  split at h
  · exact .inl (Except.ok.inj h).symm
  -- the guards in their order; every one but a missing interface returns with nothing done
  next hlen =>
  split at h
  · cases h
  next recIf hrec =>
  split at h
  · exact .inl (Except.ok.inj h).symm
  next htip =>
  simp only at h
  split at h
  · cases h
  next s₁ hs₁ =>
  refine .inr ⟨recIf, s₁, ?_, ?_, ?_⟩
  · intro htype
    exact ⟨Nat.le_of_not_lt hlen, htype, rfl, rfl, recIf, hrec, (not_not.mp htip).symm⟩
  · split at hs₁
    · exact .inl (Except.ok.inj hs₁).symm
    · next habsent => exact .inr ⟨habsent, hs₁⟩
  · split at h
    · exact .inr h
    · exact .inl (Except.ok.inj h).symm

theorem handleArp_moves {past : List SrEvent} {interface : String} {packet : Bytes}
    (hlast : s.history = past ++ [.received interface packet])
    (htype : ethertype packet = SrEthertype.arp.value)
    (h : handleArp sr s interface packet = .ok s') : Moves sr (s, []) (s', []) := by
  obtain rfl | ⟨recIf, s₁, hteach, hlearn, hanswer⟩ := handleArp_cases h
  · exact .refl
  have hlearned : Moves sr (s, []) (s₁, []) := by
    obtain rfl | ⟨habsent, hlearn⟩ := hlearn
    · exact .refl
    · exact learnMapping_moves hlast (hteach htype) habsent hlearn
  obtain rfl | hanswer := hanswer
  · exact hlearned
  · exact hlearned.trans (handleArpRequst_moves hanswer)

/-- A forwarded datagram of at least twenty bytes is in hand before it goes anywhere. -/
theorem forwardToNextHop_moves {p : Bytes} (hp : 34 ≤ p.length)
    (hlen : sizeofIpHdr ≤ ipLen (ipHeader p)) (h : forwardToNextHop sr s p = .ok s') :
    Moves sr (s, []) (s', []) := by
  unfold forwardToNextHop at h
  rw [← ipDst_fwdIpPkt hp hlen] at h
  have hlong : sizeofIpHdr ≤ (fwdIpPkt p s.mem.beyond).length := by simpa using hlen
  exact .head (.forward hlong) (.single (fillAndSendPkt_move hlong h))

/-- The datagrams a frame makes the router forward have at least twenty bytes. -/
def SrInput.Long (sr : SrConfig) : SrInput → Prop
  | .frame _ packet _ _ =>
      ∀ p ∈ forwardedFrame sr packet, sizeofIpHdr ≤ ipLen (ipHeader p)
  | .timeout _ _ => True

instance (sr : SrConfig) : ∀ i : SrInput, Decidable (i.Long sr)
  | .frame _ packet _ _ =>
      inferInstanceAs (Decidable (∀ p ∈ forwardedFrame sr packet, sizeofIpHdr ≤ ipLen (ipHeader p)))
  | .timeout _ _ => .isTrue trivial

theorem handleIp_moves {interface : String} {packet : Bytes}
    (hlen : sizeofEthernetHdr ≤ packet.length)
    (htype : ethertype packet ≠ SrEthertype.arp.value)
    (hlong : ∀ p, forwardedFrame sr packet = some p → sizeofIpHdr ≤ ipLen (ipHeader p))
    (h : handleIp sr s interface packet = .ok s') : Moves sr (s, []) (s', []) := by
  rcases handleIp_cases h with ⟨-, rfl⟩ | ⟨p, hgate, ⟨-, hanswer⟩ | ⟨hmatch, hforward⟩⟩
  · exact .refl
  · obtain ⟨sender, buf, hmade, rfl⟩ := hanswer
    exact srSendPacket_moves hmade.sender_ne _ _ _
  · have hp : 34 ≤ p.length := by
      rw [ipGate_length hgate]
      exact (ipGate_eq_some hgate).1
    have hfwd : forwardedFrame sr packet = some p := by
      rw [forwardedFrame, if_neg (by omega), if_neg htype, hgate]
      simp [hmatch]
    exact forwardToNextHop_moves hp (hlong p hfwd) hforward

theorem srHandlepacket_moves {interface : String} {packet : Bytes}
    (hlong : ∀ p, forwardedFrame sr packet = some p → sizeofIpHdr ≤ ipLen (ipHeader p))
    (h : srHandlepacket sr s interface packet = .ok s') : Moves sr (s, []) (s', []) := by
  have hlog : Move sr (s, []) (s.emit (.received interface packet), []) := .log trivial
  unfold srHandlepacket at h
  simp only at h
  split at h
  · cases h
    exact .single hlog
  · next hlen =>
    split at h
    · next htype => exact .head hlog (handleArp_moves rfl htype h)
    · next htype => exact .head hlog (handleIp_moves (by omega) htype hlong h)

theorem run_srArpreqHandle_moves {addrs : List Nat}
    (h : run (srArpreqHandle sr) s addrs = .ok s') : Moves sr (s, []) (s', []) := by
  refine run_induction (P := fun _ t => Moves sr (s, []) (t, [])) .refl ?_ h
  intro _ addr t t' _ hmoves hstep
  exact hmoves.tail (.handle hstep)

theorem srArpcacheTimeout_moves (haddrs : AddrsOk s.cache)
    (h : srArpcacheTimeout sr s = .ok s') : Moves sr (s, []) (s', []) := by
  have hsweep : srArpcacheSweepreqs sr s.expire = .ok s' := h
  rw [srArpcacheSweepreqs_eq (s := s.expire) haddrs.nodup] at hsweep
  exact .head .expire (run_srArpreqHandle_moves hsweep)

end Functions

/-! ## Addresses stay distinct -/

section Addresses

variable {sr : SrConfig} {s s' : SrState}

theorem AddrsOk.of_sublist {c c' : SrArpcache} (h : AddrsOk c)
    (hsub : (c'.requests.map SrArpreq.addr).Sublist (c.requests.map SrArpreq.addr))
    (hbrk : c'.brk = c.brk) : AddrsOk c' where
  nodup := h.nodup.sublist hsub
  lt_brk := by
    intro r hr
    obtain ⟨r', hr', heq⟩ := List.mem_map.mp (hsub.subset (List.mem_map_of_mem hr))
    rw [hbrk, ← heq]
    exact h.lt_brk r' hr'

/-- Queueing keeps addresses distinct, also for an empty packet. -/
theorem AddrsOk.queue {c : SrArpcache} (h : AddrsOk c) (ip : InAddr) (packet : Bytes)
    (iface : String) : AddrsOk (srArpcacheQueuereq c ip packet iface).1 := by
  rcases srArpcacheQueuereq_split h ip packet iface with
    ⟨before, r, after, hsplit, -, heq⟩ | ⟨-, heq⟩
  · rw [heq]
    exact h.of_sublist (by simp [hsplit]) rfl
  · rw [heq]
    refine ⟨?_, ?_⟩
    · simp only [List.map_cons, List.nodup_cons]
      refine ⟨?_, h.nodup⟩
      intro hmem
      obtain ⟨r, hr, hbrk⟩ := List.mem_map.mp hmem
      have := h.lt_brk r hr
      omega
    · intro r hr
      rcases List.mem_cons.mp hr with rfl | hr
      · exact Nat.lt_succ_self _
      · exact Nat.lt_succ_of_lt (h.lt_brk r hr)

/-- A request is handled in place: queue positions keep their addresses and IPs, or one goes. -/
theorem srArpreqHandle_sublist {addr : Nat} (haddrs : AddrsOk s.cache)
    (h : srArpreqHandle sr s addr = .ok s') :
    s'.cache.entries = s.cache.entries ∧ s'.cache.brk = s.cache.brk ∧ s'.clock = s.clock ∧
      (s'.cache.requests.map SrArpreq.addr).Sublist (s.cache.requests.map SrArpreq.addr) ∧
      (s'.cache.requests.map SrArpreq.ip).Sublist (s.cache.requests.map SrArpreq.ip) := by
  obtain ⟨before, r, after, hsplit, rfl⟩ := exists_split_of_srArpreqHandle h
  rcases srArpreqHandle_cases hsplit haddrs.nodup h with
    ⟨-, rfl⟩ | ⟨-, -, rfl⟩ | ⟨-, -, iface, frame, rfl⟩
  · simp
  · simp [hsplit]
  · simp [hsplit]

theorem AddrsOk.handle {addr : Nat} (haddrs : AddrsOk s.cache)
    (h : srArpreqHandle sr s addr = .ok s') : AddrsOk s'.cache := by
  obtain ⟨-, hbrk, -, hsub, -⟩ := srArpreqHandle_sublist haddrs h
  exact haddrs.of_sublist hsub hbrk

theorem AddrsOk.insert {c : SrArpcache} (h : AddrsOk c) (mac : EtherAddr) (ip : InAddr)
    (now : Nat) : AddrsOk (srArpcacheInsert c mac ip now).1 := by
  refine h.of_sublist ?_ rfl
  rcases srArpcacheInsert_cases c mac ip now with
    ⟨before, r, after, hsplit, -, heq, -⟩ | ⟨-, heq, -⟩
  · simp [heq, hsplit]
  · rw [heq]

theorem AddrsOk.move {x y : SrState × List Bytes} (h : AddrsOk x.1.cache)
    (hmove : Move sr x y) : AddrsOk y.1.cache := by
  cases hmove with
  | log => exact h
  | forward => exact h
  | send => exact h
  | queue long route absent handled =>
      exact AddrsOk.handle (s := SrState.withCache _ _) (h.queue _ _ _) handled
  | learn => exact h.insert _ _ _
  | answer => exact h.insert _ _ _
  | handle handled => exact h.handle handled
  | expire => exact ⟨h.nodup, h.lt_brk⟩

theorem addrsOk_init : AddrsOk srInit.cache where
  nodup := by simp [srInit, srArpcacheInit]
  lt_brk := by simp [srInit, srArpcacheInit]

end Addresses

/-! ## Steps and runs

From here on an invariant is proved for each move, and holds in every run. -/

/-- The state a step starts from: its clock and its unwritten memory are in place. -/
def SrState.tick (s : SrState) : SrInput → SrState
  | .frame _ _ now mem => { s with clock := now, mem := mem }
  | .timeout now mem => { s with clock := now, mem := mem }

@[simp] theorem SrState.tick_clock (s : SrState) (i : SrInput) : (s.tick i).clock = i.now := by
  cases i <;> rfl

@[simp] theorem SrState.tick_cache (s : SrState) (i : SrInput) : (s.tick i).cache = s.cache := by
  cases i <;> rfl

@[simp] theorem SrState.tick_history (s : SrState) (i : SrInput) :
    (s.tick i).history = s.history := by
  cases i <;> rfl

/-- The code's step is a sequence of moves that begins and ends with empty hands. -/
theorem srStep_moves {sr : SrConfig} {s s' : SrState} {i : SrInput} (haddrs : AddrsOk s.cache)
    (hlong : i.Long sr) (h : srStep sr s i = .ok s') : Moves sr (s.tick i, []) (s', []) := by
  cases i with
  | frame interface packet now mem => exact srHandlepacket_moves hlong h
  | timeout now mem =>
      exact srArpcacheTimeout_moves (s := { s with clock := now, mem := mem }) haddrs h

/-- **The invariant rule for the router.** `P` may mention the inputs consumed so far. If it
holds at the start, survives the clock being set for one more input, and survives every move,
it holds after every run. -/
theorem srRun_rule {sr : SrConfig} {P : List SrInput → SrState × List Bytes → Prop}
    (init : P [] (srInit, []))
    (tick : ∀ is s i, P is (s, []) → P (is ++ [i]) (s.tick i, []))
    (move : ∀ is i x y, AddrsOk x.1.cache → P (is ++ [i]) x → Move sr x y → P (is ++ [i]) y)
    {inputs : List SrInput} {s : SrState} (hlong : ∀ i ∈ inputs, i.Long sr)
    (h : srRun sr inputs = .ok s) : AddrsOk s.cache ∧ P inputs (s, []) := by
  refine run_induction (P := fun is s => (∀ i ∈ is, i.Long sr) → AddrsOk s.cache ∧ P is (s, []))
    (fun _ => ⟨addrsOk_init, init⟩) ?_ h hlong
  intro is i t t' _ ih hstep hlong
  obtain ⟨haddrs, hP⟩ := ih fun j hj => hlong j (by simp [hj])
  have haddrs' : AddrsOk (t.tick i).cache := by cases i <;> exact haddrs
  have hkeep : ∀ {y : SrState × List Bytes}, Moves sr (t.tick i, []) y →
      AddrsOk y.1.cache ∧ P (is ++ [i]) y := by
    intro y hy
    induction hy with
    | refl => exact ⟨haddrs', tick is t i hP⟩
    | tail _ hmove ih => exact ⟨ih.1.move hmove, move _ _ _ _ ih.1 ih.2 hmove⟩
  exact hkeep (srStep_moves haddrs (hlong i (by simp)) hstep)

end NetworkProjects.Router
