import NetworkProjects.Router.Gate
import Mathlib.Data.List.Chain

/-!
# The TTL of a forwarded datagram

`ForwardToNextHop` decrements eight bits and looks at them neither before nor after. So a
datagram with a TTL of two or more leaves with one less, TTL 1 leaves as 0 and TTL 0 as 255.

`Hop` is one router on a path, any router on any state, and a path is a chain of hops, which
may visit a router again. `ttl_bounds_iff` has the bound on paths, in which the exception is
the same as on one hop.
-/

namespace NetworkProjects.Router

open NetworkProjects.Lib

/-! ## One router -/

/-- The TTL as a number. -/
def ttl (d : Bytes) : Nat := (ipTtl d).toNat

theorem ttl_lt (d : Bytes) : ttl d < 256 := UInt8.toNat_lt _

/-- **The TTL of the forwarded copy** is one less, modulo 256: a datagram that comes in with 0
leaves with 255. -/
theorem ttl_fwdIpPkt {sr : SrConfig} {packet p : Bytes} {beyond : Nat → UInt8}
    (hfwd : forwardedFrame sr packet = some p)
    (hlong : sizeofIpHdr ≤ ipLen (ipHeader packet)) :
    ttl (fwdIpPkt p beyond) = (ttl (ipHeader packet) + 255) % 256 := by
  have hgate := (forwardedFrame_eq_some hfwd).2.1
  obtain ⟨h34, -, hp, -⟩ := ipGate_eq_some hgate
  have hp34 : 34 ≤ p.length := by
    rw [ipGate_length hgate]
    exact h34
  have hplong : 20 ≤ ipLen (ipHeader p) := by
    rw [hp, (lengths_cleared h34).2]
    exact hlong
  have hbyte : ipTtl (fwdIpPkt p beyond) = ipTtl (ipHeader packet) - 1 := by
    unfold ipTtl
    rw [byteAt_fwdIpPkt hp34 hplong (by decide), byteAt_forwardEdits_ttl hp34,
      ipGate_byteAt hgate (by decide), ipHeader, byteAt_drop]
    rfl
  rw [ttl, hbyte, UInt8.toNat_sub, ttl]
  simp only [UInt8.reduceToNat, Nat.reducePow, Nat.reduceSub]
  omega

/-! ## A path through routers -/

/-- A router receives the datagram in a frame, which the link may have padded, and forwards
it. -/
inductive Hop : Bytes → Bytes → Prop
  | forward {sr : SrConfig} {packet p d pad : Bytes} {beyond : Nat → UInt8}
      (carries : ipHeader packet = d ++ pad) (long : sizeofIpHdr ≤ d.length)
      (total : sizeofIpHdr ≤ ipLen d) (forwarded : forwardedFrame sr packet = some p) :
      Hop d (fwdIpPkt p beyond)

theorem ttl_hop {d d' : Bytes} (h : Hop d d') : ttl d' = (ttl d + 255) % 256 := by
  cases h with
  | @forward sr packet p d pad beyond carries long total forwarded =>
      simp only [sizeofIpHdr] at long
      have hbyte : ∀ i < 20, byteAt (ipHeader packet) i = byteAt d i := by
        intro i hi
        rw [carries, byteAt_append_left (by omega)]
      have hlen : ipLen (ipHeader packet) = ipLen d := by
        unfold ipLen
        congr 1
        exact load16_congr fun k hk => hbyte _ (by omega)
      have hin : ttl (ipHeader packet) = ttl d := by
        rw [ttl, ttl, ipTtl, ipTtl, hbyte 8 (by decide)]
      rw [ttl_fwdIpPkt forwarded (by rw [hlen]; exact total), hin]

/-- Along a path on which every datagram arrives at the next router with a TTL of two or more,
and on no other, the TTL falls at every hop and bounds the number of hops. -/
theorem ttl_path_iff {d : Bytes} {ds : List Bytes} (hpath : List.IsChain Hop (d :: ds)) :
    (List.IsChain (fun d d' => ttl d' < ttl d) (d :: ds) ∧ ds.length < max (ttl d) 1) ↔
      ∀ x ∈ (d :: ds).dropLast, 2 ≤ ttl x := by
  induction ds generalizing d with
  | nil => simp
  | cons d' ds ih =>
      rw [List.isChain_cons_cons] at hpath
      have hstep := ttl_hop hpath.1
      have hlt := ttl_lt d
      have hih := ih hpath.2
      rw [List.isChain_cons_cons, List.dropLast_cons_cons, List.length_cons]
      constructor
      · rintro ⟨⟨hfall, hchain⟩, hbound⟩ x hx
        -- a falling TTL was not zero, and the bound leaves room for this hop
        rcases List.mem_cons.mp hx with rfl | hx
        · omega
        · exact hih.mp ⟨hchain, by omega⟩ x hx
      · intro hall
        have htwo : 2 ≤ ttl d := hall d (by simp)
        obtain ⟨hchain, hbound⟩ := hih.mpr fun x hx => hall x (by simp [hx])
        exact ⟨⟨by omega, hchain⟩, by omega⟩

/-- **When the TTL bounds forwarding.** On one hop the copy has a TTL that is one less and not
zero exactly if the received TTL is at least two; along a path the TTL falls and bounds the
number of hops exactly if that is so on every hop. -/
theorem ttl_bounds_iff {sr : SrConfig} {packet p : Bytes} (beyond : Nat → UInt8)
    (hfwd : forwardedFrame sr packet = some p)
    (hlong : sizeofIpHdr ≤ ipLen (ipHeader packet))
    {d : Bytes} {ds : List Bytes} (hpath : List.IsChain Hop (d :: ds)) :
    (ttl (fwdIpPkt p beyond) + 1 = ttl (ipHeader packet) ∧ 1 ≤ ttl (fwdIpPkt p beyond) ↔
      2 ≤ ttl (ipHeader packet)) ∧
    (List.IsChain (fun d d' => ttl d' < ttl d) (d :: ds) ∧ ds.length < max (ttl d) 1 ↔
      ∀ x ∈ (d :: ds).dropLast, 2 ≤ ttl x) := by
  refine ⟨?_, ttl_path_iff hpath⟩
  have hlt := ttl_lt (ipHeader packet)
  rw [ttl_fwdIpPkt hfwd hlong]
  omega

/-- A datagram that two routers with the table of `rtable` forward in turn. -/
theorem ttl_bounds_two_hops : ∃ d d₁ d₂, List.IsChain Hop [d, d₁, d₂] ∧
    (ttl d₁ + 1 = ttl d ∧ 1 ≤ ttl d₁) ∧
    List.IsChain (fun d d' => ttl d' < ttl d) [d, d₁, d₂] ∧ 2 < max (ttl d) 1 := by
  let copy : Bytes → Bytes := fun packet => fwdIpPkt (store packet 24 [0, 0]) fun _ => 0
  let packet := clientFrame 64 (dotted 192 168 2 2)
  let packet₁ := ethFrame ⟨[2, 0, 0, 0, 0, 3], rfl⟩ serverAddr .ip (copy packet)
  have hfwd : forwardedFrame rtableConfig packet = some (store packet 24 [0, 0]) := by
    decide +kernel
  have hfwd₁ : forwardedFrame rtableConfig packet₁ = some (store packet₁ 24 [0, 0]) := by
    decide +kernel
  have hop : Hop (ipHeader packet) (copy packet) :=
    .forward (List.append_nil _).symm (by decide +kernel) (by decide +kernel) hfwd
  have hop₁ : Hop (copy packet) (copy packet₁) :=
    .forward ((ipHeader_ethFrame _ _ _ _).trans (List.append_nil _).symm) (by decide +kernel)
      (by decide +kernel) hfwd₁
  have hpath : List.IsChain Hop [ipHeader packet, copy packet, copy packet₁] := by
    simp [hop, hop₁]
  obtain ⟨hone, hall⟩ := ttl_bounds_iff (fun _ => 0) hfwd (by decide +kernel) hpath
  exact ⟨_, _, _, hpath, hone.mpr (by decide +kernel), hall.mpr (by decide +kernel)⟩

/-- A datagram that arrives with TTL 0 is forwarded with TTL 255. -/
theorem ttl_wraps : ¬ ∀ sr packet p beyond, forwardedFrame sr packet = some p →
    sizeofIpHdr ≤ ipLen (ipHeader packet) →
    ttl (fwdIpPkt p beyond) + 1 = ttl (ipHeader packet) ∧ 1 ≤ ttl (fwdIpPkt p beyond) := by
  intro h
  have hfwd : forwardedFrame rtableConfig (clientFrame 0 (dotted 192 168 2 2))
      = some (store (clientFrame 0 (dotted 192 168 2 2)) 24 [0, 0]) := by decide +kernel
  have hwrong := (h _ _ _ (fun _ => 0) hfwd (by decide +kernel)).1
  exact absurd hwrong (by decide +kernel)

end NetworkProjects.Router
