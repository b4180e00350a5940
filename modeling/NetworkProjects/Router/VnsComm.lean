import NetworkProjects.Router.Routes
import NetworkProjects.Lib.ByteOrder
import NetworkProjects.Lib.Window

/-!
# Messages from the server

`sr_read_from_server_expect` of `sr_vns_comm.c`, from the moment the length word is read: the
check on it, the command word, and the `VNSPACKET` branch, which hands a frame to
`sr_arp_req_not_for_us` and `sr_handlepacket`. The other commands hand no frame on and end here.

The message buffer is memory from `buf` on, of which `malloc(len)` gave the first `len` bytes;
offsets are offsets into it, so the interface name starts at 8 and the frame at 24. The code is
written over a `Load`, and runs on the `window` of those `len` bytes.

The one check on the length is on the total. `packetLen` is right from 24 bytes on, and below
that it is almost 2³² (`toNat_packetLen_of_lt`).
-/

namespace NetworkProjects.Router

open NetworkProjects.Lib

/-! ## The message (`vnscommand.h`) -/

/-- `sizeof(c_base)`: the length and the command. -/
def sizeofCBase : Nat := 8
/-- `sizeof(c_packet_header)`: `c_base` and `mInterfaceName`. -/
def sizeofCPacketHeader : Nat := 24
/-- `sizeof(c_packet_ethernet_header)`. -/
def sizeofCPacketEthernetHeader : Nat := 38

/-- `VNSCLOSE`. -/
def vnsclose : UInt32 := 2
/-- `VNSPACKET`. -/
def vnspacket : UInt32 := 4
/-- `PACKET_DUMP_SIZE`. -/
def packetDumpSize : Int32 := 1024

/-- A 32-bit word of a message, in host order. -/
def loadNetWord (rd : Load Fault) (off : Nat) : Except Fault UInt32 :=
  (rd.bytes off 4).map fun bs => loadWord .big bs 0

/-- Memory from `buf` on, after `*((int *)buf) = htonl(len)`. -/
def withLen (len : Nat) (mem : Nat → UInt8) : Nat → UInt8 :=
  fun i => if i < 4 then byteAt (wordBytes .big (UInt32.ofNat len)) i else mem i

/-! ## The interface a message names

The name is compared with `strncmp`, up to 32 bytes of it, so a name that does not end in its field
is read on into the frame. -/

/-- The `char name[sr_IFACE_NAMELEN]` that `strncpy` filled in. -/
def SrIf.nameField (i : SrIf) : Bytes :=
  (nameBytes i.name ++ List.replicate srIfaceNamelen 0).take srIfaceNamelen

/-- `sr_get_interface`, on a pointer into the message. -/
def srGetInterfaceAt (rd : Load Fault) (name : Nat) : List SrIf → Except Fault (Option SrIf)
  | [] => .ok none
  | walker :: next =>
      match strncmp rd walker.nameField name with
      | .error e => .error e
      | .ok true => .ok (some walker)
      | .ok false => srGetInterfaceAt rd name next

/-- Each comparison with the name, up to the one that finds it, ends in front of `limit`. -/
def NameSettles (limit : Nat) (mem : Nat → UInt8) (name : Nat) : List SrIf → Prop
  | [] => True
  | walker :: next =>
      Settles limit mem walker.nameField name ∧
        (strncmp (unbounded mem : Load Fault) walker.nameField name = .ok true ∨
          NameSettles limit mem name next)

instance decidableNameSettles (limit : Nat) (mem : Nat → UInt8) (name : Nat) :
    ∀ ifs : List SrIf, Decidable (NameSettles limit mem name ifs)
  | [] => isTrue trivial
  | _ :: next =>
      have := decidableNameSettles limit mem name next
      inferInstanceAs (Decidable (_ ∧ _))

theorem srGetInterfaceAt_window {limit : Nat} {mem : Nat → UInt8} {name : Nat} {ifs : List SrIf}
    (h : NameSettles limit mem name ifs) :
    srGetInterfaceAt (window Fault.outOfBounds limit mem) name ifs
      = srGetInterfaceAt (unbounded mem) name ifs := by
  induction ifs with
  | nil => rfl
  | cons walker next ih =>
      obtain ⟨hfirst, hrest⟩ := h
      simp only [srGetInterfaceAt, strncmp_window hfirst]
      rcases hrest with hfound | hrest
      · rw [hfound]
      · rw [ih hrest]

theorem srGetInterfaceAt_window_ok {limit : Nat} {mem : Nat → UInt8} {name : Nat}
    {ifs : List SrIf} {found : Option SrIf}
    (h : srGetInterfaceAt (window .outOfBounds limit mem) name ifs = .ok found) :
    NameSettles limit mem name ifs := by
  induction ifs with
  | nil => trivial
  | cons walker next ih =>
      rw [srGetInterfaceAt] at h
      cases hcmp : strncmp (window Fault.outOfBounds limit mem) walker.nameField name with
      | error e => rw [hcmp] at h; cases h
      | ok b =>
          have hsettles := strncmp_window_ok hcmp
          refine ⟨hsettles, ?_⟩
          rw [hcmp] at h
          cases b with
          | true => exact .inl (by rw [← strncmp_window hsettles, hcmp])
          | false => exact .inr (ih h)

/-- An interface that is found has the name. -/
theorem strncmp_of_srGetInterfaceAt {mem : Nat → UInt8} {name : Nat} {ifs : List SrIf} {w : SrIf}
    (h : srGetInterfaceAt (unbounded mem) name ifs = .ok (some w)) :
    strncmp (unbounded mem : Load Fault) w.nameField name = .ok true := by
  induction ifs with
  | nil => cases h
  | cons walker next ih =>
      rw [srGetInterfaceAt] at h
      split at h
      · cases h
      · next hmatch =>
        cases h
        exact hmatch
      · exact ih h

/-! ## The frame of a message -/

/-- `len - sizeof(c_packet_ethernet_header) + sizeof(struct sr_ethernet_hdr)`: a `size_t`, passed
as the `unsigned int` both callees take. -/
def packetLen (len : Nat) : UInt32 :=
  (UInt64.ofNat len - UInt64.ofNat sizeofCPacketEthernetHeader
    + UInt64.ofNat sizeofEthernetHdr).toUInt32

/-- `sr_arp_req_not_for_us`. -/
def srArpReqNotForUs (sr : SrConfig) (rd : Load Fault) (packet : Nat) (len : UInt32)
    (interface : Nat) : Except Fault Bool := do
  let iface ← srGetInterfaceAt rd interface sr.ifList
  if len.toNat < sizeofEthernetHdr + sizeofArpHdr then return false
  match iface with
  | none => .error .nullInterface
  | some iface =>
      let etherType ← rd.bytes (packet + 12) 2
      if ntohs (load16 etherType 0) ≠ SrEthertype.arp.value then return false
      let arOp ← rd.bytes (packet + 20) 2
      if ntohs (load16 arOp 0) ≠ arpOpRequest then return false
      let arTip ← rd.bytes (packet + 38) 4
      return load32 arTip 0 != iface.ip

/-- `sr_log_packet`. `caplen` is unsigned, and so many bytes are written to the log. -/
def srLogPacket (rd : Load Fault) (logfile : Bool) (buf : Nat) (len : Int32) :
    Except Fault Unit := do
  if logfile then
    let size := if packetDumpSize < len then packetDumpSize else len
    discard (rd.bytes buf size.toUInt32.toNat)

/-- Which function is handed a frame. -/
inductive VnsCallee
  | srArpReqNotForUs
  | srHandlepacket
  deriving DecidableEq

/-- A call with the length it passes. The frame starts behind the packet header in each. -/
structure VnsCall where
  callee : VnsCallee
  len : UInt32
  deriving DecidableEq

/-- The `VNSPACKET` branch. -/
def vnsPacket (sr : SrConfig) (rd : Load Fault) (logfile : Bool) (len : Nat) :
    Except Fault (List VnsCall) := do
  let checked : VnsCall := ⟨.srArpReqNotForUs, packetLen len⟩
  if ← srArpReqNotForUs sr rd sizeofCPacketHeader (packetLen len) sizeofCBase then
    return [checked]
  let mLen ← loadNetWord rd 0
  srLogPacket rd logfile sizeofCPacketHeader
    (mLen.toUInt64 - UInt64.ofNat sizeofCPacketHeader).toUInt32.toInt32
  return [checked, ⟨.srHandlepacket, packetLen len⟩]

/-- `sr_read_from_server_expect`, once the length word is read and the body has arrived: the
frames it hands on, over `mem` from `buf` on. -/
def srReadFromServerExpect (sr : SrConfig) (expectedCmd : UInt32) (logfile : Bool) (len : Int)
    (mem : Nat → UInt8) : Except Fault (List VnsCall) :=
  if len > 10000 ∨ len < 0 then .ok []
  else if len < 4 then .error .outOfBounds -- the length word does not fit
  else do
    let rd := window .outOfBounds len.toNat (withLen len.toNat mem)
    let command ← loadNetWord rd 4
    if expectedCmd ≠ 0 ∧ command ≠ expectedCmd ∧ command ≠ vnsclose then return []
    if command = vnspacket then vnsPacket sr rd logfile len.toNat
    else return []

/-! ## The length that is passed

The length of the frame is a difference of lengths without a sign. -/

theorem toNat_packetLen {len : Nat} (hlow : sizeofCPacketHeader ≤ len) (hhigh : len ≤ 10000) :
    (packetLen len).toNat = len - sizeofCPacketHeader := by
  simp only [packetLen, sizeofCPacketHeader, sizeofCPacketEthernetHeader, sizeofEthernetHdr,
    UInt64.toNat_toUInt32, UInt64.toNat_add, UInt64.toNat_sub, UInt64.toNat_ofNat'] at hlow ⊢
  omega

/-- Below the header the difference wraps around. -/
theorem toNat_packetLen_of_lt {len : Nat} (h : len < sizeofCPacketHeader) :
    (packetLen len).toNat = 2 ^ 32 + len - sizeofCPacketHeader := by
  simp only [packetLen, sizeofCPacketHeader, sizeofCPacketEthernetHeader, sizeofEthernetHdr,
    UInt64.toNat_toUInt32, UInt64.toNat_add, UInt64.toNat_sub, UInt64.toNat_ofNat'] at h ⊢
  omega

/-! ## What the branch reads

Every read of the branch, over a window of the message: each is inside, or it is the first fault. -/

section Reads

variable {sr : SrConfig} {limit len : Nat} {mem : Nat → UInt8} {w : SrIf}

theorem loadNetWord_window {off : Nat} (h : off + 4 ≤ limit) :
    loadNetWord (window .outOfBounds limit mem) off = loadNetWord (unbounded mem) off := by
  rw [loadNetWord, loadNetWord, bytes_window mem h, bytes_unbounded]

theorem le_of_loadNetWord_window {off : Nat} {word : UInt32}
    (h : loadNetWord (window .outOfBounds limit mem) off = .ok word) : off + 4 ≤ limit := by
  rw [loadNetWord] at h
  cases hbytes : (window Fault.outOfBounds limit mem).bytes off 4 with
  | error e => rw [hbytes] at h; cases h
  | ok bs => exact (bytes_window_ok hbytes).resolve_left (by decide)

/-- The length word is read back. -/
theorem loadNetWord_withLen :
    loadNetWord (unbounded (withLen len mem)) 0 = .ok (UInt32.ofNat len) := by
  have hslice : memSlice (withLen len mem) 0 4 = wordBytes .big (UInt32.ofNat len) := by
    apply ext_byteAt
    · rw [length_memSlice]
      rfl
    · intro i hi
      rw [length_memSlice] at hi
      rw [byteAt_memSlice hi, Nat.zero_add]
      exact if_pos hi
  rw [loadNetWord, bytes_unbounded, hslice]
  exact congrArg Except.ok (loadWord_of_slice rfl)

/-- `sr_arp_req_not_for_us` reads the name, and of the frame what its own check leaves. -/
theorem srArpReqNotForUs_window (packet : Nat) {name : Nat} {n : UInt32}
    (hname : NameSettles limit mem name sr.ifList)
    (hknown : srGetInterfaceAt (unbounded mem) name sr.ifList = .ok (some w))
    (hframe : packet + n.toNat ≤ limit) :
    ∃ drop, srArpReqNotForUs sr (window .outOfBounds limit mem) packet n name = .ok drop := by
  simp only [srArpReqNotForUs, srGetInterfaceAt_window hname, hknown]
  by_cases hlen : n.toNat < sizeofEthernetHdr + sizeofArpHdr
  · exact ⟨false, by simp [hlen, bind, Except.bind, pure, Except.pure]⟩
  · have hfit : packet + 42 ≤ limit := by
      rw [sizeofEthernetHdr, sizeofArpHdr] at hlen
      omega
    simp only [bind, Except.bind, hlen, if_false,
      bytes_window mem (show packet + 12 + 2 ≤ limit by omega),
      bytes_window mem (show packet + 20 + 2 ≤ limit by omega),
      bytes_window mem (show packet + 38 + 4 ≤ limit by omega)]
    split
    · exact ⟨_, rfl⟩
    · split
      · exact ⟨_, rfl⟩
      · exact ⟨_, rfl⟩

theorem nameSettles_of_srArpReqNotForUs {packet name : Nat} {n : UInt32} {drop : Bool}
    (h : srArpReqNotForUs sr (window .outOfBounds limit mem) packet n name = .ok drop) :
    NameSettles limit mem name sr.ifList := by
  obtain ⟨found, hfound, -⟩ := bind_eq_ok.mp h
  exact srGetInterfaceAt_window_ok hfound

/-- The length that is logged, as the `int` it is passed as. -/
theorem toNat_logLen (hlow : sizeofCPacketHeader ≤ len) (hhigh : len ≤ 10000) :
    ((UInt32.ofNat len).toUInt64 - UInt64.ofNat sizeofCPacketHeader).toUInt32.toNat
      = len - sizeofCPacketHeader := by
  rw [sizeofCPacketHeader] at *
  simp only [UInt64.toNat_toUInt32, UInt64.toNat_sub, UInt32.toNat_toUInt64, UInt32.toNat_ofNat',
    UInt64.toNat_ofNat']
  omega

/-- Cutting a length that is not negative down to `PACKET_DUMP_SIZE` makes it no longer. -/
theorem caplen_le {n : UInt32} (h : n.toNat < 2 ^ 31) :
    (if packetDumpSize < n.toInt32 then packetDumpSize else n.toInt32).toUInt32.toNat
      ≤ n.toNat := by
  split
  · next hlong =>
    have hint : n.toInt32.toInt = n.toNat := BitVec.toInt_eq_toNat_of_lt (by
      show 2 * n.toNat < 2 ^ 32
      omega)
    have hlt := Int32.lt_iff_toInt_lt.mp hlong
    rw [hint] at hlt
    have hdump : packetDumpSize.toInt = 1024 := by decide
    show 1024 ≤ n.toNat
    omega
  · exact Nat.le_refl _

/-- `sr_log_packet` writes no more than the frame to the log. -/
theorem srLogPacket_window (hlow : sizeofCPacketHeader ≤ len) (hhigh : len ≤ 10000)
    (logfile : Bool) :
    srLogPacket (window .outOfBounds len mem) logfile sizeofCPacketHeader
      ((UInt32.ofNat len).toUInt64 - UInt64.ofNat sizeofCPacketHeader).toUInt32.toInt32
      = .ok () := by
  cases logfile with
  | false => rfl
  | true =>
      have hlen := toNat_logLen hlow hhigh
      have hcap := caplen_le (n := ((UInt32.ofNat len).toUInt64
        - UInt64.ofNat sizeofCPacketHeader).toUInt32) (by omega)
      simp only [srLogPacket, if_true, discard]
      rw [bytes_window mem (by omega)]
      rfl

/-- With the header there, the branch ends well. -/
theorem vnsPacket_window (hlow : sizeofCPacketHeader ≤ len) (hhigh : len ≤ 10000)
    (hname : NameSettles len (withLen len mem) sizeofCBase sr.ifList)
    (hknown : srGetInterfaceAt (unbounded (withLen len mem)) sizeofCBase sr.ifList = .ok (some w))
    (logfile : Bool) :
    ∃ calls, vnsPacket sr (window .outOfBounds len (withLen len mem)) logfile len = .ok calls := by
  obtain ⟨drop, hdrop⟩ := srArpReqNotForUs_window sizeofCPacketHeader
    (n := packetLen len) hname hknown (by
      rw [toNat_packetLen hlow hhigh, Nat.add_sub_cancel' hlow])
  have hmLen : loadNetWord (window .outOfBounds len (withLen len mem)) 0
      = .ok (UInt32.ofNat len) := by
    rw [loadNetWord_window (by rw [sizeofCPacketHeader] at hlow; omega), loadNetWord_withLen]
  unfold vnsPacket
  rw [hdrop]
  cases drop with
  | true => exact ⟨_, rfl⟩
  | false =>
      simp only [bind, Except.bind, Bool.false_eq_true, if_false, hmLen,
        srLogPacket_window hlow hhigh logfile]
      exact ⟨_, rfl⟩

/-- However it ends, the branch passes on `packetLen`. -/
theorem vnsPacket_calls {logfile : Bool} {calls : List VnsCall}
    (h : vnsPacket sr (window .outOfBounds limit mem) logfile len = .ok calls) :
    NameSettles limit mem sizeofCBase sr.ifList ∧ calls ≠ [] ∧
      ∀ call ∈ calls, call.len = packetLen len := by
  obtain ⟨drop, hdrop, h⟩ := bind_eq_ok.mp h
  refine ⟨nameSettles_of_srArpReqNotForUs hdrop, ?_⟩
  cases drop with
  | true =>
      cases h
      simp
  | false =>
      obtain ⟨mLen, -, h⟩ := bind_eq_ok.mp h
      obtain ⟨u, -, h⟩ := bind_eq_ok.mp h
      cases h
      simp

end Reads

/-! ## Safe framing -/

/-- Every load stays among the bytes of the message, and each length passed on is the one that is
meant, which is no more than what follows the header. -/
def FramingSafe (sr : SrConfig) (expectedCmd : UInt32) (logfile : Bool) (len : Int)
    (mem : Nat → UInt8) : Prop :=
  ∃ calls, srReadFromServerExpect sr expectedCmd logfile len mem = .ok calls ∧
    ∀ call ∈ calls, (call.len.toNat : Int) = len - sizeofCPacketEthernetHeader + sizeofEthernetHdr ∧
      call.len.toNat ≤ len.toNat - sizeofCPacketHeader

/-- The message in `buf` is a `VNSPACKET` for the interface `w`. -/
structure PacketMessage (sr : SrConfig) (buf : Nat → UInt8) (w : SrIf) : Prop where
  command : loadNetWord (unbounded buf) 4 = .ok vnspacket
  known : srGetInterfaceAt (unbounded buf) sizeofCBase sr.ifList = .ok (some w)

/-- A `VNSPACKET` is what the caller waits for, or it takes anything. -/
def Expects (expectedCmd : UInt32) : Prop := expectedCmd = 0 ∨ expectedCmd = vnspacket

section Framing

variable {sr : SrConfig} {expectedCmd : UInt32} {logfile : Bool} {len : Int} {mem : Nat → UInt8}
  {w : SrIf}

/-- The function with the checks behind it. -/
theorem srReadFromServerExpect_eq (expectedCmd : UInt32) (logfile : Bool) (hlow : 8 ≤ len)
    (hhigh : len ≤ 10000)
    (message : PacketMessage sr (withLen len.toNat mem) w) :
    (Expects expectedCmd → srReadFromServerExpect sr expectedCmd logfile len mem
      = vnsPacket sr (window .outOfBounds len.toNat (withLen len.toNat mem)) logfile len.toNat) ∧
    (¬ Expects expectedCmd → srReadFromServerExpect sr expectedCmd logfile len mem = .ok []) := by
  have hcmd : loadNetWord (window .outOfBounds len.toNat (withLen len.toNat mem)) 4
      = .ok vnspacket := by
    rw [loadNetWord_window (by omega), message.command]
  simp only [srReadFromServerExpect, if_neg (show ¬ (len > 10000 ∨ len < 0) by omega),
    if_neg (show ¬ len < 4 by omega), hcmd, bind, Except.bind, if_true]
  constructor
  · intro hexpects
    rw [if_neg]
    rintro ⟨hne, hne', -⟩
    exact hexpects.elim hne fun h => hne' h.symm
  · intro hexpects
    rw [if_pos]
    · rfl
    · exact ⟨fun h => hexpects (.inl h), fun h => hexpects (.inr h.symm), by decide⟩

/-- The command word is read, so it is there. -/
theorem le_of_srReadFromServerExpect {calls : List VnsCall} (hpos : 0 ≤ len) (hhigh : len ≤ 10000)
    (h : srReadFromServerExpect sr expectedCmd logfile len mem = .ok calls) : 8 ≤ len := by
  unfold srReadFromServerExpect at h
  rw [if_neg (by omega)] at h
  split at h
  · cases h
  · obtain ⟨command, hcommand, -⟩ := bind_eq_ok.mp h
    have := le_of_loadNetWord_window hcommand
    omega

/-- **Framing is safe from the packet header on.** The header must be there and the interface
name in it must end inside the message. The difference that is computed on the way does not wrap
around either once there is an Ethernet header. -/
theorem framingSafe_iff (hpos : 0 ≤ len) (hhigh : len ≤ 10000)
    (message : PacketMessage sr (withLen len.toNat mem) w) :
    (FramingSafe sr expectedCmd logfile len mem ↔ 8 ≤ len ∧ (Expects expectedCmd →
      24 ≤ len ∧ NameSettles len.toNat (withLen len.toNat mem) sizeofCBase sr.ifList)) ∧
    (((UInt64.ofNat len.toNat - UInt64.ofNat sizeofCPacketEthernetHeader).toNat : Int)
        = len - sizeofCPacketEthernetHeader ↔ 38 ≤ len) := by
  refine ⟨⟨?_, ?_⟩, ?_⟩
  · rintro ⟨calls, h, hcalls⟩
    have h8 := le_of_srReadFromServerExpect hpos hhigh h
    refine ⟨h8, fun hexpects => ?_⟩
    rw [(srReadFromServerExpect_eq expectedCmd logfile h8 hhigh message).1 hexpects] at h
    obtain ⟨hname, hne, hlen⟩ := vnsPacket_calls h
    refine ⟨?_, hname⟩
    obtain ⟨call, hcall⟩ := List.exists_mem_of_ne_nil calls hne
    obtain ⟨hmeant, -⟩ := hcalls call hcall
    rw [sizeofCPacketEthernetHeader, sizeofEthernetHdr] at hmeant
    omega
  · rintro ⟨h8, hframe⟩
    obtain ⟨hexp, hunexp⟩ :=
      srReadFromServerExpect_eq expectedCmd logfile h8 hhigh message
    by_cases hexpects : Expects expectedCmd
    · obtain ⟨h24, hname⟩ := hframe hexpects
      have hlow : sizeofCPacketHeader ≤ len.toNat := by rw [sizeofCPacketHeader]; omega
      obtain ⟨calls, hcalls⟩ := vnsPacket_window hlow (by omega) hname message.known logfile
      refine ⟨calls, by rw [hexp hexpects, hcalls], fun call hcall => ?_⟩
      rw [(vnsPacket_calls hcalls).2.2 call hcall, toNat_packetLen hlow (by omega)]
      rw [sizeofCPacketEthernetHeader, sizeofEthernetHdr, sizeofCPacketHeader]
      omega
    · exact ⟨[], hunexp hexpects, by simp⟩
  · rw [sizeofCPacketEthernetHeader, UInt64.toNat_sub, UInt64.toNat_ofNat', UInt64.toNat_ofNat']
    omega

end Framing

/-- A `VNSPACKET` for `eth3`, as it comes over the connection. -/
def eth3Message (frame : Bytes) : Bytes :=
  wordBytes .big (UInt32.ofNat (sizeofCPacketHeader + frame.length)) ++ wordBytes .big vnspacket
    ++ [101, 116, 104, 51] ++ List.replicate 12 0 ++ frame

/-- A datagram for the router, in a message of 62 bytes. -/
theorem framingSafe_eth3 :
    FramingSafe rtableConfig 0 true 62
      (byteAt (eth3Message (clientFrame 64 (dotted 10 0 1 1)))) := by
  have message : PacketMessage rtableConfig
      (withLen (62 : Int).toNat (byteAt (eth3Message (clientFrame 64 (dotted 10 0 1 1)))))
      ⟨"eth3", ⟨[2, 0, 0, 0, 0, 3], rfl⟩, dotted 10 0 1 1⟩ :=
    ⟨by decide +kernel, by decide +kernel⟩
  exact (framingSafe_iff (by decide) (by decide) message).1.mpr
    ⟨by decide, fun _ => ⟨by decide, by decide +kernel⟩⟩

/-- A message that ends behind the interface name: the check on the total lets it through, and
`sr_arp_req_not_for_us` is told of 4294967288 bytes. -/
theorem not_framingSafe_short :
    ¬ ∀ sr expectedCmd logfile len mem w, 0 ≤ len → len ≤ 10000 →
      PacketMessage sr (withLen len.toNat mem) w →
      FramingSafe sr expectedCmd logfile len mem := by
  intro h
  have message : PacketMessage rtableConfig
      (withLen (16 : Int).toNat (byteAt ((eth3Message []).take 16)))
      ⟨"eth3", ⟨[2, 0, 0, 0, 0, 3], rfl⟩, dotted 10 0 1 1⟩ :=
    ⟨by decide +kernel, by decide +kernel⟩
  obtain ⟨calls, hcalls, -⟩ := h rtableConfig 0 false 16 _ _ (by decide) (by decide) message
  have hfault : srReadFromServerExpect rtableConfig 0 false 16
      (byteAt ((eth3Message []).take 16)) = .error .outOfBounds := by decide +kernel
  rw [hfault] at hcalls
  cases hcalls

end NetworkProjects.Router
