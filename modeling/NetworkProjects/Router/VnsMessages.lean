import NetworkProjects.Router.VnsComm
import NetworkProjects.Lib.Reading
import NetworkProjects.Lib.Records

/-!
# Frames as messages

`sr_send_packet` writes a frame to the server behind a `c_packet_header`: the length, `VNSPACKET`
and the name of the interface in 16 bytes. The server sends the router frames in the same form.

A message that `sr_send_packet` could have written is read back as it was meant
(`vnsPacket_vnsMessage`): the interface is the one of that name and the frame is the frame, unless
it is an ARP request for another host, which goes no further.
-/

namespace NetworkProjects.Router

open NetworkProjects.Lib

/-! ## Names -/

/-- A name that fits into `mInterfaceName`, with its NUL. -/
abbrev IfName := { name : Bytes // 0 ∉ name ∧ name.length < 16 }

def IfName.text (name : IfName) : String := nameText name.val

/-- The interfaces have names that fit. -/
def NamesFit (sr : SrConfig) : Prop := ∀ i ∈ sr.ifList, ∃ name : IfName, i.name = name.text

theorem nameBytes_nameText (bs : Bytes) : nameBytes (nameText bs) = bs := by
  have hbyte : ∀ c : UInt8, UInt8.ofNat (Char.ofNat c.toNat).toNat = c := by
    intro c
    have hc := c.toNat_lt
    have hvalid : c.toNat.isValidChar := .inl (by omega)
    rw [Char.ofNat, dif_pos hvalid]
    exact UInt8.ofNat_toNat
  rw [nameBytes, nameText, String.toList_ofList, List.map_map]
  conv => rhs; rw [← List.map_id bs]
  exact List.map_congr_left fun c _ => hbyte c

theorem nameText_inj {bs bs' : Bytes} : nameText bs = nameText bs' ↔ bs = bs' :=
  ⟨fun h => by rw [← nameBytes_nameText bs, h, nameBytes_nameText], congrArg nameText⟩

theorem nameField_eq {i : SrIf} {name : IfName} (h : i.name = name.text) :
    i.nameField = name.val ++ 0 :: List.replicate (31 - name.val.length) 0 := by
  have hlen := name.property.2
  rw [SrIf.nameField, h, IfName.text, nameBytes_nameText, srIfaceNamelen, List.take_append,
    List.take_of_length_le (by omega), List.take_replicate, ← List.replicate_succ]
  congr 2
  omega

/-! ## The message -/

/-- `strncpy(sr_pkt->mInterfaceName, iface, 16)`. -/
def mInterfaceName (iface : String) : Bytes := (nameBytes iface ++ List.replicate 16 0).take 16

/-- A frame behind a `c_packet_header`. -/
def vnsMessage (iface : String) (frame : Bytes) : Bytes :=
  wordBytes .big (UInt32.ofNat (sizeofCPacketHeader + frame.length)) ++ wordBytes .big vnspacket
    ++ mInterfaceName iface ++ frame

/-- The buffer `sr_send_packet` writes, in the order of its writes. -/
def sendPacketBuffer (heap : Nat → UInt8) (buf : Bytes) (iface : String) : Bytes :=
  let srPkt := (List.range (buf.length + sizeofCPacketHeader)).map heap
  let srPkt := store srPkt 0 (wordBytes .big (UInt32.ofNat (buf.length + sizeofCPacketHeader)))
  let srPkt := store srPkt 4 (wordBytes .big vnspacket)
  let srPkt := store srPkt 8 (mInterfaceName iface)
  store srPkt sizeofCPacketHeader buf

theorem length_wordBytes (o : ByteOrder) (w : UInt32) : (wordBytes o w).length = 4 := by
  cases o <;> rfl

theorem length_mInterfaceName (iface : String) : (mInterfaceName iface).length = 16 := by
  rw [mInterfaceName, List.length_take, List.length_append, List.length_replicate]
  omega

theorem length_vnsMessage (iface : String) (frame : Bytes) :
    (vnsMessage iface frame).length = sizeofCPacketHeader + frame.length := by
  simp only [vnsMessage, List.length_append, length_wordBytes, length_mInterfaceName,
    sizeofCPacketHeader]

/-- **The buffer is the message**, whatever was in it before: the length, the command, the name in
its field, and the frame. -/
theorem sendPacketBuffer_eq (heap : Nat → UInt8) (buf : Bytes) (iface : String) :
    sendPacketBuffer heap buf iface = vnsMessage iface buf := by
  have hname := length_mInterfaceName iface
  have hlen := length_wordBytes .big (UInt32.ofNat (buf.length + sizeofCPacketHeader))
  have hcommand := length_wordBytes .big vnspacket
  have hfields : sendPacketBuffer heap buf iface
      = storeAll ((List.range (buf.length + sizeofCPacketHeader)).map heap) 0
        [wordBytes .big (UInt32.ofNat (buf.length + sizeofCPacketHeader)), wordBytes .big vnspacket,
          mInterfaceName iface, buf] := by
    simp only [storeAll, hlen, hcommand, hname]
    rfl
  rw [hfields, storeAll_full, vnsMessage, Nat.add_comm sizeofCPacketHeader]
  · simp only [List.flatten_cons, List.flatten_nil, List.append_nil, List.append_assoc]
  · simp only [List.flatten_cons, List.flatten_nil, List.length_append, List.length_nil, hlen,
      hcommand, hname, List.length_map, List.length_range]
    rw [sizeofCPacketHeader]
    omega

/-! ## Reading a message back

The reader compares names and cuts out the frame by offsets, so it is enough to know what stands at
these offsets. -/

/-- An ARP request for a host that is not the router. -/
def foreignArpRequest (i : SrIf) (frame : Bytes) : Bool :=
  decide (sizeofEthernetHdr + sizeofArpHdr ≤ frame.length)
    && ethertype frame == SrEthertype.arp.value && arpOpcode frame == arpOpRequest
    && arTip frame != i.ip

section ReadBack

variable {sr : SrConfig} {mem : Nat → UInt8} {name : IfName} {frame : Bytes}

/-- The memory from `buf` on begins with a message. -/
def Begins (mem : Nat → UInt8) (message : Bytes) : Prop :=
  ∀ i < message.length, mem i = byteAt message i

theorem Begins.memSlice {message : Bytes} (h : Begins mem message) {off n : Nat}
    (hfit : off + n ≤ message.length) : memSlice mem off n = slice message off n := by
  apply ext_byteAt
  · rw [length_memSlice, length_slice hfit]
  · intro i hi
    rw [length_memSlice] at hi
    rw [byteAt_memSlice hi, byteAt_slice hi]
    exact h _ (by omega)

theorem slice_append_mid {pre mid post : Bytes} {off n : Nat} (hoff : pre.length = off)
    (hn : mid.length = n) : slice (pre ++ mid ++ post) off n = mid := by
  rw [slice, List.append_assoc, List.drop_left' hoff, List.take_left' hn]

theorem slice_vnsMessage_command (iface : String) (frame : Bytes) :
    slice (vnsMessage iface frame) 4 4 = wordBytes .big vnspacket := by
  rw [vnsMessage, List.append_assoc _ (mInterfaceName iface)]
  exact slice_append_mid (length_wordBytes _ _) (length_wordBytes _ _)

theorem slice_vnsMessage_name (iface : String) (frame : Bytes) :
    slice (vnsMessage iface frame) sizeofCBase 16 = mInterfaceName iface := by
  rw [vnsMessage]
  apply slice_append_mid
  · rw [List.length_append, length_wordBytes, length_wordBytes]
    rfl
  · exact length_mInterfaceName iface

theorem slice_vnsMessage_frame (iface : String) (frame : Bytes) :
    slice (vnsMessage iface frame) sizeofCPacketHeader frame.length = frame := by
  have hhead : (wordBytes .big (UInt32.ofNat (sizeofCPacketHeader + frame.length))
      ++ wordBytes .big vnspacket ++ mInterfaceName iface).length = sizeofCPacketHeader := by
    simp only [List.length_append, length_wordBytes, length_mInterfaceName]
    rfl
  rw [vnsMessage, slice, List.drop_left' hhead, List.take_length]

theorem mInterfaceName_text (name : IfName) :
    mInterfaceName name.text = name.val ++ 0 :: List.replicate (15 - name.val.length) 0 := by
  have hlen := name.property.2
  rw [mInterfaceName, IfName.text, nameBytes_nameText, List.take_append,
    List.take_of_length_le (by omega), List.take_replicate, ← List.replicate_succ]
  congr 2
  omega

/-- What the name in the message is compared with. -/
theorem name_in_memory (h : Begins mem (vnsMessage name.text frame)) :
    ∀ i ≤ name.val.length, mem (sizeofCBase + i) = byteAt (name.val ++ [0]) i := by
  intro i hi
  have hlen := name.property.2
  have hin : sizeofCBase + 16 ≤ (vnsMessage name.text frame).length := by
    rw [length_vnsMessage, sizeofCBase, sizeofCPacketHeader]
    omega
  have hslice := slice_vnsMessage_name name.text frame
  rw [h _ (by omega), ← byteAt_slice (n := 16) (by omega), hslice, mInterfaceName_text,
    List.append_cons]
  exact byteAt_append_left (by rw [List.length_append, List.length_singleton]; omega)

/-- **The interface of the message** is the one of that name, and the search stays in the
message. -/
theorem srGetInterfaceAt_vnsMessage (fit : NamesFit sr)
    (h : Begins mem (vnsMessage name.text frame)) :
    srGetInterfaceAt (unbounded mem) sizeofCBase sr.ifList = .ok (srGetInterface sr name.text) ∧
      NameSettles (vnsMessage name.text frame).length mem sizeofCBase sr.ifList := by
  have hlen := name.property.2
  have hin : sizeofCBase + name.val.length + 1 ≤ (vnsMessage name.text frame).length := by
    rw [length_vnsMessage, sizeofCBase, sizeofCPacketHeader]
    omega
  have hmem := name_in_memory h
  rw [srGetInterface]
  rw [NamesFit] at fit
  generalize sr.ifList = ifs at fit ⊢
  induction ifs with
  | nil => exact ⟨rfl, trivial⟩
  | cons walker next ih =>
      obtain ⟨walkerName, hname⟩ := fit walker List.mem_cons_self
      obtain ⟨hnext, hsettles⟩ := ih fun i hi => fit i (List.mem_cons_of_mem walker hi)
      have hcmp := strncmp_string (ε := Fault) (List.replicate (31 - walkerName.val.length) 0)
        walkerName.property.1 name.property.1 hmem
      rw [← nameField_eq hname] at hcmp
      rw [srGetInterfaceAt, hcmp.1]
      by_cases heq : walkerName.val = name.val
      · have hfound : walker.name = name.text := by rw [hname, IfName.text, heq]; rfl
        rw [decide_eq_true heq, List.find?_cons_of_pos (by rw [hfound]; exact beq_self_eq_true _)]
        exact ⟨rfl, hcmp.2.mono hin, .inl (by rw [hcmp.1, decide_eq_true heq])⟩
      · have hother : walker.name ≠ name.text := by
          rw [hname]
          exact fun htext => heq (nameText_inj.mp htext)
        rw [decide_eq_false heq, List.find?_cons_of_neg (by simpa using hother)]
        exact ⟨hnext, hcmp.2.mono hin, .inr hsettles⟩

/-- The fields of the frame that the check on ARP requests reads. -/
theorem memSlice_frame (h : Begins mem (vnsMessage name.text frame)) {off n : Nat}
    (hfit : off + n ≤ frame.length) :
    memSlice mem (sizeofCPacketHeader + off) n = slice frame off n := by
  have hlen := length_vnsMessage name.text frame
  have hframe := slice_vnsMessage_frame name.text frame
  rw [h.memSlice (by omega)]
  conv => rhs; rw [← hframe]
  rw [slice, slice, slice, List.drop_take, List.drop_drop, List.take_take,
    Nat.min_eq_left (by omega)]

/-- The check on ARP requests, on the frame of a message. -/
theorem srArpReqNotForUs_vnsMessage (fit : NamesFit sr)
    (h : Begins mem (vnsMessage name.text frame)) {i : SrIf}
    (hi : srGetInterface sr name.text = some i) {n : UInt32} (hn : n.toNat = frame.length) :
    srArpReqNotForUs sr (window .outOfBounds (vnsMessage name.text frame).length mem)
      sizeofCPacketHeader n sizeofCBase = .ok (foreignArpRequest i frame) := by
  obtain ⟨hfound, hsettles⟩ := srGetInterfaceAt_vnsMessage fit h
  have hlen := length_vnsMessage name.text frame
  -- every field that is read lies in the frame
  have hread : ∀ off k, off + k ≤ frame.length →
      (window Fault.outOfBounds (vnsMessage name.text frame).length mem).bytes
        (sizeofCPacketHeader + off) k = .ok (slice frame off k) := by
    intro off k hfit
    rw [bytes_window mem (by omega), memSlice_frame h hfit]
  have h16 : ∀ off, load16 (slice frame off 2) 0 = load16 frame off := fun off =>
    load16_congr fun k hk => by rw [byteAt_slice (by omega), Nat.zero_add]
  have h32 : load32 (slice frame 38 4) 0 = load32 frame 38 :=
    load32_congr fun k hk => by rw [byteAt_slice (by omega), Nat.zero_add]
  rw [srArpReqNotForUs, srGetInterfaceAt_window hsettles, hfound, hi, hn]
  simp only [bind, Except.bind]
  -- the checks of the source in their order: length, type, opcode, address
  by_cases hshort : frame.length < sizeofEthernetHdr + sizeofArpHdr
  · rw [if_pos hshort, foreignArpRequest, decide_eq_false (Nat.not_le.mpr hshort)]
    rfl
  · rw [if_neg hshort, foreignArpRequest, decide_eq_true (Nat.not_lt.mp hshort), Bool.true_and]
    rw [sizeofEthernetHdr, sizeofArpHdr] at hshort
    have hethertype : ntohs (load16 frame 12) = ethertype frame := rfl
    have hopcode : ntohs (load16 frame 20) = arpOpcode frame := rfl
    rw [hread 12 2 (by omega)]
    dsimp only
    rw [h16, hethertype]
    by_cases htype : ethertype frame = SrEthertype.arp.value
    · rw [if_neg (fun hne => hne htype), hread 20 2 (by omega), beq_iff_eq.mpr htype, Bool.true_and]
      dsimp only
      rw [h16, hopcode]
      by_cases hop : arpOpcode frame = arpOpRequest
      · rw [if_neg (fun hne => hne hop), hread 38 4 (by omega), beq_iff_eq.mpr hop, Bool.true_and]
        dsimp only
        rw [h32]
        rfl
      · rw [if_pos hop, beq_eq_false_iff_ne.mpr hop]
        rfl
    · rw [if_pos htype, beq_eq_false_iff_ne.mpr htype]
      rfl

/-- **A frame is read back** as it was sent: an ARP request for another host goes no further, and
any other frame is handed on with its length. -/
theorem vnsPacket_vnsMessage (fit : NamesFit sr) (h : Begins mem (vnsMessage name.text frame))
    {i : SrIf} (hi : srGetInterface sr name.text = some i)
    (hlen : sizeofCPacketHeader + frame.length ≤ 10000) (logfile : Bool) :
    vnsPacket sr (window .outOfBounds (sizeofCPacketHeader + frame.length) mem) logfile
      (sizeofCPacketHeader + frame.length)
      = .ok (⟨.srArpReqNotForUs, UInt32.ofNat frame.length⟩
        :: if foreignArpRequest i frame then [] else [⟨.srHandlepacket, UInt32.ofNat frame.length⟩])
    := by
  have htotal := length_vnsMessage name.text frame
  have hpacketLen : packetLen (sizeofCPacketHeader + frame.length) = UInt32.ofNat frame.length := by
    apply UInt32.toNat_inj.mp
    rw [toNat_packetLen (Nat.le_add_right _ _) hlen, UInt32.toNat_ofNat']
    rw [sizeofCPacketHeader] at hlen
    omega
  have hn : (UInt32.ofNat frame.length).toNat = frame.length := by
    rw [UInt32.toNat_ofNat']
    rw [sizeofCPacketHeader] at hlen
    omega
  have hmLen : loadNetWord (window .outOfBounds (sizeofCPacketHeader + frame.length) mem) 0
      = .ok (UInt32.ofNat (sizeofCPacketHeader + frame.length)) := by
    have hword : slice (vnsMessage name.text frame) 0 4
        = wordBytes .big (UInt32.ofNat (sizeofCPacketHeader + frame.length)) := by
      rw [vnsMessage, List.append_assoc, List.append_assoc, ← List.nil_append (wordBytes _ _),
        List.append_assoc [], ← List.append_assoc []]
      exact slice_append_mid rfl (length_wordBytes _ _)
    rw [loadNetWord, bytes_window mem (by rw [sizeofCPacketHeader]; omega),
      h.memSlice (by rw [htotal, sizeofCPacketHeader]; omega), hword]
    exact congrArg Except.ok (loadWord_of_slice rfl)
  have hcheck := srArpReqNotForUs_vnsMessage fit h hi hn
  rw [htotal] at hcheck
  rw [vnsPacket, hpacketLen, hcheck]
  cases hforeign : foreignArpRequest i frame with
  | true => rfl
  | false =>
      simp only [bind, Except.bind, Bool.false_eq_true, if_false, hmLen]
      rw [srLogPacket_window (Nat.le_add_right _ _) hlen]
      rfl

end ReadBack

end NetworkProjects.Router
