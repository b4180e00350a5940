import NetworkProjects.Lib.ByteOrder

/-!
# Segments

`STCPHeader` as `transport.c` uses it. The words of a header are kept as the host reads them:
what the code calls a field in network byte order is a word on which `htonl` has been used.
`toBytes` is the header in memory, and so on the wire.
-/

namespace NetworkProjects.Transport

open NetworkProjects.Lib

/-! ## Headers -/

/-- `STCPHeader`, without the ports, the offset, the checksum and the urgent pointer, which are
left to `stcp_network_send`. -/
structure STCPHeader where
  thSeq : UInt32
  thAck : UInt32
  thFlags : UInt8
  thWin : UInt16
  deriving DecidableEq, Repr

/-- A global header before anything is assigned to it. -/
def STCPHeader.zero : STCPHeader := ⟨0, 0, 0, 0⟩

/-- `TH_FIN`. -/
def thFin : UInt8 := 0x01
/-- `TH_SYN`. -/
def thSyn : UInt8 := 0x02
/-- `TH_ACK`. -/
def thAck : UInt8 := 0x10

/-- `STCP_MSS`. -/
def stcpMss : Nat := 536

/-- `sizeof(STCPHeader)`. -/
def headerSize : Nat := 20

/-! ## Headers in memory -/

/-- A header as the host keeps it. -/
def STCPHeader.toBytes (o : ByteOrder) (h : STCPHeader) : Bytes :=
  [0, 0, 0, 0] ++ wordBytes o h.thSeq ++ wordBytes o h.thAck ++ [0, h.thFlags]
    ++ halfBytes o h.thWin ++ [0, 0, 0, 0]

/-- A header read from memory. -/
def STCPHeader.ofBytes (o : ByteOrder) (p : Bytes) : STCPHeader where
  thSeq := loadWord o p 4
  thAck := loadWord o p 8
  thFlags := byteAt p 13
  thWin := loadHalf o p 14

/-- `stcp_network_recv(sd, &h, sizeof(h))`, when it takes `segment`. -/
def STCPHeader.recv (o : ByteOrder) (h : STCPHeader) (segment : Bytes) : STCPHeader :=
  .ofBytes o (segment.take headerSize ++ (h.toBytes o).drop segment.length)

/-- The sequence number of a segment on the wire. -/
def wireSeq (segment : Bytes) : UInt32 := loadWord .big segment 4

/-- The acknowledgement number of a segment on the wire. -/
def wireAck (segment : Bytes) : UInt32 := loadWord .big segment 8

/-- The flags of a segment on the wire. -/
def wireFlags (segment : Bytes) : UInt8 := byteAt segment 13

section Memory

variable (o : ByteOrder) (h : STCPHeader) (data : Bytes)

@[simp] theorem length_toBytes : (h.toBytes o).length = headerSize := by
  cases o <;> rfl

theorem slice_thSeq : slice (h.toBytes o ++ data) 4 4 = wordBytes o h.thSeq := by
  cases o <;> rfl

theorem slice_thAck : slice (h.toBytes o ++ data) 8 4 = wordBytes o h.thAck := by
  cases o <;> rfl

theorem slice_thWin : slice (h.toBytes o ++ data) 14 2 = halfBytes o h.thWin := by
  cases o <;> rfl

@[simp] theorem wireFlags_toBytes : wireFlags (h.toBytes o ++ data) = h.thFlags := by
  cases o <;> rfl

/-- A header is read as it was kept. -/
theorem ofBytes_toBytes : STCPHeader.ofBytes o (h.toBytes o ++ data) = h := by
  have hflags : byteAt (h.toBytes o ++ data) 13 = h.thFlags := wireFlags_toBytes o h data
  rw [STCPHeader.ofBytes, loadWord_of_slice (slice_thSeq o h data),
    loadWord_of_slice (slice_thAck o h data), hflags, loadHalf_of_slice (slice_thWin o h data)]

@[simp] theorem wireSeq_toBytes : wireSeq (h.toBytes o ++ data) = o.ntohl h.thSeq :=
  ByteOrder.ntohl_of_slice (slice_thSeq o h data)

@[simp] theorem wireAck_toBytes : wireAck (h.toBytes o ++ data) = o.ntohl h.thAck :=
  ByteOrder.ntohl_of_slice (slice_thAck o h data)

@[simp] theorem recv_toBytes (h' : STCPHeader) : h'.recv o (h.toBytes o) = h := by
  have hall : (h.toBytes o).take headerSize ++ (h'.toBytes o).drop (h.toBytes o).length
      = h.toBytes o ++ [] := by
    rw [List.take_of_length_le (by simp), List.drop_eq_nil_of_le (by simp)]
  rw [STCPHeader.recv, hall, ofBytes_toBytes]

theorem wireFlags_header : wireFlags (h.toBytes o) = h.thFlags := by
  simpa using wireFlags_toBytes o h []

theorem wireAck_header : wireAck (h.toBytes o) = o.ntohl h.thAck := by
  simpa using wireAck_toBytes o h []

end Memory

end NetworkProjects.Transport
