import NetworkProjects.Router.VnsMessages

/-!
# The packet log (`sr_dumper.c`, `sr_log_packet`)

With `-l` the router logs what it receives and sends, as a file that `tcpdump` reads. A file is
written in the byte order of the host, and its first word tells a reader which one that is.

A reader gets back the frames that were logged, in order, cut to 1024 bytes (`readPcap_logFile`).
The length it is told is that of the cut frame: `h.len` is set from `size` and not from `len`. -/

namespace NetworkProjects.Router

open NetworkProjects.Lib

/-! ## The code -/

/-- `TCPDUMP_MAGIC`. -/
def tcpdumpMagic : UInt32 := 0xa1b2c3d4
/-- `LINKTYPE_ETHERNET`. -/
def linktypeEthernet : UInt32 := 1

/-- `sf_write_header`: a `struct pcap_file_header`. -/
def sfWriteHeader (o : ByteOrder) (linktype thiszone snaplen : UInt32) : Bytes :=
  wordBytes o tcpdumpMagic ++ halfBytes o 2 ++ halfBytes o 4 ++ wordBytes o thiszone
    ++ wordBytes o 0 ++ wordBytes o snaplen ++ wordBytes o linktype

/-- `sr_dump_open`, on a file that can be opened. -/
def srDumpOpen (o : ByteOrder) (thiszone snaplen : UInt32) : Bytes :=
  sfWriteHeader o linktypeEthernet thiszone snaplen

/-- `struct timeval`. -/
structure Timeval where
  tvSec : UInt64
  tvUsec : UInt64
  deriving DecidableEq

/-- `struct pcap_pkthdr`. -/
structure PcapPkthdr where
  ts : Timeval
  caplen : UInt32
  len : UInt32

/-- `sr_dump`: a `struct pcap_sf_pkthdr` and `caplen` bytes. The file keeps 32 bits of the time. -/
def srDump (o : ByteOrder) (fp : Bytes) (h : PcapPkthdr) (sp : Bytes) : Bytes :=
  fp ++ wordBytes o h.ts.tvSec.toUInt32 ++ wordBytes o h.ts.tvUsec.toUInt32
    ++ wordBytes o h.caplen ++ wordBytes o h.len ++ sp.take h.caplen.toNat

/-- What `sr_log_packet` writes. -/
def logPacket (o : ByteOrder) (fp : Bytes) (ts : Timeval) (buf : Bytes) : Bytes :=
  let len := (UInt32.ofNat buf.length).toInt32
  let size := if packetDumpSize < len then packetDumpSize else len
  srDump o fp ⟨ts, size.toUInt32, (if size < packetDumpSize then size else packetDumpSize).toUInt32⟩
    buf

/-- The log after a sequence of calls. -/
def logFile (o : ByteOrder) (calls : List (Timeval × Bytes)) : Bytes :=
  calls.foldl (fun fp call => logPacket o fp call.1 call.2)
    (srDumpOpen o 0 packetDumpSize.toUInt32)

/-! ## A reader -/

/-- The records of a file of one byte order. -/
def pcapFraming (o : ByteOrder) : Framing where
  header := 16
  total head := some (16 + (loadWord o head 8).toNat)
  header_pos := by decide
  header_le := by
    intro head n h
    cases h
    omega

/-- A record: the time, the length that is told, and the bytes. -/
structure PcapRecord where
  sec : UInt32
  usec : UInt32
  len : UInt32
  data : Bytes
  deriving DecidableEq

def pcapRecord (o : ByteOrder) (m : Bytes) : PcapRecord :=
  ⟨loadWord o m 0, loadWord o m 4, loadWord o m 12, m.drop 16⟩

/-- A file: the longest record, the kind of link, and the records. -/
structure PcapFile where
  snaplen : UInt32
  linktype : UInt32
  records : List PcapRecord
  deriving DecidableEq

/-- The file in one byte order, if it begins with the magic word and ends with a record. -/
def readPcapAs (o : ByteOrder) (file : Bytes) : Option PcapFile :=
  if loadWord o file 0 = tcpdumpMagic then
    let (ms, rest) := (pcapFraming o).cut (file.drop 24)
    if rest = [] then some ⟨loadWord o file 16, loadWord o file 20, ms.map (pcapRecord o)⟩ else none
  else none

/-- The reader tries both byte orders. -/
def readPcap (file : Bytes) : Option PcapFile :=
  readPcapAs .little file <|> readPcapAs .big file

/-! ## The log is read back -/

/-- The record a call of `sr_log_packet` leads to. -/
def loggedRecord (call : Timeval × Bytes) : PcapRecord :=
  let data := call.2.take 1024
  ⟨call.1.tvSec.toUInt32, call.1.tvUsec.toUInt32, UInt32.ofNat data.length, data⟩

/-- The bytes of a record. -/
def PcapRecord.bytes (o : ByteOrder) (r : PcapRecord) : Bytes :=
  wordBytes o r.sec ++ wordBytes o r.usec ++ wordBytes o (UInt32.ofNat r.data.length)
    ++ wordBytes o r.len ++ r.data

section ReadBack

variable {o : ByteOrder}

/-- One call appends one record. -/
theorem logPacket_eq (fp : Bytes) (ts : Timeval) {buf : Bytes} (hlen : buf.length < 2 ^ 31) :
    logPacket o fp ts buf = fp ++ (loggedRecord (ts, buf)).bytes o := by
  have hnat : (UInt32.ofNat buf.length).toNat = buf.length := by
    rw [UInt32.toNat_ofNat']
    omega
  have hint : (UInt32.ofNat buf.length).toInt32.toInt = buf.length := by
    have h := BitVec.toInt_eq_toNat_of_lt (x := (UInt32.ofNat buf.length).toBitVec)
      (by show 2 * (UInt32.ofNat buf.length).toNat < 2 ^ 32; omega)
    exact h.trans (congrArg Nat.cast hnat)
  have hdump : packetDumpSize.toInt = 1024 := by decide
  have hlt : ∀ x y : Int32, x < y ↔ x.toInt < y.toInt := fun _ _ => Int32.lt_iff_toInt_lt
  rw [logPacket, srDump, loggedRecord, PcapRecord.bytes]
  dsimp only
  -- a longer frame is cut, and its record still says how long it was
  by_cases hlong : 1024 < buf.length
  · have hdata : (buf.take 1024).length = 1024 := by
      rw [List.length_take]
      omega
    rw [if_pos ((hlt _ _).mpr (by omega)), ite_self, hdata]
    simp only [List.append_assoc]
    rfl
  · have hdata : buf.take 1024 = buf := List.take_of_length_le (by omega)
    have hsize : (if (UInt32.ofNat buf.length).toInt32 < packetDumpSize
        then (UInt32.ofNat buf.length).toInt32 else packetDumpSize)
        = (UInt32.ofNat buf.length).toInt32 := by
      split
      · rfl
      · next hfull =>
        rw [hlt] at hfull
        exact Int32.toInt_inj.mp (by omega)
    rw [if_neg (mt (hlt _ _).mp (by omega)), hsize, hdata]
    have hround : (UInt32.ofNat buf.length).toInt32.toUInt32 = UInt32.ofNat buf.length := rfl
    rw [hround, hnat, List.take_length]
    simp only [List.append_assoc]

theorem logFile_eq {calls : List (Timeval × Bytes)} (h : ∀ call ∈ calls, call.2.length < 2 ^ 31) :
    logFile o calls = srDumpOpen o 0 packetDumpSize.toUInt32
      ++ (calls.map fun call => (loggedRecord call).bytes o).flatten := by
  rw [logFile]
  generalize srDumpOpen o 0 packetDumpSize.toUInt32 = fp
  induction calls generalizing fp with
  | nil => simp
  | cons call calls ih =>
      rw [List.foldl_cons, logPacket_eq fp call.1 (h call List.mem_cons_self),
        ih fun c hc => h c (List.mem_cons_of_mem call hc), List.map_cons, List.flatten_cons,
        List.append_assoc]

theorem loadWord_between (pre post : Bytes) {off : Nat} (w : UInt32) (hoff : pre.length = off) :
    loadWord o (pre ++ wordBytes o w ++ post) off = w :=
  loadWord_of_slice (slice_append_mid hoff (length_wordBytes o w))

/-- A record says how long it is. -/
theorem total_bytes {r : PcapRecord} (hshort : r.data.length < 2 ^ 32) :
    (pcapFraming o).total ((r.bytes o).take (pcapFraming o).header) = some (r.bytes o).length := by
  have hhead : (wordBytes o r.sec ++ wordBytes o r.usec ++ wordBytes o (UInt32.ofNat r.data.length)
      ++ wordBytes o r.len).length = 16 := by
    simp only [List.length_append, length_wordBytes]
  have htake : (r.bytes o).take 16 = wordBytes o r.sec ++ wordBytes o r.usec
      ++ wordBytes o (UInt32.ofNat r.data.length) ++ wordBytes o r.len := List.take_left' hhead
  have hword := loadWord_between (o := o) (wordBytes o r.sec ++ wordBytes o r.usec)
    (wordBytes o r.len) (UInt32.ofNat r.data.length)
    (by simp only [List.length_append, length_wordBytes] : _ = 8)
  show some (16 + (loadWord o ((r.bytes o).take 16) 8).toNat) = _
  rw [htake, hword, PcapRecord.bytes, List.length_append, hhead, UInt32.toNat_ofNat',
    Nat.mod_eq_of_lt hshort]

/-- **A record is read back** from its bytes, in the byte order in which they were written. -/
theorem pcapRecord_bytes (r : PcapRecord) : pcapRecord o (r.bytes o) = r := by
  have hhead : (wordBytes o r.sec ++ wordBytes o r.usec ++ wordBytes o (UInt32.ofNat r.data.length)
      ++ wordBytes o r.len).length = 16 := by
    simp only [List.length_append, length_wordBytes]
  have hsec : loadWord o (r.bytes o) 0 = r.sec := by
    rw [PcapRecord.bytes, List.append_assoc, List.append_assoc, List.append_assoc,
      ← List.nil_append (wordBytes o r.sec), List.append_assoc [], ← List.append_assoc []]
    exact loadWord_between _ _ r.sec rfl
  have husec : loadWord o (r.bytes o) 4 = r.usec := by
    rw [PcapRecord.bytes, List.append_assoc, List.append_assoc]
    exact loadWord_between _ _ r.usec (length_wordBytes o r.sec)
  have hlen : loadWord o (r.bytes o) 12 = r.len := by
    rw [PcapRecord.bytes]
    exact loadWord_between _ _ r.len (by simp only [List.length_append, length_wordBytes])
  have hdata : (r.bytes o).drop 16 = r.data := List.drop_left' hhead
  rw [pcapRecord, hsec, husec, hlen, hdata]

/-- The file header, word by word. -/
theorem header_words (records : Bytes) :
    loadWord o (srDumpOpen o 0 packetDumpSize.toUInt32 ++ records) 0 = tcpdumpMagic ∧
    loadWord o (srDumpOpen o 0 packetDumpSize.toUInt32 ++ records) 16 = 1024 ∧
    loadWord o (srDumpOpen o 0 packetDumpSize.toUInt32 ++ records) 20 = linktypeEthernet ∧
    (srDumpOpen o 0 packetDumpSize.toUInt32 ++ records).drop 24 = records := by
  have hhalf : ∀ n : UInt16, (halfBytes o n).length = 2 := by
    intro n
    cases o <;> rfl
  rw [srDumpOpen, sfWriteHeader]
  refine ⟨?_, ?_, ?_, ?_⟩
  · simp only [List.append_assoc]
    rw [← List.nil_append (wordBytes o tcpdumpMagic ++ _), ← List.append_assoc]
    exact loadWord_between _ _ tcpdumpMagic rfl
  · rw [List.append_assoc]
    exact loadWord_between _ _ packetDumpSize.toUInt32 (by
      simp only [List.length_append, length_wordBytes, hhalf])
  · exact loadWord_between _ _ linktypeEthernet (by
      simp only [List.length_append, length_wordBytes, hhalf])
  · exact List.drop_left' (by simp only [List.length_append, length_wordBytes, hhalf])

/-- The other byte order does not find its magic word. -/
theorem readPcapAs_little_of_big (records : Bytes) :
    readPcapAs .little (srDumpOpen .big 0 packetDumpSize.toUInt32 ++ records) = none := by
  have hswapped : loadWord .little (srDumpOpen .big 0 packetDumpSize.toUInt32 ++ records) 0
      = loadWord .little (wordBytes .big tcpdumpMagic) 0 := by
    rw [srDumpOpen, sfWriteHeader]
    simp only [List.append_assoc]
    apply load32_congr
    intro k hk
    rw [Nat.zero_add]
    exact byteAt_append_left (by rw [length_wordBytes]; exact hk)
  rw [readPcapAs, hswapped, if_neg (by decide)]

/-- **The log is read back**, whatever the byte order of the host: each call is a record, with the
first 1024 bytes of its frame. -/
theorem readPcap_logFile {calls : List (Timeval × Bytes)}
    (h : ∀ call ∈ calls, call.2.length < 2 ^ 31) :
    readPcap (logFile o calls) = some ⟨1024, linktypeEthernet, calls.map loggedRecord⟩ := by
  have hread : readPcapAs o (logFile o calls)
      = some ⟨1024, linktypeEthernet, calls.map loggedRecord⟩ := by
    have hcut := (pcapFraming o).cut_flatten
      (calls.map fun call => (loggedRecord call).bytes o) (by
        intro m hm
        obtain ⟨call, -, rfl⟩ := List.mem_map.mp hm
        apply total_bytes
        have hcut := List.length_take_le 1024 call.2
        exact Nat.lt_of_le_of_lt hcut (by decide)) []
    have hnil : (pcapFraming o).cut [] = ([], []) :=
      (pcapFraming o).cut_stop fun _ _ h => nomatch h
    rw [hnil, List.append_nil, List.append_nil] at hcut
    rw [logFile_eq h]
    obtain ⟨hmagic, hsnaplen, hlinktype, hdrop⟩ := header_words (o := o)
      (calls.map fun call => (loggedRecord call).bytes o).flatten
    rw [readPcapAs, if_pos hmagic, hdrop, hcut, hsnaplen, hlinktype]
    dsimp only
    rw [if_pos rfl, List.map_map]
    congr 2
    exact List.map_congr_left fun call _ => pcapRecord_bytes _
  rw [readPcap]
  cases o with
  | little => rw [hread]; rfl
  | big =>
      -- the reader tries the little order first, finds the magic reversed and turns round
      rw [logFile_eq h, readPcapAs_little_of_big, ← logFile_eq h, hread]
      rfl

end ReadBack

/-- A frame that fits, and one that does not. -/
theorem readPcap_logFile_twoCalls :
    readPcap (logFile .big [(⟨1, 2⟩, [7]), (⟨3, 4⟩, List.replicate 1500 9)])
      = some ⟨1024, linktypeEthernet, [⟨1, 2, 1, [7]⟩, ⟨3, 4, 1024, List.replicate 1024 9⟩]⟩ := by
  rw [readPcap_logFile (by
    intro call hcall
    rcases List.mem_cons.mp hcall with rfl | hcall
    · decide
    · rw [List.mem_singleton.mp hcall, List.length_replicate]
      decide)]
  decide +kernel

end NetworkProjects.Router
