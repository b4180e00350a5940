import NetworkProjects.Router.VnsComm
import NetworkProjects.Lib.Records

/-!
# The interface list (`sr_if.c`, `sr_handle_hwinfo`)

The server describes the router's hardware as a list of entries of one key and 32 bytes each. An
entry that names an interface appends it to the list; an address belongs to the interface at the
end of the list, which `assert` wants to be there. Between its name and its addresses an interface
holds what `malloc` returned.

So the entries are read in groups (`srHandleHwinfo_eq`): what stands in front of the first name goes
to the interface that was last before the message, and each name starts an interface that takes the
last address of each kind in front of the next name.
-/

namespace NetworkProjects.Router

open NetworkProjects.Lib

/-! ## The list

Interfaces are appended, and an address goes to the one at the end. -/

/-- What a fresh `struct sr_if` holds, for the `n`-th interface. -/
abbrev IfHeap := Nat → EtherAddr × InAddr

/-- A fresh interface, once `strncpy` has filled in its name. -/
def freshIf (heap : IfHeap) (n : Nat) (name : Bytes) : SrIf :=
  ⟨nameText (untilNul (name.take srIfaceNamelen)), (heap n).1, (heap n).2⟩

/-- `sr_add_interface`. -/
def srAddInterface (heap : IfHeap) (ifList : List SrIf) (name : Bytes) : List SrIf :=
  ifList ++ [freshIf heap ifList.length name]

/-- The walk to the end of the list, and a write there. -/
def setLast (f : SrIf → SrIf) : List SrIf → Except Fault (List SrIf)
  | [] => .error .nullInterface -- `assert(sr->if_list)`
  | [walker] => .ok [f walker]
  | walker :: next :: rest => (setLast f (next :: rest)).map (walker :: ·)

/-- `sr_set_ether_addr`. -/
def srSetEtherAddr (ifList : List SrIf) (addr : EtherAddr) : Except Fault (List SrIf) :=
  setLast (fun walker => { walker with addr := addr }) ifList

/-- `sr_set_ether_ip`. -/
def srSetEtherIp (ifList : List SrIf) (ipNbo : InAddr) : Except Fault (List SrIf) :=
  setLast (fun walker => { walker with ip := ipNbo }) ifList

theorem setLast_snoc (f : SrIf → SrIf) (ifs : List SrIf) (i : SrIf) :
    setLast f (ifs ++ [i]) = .ok (ifs ++ [f i]) := by
  induction ifs with
  | nil => rfl
  | cons walker ifs ih =>
      cases ifs with
      | nil => rfl
      | cons next rest =>
          rw [List.cons_append, List.cons_append, setLast, ← List.cons_append, ih]
          rfl

/-! ## The message

A description is a list of entries with a key and 32 bytes each. What the entries say is written
into the list from front to back. -/

/-- `HWINTERFACE`. -/
def hwinterface : UInt32 := 1
/-- `HWETHER`. -/
def hwether : UInt32 := 32
/-- `HWETHIP`. -/
def hwethip : UInt32 := 64

/-- `c_hw_entry`. -/
structure CHwEntry where
  mKey : UInt32
  value : Bytes
  deriving DecidableEq

/-- `sizeof(c_hw_entry)`. -/
def sizeofCHwEntry : Nat := 36

/-- `hwinfo->mHWInfo[i]`. -/
def mHWInfo (rd : Load Fault) (i : Nat) : Except Fault CHwEntry := do
  let mKey ← loadNetWord rd (sizeofCBase + sizeofCHwEntry * i)
  let value ← rd.bytes (sizeofCBase + sizeofCHwEntry * i + 4) 32
  return ⟨mKey, value⟩

/-- The `switch` on the key. The other keys, known and unknown, are for printing. -/
def srHandleHwEntry (heap : IfHeap) (ifList : List SrIf) (entry : CHwEntry) :
    Except Fault (List SrIf) :=
  if entry.mKey = hwinterface then .ok (srAddInterface heap ifList entry.value)
  else if entry.mKey = hwethip then srSetEtherIp ifList (load32 entry.value 0)
  else if entry.mKey = hwether then srSetEtherAddr ifList (etherAddrAt entry.value 0)
  else .ok ifList

/-- `num_entries`: a `size_t` in an `int`. -/
def numEntries (mLen : UInt32) : Int32 :=
  ((mLen.toUInt64 - 8) / UInt64.ofNat sizeofCHwEntry).toUInt32.toInt32

/-- `sr_handle_hwinfo`. -/
def srHandleHwinfo (rd : Load Fault) (heap : IfHeap) (ifList : List SrIf) :
    Except Fault (List SrIf) := do
  let mLen ← loadNetWord rd 0
  (List.range (numEntries mLen).toInt.toNat).foldlM (fun ifList i => do
    srHandleHwEntry heap ifList (← mHWInfo rd i)) ifList

/-! ## What the entries say

The entries are cut into groups, a name and what follows it up to the next name. Each group is an
interface, and what stands before the first name has none. -/

/-- An entry sets the IP address of its interface. -/
def CHwEntry.ip? (entry : CHwEntry) : Option InAddr :=
  if entry.mKey = hwethip then some (load32 entry.value 0) else none

/-- An entry sets the hardware address of its interface. -/
def CHwEntry.addr? (entry : CHwEntry) : Option EtherAddr :=
  if entry.mKey = hwether then some (etherAddrAt entry.value 0) else none

/-- The entries in front of the first name, and each name with the entries up to the next one. -/
def hwGroups : List CHwEntry → List CHwEntry × List (CHwEntry × List CHwEntry)
  | [] => ([], [])
  | entry :: entries =>
      let (lead, groups) := hwGroups entries
      if entry.mKey = hwinterface then ([], (entry, lead) :: groups)
      else (entry :: lead, groups)

/-- An interface takes the last address of each kind. -/
def SrIf.withEntries (i : SrIf) (entries : List CHwEntry) : SrIf :=
  { i with
    addr := (entries.filterMap CHwEntry.addr?).getLast?.getD i.addr
    ip := (entries.filterMap CHwEntry.ip?).getLast?.getD i.ip }

/-- The `n`-th interface, from its group. -/
def hwInterface (heap : IfHeap) (n : Nat) (group : CHwEntry × List CHwEntry) : SrIf :=
  (freshIf heap n group.1.value).withEntries group.2

/-- What a description makes of the list, when there is an interface for each address. -/
def describedIfs (heap : IfHeap) (ifList : List SrIf) (entries : List CHwEntry) : List SrIf :=
  (match ifList.getLast? with
    | none => []
    | some i => ifList.dropLast ++ [i.withEntries (hwGroups entries).1])
  ++ (hwGroups entries).2.mapIdx fun k group => hwInterface heap (ifList.length + k) group

/-- There is no interface yet, and an entry sets an address. -/
def AddressTooEarly (ifList : List SrIf) (entries : List CHwEntry) : Prop :=
  ifList = [] ∧ ∃ entry ∈ (hwGroups entries).1, entry.mKey = hwethip ∨ entry.mKey = hwether

instance (ifList : List SrIf) (entries : List CHwEntry) :
    Decidable (AddressTooEarly ifList entries) :=
  inferInstanceAs (Decidable (_ ∧ _))

theorem getLast?_getD_cons {α : Type} (a : α) (l : List α) (d : α) :
    ((a :: l).getLast?).getD d = l.getLast?.getD a := by
  rw [List.getLast?_cons, Option.getD_some]

/-- What one entry that is no name does to its interface. -/
def SrIf.withEntry (i : SrIf) (entry : CHwEntry) : SrIf :=
  { i with addr := entry.addr?.getD i.addr, ip := entry.ip?.getD i.ip }

theorem withEntries_cons (i : SrIf) (entry : CHwEntry) (entries : List CHwEntry) :
    i.withEntries (entry :: entries) = (i.withEntry entry).withEntries entries := by
  have haddr : ((entry :: entries).filterMap CHwEntry.addr?).getLast?.getD i.addr
      = (entries.filterMap CHwEntry.addr?).getLast?.getD (entry.addr?.getD i.addr) := by
    cases h : entry.addr? with
    | none => rw [List.filterMap_cons_none h]; rfl
    | some a => rw [List.filterMap_cons_some h, getLast?_getD_cons]; rfl
  have hip : ((entry :: entries).filterMap CHwEntry.ip?).getLast?.getD i.ip
      = (entries.filterMap CHwEntry.ip?).getLast?.getD (entry.ip?.getD i.ip) := by
    cases h : entry.ip? with
    | none => rw [List.filterMap_cons_none h]; rfl
    | some a => rw [List.filterMap_cons_some h, getLast?_getD_cons]; rfl
  rw [SrIf.withEntries, haddr, hip]
  rfl

/-- An entry that is no name writes to the interface at the end. -/
theorem srHandleHwEntry_snoc (heap : IfHeap) (ifs : List SrIf) (i : SrIf) {entry : CHwEntry}
    (h : entry.mKey ≠ hwinterface) :
    srHandleHwEntry heap (ifs ++ [i]) entry = .ok (ifs ++ [i.withEntry entry]) := by
  have hne : hwethip ≠ hwether := by decide
  rw [srHandleHwEntry, if_neg h, SrIf.withEntry, CHwEntry.addr?, CHwEntry.ip?]
  by_cases hip : entry.mKey = hwethip
  · rw [if_pos hip, if_pos hip, if_neg (by rw [hip]; exact hne), srSetEtherIp, setLast_snoc]
    rfl
  · rw [if_neg hip, if_neg hip]
    by_cases hether : entry.mKey = hwether
    · rw [if_pos hether, if_pos hether, srSetEtherAddr, setLast_snoc]
      rfl
    · rw [if_neg hether, if_neg hether]
      rfl

theorem hwGroups_cons_name {entry : CHwEntry} (h : entry.mKey = hwinterface)
    (entries : List CHwEntry) : hwGroups (entry :: entries)
      = ([], (entry, (hwGroups entries).1) :: (hwGroups entries).2) := by
  rw [hwGroups]
  exact if_pos h

theorem hwGroups_cons_other {entry : CHwEntry} (h : entry.mKey ≠ hwinterface)
    (entries : List CHwEntry) : hwGroups (entry :: entries)
      = (entry :: (hwGroups entries).1, (hwGroups entries).2) := by
  rw [hwGroups]
  exact if_neg h

/-- The entries of a description, on a list that has an interface. -/
theorem foldlM_srHandleHwEntry (heap : IfHeap) (entries : List CHwEntry) (ifs : List SrIf)
    (i : SrIf) : entries.foldlM (srHandleHwEntry heap) (ifs ++ [i])
      = .ok (ifs ++ [i.withEntries (hwGroups entries).1]
        ++ (hwGroups entries).2.mapIdx fun k group => hwInterface heap (ifs.length + 1 + k) group)
    := by
  induction entries generalizing ifs i with
  | nil =>
      rw [List.foldlM_nil, hwGroups, List.mapIdx_nil, List.append_nil]
      rfl
  | cons entry entries ih =>
      rw [List.foldlM_cons]
      by_cases h : entry.mKey = hwinterface
      · rw [hwGroups_cons_name h, srHandleHwEntry, if_pos h, srAddInterface]
        show (entries.foldlM (srHandleHwEntry heap) (ifs ++ [i] ++ [_])) = _
        rw [ih, List.mapIdx_cons, List.length_append, List.length_singleton]
        simp only [List.append_assoc, List.singleton_append, Nat.add_zero, Nat.add_assoc,
          Nat.add_comm 1]
        rfl
      · rw [hwGroups_cons_other h, srHandleHwEntry_snoc heap ifs i h]
        show (entries.foldlM (srHandleHwEntry heap) (ifs ++ [_])) = _
        rw [ih, withEntries_cons]

/-- Before the first name nothing may set an address. -/
theorem foldlM_srHandleHwEntry_nil (heap : IfHeap) (entries : List CHwEntry) :
    entries.foldlM (srHandleHwEntry heap) []
      = if AddressTooEarly [] entries then .error .nullInterface
        else .ok (describedIfs heap [] entries) := by
  induction entries with
  | nil => rfl
  | cons entry entries ih =>
      rw [List.foldlM_cons]
      by_cases h : entry.mKey = hwinterface
      · have hearly : ¬AddressTooEarly [] (entry :: entries) := by
          rintro ⟨-, e, he, -⟩
          rw [hwGroups_cons_name h] at he
          cases he
        -- the entry names the first interface, and every later one has a tail of the list to write
        -- to
        rw [if_neg hearly, srHandleHwEntry, if_pos h]
        refine (foldlM_srHandleHwEntry heap entries [] _).trans ?_
        rw [describedIfs, hwGroups_cons_name h, List.mapIdx_cons]
        simp only [List.length_nil, Nat.zero_add, Nat.add_comm 1]
        rfl
      · by_cases hset : entry.mKey = hwethip ∨ entry.mKey = hwether
        · have hearly : AddressTooEarly [] (entry :: entries) := by
            refine ⟨rfl, entry, ?_, hset⟩
            rw [hwGroups_cons_other h]
            exact List.mem_cons_self
          -- an address before any name is written through the null list
          rw [if_pos hearly, srHandleHwEntry, if_neg h]
          rcases hset with hip | hether
          · rw [if_pos hip]
            rfl
          · rw [if_neg (by rw [hether]; decide), if_pos hether]
            rfl
        · -- an entry that is only printed changes nothing
          have hsame : AddressTooEarly [] (entry :: entries) ↔ AddressTooEarly [] entries := by
            rw [AddressTooEarly, AddressTooEarly, hwGroups_cons_other h]
            simp only [List.mem_cons, exists_eq_or_imp, hset, false_or]
          obtain ⟨hip, hether⟩ := not_or.mp hset
          have hlist : describedIfs heap [] (entry :: entries) = describedIfs heap [] entries := by
            rw [describedIfs, describedIfs, hwGroups_cons_other h]
            rfl
          rw [hlist, srHandleHwEntry, if_neg h, if_neg hip, if_neg hether]
          refine Eq.trans ih ?_
          simp only [hsame]

/-- **The list a description leads to**: the assertion fails if an address comes before the first
interface, and otherwise each group is an interface. -/
theorem foldlM_srHandleHwEntry_eq (heap : IfHeap) (ifList : List SrIf) (entries : List CHwEntry) :
    entries.foldlM (srHandleHwEntry heap) ifList
      = if AddressTooEarly ifList entries then .error .nullInterface
        else .ok (describedIfs heap ifList entries) := by
  rcases List.eq_nil_or_concat ifList with rfl | ⟨ifs, i, rfl⟩
  · exact foldlM_srHandleHwEntry_nil heap entries
  · have hearly : ¬AddressTooEarly (ifs ++ [i]) entries := by
      rintro ⟨hnil, -⟩
      exact List.append_ne_nil_of_right_ne_nil ifs (List.cons_ne_nil i []) hnil
    rw [List.concat_eq_append, if_neg hearly, foldlM_srHandleHwEntry, describedIfs,
      List.getLast?_concat, List.dropLast_concat, List.length_append, List.length_singleton]

/-! ## In the message -/

/-- The `i`-th entry of a message. -/
def hwEntryAt (mem : Nat → UInt8) (i : Nat) : CHwEntry :=
  ⟨loadWord .big (memSlice mem (sizeofCBase + sizeofCHwEntry * i) 4) 0,
    memSlice mem (sizeofCBase + sizeofCHwEntry * i + 4) 32⟩

/-- The entries that fit into a message of `len` bytes. -/
def hwEntries (mem : Nat → UInt8) (len : Nat) : List CHwEntry :=
  (List.range ((len - sizeofCBase) / sizeofCHwEntry)).map (hwEntryAt mem)

theorem numEntries_eq {len : Nat} (hlow : sizeofCBase ≤ len) (hhigh : len ≤ 10000) :
    (numEntries (UInt32.ofNat len)).toInt.toNat = (len - sizeofCBase) / sizeofCHwEntry := by
  have hword : ((UInt32.ofNat len).toUInt64 - 8).toNat = len - 8 := by
    rw [UInt64.toNat_sub, UInt32.toNat_toUInt64, UInt32.toNat_ofNat']
    rw [sizeofCBase] at hlow
    have h8 : (8 : UInt64).toNat = 8 := rfl
    omega
  have hquot : (((UInt32.ofNat len).toUInt64 - 8) / UInt64.ofNat sizeofCHwEntry).toUInt32.toNat
      = (len - 8) / 36 := by
    rw [UInt64.toNat_toUInt32, UInt64.toNat_div, hword, sizeofCHwEntry]
    have h36 : (UInt64.ofNat 36).toNat = 36 := rfl
    rw [h36]
    omega
  have hint : ∀ x : UInt32, x.toNat < 2 ^ 31 → x.toInt32.toInt = x.toNat := fun x hx =>
    BitVec.toInt_eq_toNat_of_lt (by show 2 * x.toNat < 2 ^ 32; omega)
  rw [numEntries, hint _ (by rw [hquot]; omega), hquot, Int.toNat_natCast]
  rfl

theorem mHWInfo_window {limit : Nat} {mem : Nat → UInt8} {i : Nat}
    (h : i < (limit - sizeofCBase) / sizeofCHwEntry) :
    mHWInfo (window .outOfBounds limit mem) i = .ok (hwEntryAt mem i) := by
  have hmul : sizeofCHwEntry * (i + 1) ≤ limit - sizeofCBase := by
    rw [Nat.mul_comm]
    exact Nat.mul_le_of_le_div _ _ _ h
  rw [sizeofCHwEntry, sizeofCBase] at hmul
  rw [mHWInfo, loadNetWord, sizeofCBase, sizeofCHwEntry, bytes_window mem (by omega),
    bytes_window mem (by omega)]
  rfl

/-- The list that a message leads to, from the length it says it has. -/
theorem srHandleHwinfo_of_mLen {len : Nat} {mem : Nat → UInt8} (hlow : sizeofCBase ≤ len)
    (hhigh : len ≤ 10000)
    (hmLen : loadNetWord (window .outOfBounds len mem) 0 = .ok (UInt32.ofNat len))
    (heap : IfHeap) (ifList : List SrIf) :
    srHandleHwinfo (window .outOfBounds len mem) heap ifList
      = if AddressTooEarly ifList (hwEntries mem len) then .error .nullInterface
        else .ok (describedIfs heap ifList (hwEntries mem len)) := by
  have hloop : ∀ (is : List Nat) (ifs : List SrIf),
      (∀ i ∈ is, i < (len - sizeofCBase) / sizeofCHwEntry) →
      is.foldlM (fun ifs i => do
        srHandleHwEntry heap ifs (← mHWInfo (window .outOfBounds len mem) i)) ifs
        = (is.map (hwEntryAt mem)).foldlM (srHandleHwEntry heap) ifs := by
    intro is
    induction is with
    | nil => exact fun _ _ => rfl
    | cons i is ih =>
        intro ifs his
        rw [List.foldlM_cons, List.map_cons, List.foldlM_cons,
          mHWInfo_window (his i List.mem_cons_self)]
        exact congrArg _ (funext fun ifs' => ih ifs' fun j hj => his j (List.mem_cons_of_mem i hj))
  rw [← foldlM_srHandleHwEntry_eq, srHandleHwinfo, hmLen]
  show (List.range (numEntries (UInt32.ofNat len)).toInt.toNat).foldlM _ ifList = _
  rw [numEntries_eq hlow hhigh, hloop _ _ fun i hi => List.mem_range.mp hi]
  rfl

/-- **What a description of the hardware does**: no byte is read outside the message, the assertion
fails if an address comes before the first interface, and otherwise the list is as described. -/
theorem srHandleHwinfo_eq {len : Nat} (hlow : sizeofCBase ≤ len) (hhigh : len ≤ 10000)
    (mem : Nat → UInt8) (heap : IfHeap) (ifList : List SrIf) :
    srHandleHwinfo (window .outOfBounds len (withLen len mem)) heap ifList
      = if AddressTooEarly ifList (hwEntries (withLen len mem) len) then .error .nullInterface
        else .ok (describedIfs heap ifList (hwEntries (withLen len mem) len)) := by
  have hmLen : loadNetWord (window .outOfBounds len (withLen len mem)) 0
      = .ok (UInt32.ofNat len) := by
    rw [loadNetWord_window (by rw [sizeofCBase] at hlow; omega), loadNetWord_withLen]
  exact srHandleHwinfo_of_mLen hlow hhigh hmLen heap ifList

/-- A description of one interface: its name and its address. -/
def oneInterface : Bytes :=
  wordBytes .big 80 ++ wordBytes .big 0
    ++ wordBytes .big hwinterface ++ [101, 116, 104, 48] ++ List.replicate 28 0
    ++ wordBytes .big hwethip ++ [10, 0, 0, 1] ++ List.replicate 28 0

theorem srHandleHwinfo_eq_oneInterface :
    sizeofCBase ≤ 80 ∧ 80 ≤ 10000 ∧
    srHandleHwinfo (window .outOfBounds 80 (withLen 80 (byteAt oneInterface)))
        (fun _ => (etherAddrAt [] 0, 0)) []
      = .ok [⟨"eth0", etherAddrAt [] 0, load32 [10, 0, 0, 1] 0⟩] := by
  refine ⟨by decide, by decide, ?_⟩
  rw [srHandleHwinfo_eq (by decide) (by decide)]
  decide +kernel

end NetworkProjects.Router
