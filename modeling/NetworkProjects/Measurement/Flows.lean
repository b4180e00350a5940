import NetworkProjects.Lib.Bytes
import NetworkProjects.Lib.Prefixes

/-!
# Traffic of a network (`q_1.py`)

The script adds up the bytes and packets that come from and go to `128.112.0.0/16`. It masks every
address with the mask length of its own record and compares the result with the prefix of 16 bits.
A record with a longer mask is missed if its address has bits behind the prefix, one with a much
shorter mask always, and one with a mask that is a little shorter is counted for addresses that
are not in the network. So the sums are right if and only if what is missed and what is counted
too much come to the same (`attributed_iff`).
-/

namespace NetworkProjects.Measurement

open NetworkProjects.Lib

/-! ## The script

The mask and the comparison are done on numbers, as in the script. -/

/-- An IPv4 address, `a.b.c.d`. -/
structure Address where
  a : UInt8
  b : UInt8
  c : UInt8
  d : UInt8
  deriving DecidableEq, Repr

/-- `ip2long`. -/
def ip2long (ip : Address) : Nat :=
  ip.a.toNat * 2 ^ 24 + ip.b.toNat * 2 ^ 16 + ip.c.toNat * 2 ^ 8 + ip.d.toNat

/-- `Mask`. -/
def mask (len : Nat) : Nat := (List.range' 1 len).foldl (fun ans x => ans + 2 ^ (32 - x)) 0

/-- A row of the file. -/
structure Flow where
  /-- `row[4]` -/
  packets : Nat
  /-- `row[5]` -/
  bytes : Nat
  /-- `row[10]` -/
  srcAddr : Address
  /-- `row[11]` -/
  desAddr : Address
  /-- `row[20]` -/
  srcLen : Fin 33
  /-- `row[21]` -/
  desLen : Fin 33
  deriving DecidableEq, Repr

/-- `128.112.0.0` -/
def princeton : Address := ⟨128, 112, 0, 0⟩

def princetonIPPrefix : Nat := ip2long princeton &&& mask 16

/-- The globals that the loop adds to. -/
structure Totals where
  totalTraffic : Nat
  totalPackets : Nat
  pricetonTraffic1 : Nat
  pricetonTraffic1P : Nat
  pricetonTraffic2 : Nat
  pricetonTraffic2P : Nat
  deriving DecidableEq, Repr

/-- The comparison for an address and the mask length of its record. -/
def matched (ip : Address) (len : Fin 33) : Bool := ip2long ip &&& mask len == princetonIPPrefix

/-- A round of the loop over the rows. -/
def countRow (t : Totals) (row : Flow) : Totals :=
  let t := { t with
    totalTraffic := t.totalTraffic + row.bytes, totalPackets := t.totalPackets + row.packets }
  let t := if matched row.srcAddr row.srcLen then { t with
      pricetonTraffic1 := t.pricetonTraffic1 + row.bytes
      pricetonTraffic1P := t.pricetonTraffic1P + row.packets }
    else t
  if matched row.desAddr row.desLen then { t with
      pricetonTraffic2 := t.pricetonTraffic2 + row.bytes
      pricetonTraffic2P := t.pricetonTraffic2P + row.packets }
  else t

def totals (rows : List Flow) : Totals := rows.foldl countRow ⟨0, 0, 0, 0, 0, 0⟩

/-! ## What should be counted

An address is in the network or it is not, whatever the length of the mask in its record. -/

/-- The address lies in `128.112.0.0/16`. -/
def inPrinceton (ip : Address) : Bool := ip.a == 128 && ip.b == 112

/-- What the rows of a kind come to. -/
def sumWhere (p : Flow → Bool) (amount : Flow → Nat) (rows : List Flow) : Nat :=
  ((rows.filter p).map amount).sum

/-- The four sums are those of the rows with an address in the network. -/
structure Attributed (rows : List Flow) : Prop where
  fromBytes : (totals rows).pricetonTraffic1
    = sumWhere (fun row => inPrinceton row.srcAddr) Flow.bytes rows
  fromPackets : (totals rows).pricetonTraffic1P
    = sumWhere (fun row => inPrinceton row.srcAddr) Flow.packets rows
  toBytes : (totals rows).pricetonTraffic2
    = sumWhere (fun row => inPrinceton row.desAddr) Flow.bytes rows
  toPackets : (totals rows).pricetonTraffic2P
    = sumWhere (fun row => inPrinceton row.desAddr) Flow.packets rows

/-! ## What goes wrong

Records with fewer than 12 bits of mask are missed, and some with more than 16. Some with 12 to 15
are counted for addresses outside. -/

/-- An address in the network with fewer than 12 bits of mask, or with more than 16 if there are
bits among them behind the prefix. -/
def missed (ip : Address) (len : Fin 33) : Bool :=
  inPrinceton ip &&
    (len.val < 12 || 16 < len.val && !decide (SamePrefix 32 len (ip2long ip) (ip2long princeton)))

/-- An address outside the network that starts like it, with 12 to 15 bits of mask. -/
def included (ip : Address) (len : Fin 33) : Bool :=
  !inPrinceton ip &&
    (12 ≤ len.val && len.val < 16 && decide (SamePrefix 32 len (ip2long ip) (ip2long princeton)))

/-- What is missed comes to as much as what is counted too much. -/
structure EvensOut (rows : List Flow) : Prop where
  fromBytes : sumWhere (fun row => missed row.srcAddr row.srcLen) Flow.bytes rows
    = sumWhere (fun row => included row.srcAddr row.srcLen) Flow.bytes rows
  fromPackets : sumWhere (fun row => missed row.srcAddr row.srcLen) Flow.packets rows
    = sumWhere (fun row => included row.srcAddr row.srcLen) Flow.packets rows
  toBytes : sumWhere (fun row => missed row.desAddr row.desLen) Flow.bytes rows
    = sumWhere (fun row => included row.desAddr row.desLen) Flow.bytes rows
  toPackets : sumWhere (fun row => missed row.desAddr row.desLen) Flow.packets rows
    = sumWhere (fun row => included row.desAddr row.desLen) Flow.packets rows

section Matching

variable {ip : Address} {len : Fin 33}

theorem ip2long_lt (ip : Address) : ip2long ip < 2 ^ 32 := by
  have ha := ip.a.toNat_lt
  have hb := ip.b.toNat_lt
  have hc := ip.c.toNat_lt
  have hd := ip.d.toNat_lt
  rw [ip2long]
  omega

theorem mask_eq {n : Nat} (h : n ≤ 32) : mask n = prefixMask 32 n := by
  induction n with
  | zero => rfl
  | succ n ih =>
      rw [prefixMask_succ h, ← ih (Nat.le_of_succ_le h), mask, List.range'_concat,
        List.foldl_append, Nat.one_mul, Nat.add_comm 1 n]
      rfl

/-- The network is that of the addresses that start with its 16 bits. -/
theorem inPrinceton_iff :
    inPrinceton ip = true ↔ SamePrefix 32 16 (ip2long ip) (ip2long princeton) := by
  have ha := ip.a.toNat_lt
  have hb := ip.b.toNat_lt
  have hc := ip.c.toNat_lt
  have hd := ip.d.toNat_lt
  have hoctets : inPrinceton ip = true ↔ ip.a.toNat = 128 ∧ ip.b.toNat = 112 := by
    simp [inPrinceton, ← UInt8.toNat_inj]
  have hnet : ip2long princeton = 2154823680 := rfl
  rw [hoctets, SamePrefix, hnet, ip2long]
  omega

/-- The prefix has 12 bits and then zeros. -/
theorem matched_iff : matched ip len = true ↔
    12 ≤ len.val ∧ SamePrefix 32 len (ip2long ip) (ip2long princeton) := by
  have hlen := Nat.le_of_lt_succ len.isLt
  have hnet : princetonIPPrefix = ip2long princeton := by decide
  have hbits : ip2long princeton = 2 ^ 20 * 2055 := rfl
  have hzeros : 2 ^ (32 - len.val) ∣ ip2long princeton ↔ 12 ≤ len.val := by
    constructor
    · intro hdvd
      by_contra hshort
      have hmore : 2 ^ 21 ∣ ip2long princeton :=
        (Nat.pow_dvd_pow 2 (by omega)).trans hdvd
      exact absurd hmore (by decide)
    · intro hlong
      rw [hbits]
      exact (Nat.pow_dvd_pow 2 (by omega)).trans (Nat.dvd_mul_right _ _)
  rw [matched, beq_iff_eq, hnet, mask_eq hlen, and_prefixMask_eq_iff (ip2long_lt ip) hlen, hzeros]

/-- A row that is not counted although it should be. -/
theorem missed_eq (ip : Address) (len : Fin 33) :
    missed ip len = (inPrinceton ip && !matched ip len) := by
  have hlen := Nat.le_of_lt_succ len.isLt
  rw [Bool.eq_iff_iff]
  simp only [missed, Bool.and_eq_true, Bool.or_eq_true, Bool.not_eq_true', decide_eq_true_eq,
    ← Bool.not_eq_true, matched_iff, not_and]
  refine and_congr_right fun hin => ?_
  rw [inPrinceton_iff] at hin
  by_cases hshort : len.val < 12
  · exact ⟨fun _ hle => absurd hle (Nat.not_le.mpr hshort), fun _ => .inl hshort⟩
  · have hle := Nat.not_lt.mp hshort
    constructor
    · rintro (hlt | ⟨-, hno⟩)
      · exact absurd hlt hshort
      · exact fun _ => hno
    · intro hno
      -- with 16 bits or fewer the address would match
      refine .inr ⟨?_, hno hle⟩
      by_contra hmost
      exact hno hle (hin.shorter (Nat.not_lt.mp hmost) (by decide))

/-- A row that is counted although it should not be. -/
theorem included_eq (ip : Address) (len : Fin 33) :
    included ip len = (matched ip len && !inPrinceton ip) := by
  have hlen := Nat.le_of_lt_succ len.isLt
  rw [Bool.eq_iff_iff]
  simp only [included, Bool.and_eq_true, Bool.not_eq_true', decide_eq_true_eq,
    ← Bool.not_eq_true, matched_iff, inPrinceton_iff]
  constructor
  · rintro ⟨hout, ⟨hle, -⟩, hsame⟩
    exact ⟨⟨hle, hsame⟩, hout⟩
  · rintro ⟨⟨hle, hsame⟩, hout⟩
    refine ⟨hout, ⟨hle, ?_⟩, hsame⟩
    -- with 16 bits or more the address would be in the network
    by_contra hlong
    exact hout (hsame.shorter (Nat.not_lt.mp hlong) hlen)

end Matching

/-! ## The sums -/

section Sums

variable {p q : Flow → Bool} {amount : Flow → Nat} {rows : List Flow}

theorem sumWhere_cons (p : Flow → Bool) (amount : Flow → Nat) (row : Flow) (rows : List Flow) :
    sumWhere p amount (row :: rows)
      = (if p row then amount row else 0) + sumWhere p amount rows := by
  rw [sumWhere, List.filter_cons]
  split
  · rw [List.map_cons, List.sum_cons]
    rfl
  · rw [Nat.zero_add]
    rfl

/-- What is in `q` only makes up for what is in `p` only. -/
theorem sumWhere_exchange (p q : Flow → Bool) (amount : Flow → Nat) (rows : List Flow) :
    sumWhere p amount rows + sumWhere (fun row => q row && !p row) amount rows
      = sumWhere q amount rows + sumWhere (fun row => p row && !q row) amount rows := by
  induction rows with
  | nil => rfl
  | cons row rows ih =>
      simp only [sumWhere_cons]
      cases p row <;> cases q row <;> simp <;> omega

/-- **What the loop has added up** behind these rows is what was there before them, and the sums
over the rows. -/
theorem foldl_countRow (t : Totals) (rows : List Flow) : rows.foldl countRow t =
    { totalTraffic := t.totalTraffic + (rows.map Flow.bytes).sum
      totalPackets := t.totalPackets + (rows.map Flow.packets).sum
      pricetonTraffic1 := t.pricetonTraffic1 +
        sumWhere (fun row => matched row.srcAddr row.srcLen) Flow.bytes rows
      pricetonTraffic1P := t.pricetonTraffic1P +
        sumWhere (fun row => matched row.srcAddr row.srcLen) Flow.packets rows
      pricetonTraffic2 := t.pricetonTraffic2 +
        sumWhere (fun row => matched row.desAddr row.desLen) Flow.bytes rows
      pricetonTraffic2P := t.pricetonTraffic2P +
        sumWhere (fun row => matched row.desAddr row.desLen) Flow.packets rows } := by
  induction rows generalizing t with
  | nil => rfl
  | cons row rows ih =>
      rw [List.foldl_cons, ih]
      simp only [countRow, sumWhere_cons, List.map_cons, List.sum_cons]
      cases matched row.srcAddr row.srcLen <;> cases matched row.desAddr row.desLen <;>
        simp [Nat.add_assoc]

/-- A sum is right if what is missed makes up for what is counted too much. -/
theorem sumWhere_matched_iff (ip : Flow → Address) (len : Flow → Fin 33) (amount : Flow → Nat)
    (rows : List Flow) :
    sumWhere (fun row => matched (ip row) (len row)) amount rows
        = sumWhere (fun row => inPrinceton (ip row)) amount rows ↔
      sumWhere (fun row => missed (ip row) (len row)) amount rows
        = sumWhere (fun row => included (ip row) (len row)) amount rows := by
  have hexchange := sumWhere_exchange (fun row => matched (ip row) (len row))
    (fun row => inPrinceton (ip row)) amount rows
  simp only [missed_eq, included_eq]
  omega

end Sums

/-- **Traffic is attributed by address** if and only if what is missed and what is counted too much
come to the same. -/
theorem attributed_iff (rows : List Flow) : Attributed rows ↔ EvensOut rows := by
  have htotals : totals rows = _ := foldl_countRow _ rows
  have hfrom := fun amount => sumWhere_matched_iff Flow.srcAddr Flow.srcLen amount rows
  have hto := fun amount => sumWhere_matched_iff Flow.desAddr Flow.desLen amount rows
  constructor
  · rintro ⟨h₁, h₂, h₃, h₄⟩
    simp only [htotals, Nat.zero_add] at h₁ h₂ h₃ h₄
    exact ⟨(hfrom _).mp h₁, (hfrom _).mp h₂, (hto _).mp h₃, (hto _).mp h₄⟩
  · rintro ⟨h₁, h₂, h₃, h₄⟩
    refine ⟨?_, ?_, ?_, ?_⟩ <;> simp only [htotals, Nat.zero_add]
    · exact (hfrom _).mpr h₁
    · exact (hfrom _).mpr h₂
    · exact (hto _).mpr h₃
    · exact (hto _).mpr h₄

/-- A flow from `128.112.5.1` with a mask of 24 bits is missed, and one from `128.113.0.1` with 15
is counted. -/
theorem not_attributed :
    totals [⟨1, 40, ⟨128, 112, 5, 1⟩, ⟨10, 0, 0, 1⟩, 24, 24⟩] = ⟨40, 1, 0, 0, 0, 0⟩ ∧
    totals [⟨1, 40, ⟨128, 113, 0, 1⟩, ⟨10, 0, 0, 1⟩, 15, 24⟩] = ⟨40, 1, 40, 1, 0, 0⟩ ∧
    ¬ ∀ rows : List Flow, Attributed rows := by
  refine ⟨by decide, by decide, fun hall => ?_⟩
  have hbytes := (hall [⟨1, 40, ⟨128, 112, 5, 1⟩, ⟨10, 0, 0, 1⟩, 24, 24⟩]).fromBytes
  exact absurd hbytes (by decide)

end NetworkProjects.Measurement
