import Mathlib.Data.List.Basic
import Mathlib.Tactic.IntervalCases

/-!
# Byte strings as memory

A buffer is the list of its bytes and a pointer into it is an offset. `byteAt`, `slice` and
`store` are the accesses a C program makes, `load16`/`load32` the loads of a little-endian
host. Every multi-byte access is defined from `byteAt`, so two buffers that agree byte by byte
on a range agree on everything read from that range (`load32_congr`, `slice_congr`).
-/

namespace NetworkProjects.Lib

/-- A byte string. -/
abbrev Bytes := List UInt8

/-! ## Accesses -/

/-- The byte at an offset (`0` past the end; callers check the length first). -/
def byteAt (p : Bytes) (off : Nat) : UInt8 := p.getD off 0

/-- `n` bytes from an offset. -/
def slice (p : Bytes) (off n : Nat) : Bytes := (p.drop off).take n

/-- Overwrite the bytes from an offset. -/
def store (p : Bytes) (off : Nat) (bs : Bytes) : Bytes :=
  p.take off ++ bs ++ p.drop (off + bs.length)

/-- A 16-bit load on a little-endian host. -/
def load16 (p : Bytes) (off : Nat) : Nat :=
  (byteAt p off).toNat + 256 * (byteAt p (off + 1)).toNat

/-- A 32-bit load on a little-endian host. -/
def load32 (p : Bytes) (off : Nat) : UInt32 :=
  UInt32.ofNat ((byteAt p off).toNat + 256 * (byteAt p (off + 1)).toNat
    + 65536 * (byteAt p (off + 2)).toNat + 16777216 * (byteAt p (off + 3)).toNat)

/-- The two bytes of a 16-bit word on a little-endian host. -/
def bytes16 (n : Nat) : Bytes := [UInt8.ofNat n, UInt8.ofNat (n / 256)]

/-- The four bytes of a 32-bit word on a little-endian host. -/
def bytes32 (w : UInt32) : Bytes :=
  [UInt8.ofNat w.toNat, UInt8.ofNat (w.toNat / 256), UInt8.ofNat (w.toNat / 65536),
    UInt8.ofNat (w.toNat / 16777216)]

theorem length_bytes16 (n : Nat) : (bytes16 n).length = 2 := rfl
theorem length_bytes32 (w : UInt32) : (bytes32 w).length = 4 := rfl

/-- Swap the two bytes of a 16-bit word: `ntohs` and `htons` on a little-endian host. -/
def ntohs (n : Nat) : Nat := n % 256 * 256 + n / 256 % 256

/-! ## Reading through list operations -/

theorem byteAt_append_left {p q : Bytes} {i : Nat} (h : i < p.length) :
    byteAt (p ++ q) i = byteAt p i := by
  simp [byteAt, List.getElem?_append_left h]

theorem byteAt_append_right {p q : Bytes} {i : Nat} (h : p.length ≤ i) :
    byteAt (p ++ q) i = byteAt q (i - p.length) := by
  simp [byteAt, List.getElem?_append_right h]

@[simp] theorem byteAt_drop (p : Bytes) (k i : Nat) : byteAt (p.drop k) i = byteAt p (k + i) := by
  simp [byteAt]

theorem byteAt_take {p : Bytes} {n i : Nat} (h : i < n) : byteAt (p.take n) i = byteAt p i := by
  simp [byteAt, h]

theorem byteAt_slice {p : Bytes} {off n i : Nat} (h : i < n) :
    byteAt (slice p off n) i = byteAt p (off + i) := by
  rw [slice, byteAt_take h, byteAt_drop]

theorem length_slice {p : Bytes} {off n : Nat} (h : off + n ≤ p.length) :
    (slice p off n).length = n := by
  simp [slice]
  omega

/-- Two byte strings of one length that agree at every offset are equal. -/
theorem ext_byteAt {p q : Bytes} (hlen : p.length = q.length)
    (h : ∀ i < p.length, byteAt p i = byteAt q i) : p = q := by
  apply List.ext_getElem hlen
  intro i hp hq
  have := h i hp
  simpa [byteAt, hp, hq] using this

theorem slice_congr {p q : Bytes} {off off' n : Nat} (hp : off + n ≤ p.length)
    (hq : off' + n ≤ q.length) (h : ∀ i < n, byteAt p (off + i) = byteAt q (off' + i)) :
    slice p off n = slice q off' n := by
  apply ext_byteAt
  · rw [length_slice hp, length_slice hq]
  · intro i hi
    rw [length_slice hp] at hi
    rw [byteAt_slice hi, byteAt_slice hi, h i hi]

theorem slice_add (p : Bytes) (off m n : Nat) :
    slice p off (m + n) = slice p off m ++ slice p (off + m) n := by
  simp [slice, List.take_add]

/-- Two bytes, read one by one. -/
theorem slice_two {p : Bytes} {off : Nat} (h : off + 2 ≤ p.length) :
    slice p off 2 = [byteAt p off, byteAt p (off + 1)] := by
  apply ext_byteAt
  · rw [length_slice h]
    rfl
  · intro i hi
    rw [length_slice h] at hi
    rw [byteAt_slice hi]
    interval_cases i <;> rfl

/-! ## Reading back a store -/

theorem length_store {p bs : Bytes} {off : Nat} (h : off + bs.length ≤ p.length) :
    (store p off bs).length = p.length := by
  simp [store]
  omega

/-- A byte outside the stored range is the old one. -/
theorem byteAt_store_of_not_mem {p bs : Bytes} {off i : Nat} (h : off + bs.length ≤ p.length)
    (hi : i < off ∨ off + bs.length ≤ i) : byteAt (store p off bs) i = byteAt p i := by
  have hoff : (p.take off).length = off := by simp; omega
  unfold store
  rw [List.append_assoc]
  rcases hi with hi | hi
  · rw [byteAt_append_left (by omega), byteAt_take hi]
  · rw [byteAt_append_right (by omega), byteAt_append_right (by omega), byteAt_drop]
    congr 1
    omega

/-- A byte inside the stored range is the stored one. -/
theorem byteAt_store_of_mem {p bs : Bytes} {off i : Nat} (h : off + bs.length ≤ p.length)
    (hlo : off ≤ i) (hhi : i < off + bs.length) :
    byteAt (store p off bs) i = byteAt bs (i - off) := by
  have hoff : (p.take off).length = off := by simp; omega
  unfold store
  rw [List.append_assoc, byteAt_append_right (by omega), byteAt_append_left (by omega), hoff]

theorem slice_store_self {p bs : Bytes} {off : Nat} (h : off + bs.length ≤ p.length) :
    slice (store p off bs) off bs.length = bs := by
  have hoff : (p.take off).length = off := by simp; omega
  rw [slice, store, List.append_assoc, List.drop_left' hoff, List.take_left' rfl]

/-- A slice beside the stored range is the old one. -/
theorem slice_store_of_disjoint {p bs : Bytes} {off lo n : Nat} (h : off + bs.length ≤ p.length)
    (hp : lo + n ≤ p.length) (hdisj : lo + n ≤ off ∨ off + bs.length ≤ lo) :
    slice (store p off bs) lo n = slice p lo n := by
  apply slice_congr (by rw [length_store h]; exact hp) hp
  intro i hi
  exact byteAt_store_of_not_mem h (by omega)

/-- A slice around the stored range. -/
theorem slice_store_around {p bs : Bytes} {pos off n before after : Nat} (hpos : pos = off + before)
    (hn : n = before + bs.length + after) (hroom : off + n ≤ p.length) :
    slice (store p pos bs) off n
      = slice p off before ++ bs ++ slice p (pos + bs.length) after := by
  have hstore : pos + bs.length ≤ p.length := by omega
  rw [hn, slice_add, slice_add, ← Nat.add_assoc, ← hpos, slice_store_self hstore,
    slice_store_of_disjoint hstore (by omega) (.inl (by omega)),
    slice_store_of_disjoint hstore (by omega) (.inr (by omega))]

/-- A slice around one of its words. -/
theorem slice_around {p : Bytes} {pos off n before after : Nat} (hpos : pos = off + before)
    (hn : n = before + 2 + after) (hroom : off + n ≤ p.length) :
    slice p off n
      = slice p off before ++ [byteAt p pos, byteAt p (pos + 1)] ++ slice p (pos + 2) after := by
  rw [hn, slice_add, slice_add, ← Nat.add_assoc, ← hpos, slice_two (by omega)]

/-- The second of two stores to the same place counts. -/
theorem store_store {p bs bs' : Bytes} {off : Nat} (h : off + bs.length ≤ p.length)
    (hlen : bs'.length = bs.length) : store (store p off bs) off bs' = store p off bs' := by
  have hstored := length_store h
  have h' : off + bs'.length ≤ p.length := by omega
  have h'' : off + bs'.length ≤ (store p off bs).length := by omega
  apply ext_byteAt
  · rw [length_store h'', length_store h', hstored]
  · intro i _
    by_cases hi : off ≤ i ∧ i < off + bs'.length
    · rw [byteAt_store_of_mem h'' hi.1 hi.2, byteAt_store_of_mem h' hi.1 hi.2]
    · rw [byteAt_store_of_not_mem h'' (by omega), byteAt_store_of_not_mem h' (by omega),
        byteAt_store_of_not_mem h (by omega)]

/-- Stores behind one another. -/
def storeAll (p : Bytes) (off : Nat) : List Bytes → Bytes
  | [] => p
  | bs :: rest => storeAll (store p off bs) (off + bs.length) rest

theorem storeAll_eq {p : Bytes} {off : Nat} (fields : List Bytes)
    (h : off + fields.flatten.length ≤ p.length) :
    storeAll p off fields = p.take off ++ fields.flatten ++ p.drop (off + fields.flatten.length) := by
  induction fields generalizing p off with
  | nil =>
      rw [storeAll, List.flatten_nil, List.append_nil, List.length_nil, Nat.add_zero,
        List.take_append_drop]
  | cons bs rest ih =>
      rw [List.flatten_cons, List.length_append] at h
      have hoff : (p.take off).length = off := by
        rw [List.length_take]
        omega
      have hfront : (p.take off ++ bs).length = off + bs.length := by
        rw [List.length_append, hoff]
      have hstore : off + bs.length ≤ p.length := by omega
      rw [storeAll, ih (by rw [length_store hstore]; omega), store, List.flatten_cons,
        List.length_append, List.take_left' hfront, List.drop_append, hfront, List.drop_drop,
        List.drop_of_length_le (by omega), List.nil_append, Nat.add_sub_cancel_left,
        ← Nat.add_assoc, List.append_assoc (p.take off)]

/-- **A buffer that is filled field by field** is its fields, whatever was in it. -/
theorem storeAll_full {p : Bytes} {fields : List Bytes} (h : fields.flatten.length = p.length) :
    storeAll p 0 fields = fields.flatten := by
  rw [storeAll_eq fields (by omega), h, Nat.zero_add, List.take_zero, List.nil_append,
    List.drop_length, List.append_nil]

/-- A buffer of `n` bytes that holds `v` at `k`. Filling in the rest of it keeps that. -/
structure HoldsAt (n k : Nat) (v : UInt8) (buf : Bytes) : Prop where
  length : buf.length = n
  byte : byteAt buf k = v

theorem holdsAt_store {n k : Nat} {v : UInt8} {buf : Bytes} (hlen : buf.length = n)
    (hk : k < n) : HoldsAt n k v (store buf k [v]) where
  length := by rw [length_store (by simp only [List.length_singleton]; omega), hlen]
  byte := by
    rw [byteAt_store_of_mem (by simp only [List.length_singleton]; omega) (Nat.le_refl _)
      (by simp)]
    simp [byteAt]

theorem HoldsAt.store {n k off : Nat} {v : UInt8} {buf bs : Bytes} (h : HoldsAt n k v buf)
    (hfits : off + bs.length ≤ n) (haway : k < off ∨ off + bs.length ≤ k) :
    HoldsAt n k v (store buf off bs) where
  length := by rw [length_store (by rw [h.length]; exact hfits), h.length]
  byte := by rw [byteAt_store_of_not_mem (by rw [h.length]; exact hfits) haway, h.byte]

/-! ## Loads depend on the bytes they read only -/

theorem load16_congr {p q : Bytes} {i j : Nat}
    (h : ∀ k < 2, byteAt p (i + k) = byteAt q (j + k)) : load16 p i = load16 q j := by
  have h0 := h 0 (by decide)
  have h1 := h 1 (by decide)
  simp only [Nat.add_zero] at h0
  simp only [load16, h0, h1]

/-- A load determines the bytes it has read. -/
theorem byteAt_of_load16 {p q : Bytes} {i j : Nat} (h : load16 p i = load16 q j) :
    byteAt p i = byteAt q j ∧ byteAt p (i + 1) = byteAt q (j + 1) := by
  have h1 := (byteAt p i).toNat_lt
  have h2 := (byteAt q j).toNat_lt
  unfold load16 at h
  constructor
  · exact UInt8.toNat_inj.mp (by omega)
  · exact UInt8.toNat_inj.mp (by omega)

theorem load32_congr {p q : Bytes} {i j : Nat}
    (h : ∀ k < 4, byteAt p (i + k) = byteAt q (j + k)) : load32 p i = load32 q j := by
  have h0 := h 0 (by decide)
  have h1 := h 1 (by decide)
  have h2 := h 2 (by decide)
  have h3 := h 3 (by decide)
  simp only [Nat.add_zero] at h0
  simp only [load32, h0, h1, h2, h3]

/-! ## What a field of a longer buffer holds -/

theorem load32_bytes32 (w : UInt32) : load32 (bytes32 w) 0 = w := by
  apply UInt32.toNat_inj.mp
  have hw := w.toNat_lt
  simp only [load32, bytes32, byteAt, List.getD_cons_zero, List.getD_cons_succ, UInt8.toNat_ofNat',
    UInt32.toNat_ofNat', Nat.zero_add, Nat.reducePow] at hw ⊢
  omega

theorem load16_bytes16_of_lt {n : Nat} (h : n < 2 ^ 16) : load16 (bytes16 n) 0 = n := by
  simp only [load16, bytes16, byteAt, List.getD_cons_zero, List.getD_cons_succ, UInt8.toNat_ofNat',
    Nat.zero_add, Nat.reducePow] at h ⊢
  omega

/-- The bytes of one part of a buffer. -/
theorem byteAt_between {pre mid post : Bytes} {i : Nat} (h : i < mid.length) :
    byteAt (pre ++ mid ++ post) (pre.length + i) = byteAt mid i := by
  rw [byteAt_append_left (by simp; omega), byteAt_append_right (by omega)]
  congr 1
  omega

theorem load16_between (pre post : Bytes) (n : Nat) :
    load16 (pre ++ bytes16 n ++ post) pre.length = load16 (bytes16 n) 0 := by
  apply load16_congr
  intro k hk
  rw [byteAt_between (by simpa [bytes16] using hk), Nat.zero_add]

theorem load32_between (pre post : Bytes) (w : UInt32) :
    load32 (pre ++ bytes32 w ++ post) pre.length = w := by
  rw [← load32_bytes32 w]
  apply load32_congr
  intro k hk
  rw [load32_bytes32, byteAt_between (by simpa [bytes32] using hk), Nat.zero_add]

end NetworkProjects.Lib
