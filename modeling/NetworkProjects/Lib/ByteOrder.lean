import NetworkProjects.Lib.Bytes

/-!
# Byte orders

A host keeps a word in memory in its own byte order, and on the wire words are big-endian.
`htonl` is the word whose bytes in memory are the ones that belong on the wire, and `ntohl` goes
back. Arithmetic on a word in network order is arithmetic on the wrong bytes, except on a
big-endian host: `ntohl_htonl_add_one`.
-/

namespace NetworkProjects.Lib

inductive ByteOrder
  | little
  | big
  deriving DecidableEq, Repr

/-! ## Words in memory -/

/-- The bytes of a 32-bit word. -/
def wordBytes : ByteOrder → UInt32 → Bytes
  | .little, w => bytes32 w
  | .big, w => (bytes32 w).reverse

/-- A 32-bit load. -/
def loadWord : ByteOrder → Bytes → Nat → UInt32
  | .little, p, off => load32 p off
  | .big, p, off => load32 (slice p off 4).reverse 0

/-- The bytes of a 16-bit word. -/
def halfBytes : ByteOrder → UInt16 → Bytes
  | .little, n => bytes16 n.toNat
  | .big, n => (bytes16 n.toNat).reverse

/-- A 16-bit load. -/
def loadHalf : ByteOrder → Bytes → Nat → UInt16
  | .little, p, off => UInt16.ofNat (load16 p off)
  | .big, p, off => UInt16.ofNat (load16 (slice p off 2).reverse 0)

theorem load16_bytes16 (n : UInt16) : UInt16.ofNat (load16 (bytes16 n.toNat) 0) = n := by
  apply UInt16.toNat_inj.mp
  have hn := n.toNat_lt
  simp only [load16, bytes16, byteAt, List.getD_cons_zero, List.getD_cons_succ, UInt8.toNat_ofNat',
    UInt16.toNat_ofNat', Nat.zero_add, Nat.reducePow] at hn ⊢
  omega

/-- A word is read back where its bytes are. -/
theorem loadWord_of_slice {o : ByteOrder} {w : UInt32} {p : Bytes} {off : Nat}
    (h : slice p off 4 = wordBytes o w) : loadWord o p off = w := by
  cases o with
  | big =>
      rw [loadWord, h, wordBytes, List.reverse_reverse]
      exact load32_bytes32 w
  | little =>
      rw [loadWord, ← load32_bytes32 w]
      apply load32_congr
      intro k hk
      rw [← byteAt_slice hk, h, wordBytes, Nat.zero_add]

theorem loadHalf_of_slice {o : ByteOrder} {n : UInt16} {p : Bytes} {off : Nat}
    (h : slice p off 2 = halfBytes o n) : loadHalf o p off = n := by
  cases o with
  | big =>
      rw [loadHalf, h, halfBytes, List.reverse_reverse]
      exact load16_bytes16 n
  | little =>
      have hload : load16 p off = load16 (bytes16 n.toNat) 0 := by
        apply load16_congr
        intro k hk
        rw [← byteAt_slice hk, h, halfBytes, Nat.zero_add]
      rw [loadHalf, hload, load16_bytes16]

/-! ## Network order -/

namespace ByteOrder

/-- `htonl`. -/
def htonl (o : ByteOrder) (w : UInt32) : UInt32 := loadWord o (wordBytes .big w) 0

/-- `ntohl`. -/
def ntohl (o : ByteOrder) (w : UInt32) : UInt32 := loadWord .big (wordBytes o w) 0

/-- `htons`. -/
def htons (o : ByteOrder) (n : UInt16) : UInt16 := loadHalf o (halfBytes .big n) 0

/-- `ntohs`. -/
def ntohs (o : ByteOrder) (n : UInt16) : UInt16 := loadHalf .big (halfBytes o n) 0

/-- What is read from the wire is what the bytes of a word in memory say there. -/
theorem ntohl_of_slice {o : ByteOrder} {w : UInt32} {p : Bytes} {off : Nat}
    (h : slice p off 4 = wordBytes o w) : loadWord .big p off = o.ntohl w := by
  have hself : slice (wordBytes o w) 0 4 = wordBytes o w := by cases o <;> rfl
  rw [ntohl, loadWord, loadWord, h, hself]

theorem exists_bytes (w : UInt32) : ∃ a b c d : Nat, a < 256 ∧ b < 256 ∧ c < 256 ∧ d < 256 ∧
    w.toNat = a + 256 * b + 65536 * c + 16777216 * d := by
  have hw := w.toNat_lt
  refine ⟨w.toNat % 256, w.toNat / 256 % 256, w.toNat / 65536 % 256, w.toNat / 16777216,
    ?_, ?_, ?_, ?_, ?_⟩ <;> omega

/-- On a little-endian host the bytes are turned round. -/
theorem toNat_htonl_little {w : UInt32} {a b c d : Nat} (ha : a < 256) (hb : b < 256)
    (hc : c < 256) (hd : d < 256) (hw : w.toNat = a + 256 * b + 65536 * c + 16777216 * d) :
    (htonl .little w).toNat = d + 256 * c + 65536 * b + 16777216 * a := by
  have h0 : w.toNat % 256 = a := by omega
  have h1 : w.toNat / 256 % 256 = b := by omega
  have h2 : w.toNat / 65536 % 256 = c := by omega
  have h3 : w.toNat / 16777216 % 256 = d := by omega
  simp only [htonl, loadWord, wordBytes, bytes32, load32, byteAt, List.reverse_cons,
    List.reverse_nil, List.nil_append, List.cons_append, List.getD_cons_zero, List.getD_cons_succ,
    UInt8.toNat_ofNat', UInt32.toNat_ofNat', Nat.zero_add, Nat.reducePow, h0, h1, h2, h3]
  exact Nat.mod_eq_of_lt (by omega)

theorem ntohl_little (w : UInt32) : ntohl .little w = htonl .little w := rfl

@[simp] theorem htonl_big (w : UInt32) : htonl .big w = w := loadWord_of_slice rfl

@[simp] theorem ntohl_big (w : UInt32) : ntohl .big w = w := loadWord_of_slice rfl

theorem htonl_htonl_little (w : UInt32) : htonl .little (htonl .little w) = w := by
  obtain ⟨a, b, c, d, ha, hb, hc, hd, hw⟩ := exists_bytes w
  apply UInt32.toNat_inj.mp
  rw [toNat_htonl_little hd hc hb ha (toNat_htonl_little ha hb hc hd hw), hw]

theorem ntohl_htonl (o : ByteOrder) (w : UInt32) : o.ntohl (o.htonl w) = w := by
  cases o with
  | big => rw [htonl_big, ntohl_big]
  | little => rw [ntohl_little, htonl_htonl_little]

/-- The lowest byte changes always. -/
theorem lowest_add_one {d d' u v : Nat} (hd' : d' < 256)
    (h : (d + 256 * u + 1) % 4294967296 = d' + 256 * v) : d' = (d + 1) % 256 := by
  omega

/-- The highest byte changes only if everything below it carries. -/
theorem highest_add_one {x y d d' : Nat} (hx : x < 16777216) (hy : y < 16777216)
    (hd' : d' = (d + 1) % 256) (h : (x + 16777216 * d + 1) % 4294967296 = y + 16777216 * d') :
    x = 16777215 ∧ y = 0 := by
  omega

/-- The carries of `+ 1` run the wrong way through a word that has been turned round. -/
theorem htonl_little_add_one {w : UInt32} (h : htonl .little w + 1 = htonl .little (w + 1)) :
    w.toNat = 2 ^ 32 - 1 := by
  obtain ⟨a, b, c, d, ha, hb, hc, hd, hw⟩ := exists_bytes w
  obtain ⟨a', b', c', d', ha', hb', hc', hd', hw'⟩ := exists_bytes (w + 1)
  have hsucc : (w.toNat + 1) % 4294967296 = (w + 1).toNat := (UInt32.toNat_add w 1).symm
  have hturned : ((htonl .little w).toNat + 1) % 4294967296 = (htonl .little (w + 1)).toNat := by
    rw [← h]
    exact (UInt32.toNat_add _ 1).symm
  rw [toNat_htonl_little ha hb hc hd hw, toNat_htonl_little ha' hb' hc' hd' hw'] at hturned
  rw [hw, hw'] at hsucc
  have hgroup : ∀ p q r s : Nat, p + 256 * q + 65536 * r + 16777216 * s
      = p + 256 * (q + 256 * r + 65536 * s) := by
    intro p q r s
    omega
  rw [hgroup d, hgroup d'] at hturned
  have hlowest := lowest_add_one hd' hturned
  obtain ⟨hcarry, hzero⟩ := highest_add_one (by omega) (by omega) hlowest hsucc
  -- all bytes below the highest are full, so all above the lowest are when turned round
  have hfull : c + 256 * b + 65536 * a = 16777215 := by
    clear hturned hsucc
    omega
  have hempty : c' + 256 * b' + 65536 * a' = 0 := by
    clear hturned hsucc
    omega
  rw [hfull, hempty] at hturned
  rw [hw, hcarry]
  clear hsucc hw hw'
  omega

/-- Adding one in network order is adding one on a big-endian host only, or when every byte
carries. -/
theorem ntohl_htonl_add_one (o : ByteOrder) (w : UInt32) :
    o.ntohl (o.htonl w + 1) = w + 1 ↔ o = .big ∨ w.toNat = 2 ^ 32 - 1 := by
  cases o with
  | big => simp
  | little =>
      simp only [reduceCtorEq, false_or]
      constructor
      · intro h
        apply htonl_little_add_one
        rw [← h, ntohl_little, htonl_htonl_little]
      · intro h
        have hw : w = UInt32.ofNat (2 ^ 32 - 1) := UInt32.toNat_inj.mp (by rw [h]; rfl)
        rw [hw]
        decide

/-- A word whose successor is zero has the same bytes in both orders. -/
theorem htonl_add_one_eq_zero {o : ByteOrder} {w : UInt32} :
    o.htonl w + 1 = 0 ↔ w.toNat = 2 ^ 32 - 1 := by
  constructor
  · intro h
    have hall : o.htonl w = 4294967295 := by
      rw [← UInt32.add_sub_cancel (o.htonl w) 1, h]
      rfl
    rw [← ntohl_htonl o w, hall]
    cases o <;> decide
  · intro h
    have hw : w = UInt32.ofNat (2 ^ 32 - 1) := UInt32.toNat_inj.mp (by rw [h]; rfl)
    rw [hw]
    cases o <;> decide

end ByteOrder

end NetworkProjects.Lib
