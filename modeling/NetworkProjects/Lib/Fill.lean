import NetworkProjects.Lib.Bytes

/-!
# Filling in a buffer, write by write

A function that builds a message fills in a fresh buffer: with bytes it knows, with bytes of
another buffer, the source, and with words it computes from what the buffer holds by then. The
list of its writes is all there is to know about it:

* `fill` carries the writes out;
* `Write.InBounds` says that neither the read nor the write leaves its buffer;
* a byte of the result is what the last write that covers it has put there (`byteAt_fill`).
-/

namespace NetworkProjects.Lib

/-- One write to a buffer that is being filled in. -/
inductive Write
  /-- Bytes that are known beforehand. -/
  | put (pos : Nat) (bs : Bytes)
  /-- `n` bytes of the source, from `off` on. -/
  | copy (pos off n : Nat)
  /-- A 16-bit word computed from `n` bytes of the buffer itself, from `off` on. -/
  | word (pos off n : Nat) (f : Bytes → Nat)

namespace Write

def pos : Write → Nat
  | put pos _ => pos
  | copy pos _ _ => pos
  | word pos _ _ _ => pos

def size : Write → Nat
  | put _ bs => bs.length
  | copy _ _ n => n
  | word _ _ _ _ => 2

/-- The bytes that are written, for a source and what the buffer holds. -/
def bytes (src : Nat → UInt8) (buf : Bytes) : Write → Bytes
  | put _ bs => bs
  | copy _ off n => (List.range n).map fun i => src (off + i)
  | word _ off n f => bytes16 (f (slice buf off n))

/-- The write stays inside a buffer of `len` bytes. -/
def Fits (len : Nat) (w : Write) : Prop := w.pos + w.size ≤ len

/-- So does the read: of the source, of which there are `srcLen` bytes, or of the buffer. -/
def InBounds (srcLen len : Nat) (w : Write) : Prop :=
  w.Fits len ∧
    match w with
    | put _ _ => True
    | copy _ off n => off + n ≤ srcLen
    | word _ off n _ => off + n ≤ len

/-- The write sets the byte at `k`. -/
def Covers (w : Write) (k : Nat) : Prop := w.pos ≤ k ∧ k < w.pos + w.size

instance (len : Nat) (w : Write) : Decidable (w.Fits len) := inferInstanceAs (Decidable (_ ≤ _))

instance (srcLen len : Nat) : ∀ w : Write, Decidable (w.InBounds srcLen len)
  | put _ _ => inferInstanceAs (Decidable (_ ∧ True))
  | copy _ off n => inferInstanceAs (Decidable (_ ∧ off + n ≤ srcLen))
  | word _ off n _ => inferInstanceAs (Decidable (_ ∧ off + n ≤ len))

instance (w : Write) (k : Nat) : Decidable (w.Covers k) := inferInstanceAs (Decidable (_ ∧ _))

@[simp] theorem covers_put {pos k : Nat} {bs : Bytes} :
    (put pos bs).Covers k ↔ pos ≤ k ∧ k < pos + bs.length := Iff.rfl
@[simp] theorem covers_copy {pos off n k : Nat} :
    (copy pos off n).Covers k ↔ pos ≤ k ∧ k < pos + n := Iff.rfl
@[simp] theorem covers_word {pos off n k : Nat} {f : Bytes → Nat} :
    (word pos off n f).Covers k ↔ pos ≤ k ∧ k < pos + 2 := Iff.rfl

@[simp] theorem length_bytes (src : Nat → UInt8) (buf : Bytes) (w : Write) :
    (w.bytes src buf).length = w.size := by
  cases w with
  | put => rfl
  | copy => simp [bytes, size]
  | word => rfl

end Write

/-- Carry out the writes, in order. -/
def fill (src : Nat → UInt8) (buf : Bytes) (ws : List Write) : Bytes :=
  ws.foldl (fun buf w => store buf w.pos (w.bytes src buf)) buf

section Fill

variable {src : Nat → UInt8} {buf : Bytes} {len : Nat}

@[simp] theorem fill_nil (src : Nat → UInt8) (buf : Bytes) : fill src buf [] = buf := rfl

@[simp] theorem fill_cons (src : Nat → UInt8) (buf : Bytes) (w : Write) (ws : List Write) :
    fill src buf (w :: ws) = fill src (store buf w.pos (w.bytes src buf)) ws := rfl

theorem fill_append (src : Nat → UInt8) (buf : Bytes) (ws ws' : List Write) :
    fill src buf (ws ++ ws') = fill src (fill src buf ws) ws' := List.foldl_append

/-- Writes that fit keep the length of the buffer. -/
theorem length_fill (src : Nat → UInt8) :
    ∀ {ws : List Write} {buf : Bytes}, buf.length = len → (∀ w ∈ ws, w.Fits len) →
      (fill src buf ws).length = len
  | [], _, hlen, _ => hlen
  | w :: ws, buf, hlen, hfits => by
      have hw : w.pos + (w.bytes src buf).length ≤ buf.length := by
        rw [Write.length_bytes, hlen]
        exact hfits w List.mem_cons_self
      rw [fill_cons]
      exact length_fill src (by rw [length_store hw, hlen])
        fun w' hw' => hfits w' (List.mem_cons_of_mem w hw')

/-- A byte that no write covers is left as it was. -/
theorem byteAt_fill_of_not_covers {k : Nat} :
    ∀ {ws : List Write} {buf : Bytes}, buf.length = len → (∀ w ∈ ws, w.Fits len) →
      (∀ w ∈ ws, ¬ w.Covers k) → byteAt (fill src buf ws) k = byteAt buf k
  | [], _, _, _, _ => rfl
  | w :: ws, buf, hlen, hfits, hk => by
      have hw : w.pos + (w.bytes src buf).length ≤ buf.length := by
        rw [Write.length_bytes, hlen]
        exact hfits w List.mem_cons_self
      have hout : k < w.pos ∨ w.pos + (w.bytes src buf).length ≤ k := by
        have := hk w List.mem_cons_self
        rw [Write.Covers] at this
        rw [Write.length_bytes]
        omega
      rw [fill_cons, byteAt_fill_of_not_covers (by rw [length_store hw, hlen])
        (fun w' hw' => hfits w' (List.mem_cons_of_mem w hw'))
        (fun w' hw' => hk w' (List.mem_cons_of_mem w hw')), byteAt_store_of_not_mem hw hout]

/-- **The last write that covers a byte** decides it; what that write reads of the buffer is what
the writes before it have left there. -/
theorem byteAt_fill {before after : List Write} {w : Write} {k : Nat} (hlen : buf.length = len)
    (hfits : ∀ w' ∈ before ++ w :: after, w'.Fits len) (hk : w.Covers k)
    (hafter : ∀ w' ∈ after, ¬ w'.Covers k) :
    byteAt (fill src buf (before ++ w :: after)) k
      = byteAt (w.bytes src (fill src buf before)) (k - w.pos) := by
  have hbefore : (fill src buf before).length = len :=
    length_fill src hlen fun w' hw' => hfits w' (List.mem_append_left _ hw')
  have hw : w.pos + (w.bytes src (fill src buf before)).length ≤ (fill src buf before).length := by
    rw [Write.length_bytes, hbefore]
    exact hfits w (by simp)
  have hin : k < w.pos + (w.bytes src (fill src buf before)).length := by
    rw [Write.length_bytes]
    exact hk.2
  rw [fill_append, fill_cons, byteAt_fill_of_not_covers (by rw [length_store hw, hbefore])
    (fun w' hw' => hfits w' (by simp [hw'])) hafter, byteAt_store_of_mem hw hk.1 hin]

/-- The same, for the write at index `j`. -/
theorem byteAt_fill_get {ws : List Write} {w : Write} {j k : Nat} (hlen : buf.length = len)
    (hfits : ∀ w' ∈ ws, w'.Fits len) (hj : ws[j]? = some w) (hk : w.Covers k)
    (hafter : ∀ w' ∈ ws.drop (j + 1), ¬ w'.Covers k) :
    byteAt (fill src buf ws) k = byteAt (w.bytes src (fill src buf (ws.take j))) (k - w.pos) := by
  obtain ⟨hlt, rfl⟩ := List.getElem?_eq_some_iff.mp hj
  have hsplit : ws.take j ++ ws[j] :: ws.drop (j + 1) = ws := by
    rw [← List.drop_eq_getElem_cons hlt, List.take_append_drop]
  have hfits' : ∀ w' ∈ ws.take j ++ ws[j] :: ws.drop (j + 1), w'.Fits len := by rwa [hsplit]
  have hbyte : byteAt (fill src buf (ws.take j ++ ws[j] :: ws.drop (j + 1))) k = _ :=
    byteAt_fill hlen hfits' hk hafter
  rwa [hsplit] at hbyte

/-- A byte that is copied last. -/
theorem byteAt_fill_copy {ws : List Write} {j pos off n i : Nat} (hlen : buf.length = len)
    (hfits : ∀ w ∈ ws, w.Fits len) (hj : ws[j]? = some (.copy pos off n)) (hi : i < n)
    (hafter : ∀ w ∈ ws.drop (j + 1), ¬ w.Covers (pos + i)) :
    byteAt (fill src buf ws) (pos + i) = src (off + i) := by
  have hk : (Write.copy pos off n).Covers (pos + i) :=
    ⟨Nat.le_add_right _ _, Nat.add_lt_add_left hi _⟩
  rw [byteAt_fill_get hlen hfits hj hk hafter]
  simp [Write.bytes, Write.pos, byteAt, hi]

/-- A byte that is put last. -/
theorem byteAt_fill_put {ws : List Write} {j pos i : Nat} {bs : Bytes} (hlen : buf.length = len)
    (hfits : ∀ w ∈ ws, w.Fits len) (hj : ws[j]? = some (.put pos bs)) (hi : i < bs.length)
    (hafter : ∀ w ∈ ws.drop (j + 1), ¬ w.Covers (pos + i)) :
    byteAt (fill src buf ws) (pos + i) = byteAt bs i := by
  have hk : (Write.put pos bs).Covers (pos + i) :=
    ⟨Nat.le_add_right _ _, Nat.add_lt_add_left hi _⟩
  rw [byteAt_fill_get hlen hfits hj hk hafter]
  simp [Write.bytes, Write.pos]

/-- A slice that no write touches is left as it was. -/
theorem slice_fill_of_not_covers {ws : List Write} {off n : Nat} (hlen : buf.length = len)
    (hfits : ∀ w ∈ ws, w.Fits len) (hn : off + n ≤ len)
    (hk : ∀ k, off ≤ k → k < off + n → ∀ w ∈ ws, ¬ w.Covers k) :
    slice (fill src buf ws) off n = slice buf off n := by
  apply slice_congr
  · rw [length_fill src hlen hfits]
    exact hn
  · rw [hlen]
    exact hn
  · intro i hi
    exact byteAt_fill_of_not_covers hlen hfits (hk (off + i) (by omega) (by omega))

/-- The block around a word that is written and then left alone. -/
theorem slice_fill_word (src : Nat → UInt8) {ws : List Write} {j pos off n before after : Nat}
    {f : Bytes → Nat} (hlen : buf.length = len) (hfits : ∀ w ∈ ws, w.Fits len)
    (hj : ws[j]? = some (.word pos off n f))
    (hpos : pos = off + before) (hn : n = before + 2 + after) (hroom : off + n ≤ len)
    (hafter : ∀ k, off ≤ k → k < off + n → ∀ w ∈ ws.drop (j + 1), ¬ w.Covers k) :
    slice (fill src buf ws) off n
      = slice (fill src buf (ws.take j)) off before
        ++ bytes16 (f (slice (fill src buf (ws.take j)) off n))
        ++ slice (fill src buf (ws.take j)) (pos + 2) after := by
  obtain ⟨hlt, hget⟩ := List.getElem?_eq_some_iff.mp hj
  have htake : (fill src buf (ws.take j)).length = len :=
    length_fill src hlen fun w hw => hfits w (List.mem_of_mem_take hw)
  -- the buffer after the write, and the later writes on top of it
  have hsplit : fill src buf ws
      = fill src (store (fill src buf (ws.take j)) pos
          (bytes16 (f (slice (fill src buf (ws.take j)) off n)))) (ws.drop (j + 1)) := by
    conv_lhs => rw [← List.take_append_drop j ws, List.drop_eq_getElem_cons hlt, hget, fill_append]
    rfl
  have hword : (bytes16 (f (slice (fill src buf (ws.take j)) off n))).length = 2 := rfl
  rw [hsplit, slice_fill_of_not_covers (by rw [length_store (by omega), htake])
    (fun w hw => hfits w (List.mem_of_mem_drop hw)) hroom hafter,
    slice_store_around hpos (show n = before + _ + after by omega) (by omega), hword]

end Fill

end NetworkProjects.Lib
