import NetworkProjects.Router.Sha1
import NetworkProjects.Router.VnsMessages
import NetworkProjects.Router.LoadRt

/-!
# The proof of the key (`sr_handle_auth_request`)

The server sends a salt, and the router answers with its user's name and the hash of the salt and
the key, which it reads from a file. The key is hashed as an array of 64 bytes. `fgets` fills that
array up to the end of the first line of the file; what is behind it there is the stack's.

The hash that is sent is the SHA-1 hash of what was hashed (`srHandleAuthRequest_eq`), for a salt of
any length a message can have.
-/

namespace NetworkProjects.Router

open NetworkProjects.Lib

/-! ## The reply -/

/-- `VNS_AUTH_REPLY`. -/
def vnsAuthReply : UInt32 := 256
/-- `sizeof(c_auth_reply)`. -/
def sizeofCAuthReply : Nat := 12
/-- `AUTH_KEY_LEN`. -/
def authKeyLen : Nat := 64
/-- `SHA1_LEN`. -/
def sha1Len : Nat := 20

/-- The five words in network byte order. -/
def Sha1Words.bytes (h : Sha1Words) : Bytes :=
  wordBytes .big h.a ++ wordBytes .big h.b ++ wordBytes .big h.c ++ wordBytes .big h.d
    ++ wordBytes .big h.e

/-- A `c_auth_reply`. -/
def authReply (user : Bytes) (hash : Sha1Words) : Bytes :=
  wordBytes .big (UInt32.ofNat (sizeofCAuthReply + user.length + sha1Len))
    ++ wordBytes .big vnsAuthReply ++ wordBytes .big (UInt32.ofNat user.length) ++ user
    ++ hash.bytes

/-! ## The code -/

/-- What `sr_handle_auth_request` finds around it: the file `auth_key`, if it can be opened, the
stack, the heap, and how many bytes `send` takes. -/
structure AuthEnv where
  authKey : Option Bytes
  keyStack : Nat → UInt8
  sha1Stack : SHA1Context
  heap : Nat → UInt8
  taken : Nat

/-- `char auth_key[AUTH_KEY_LEN + 1]` after `fgets` has read a line into it. -/
def authKeyArray (keyStack : Nat → UInt8) (line : Bytes) : Bytes :=
  store ((List.range (authKeyLen + 1)).map keyStack) 0 (line ++ [0])

/-- The reply, in the order of its writes. `strcpy` writes the NUL of the name where the hash
begins. -/
def authReplyBuffer (heap : Nat → UInt8) (user : Bytes) (digest : Sha1Words) : Bytes :=
  let len := sizeofCAuthReply + user.length + sha1Len
  let buf := (List.range len).map heap
  let buf := store buf 0 (wordBytes .big (UInt32.ofNat len))
  let buf := store buf 4 (wordBytes .big vnsAuthReply)
  let buf := store buf 8 (wordBytes .big (UInt32.ofNat user.length))
  let buf := store buf sizeofCAuthReply (user ++ [0])
  store buf (sizeofCAuthReply + user.length) digest.bytes

/-- `send(sr->sockfd, buf, len, 0) != len`: what goes out, and what is returned. -/
def sendReply (taken : Nat) (buf : Bytes) : Bytes × Int :=
  if buf.length ≤ taken then (buf, 1) else (buf.take taken, 0)

/-- `sr_handle_auth_request`: the bytes that are sent, and what is returned. -/
def srHandleAuthRequest (env : AuthEnv) (user : Bytes) (rd : Load Fault) :
    Except Fault (Bytes × Int) :=
  match env.authKey with
  | none => .ok ([], 0)
  | some text =>
      match (pieces authKeyLen newline [] text).head? with
      | none => .ok ([], 0)
      | some line => do
          let mLen ← loadNetWord rd 0
          let salt ← rd.bytes sizeofCBase (mLen.toUInt64 - UInt64.ofNat sizeofCBase).toUInt32.toNat
          let sha1 ← sha1Input (sha1Reset env.sha1Stack) salt
          let sha1 ← sha1Input sha1 ((authKeyArray env.keyStack line).take authKeyLen)
          let (computed, sha1) ← sha1Result sha1
          if computed = 0 then return ([], 0)
          return sendReply env.taken (authReplyBuffer env.heap user sha1.messageDigest)

/-! ## What is sent

The salt and the key are hashed in two pieces, and the reply holds the name and the hash. -/

/-- The 64 bytes that are hashed behind the salt. -/
def hashedKey (keyStack : Nat → UInt8) (line : Bytes) : Bytes :=
  (authKeyArray keyStack line).take authKeyLen

theorem length_sha1Words_bytes (h : Sha1Words) : h.bytes.length = sha1Len := by
  simp only [Sha1Words.bytes, List.length_append, length_wordBytes]
  rfl

/-- **The buffer is the reply**: the hash is copied over the NUL of the name, and every byte that
`malloc` has left open is written. -/
theorem authReplyBuffer_eq (heap : Nat → UInt8) (user : Bytes) (digest : Sha1Words) :
    authReplyBuffer heap user digest = authReply user digest := by
  have hdigest := length_sha1Words_bytes digest
  generalize hlen : sizeofCAuthReply + user.length + sha1Len = len
  generalize hp : (List.range len).map heap = fresh
  have hfresh : fresh.length = len := by rw [← hp, List.length_map, List.length_range]
  rw [sizeofCAuthReply, sha1Len] at hlen
  rw [sha1Len] at hdigest
  -- the words and the name, with its NUL
  let front := wordBytes .big (UInt32.ofNat len) ++ wordBytes .big vnsAuthReply
    ++ wordBytes .big (UInt32.ofNat user.length) ++ user
  have hfront : front.length = 12 + user.length := by
    simp only [front, List.length_append, length_wordBytes]
  let fields := [wordBytes .big (UInt32.ofNat len), wordBytes .big vnsAuthReply,
    wordBytes .big (UInt32.ofNat user.length), user ++ [0]]
  have hflat : fields.flatten = front ++ [0] := by
    simp only [fields, front, List.flatten_cons, List.flatten_nil, List.append_nil,
      List.append_assoc]
  have hfields : authReplyBuffer heap user digest
      = store (storeAll fresh 0 fields) (12 + user.length) digest.bytes := by
    simp only [fields, storeAll, length_wordBytes]
    rw [← hp, ← hlen]
    rfl
  rw [hfields, storeAll_eq fields (by
      rw [hflat, List.length_append, hfront, List.length_singleton]
      omega), List.take_zero, List.nil_append, hflat, store, List.append_assoc front,
    List.take_left' hfront, List.drop_of_length_le (by
      simp only [List.length_append, List.length_drop, List.length_singleton, hfront]
      omega), List.append_nil, authReply, sizeofCAuthReply, sha1Len, hlen]

/-- The hash of a message in two pieces. -/
theorem sha1_two_pieces (stack : SHA1Context) {first second : Bytes}
    (hshort : (first ++ second).length < 2 ^ 61) :
    ∃ middle last returned result, sha1Input (sha1Reset stack) first = .ok middle ∧
      sha1Input middle second = .ok last ∧ sha1Result last = .ok (returned, result) ∧
      returned ≠ 0 ∧ result.messageDigest = sha1 (first ++ second) := by
  have hfirst : first.length < 2 ^ 61 := by
    rw [List.length_append] at hshort
    omega
  have hstart : Represents (sha1Reset stack) (.taking []) := absorbed_reset stack
  obtain ⟨middle, hmiddle, htaken⟩ := sha1Input_represents hstart first
  rw [Sha1State.take, List.nil_append, if_pos hfirst] at htaken
  obtain ⟨last, hlast, hwhole⟩ := sha1Input_represents htaken second
  rw [Sha1State.take, if_pos hshort] at hwhole
  obtain ⟨returned, result, hresult, -, hanswer⟩ := sha1Result_represents hwhole
  refine ⟨middle, last, returned, result, hmiddle, hlast, hresult, ?_⟩
  rw [Sha1State.finish, Sha1State.hash] at hanswer
  split at hanswer
  · cases hanswer
  · next hne => exact ⟨hne, Option.some.inj hanswer⟩

theorem length_hashedKey_le (keyStack : Nat → UInt8) (line : Bytes) :
    (hashedKey keyStack line).length ≤ authKeyLen := by
  rw [hashedKey, List.length_take]
  exact Nat.min_le_left _ _

/-- The salt of a request. -/
def saltOf (mem : Nat → UInt8) (len : Nat) : Bytes := memSlice mem sizeofCBase (len - sizeofCBase)

/-- What is sent of the reply to a request. -/
theorem srHandleAuthRequest_eq {len : Nat} {mem : Nat → UInt8} (hlow : sizeofCBase ≤ len)
    (hhigh : len ≤ 10000)
    (hmLen : loadNetWord (window .outOfBounds len mem) 0 = .ok (UInt32.ofNat len))
    (env : AuthEnv) (user : Bytes) :
    srHandleAuthRequest env user (window .outOfBounds len mem)
      = .ok (match env.authKey.bind fun text => (pieces authKeyLen newline [] text).head? with
        | none => ([], 0)
        | some line => sendReply env.taken (authReply user
            (sha1 (saltOf mem len ++ hashedKey env.keyStack line)))) := by
  -- the length is computed in 64 bits and cut to 32, and neither loses anything here
  have hsaltLen : ((UInt32.ofNat len).toUInt64 - UInt64.ofNat sizeofCBase).toUInt32.toNat
      = len - sizeofCBase := by
    rw [sizeofCBase] at *
    simp only [UInt64.toNat_toUInt32, UInt64.toNat_sub, UInt32.toNat_toUInt64,
      UInt32.toNat_ofNat', UInt64.toNat_ofNat']
    omega
  rw [srHandleAuthRequest]
  cases env.authKey with
  | none => rfl
  | some text =>
      rw [Option.bind_some]
      dsimp only
      cases (pieces authKeyLen newline [] text).head? with
      | none => rfl
      | some line =>
          have hshort : (saltOf mem len ++ hashedKey env.keyStack line).length
              < 2 ^ 61 := by
            have hkey := length_hashedKey_le env.keyStack line
            rw [authKeyLen] at hkey
            rw [List.length_append, saltOf, length_memSlice]
            omega
          -- salt and key go in as two pieces and are digested as one message
          obtain ⟨middle, last, returned, result, hfirst, hsecond, hresult, hne, hdigest⟩ :=
            sha1_two_pieces env.sha1Stack hshort
          rw [hashedKey] at hsecond
          dsimp only
          rw [hmLen]
          simp only [bind, Except.bind]
          rw [hsaltLen, bytes_window _ (by omega)]
          dsimp only
          rw [← saltOf, hfirst]
          dsimp only
          rw [hsecond]
          dsimp only
          rw [hresult]
          dsimp only
          rw [if_neg hne, authReplyBuffer_eq, hdigest]
          rfl

/-! ## What is hashed

So many bytes of the array are hashed as a key should have, and the line from the file may be
shorter. -/

/-- A line that fills the array but for its NUL is all that is hashed of it. -/
theorem hashedKey_of_full {line : Bytes} (h : 63 ≤ line.length) (keyStack : Nat → UInt8) :
    hashedKey keyStack line = (line ++ [0]).take authKeyLen := by
  rw [hashedKey, authKeyArray, store, List.take_zero, List.nil_append,
    List.take_append_of_le_length]
  rw [List.length_append, List.length_singleton, authKeyLen]
  omega

/-- A shorter one leaves the last byte to the stack. -/
theorem byteAt_hashedKey {line : Bytes} (h : line.length < 63) (keyStack : Nat → UInt8) :
    byteAt (hashedKey keyStack line) 63 = keyStack 63 := by
  rw [hashedKey, authKeyLen, byteAt_take (by decide), authKeyArray,
    byteAt_store_of_not_mem]
  · rw [byteAt, List.getD_eq_getElem?_getD, List.getElem?_map, List.getElem?_range (by decide)]
    rfl
  · rw [List.length_append, List.length_singleton, List.length_map, List.length_range, authKeyLen]
    omega
  · right
    rw [List.length_append, List.length_singleton]
    omega

/-- **What is hashed is in the file** exactly if its first line has 63 characters or more. -/
theorem hashedKey_const_iff (line : Bytes) :
    (∀ keyStack keyStack', hashedKey keyStack line = hashedKey keyStack' line)
      ↔ 63 ≤ line.length := by
  constructor
  · intro hsame
    by_contra hshort
    have h := congrArg (byteAt · 63) (hsame (fun _ => 0) fun _ => 1)
    rw [byteAt_hashedKey (Nat.not_le.mp hshort), byteAt_hashedKey (Nat.not_le.mp hshort)] at h
    exact absurd h (by decide)
  · intro hfull keyStack keyStack'
    rw [hashedKey_of_full hfull, hashedKey_of_full hfull]

/-- **A request is answered** with the hash of the salt and the key, and the key is that of the
file alone exactly if the first line is long enough. -/
theorem srHandleAuthRequest_reply {len : Nat} (hlow : sizeofCBase ≤ len) (hhigh : len ≤ 10000)
    {text line : Bytes} (hline : (pieces authKeyLen newline [] text).head? = some line)
    (user : Bytes) (mem : Nat → UInt8) :
    (∀ env : AuthEnv, env.authKey = some text →
      srHandleAuthRequest env user (window .outOfBounds len (withLen len mem))
        = .ok (sendReply env.taken (authReply user
            (sha1 (saltOf (withLen len mem) len ++ hashedKey env.keyStack line))))) ∧
    ((∀ keyStack keyStack', hashedKey keyStack line = hashedKey keyStack' line)
      ↔ 63 ≤ line.length) := by
  refine ⟨?_, hashedKey_const_iff line⟩
  intro env htext
  have hmLen : loadNetWord (window .outOfBounds len (withLen len mem)) 0
      = .ok (UInt32.ofNat len) := by
    rw [loadNetWord_window (by rw [sizeofCBase] at hlow; omega), loadNetWord_withLen]
  rw [srHandleAuthRequest_eq hlow hhigh hmLen, htext, Option.bind_some, hline]

theorem srHandleAuthRequest_reply_longKey :
    (pieces authKeyLen newline [] (List.replicate 70 97)).head? = some (List.replicate 64 97) ∧
    (∀ env : AuthEnv, env.authKey = some (List.replicate 70 97) →
      srHandleAuthRequest env [117] (window .outOfBounds 12 (withLen 12 fun _ => 7))
        = .ok (sendReply env.taken (authReply [117]
            (sha1 (saltOf (withLen 12 fun _ => 7) 12
              ++ hashedKey env.keyStack (List.replicate 64 97)))))) ∧
    ∀ keyStack keyStack',
      hashedKey keyStack (List.replicate 64 97) = hashedKey keyStack' (List.replicate 64 97) := by
  have hline : (pieces authKeyLen newline [] (List.replicate 70 97)).head?
      = some (List.replicate 64 97) := by decide +kernel
  obtain ⟨hreply, hfull⟩ := srHandleAuthRequest_reply (show sizeofCBase ≤ 12 by decide)
    (show 12 ≤ 10000 by decide) hline
    [117] fun _ => 7
  exact ⟨hline, hreply, hfull.mpr (by decide)⟩

end NetworkProjects.Router
