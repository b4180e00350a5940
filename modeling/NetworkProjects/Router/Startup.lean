import NetworkProjects.Router.Connect

/-!
# The program (`main` of `sr_main.c`)

`main` reads the routing table, opens a session, reads the table again, which the server may have
sent in the meantime, and enters the loop. The first message of the loop has to describe the
hardware, since `sr_verify_routing_table` looks for the interface of every route.

With a server that accepts the key and describes such hardware, the program is a run of the router
from its first state: with the table of the file and the interfaces of the description, on the
frames that the server sends (`routerMain_serves`). -/

namespace NetworkProjects.Router

open NetworkProjects.Lib

/-! ## The code

`main` after the options: the table is read, the session opened, the table read again, and the loop
entered. What cannot be known from the options is in `MainEnv`. -/

/-- A string that fits in an array of `n` characters, with its NUL. -/
abbrev FieldText (n : Nat) := { s : Bytes // 0 ∉ s ∧ s.length < n }

/-- The options, once they are in `struct sr_instance`. -/
structure MainOptions where
  host : Bytes
  user : FieldText 32
  template : Option (FieldText 30)
  rtable : Bytes
  topo : UInt16
  logfile : Bool

/-- The files that can be read, by name. -/
abbrev Files := Bytes → Option Bytes

/-- The files after `sr_handle_rtable` has written some. -/
def Files.after (files : Files) (rtables : List (Bytes × Bytes)) : Files :=
  rtables.foldl (fun files file name => if name = file.1 then some file.2 else files name) files

/-- What `main` finds around it: the files, the stack of the two calls of `sr_load_rt`, what
surrounds the messages before the loop and in it, and how many bytes `send` takes. -/
structure MainEnv where
  files : Files
  stack : Nat → RtBuffers
  connectEnvs : Nat → VnsEnv
  envs : Nat → VnsEnv
  taken : Nat

/-- How the program ends, or that it waits for the server. -/
inductive ProgramEnd
  | exited (code : Int)
  | fault (e : Fault)
  | connecting (v : VnsSession)
  | serving (e : MainEnd)

/-- `sr_load_rt_wrap`, and what follows. -/
def srLoadRtWrap (file : Option Bytes) (stack : RtBuffers) (table : List SrRtNode)
    (next : List SrRtNode → ProgramEnd) : ProgramEnd :=
  match srLoadRt file stack table.length table with
  | .error e => .fault e
  | .ok (ret, table) => if ret ≠ 0 then .exited 1 else next table

/-- The file that is read once the session is open. -/
def rtableName (o : MainOptions) : Bytes :=
  if o.template.isSome ∧ o.rtable = nameBytes "rtable.vrhost" then nameBytes "rtable.vrhost"
  else o.rtable

/-- What `sr_connect_to_server` gets. -/
def MainOptions.connectArgs (o : MainOptions) (taken : Nat) : ConnectArgs where
  topoId := o.topo
  host := o.host
  template := (o.template.map Subtype.val).getD []
  taken := taken

/-- `main` from `sr_connect_to_server` on. -/
def mainConnect (o : MainOptions) (w : MainEnv) (arrivals : List Arrival) (table : List SrRtNode) :
    ProgramEnd :=
  let v : VnsSession := ⟨⟨[], table.map SrRtNode.entry⟩, srInit, o.user.val, [], []⟩
  match srConnectToServer (o.connectArgs w.taken) w.connectEnvs o.logfile v arrivals with
  | .waits v => .connecting v
  | .fault _ e => .fault e
  | .returned v ret arrivals =>
      if ret = -1 then .exited 1
      else
        srLoadRtWrap (w.files.after v.rtables (rtableName o)) (w.stack 1) table fun table =>
          .serving (srMain w.envs o.logfile 0
            { v with sr := { v.sr with routingTable := table.map SrRtNode.entry } } arrivals)

/-- `main`, once the options have been read. -/
def routerMain (o : MainOptions) (w : MainEnv) (arrivals : List Arrival) : ProgramEnd :=
  match o.template with
  | none => srLoadRtWrap (w.files o.rtable) (w.stack 0) [] (mainConnect o w arrivals)
  | some _ => mainConnect o w arrivals []

/-! ## Messages of the server

Every message is its length, its command and a payload. The reader finds it whole, and the handler
takes the branch of its command. -/

/-- A message: its length, its command, and what follows. -/
def vnsCommand (command : UInt32) (payload : Bytes) : Bytes :=
  wordBytes .big (UInt32.ofNat (sizeofCBase + payload.length)) ++ wordBytes .big command ++ payload

section Command

variable {command : UInt32} {payload : Bytes} {env : VnsEnv}

theorem length_vnsCommand : (vnsCommand command payload).length = sizeofCBase + payload.length := by
  simp only [vnsCommand, List.length_append, length_wordBytes, sizeofCBase]

theorem drop_vnsCommand : (vnsCommand command payload).drop sizeofCBase = payload := by
  apply List.drop_left'
  rw [List.length_append, length_wordBytes, length_wordBytes]
  rfl

/-- What stands in the payload, seen from the front of the message. -/
theorem memSlice_vnsCommand {off n : Nat} (h : off + n ≤ payload.length) :
    memSlice (messageMemory env (vnsCommand command payload)) (sizeofCBase + off) n
      = slice payload off n := by
  rw [(begins_messageMemory env _).memSlice (by rw [length_vnsCommand]; omega), slice,
    ← List.drop_drop, drop_vnsCommand, slice]

theorem mLen_vnsCommand :
    loadNetWord (window .outOfBounds (vnsCommand command payload).length
      (messageMemory env (vnsCommand command payload))) 0
      = .ok (UInt32.ofNat (vnsCommand command payload).length) := by
  have hfit : 0 + 4 ≤ (vnsCommand command payload).length := by
    rw [length_vnsCommand, sizeofCBase]
    omega
  rw [loadNetWord, bytes_window _ hfit, (begins_messageMemory env _).memSlice hfit,
    length_vnsCommand, vnsCommand, slice, List.drop_zero, List.append_assoc,
    List.take_left' (length_wordBytes _ _)]
  exact congrArg Except.ok (loadWord_of_slice rfl)

theorem mType_vnsCommand :
    loadNetWord (window .outOfBounds (vnsCommand command payload).length
      (messageMemory env (vnsCommand command payload))) 4 = .ok command := by
  have hfit : 4 + 4 ≤ (vnsCommand command payload).length := by
    rw [length_vnsCommand, sizeofCBase]
    omega
  rw [loadNetWord, bytes_window _ hfit, (begins_messageMemory env _).memSlice hfit, vnsCommand,
    slice_append_mid (length_wordBytes _ _) (length_wordBytes _ _)]
  exact congrArg Except.ok (loadWord_of_slice rfl)

/-- The reader finds the message at the front of the text. -/
theorem next_vnsCommand (h : sizeofCBase + payload.length ≤ 10000) (rest : Bytes) :
    vnsFraming.next (vnsCommand command payload ++ rest)
      = .message (vnsCommand command payload) rest := by
  apply vnsFraming.next_append
  apply vnsFraming_total_of_word
  · rw [length_vnsCommand, vnsCommand, List.append_assoc, List.take_left' (length_wordBytes _ _)]
    exact loadWord_of_slice rfl
  · rw [length_vnsCommand, sizeofCBase]
    omega
  · rw [length_vnsCommand]
    exact h

/-- The handler takes the branch of the command, if it was expected. -/
theorem srHandleCommand_vnsCommand {expectedCmd : UInt32} (logfile : Bool) (v : VnsSession)
    (h : expectedCmd = 0 ∨ expectedCmd = command) :
    srHandleCommand env expectedCmd logfile (vnsCommand command payload).length
        (messageMemory env (vnsCommand command payload)) v
      = srCommandSwitch env logfile (vnsCommand command payload).length
        (messageMemory env (vnsCommand command payload)) v command := by
  rw [srHandleCommand, mType_vnsCommand]
  show (if expectedCmd ≠ 0 ∧ command ≠ expectedCmd ∧ command ≠ vnsclose then _ else _) = _
  rw [if_neg]
  rintro ⟨hne, hother, -⟩
  exact h.elim hne fun heq => hother heq.symm

end Command

/-! ## A server that lets the router serve -/

/-- An entry of a description, as the server writes it. -/
def CHwEntry.bytes (entry : CHwEntry) : Bytes := wordBytes .big entry.mKey ++ entry.value

/-- What the server sends: the salt, its verdict, the routing table if it is asked for a template,
the hardware, and then frames. -/
structure VnsServer where
  salt : Bytes
  verdict : Bytes
  table : Option (FieldText idsize × Bytes)
  hardware : List { entry : CHwEntry // entry.value.length = 32 }
  frames : List SentFrame

/-- The entries of the description. -/
def VnsServer.entries (server : VnsServer) : List CHwEntry := server.hardware.map Subtype.val

/-- The payload of the message with the table. -/
def tablePayload (table : FieldText idsize × Bytes) : Bytes :=
  strncpyField idsize table.1.val ++ table.2

/-- The messages in front of the loop. -/
def VnsServer.opening (server : VnsServer) : List Bytes :=
  vnsCommand vnsAuthRequest server.salt :: vnsCommand vnsAuthStatus server.verdict ::
    server.table.toList.map fun table => vnsCommand vnsRtable (tablePayload table)

/-- The description of the hardware. -/
def VnsServer.description (server : VnsServer) : Bytes :=
  vnsCommand vnshwinfo (server.entries.flatMap CHwEntry.bytes)

/-- All that the server sends. -/
def VnsServer.text (server : VnsServer) : Bytes :=
  server.opening.flatten ++ (server.description ++ (server.frames.map SentFrame.message).flatten)

section Hardware

variable {entries before : List CHwEntry} {entry : CHwEntry}

theorem length_entryBytes (h : ∀ entry ∈ entries, entry.value.length = 32) :
    (entries.flatMap CHwEntry.bytes).length = sizeofCHwEntry * entries.length := by
  rw [List.flatMap, length_flatten_of_full (k := sizeofCHwEntry), List.length_map, Nat.mul_comm]
  intro p hp
  obtain ⟨entry, hentry, rfl⟩ := List.mem_map.mp hp
  rw [CHwEntry.bytes, List.length_append, length_wordBytes, h entry hentry, sizeofCHwEntry]

/-- An entry of the message is the one that was written. -/
theorem hwEntryAt_vnsCommand (command : UInt32) (env : VnsEnv) (after : List CHwEntry)
    (hbefore : ∀ entry ∈ before, entry.value.length = 32) (hentry : entry.value.length = 32) :
    hwEntryAt (messageMemory env
      (vnsCommand command ((before ++ entry :: after).flatMap CHwEntry.bytes))) before.length
      = entry := by
  have hoff := length_entryBytes hbefore
  generalize hpayload : (before ++ entry :: after).flatMap CHwEntry.bytes = payload
  have hsplit : payload = before.flatMap CHwEntry.bytes ++ wordBytes .big entry.mKey
      ++ (entry.value ++ after.flatMap CHwEntry.bytes) := by
    rw [← hpayload, List.flatMap_append, List.flatMap_cons, CHwEntry.bytes]
    simp only [List.append_assoc]
  have hlen : sizeofCHwEntry * before.length + 4 + 32 ≤ payload.length := by
    rw [hsplit]
    simp only [List.length_append, length_wordBytes, hoff, hentry]
    omega
  have hkey : slice payload (sizeofCHwEntry * before.length) 4 = wordBytes .big entry.mKey := by
    rw [hsplit]
    exact slice_append_mid hoff (length_wordBytes _ _)
  have hvalue : slice payload (sizeofCHwEntry * before.length + 4) 32 = entry.value := by
    rw [hsplit, ← List.append_assoc]
    exact slice_append_mid (by rw [List.length_append, hoff, length_wordBytes]) hentry
  rw [hwEntryAt, memSlice_vnsCommand (by omega), Nat.add_assoc, memSlice_vnsCommand (by omega),
    hkey, hvalue, loadWord_of_slice (w := entry.mKey) rfl]

/-- The entries of the message are those that were written. -/
theorem hwEntries_vnsCommand (command : UInt32) (env : VnsEnv)
    (h : ∀ entry ∈ entries, entry.value.length = 32) :
    hwEntries (messageMemory env (vnsCommand command (entries.flatMap CHwEntry.bytes)))
      (vnsCommand command (entries.flatMap CHwEntry.bytes)).length = entries := by
  have hcount : ((vnsCommand command (entries.flatMap CHwEntry.bytes)).length - sizeofCBase)
      / sizeofCHwEntry = entries.length := by
    rw [length_vnsCommand, length_entryBytes h, Nat.add_sub_cancel_left,
      Nat.mul_div_cancel_left _ (by decide)]
  rw [hwEntries, hcount]
  apply List.ext_getElem
  · rw [List.length_map, List.length_range]
  · intro i hi hi'
    rw [List.getElem_map, List.getElem_range]
    have hsplit : entries = entries.take i ++ entries[i] :: entries.drop (i + 1) := by
      rw [← List.drop_eq_getElem_cons hi', List.take_append_drop]
    have hbefore : ∀ entry ∈ entries.take i, entry.value.length = 32 := fun entry hentry =>
      h entry (List.mem_of_mem_take hentry)
    have hat := hwEntryAt_vnsCommand command env (entries.drop (i + 1)) hbefore
      (h _ (List.getElem_mem hi'))
    rw [← hsplit, List.length_take, Nat.min_eq_left (Nat.le_of_lt hi')] at hat
    exact hat

end Hardware

/-! ## The branches for these messages

One lemma for each command: what the branch does with a message as the server writes it. -/

section Branches

variable {env : VnsEnv} (logfile : Bool) (v : VnsSession)

theorem byte_vnsCommand {command : UInt32} {payload : Bytes} {i : Nat} (h : i < payload.length) :
    messageMemory env (vnsCommand command payload) (sizeofCBase + i) = byteAt payload i := by
  rw [begins_messageMemory env _ _ (by rw [length_vnsCommand]; omega), ← byteAt_drop,
    drop_vnsCommand]

/-- A string in the message is read up to its NUL. -/
theorem stringAt_window {limit : Nat} {mem : Nat → UInt8} {s : Bytes} (hnul : 0 ∉ s) :
    ∀ {room off : Nat}, s.length < room → off + s.length < limit →
      (∀ i ≤ s.length, mem (off + i) = byteAt (s ++ [0]) i) →
      stringAt (window .outOfBounds limit mem) room off = .ok s := by
  induction s with
  | nil =>
      intro room off hroom hlimit hmem
      obtain ⟨n, rfl⟩ := Nat.exists_eq_add_of_lt hroom
      have hzero : mem off = 0 := hmem 0 (Nat.le_refl 0)
      rw [stringAt, window_of_lt (show off < limit from hlimit), hzero]
      rfl
  | cons c s ih =>
      intro room off hroom hlimit hmem
      rw [List.length_cons] at hroom hlimit
      obtain ⟨n, rfl⟩ : ∃ n, room = n + 1 := ⟨room - 1, by omega⟩
      have hc : mem off = c := hmem 0 (Nat.zero_le _)
      have hne : c ≠ 0 := fun h => hnul (h ▸ List.mem_cons_self)
      have hrest : stringAt (window .outOfBounds limit mem) n (off + 1) = .ok s := by
        apply ih (fun h => hnul (List.mem_cons_of_mem c h)) (by omega) (by omega)
        intro i hi
        have hnext := hmem (i + 1) (Nat.succ_le_succ hi)
        rw [Nat.add_assoc, Nat.add_comm 1]
        exact hnext
      rw [stringAt, window_of_lt (by omega)]
      dsimp only
      rw [hc, if_neg hne, hrest]
      rfl

/-- The request for the key. -/
theorem srCommandSwitch_salt {salt text line : Bytes} (hshort : sizeofCBase + salt.length ≤ 10000)
    (htext : env.auth.authKey = some text)
    (hline : (pieces authKeyLen newline [] text).head? = some line)
    (htaken : (authReply v.user (sha1 (salt ++ hashedKey env.auth.keyStack line))).length
      ≤ env.auth.taken) :
    srCommandSwitch env logfile (vnsCommand vnsAuthRequest salt).length
        (messageMemory env (vnsCommand vnsAuthRequest salt)) v vnsAuthRequest
      = .ok ({ v with replies := v.replies
          ++ authReply v.user (sha1 (salt ++ hashedKey env.auth.keyStack line)) }, 1) := by
  have hlen : (vnsCommand vnsAuthRequest salt).length = sizeofCBase + salt.length :=
    length_vnsCommand
  have hsalt : saltOf (messageMemory env (vnsCommand vnsAuthRequest salt))
      (vnsCommand vnsAuthRequest salt).length = salt := by
    have hfit : 0 + salt.length ≤ salt.length := by omega
    rw [saltOf, hlen, Nat.add_sub_cancel_left, ← Nat.add_zero sizeofCBase, memSlice_vnsCommand hfit,
      slice, List.drop_zero, List.take_length]
  show (srHandleAuthRequest env.auth v.user _ >>= fun r => (.ok ({ v with
    replies := v.replies ++ r.1 }, if r.2 = 0 then -1 else 1) : Except Fault (VnsSession × Int))) = _
  rw [srHandleAuthRequest_eq (by rw [hlen]; omega) (by rw [hlen]; exact hshort) mLen_vnsCommand,
    hsalt, htext, Option.bind_some, hline]
  dsimp only
  rw [sendReply, if_pos htaken]
  rfl

/-- The verdict. -/
theorem srCommandSwitch_verdict {verdict : Bytes} (hgood : byteAt verdict 0 ≠ 0) :
    srCommandSwitch env logfile (vnsCommand vnsAuthStatus verdict).length
        (messageMemory env (vnsCommand vnsAuthStatus verdict)) v vnsAuthStatus = .ok (v, 1) := by
  have hpos : 0 < verdict.length := by
    rw [List.length_pos_iff]
    rintro rfl
    exact hgood rfl
  have hbyte : messageMemory env (vnsCommand vnsAuthStatus verdict) (sizeofCBase + 0)
      = byteAt verdict 0 := byte_vnsCommand hpos
  have hstatus : srHandleAuthStatus (window .outOfBounds (vnsCommand vnsAuthStatus verdict).length
      (messageMemory env (vnsCommand vnsAuthStatus verdict)))
      (vnsCommand vnsAuthStatus verdict).length = .ok (byteAt verdict 0) := by
    rw [srHandleAuthStatus, window_of_lt (by rw [length_vnsCommand]; omega),
      ← Nat.add_zero sizeofCBase, hbyte]
    simp only [bind, Except.bind, if_neg hgood, pure, Except.pure]
  show (srHandleAuthStatus _ _ >>= fun authOk =>
    (.ok (v, if authOk = 0 then -1 else 1) : Except Fault (VnsSession × Int))) = _
  rw [hstatus]
  show Except.ok (v, if byteAt verdict 0 = 0 then -1 else 1) = _
  rw [if_neg hgood]

/-- A field that `strncpy` has filled holds the string and its NUL. -/
theorem byteAt_strncpyField {n i : Nat} {s : Bytes} (hs : s.length < n) (hi : i ≤ s.length) :
    byteAt (strncpyField n s) i = byteAt (s ++ [0]) i := by
  obtain ⟨m, rfl⟩ : ∃ m, n = m + 1 := ⟨n - 1, by omega⟩
  rw [strncpyField, byteAt_take (by omega), List.replicate_succ, List.append_cons,
    byteAt_append_left (by rw [List.length_append, List.length_singleton]; omega)]

/-- The table is written to a file. -/
theorem srCommandSwitch_table {table : FieldText idsize × Bytes} (hfopens : env.fopens = true)
    (hshort : sizeofCBase + (tablePayload table).length ≤ 10000) :
    srCommandSwitch env logfile (vnsCommand vnsRtable (tablePayload table)).length
        (messageMemory env (vnsCommand vnsRtable (tablePayload table))) v vnsRtable
      = .ok ({ v with rtables := v.rtables ++ [(nameBytes "rtable." ++ table.1.val, table.2)] }, 1) :=
    by
  obtain ⟨hnul, hid⟩ := table.1.property
  have hsize : idsize = 32 := rfl
  have hfield : (strncpyField idsize table.1.val).length = idsize := by
    rw [strncpyField, List.length_take, List.length_append, List.length_replicate]
    omega
  have hpayload : (tablePayload table).length = idsize + table.2.length := by
    rw [tablePayload, List.length_append, hfield]
  have hlen : (vnsCommand vnsRtable (tablePayload table)).length = 40 + table.2.length := by
    rw [length_vnsCommand, hpayload, sizeofCBase]
    omega
  -- the name fills less than its field, so the copy ends inside it
  have hname : stringAt (window .outOfBounds (vnsCommand vnsRtable (tablePayload table)).length
      (messageMemory env (vnsCommand vnsRtable (tablePayload table)))) (idsize + 1) sizeofCBase
      = .ok table.1.val := by
    apply stringAt_window hnul
    · exact Nat.lt_succ_of_lt hid
    · rw [length_vnsCommand, hpayload]
      omega
    · intro i hi
      rw [byte_vnsCommand (by rw [hpayload]; omega), tablePayload,
        byteAt_append_left (by rw [hfield]; omega), byteAt_strncpyField hid hi]
  -- `m_len - 8 - IDSIZE`, computed without a sign
  have hrest : (UInt32.ofNat (vnsCommand vnsRtable (tablePayload table)).length - 8
      - UInt32.ofNat idsize).toNat = table.2.length := by
    have h8 : (8 : UInt32).toNat = 8 := rfl
    rw [length_vnsCommand] at hlen
    rw [length_vnsCommand, hlen, UInt32.toNat_sub, UInt32.toNat_sub, UInt32.toNat_ofNat',
      UInt32.toNat_ofNat', h8]
    omega
  have htext : (window Fault.outOfBounds (vnsCommand vnsRtable (tablePayload table)).length
      (messageMemory env (vnsCommand vnsRtable (tablePayload table)))).bytes (sizeofCBase + idsize)
        table.2.length = .ok table.2 := by
    rw [bytes_window _ (by rw [length_vnsCommand, hpayload]; omega),
      memSlice_vnsCommand (by rw [hpayload]), tablePayload, slice, List.drop_left' hfield,
      List.take_length]
  show (srHandleRtable env.fopens _ >>= fun r => (.ok ({ v with
    rtables := v.rtables ++ r.1.toList }, if r.2 = 0 then -1 else 1) :
      Except Fault (VnsSession × Int))) = _
  rw [srHandleRtable, hname, hfopens, mLen_vnsCommand]
  simp only [bind, Except.bind, if_true]
  rw [hrest, htext]
  rfl

/-- The description of the hardware. -/
theorem srCommandSwitch_hardware {entries : List CHwEntry}
    (hlen : ∀ entry ∈ entries, entry.value.length = 32)
    (hshort : sizeofCBase + (entries.flatMap CHwEntry.bytes).length ≤ 10000)
    (hearly : ¬AddressTooEarly v.sr.ifList entries)
    (hverified : srVerifyRoutingTable
      { v.sr with ifList := describedIfs env.ifHeap v.sr.ifList entries } = 0) :
    srCommandSwitch env logfile (vnsCommand vnshwinfo (entries.flatMap CHwEntry.bytes)).length
        (messageMemory env (vnsCommand vnshwinfo (entries.flatMap CHwEntry.bytes))) v vnshwinfo
      = .ok ({ v with sr :=
          { v.sr with ifList := describedIfs env.ifHeap v.sr.ifList entries } }, 1) := by
  show (srHandleHwinfo _ env.ifHeap v.sr.ifList >>= fun ifList => (.ok ({ v with
      sr := { v.sr with ifList := ifList } },
    if srVerifyRoutingTable { v.sr with ifList := ifList } ≠ 0 then -1 else 1) :
      Except Fault (VnsSession × Int))) = _
  rw [srHandleHwinfo_of_mLen (by rw [length_vnsCommand]; omega)
    (by rw [length_vnsCommand]; exact hshort) mLen_vnsCommand, hwEntries_vnsCommand vnshwinfo env hlen,
    if_neg hearly]
  show Except.ok (_, if srVerifyRoutingTable { v.sr with ifList := _ } ≠ 0 then _ else _) = _
  rw [if_neg (not_not_intro hverified)]

end Branches

/-! ## Up to the loop

`GoodStart` is what has to come together for the router to serve. From there the program is followed
message by message, and the frames at the end are a session. -/

/-- The table a file stands for. -/
def rtOf (text : Bytes) : List SrRt := (lines newline text).filterMap lineEntry

/-- The files the server has written. -/
def VnsServer.written (server : VnsServer) : List (Bytes × Bytes) :=
  server.table.toList.map fun table => (nameBytes "rtable." ++ table.1.val, table.2)

/-- The answer to the request for the key. -/
def VnsServer.answer (server : VnsServer) (o : MainOptions) (auth : AuthEnv) (line : Bytes) : Bytes :=
  authReply o.user.val (sha1 (server.salt ++ hashedKey auth.keyStack line))

/-- The router as the server and the file describe it. -/
def VnsServer.config (server : VnsServer) (w : MainEnv) (text : Bytes) : SrConfig where
  ifList := describedIfs (w.envs 0).ifHeap [] server.entries
  routingTable := rtOf text

/-- The session, when the loop has begun. -/
def VnsServer.session (server : VnsServer) (o : MainOptions) (w : MainEnv) (text line : Bytes) :
    VnsSession where
  sr := server.config w text
  router := srInit
  user := o.user.val
  replies := server.answer o (w.connectEnvs 0).auth line
    ++ openMessage (o.connectArgs w.taken) o.user.val
  rtables := server.written

/-- The options, the files and the server go together: the key is found and accepted, all that is
sent is taken, the file is a table, and the description has an interface for each route and each
frame. -/
structure GoodStart (o : MainOptions) (w : MainEnv) (server : VnsServer) (text line : Bytes) :
    Prop where
  saltShort : sizeofCBase + server.salt.length ≤ 10000
  verdictShort : sizeofCBase + server.verdict.length ≤ 10000
  tableShort : ∀ table ∈ server.table, sizeofCBase + (tablePayload table).length ≤ 10000
  hardwareShort : sizeofCBase + (server.entries.flatMap CHwEntry.bytes).length ≤ 10000
  key : ((w.connectEnvs 0).auth.authKey.bind fun key => (pieces authKeyLen newline [] key).head?)
    = some line
  answered : (server.answer o (w.connectEnvs 0).auth line).length ≤ (w.connectEnvs 0).auth.taken
  accepted : byteAt server.verdict 0 ≠ 0
  opened : (openMessage (o.connectArgs w.taken) o.user.val).length ≤ w.taken
  asked : server.table.isSome ↔ 0 < (o.connectArgs w.taken).template.length
  fopens : server.table.isSome → (w.connectEnvs 2).fopens = true
  file : RtFile text
  lines : ∀ line ∈ lines newline text, line.length ≤ bufsiz - 1 ∧ (lineEntry line).isSome
  readFirst : o.template = none → w.files o.rtable = some text
  readAgain : w.files.after server.written o.rtable = some text
  inOrder : ¬AddressTooEarly [] server.entries
  verified : srVerifyRoutingTable (server.config w text) = 0
  names : NamesFit (server.config w text)
  frames : ∀ f ∈ server.frames, f.Sendable (server.config w text)

theorem rtableName_eq (o : MainOptions) : rtableName o = o.rtable := by
  rw [rtableName]
  split
  · next h => exact h.2.symm
  · rfl

section Start

variable {o : MainOptions} {w : MainEnv} {server : VnsServer} {text line : Bytes}

/-- An expected message is handled, and the rest goes on behind it. -/
theorem expect_vnsCommand {env : VnsEnv} {command : UInt32} {payload rest : Bytes} {logfile : Bool}
    {v v' : VnsSession} {arrivals : List Arrival} (next : VnsSession → List Arrival → ConnectEnd)
    (hshort : sizeofCBase + payload.length ≤ 10000)
    (htext : textOf arrivals = vnsCommand command payload ++ rest)
    (hswitch : srCommandSwitch env logfile (vnsCommand command payload).length
      (messageMemory env (vnsCommand command payload)) v command = .ok (v', 1)) :
    ∃ later, textOf later = rest ∧ expect env command logfile v arrivals next = next v' later := by
  have hread := srReadCommand_eq env command logfile v arrivals
  rw [htext, next_vnsCommand hshort] at hread
  obtain ⟨later, hlater, hread⟩ := hread
  rw [srHandleCommand_vnsCommand logfile v (.inr rfl), hswitch] at hread
  refine ⟨later, hlater, ?_⟩
  rw [expect, hread]
  rfl

/-- The session is opened. -/
theorem srConnectToServer_opened (h : GoodStart o w server text line) (sr : SrConfig)
    {arrivals : List Arrival} {rest : Bytes}
    (htext : textOf arrivals = server.opening.flatten ++ rest) :
    ∃ later, textOf later = rest ∧
      srConnectToServer (o.connectArgs w.taken) w.connectEnvs o.logfile
        ⟨sr, srInit, o.user.val, [], []⟩ arrivals
        = .returned { server.session o w text line with sr := sr } 0 later := by
  obtain ⟨key, hkey, hline⟩ := Option.bind_eq_some_iff.mp h.key
  have hpieces : textOf arrivals = vnsCommand vnsAuthRequest server.salt
      ++ (vnsCommand vnsAuthStatus server.verdict
        ++ ((server.table.toList.map fun table => vnsCommand vnsRtable (tablePayload table)).flatten
          ++ rest)) := by
    rw [htext, VnsServer.opening, List.flatten_cons, List.flatten_cons]
    simp only [List.append_assoc]
  rw [srConnectToServer]
  -- AUTH_REQUEST is answered, AUTH_STATUS accepted, and OPEN goes out whole
  obtain ⟨later₁, hlater₁, hfirst⟩ := expect_vnsCommand _ h.saltShort hpieces
    (srCommandSwitch_salt o.logfile ⟨sr, srInit, o.user.val, [], []⟩ h.saltShort hkey hline
      h.answered)
  rw [hfirst]
  obtain ⟨later₂, hlater₂, hsecond⟩ := expect_vnsCommand _ h.verdictShort hlater₁
    (srCommandSwitch_verdict o.logfile _ h.accepted)
  rw [hsecond]
  dsimp only
  have htaken : ¬(o.connectArgs w.taken).taken
      < (openMessage (o.connectArgs w.taken) o.user.val).length := Nat.not_lt.mpr h.opened
  rw [if_neg htaken]
  cases htable : server.table with
  | none =>
      -- no template was given, and nothing more is read
      have hplain : ¬(o.connectArgs w.taken).template.length > 0 := by
        intro hpos
        have hsome := h.asked.mpr hpos
        rw [htable] at hsome
        cases hsome
      rw [if_neg hplain]
      refine ⟨later₂, ?_, ?_⟩
      · rw [hlater₂, htable]
        rfl
      · rw [VnsServer.session, VnsServer.written, htable]
        rfl
  | some table =>
      have hsome : server.table.isSome := by rw [htable]; rfl
      rw [if_pos (h.asked.mp hsome)]
      have hrest : textOf later₂ = vnsCommand vnsRtable (tablePayload table) ++ rest := by
        rw [hlater₂, htable, Option.toList_some, List.map_singleton, List.flatten_singleton]
      have hshort := h.tableShort table htable
      obtain ⟨later₃, hlater₃, hthird⟩ := expect_vnsCommand (fun v arrivals => .returned v 0 arrivals)
        hshort hrest (srCommandSwitch_table o.logfile _ (h.fopens hsome) hshort)
      refine ⟨later₃, hlater₃, ?_⟩
      rw [hthird, VnsServer.session, VnsServer.written, htable]
      rfl

/-- A file of good lines is loaded, and the program goes on. -/
theorem srLoadRtWrap_good (h : GoodStart o w server text line) (stack : RtBuffers)
    (table : List SrRtNode) (hempty : text = [] → table = []) :
    ∃ loaded : List SrRtNode, loaded.map SrRtNode.entry = rtOf text ∧
      ∀ next, srLoadRtWrap (some text) stack table next = next loaded := by
  obtain ⟨loaded, hload, hentries⟩ := srLoadRt_good stack table.length h.file ⟨h.lines, hempty⟩
  refine ⟨loaded, ?_, fun next => ?_⟩
  · rw [rtOf, ← Function.id_comp lineEntry, ← List.filterMap_map, ← hentries, List.filterMap_map]
    exact (List.filterMap_eq_map (f := SrRtNode.entry)).symm ▸ rfl
  · rw [srLoadRtWrap, hload]
    rfl

/-- While no request is queued, the timeout thread does not look at the router. -/
theorem run_timeouts (wakes : List (Nat × Memory)) {s : SrState} (hidle : s.cache.requests = []) :
    ∃ s', ∀ sr, run (srStep sr) s (wakes.map fun wake => .timeout wake.1 wake.2) = .ok s' := by
  induction wakes generalizing s with
  | nil => exact ⟨s, fun _ => rfl⟩
  | cons wake wakes ih =>
      have hstep : ∃ s', s'.cache.requests = [] ∧
          ∀ sr, srStep sr s (.timeout wake.1 wake.2) = .ok s' := by
        refine ⟨(s.tick (.timeout wake.1 wake.2)).expire, hidle, fun sr => ?_⟩
        show srArpcacheSweepreqs sr (s.tick (.timeout wake.1 wake.2)).expire = _
        have hqueue : (s.tick (.timeout wake.1 wake.2)).expire.cache.requests = [] := hidle
        rw [srArpcacheSweepreqs, hqueue]
      obtain ⟨s₁, hidle₁, hstep⟩ := hstep
      obtain ⟨s₂, hrest⟩ := ih hidle₁
      refine ⟨s₂, fun sr => ?_⟩
      rw [List.map_cons, run_cons]
      exact ⟨s₁, hstep sr, hrest sr⟩

theorem framesEnd_router (v : VnsSession) (s : SrState) (r : Except Fault SrState) :
    framesEnd { v with router := s } r = framesEnd v r := by
  cases r <;> rfl

/-- The steps of the router: those of the session, the timeouts before the description first. -/
def VnsServer.inputs (server : VnsServer) (w : MainEnv) (text : Bytes) : List SrInput :=
  wakeInputs (w.envs 0) ++ sessionInputs (server.config w text) w.envs 1 server.frames

/-- The loop: the description, then the frames. -/
theorem srMain_described (h : GoodStart o w server text line) {arrivals : List Arrival}
    (htext : textOf arrivals
      = server.description ++ (server.frames.map SentFrame.message).flatten) :
    srMain w.envs o.logfile 0
        { server.session o w text line with sr := ⟨[], rtOf text⟩ } arrivals
      = framesEnd (server.session o w text line)
        (srRun (server.config w text) (server.inputs w text)) := by
  have hcut : vnsFraming.cut (textOf arrivals)
      = (server.description :: server.frames.map SentFrame.message, []) := by
    have hframes := vnsFraming.cut_flatten (server.frames.map SentFrame.message) (by
      intro m hm
      obtain ⟨f, hf, rfl⟩ := List.mem_map.mp hm
      exact vnsFraming_message (h.frames f hf).short) []
    have hnil : vnsFraming.cut [] = ([], []) := vnsFraming.cut_stop fun _ _ h => nomatch h
    rw [hnil, List.append_nil, List.append_nil] at hframes
    rw [htext, VnsServer.description, vnsFraming.cut_message (next_vnsCommand h.hardwareShort _),
      hframes]
  have hentries : ∀ entry ∈ server.entries, entry.value.length = 32 := by
    intro entry hentry
    obtain ⟨hardware, -, rfl⟩ := List.mem_map.mp hentry
    exact hardware.property
  -- the sweeps before the first message find an empty queue
  obtain ⟨s, hs⟩ := run_timeouts (w.envs 0).wakes (s := srInit) rfl
  have hwake : wake (w.envs 0) { server.session o w text line with sr := ⟨[], rtOf text⟩ }
      = .ok { server.session o w text line with sr := ⟨[], rtOf text⟩, router := s } := by
    rw [wake]
    exact congrArg (Except.map _) (hs _)
  -- the hardware message builds the interface list; every frame comes after it
  have hswitch := srCommandSwitch_hardware o.logfile
    { server.session o w text line with sr := ⟨[], rtOf text⟩, router := s } hentries
    h.hardwareShort h.inOrder h.verified
  have hrun : srRun (server.config w text) (server.inputs w text)
      = run (srStep (server.config w text)) s
        (sessionInputs (server.config w text) w.envs 1 server.frames) := by
    rw [srRun, VnsServer.inputs, run_append, wakeInputs, hs]
    rfl
  rw [srMain_of_cut 0 _ _ hcut, vnsSession, hwake, VnsServer.description]
  dsimp only
  rw [srHandleCommand_vnsCommand _ _ (.inl rfl), hswitch, hrun]
  exact (vnsSession_frames (v := { server.session o w text line with router := s }) server.frames
    h.names h.frames).trans (framesEnd_router _ _ _)

/-- **The program runs the router**: with a server that accepts the key and describes hardware for
the routing table, `main` serves, in whatever segments the text comes. What it does is the run of
the router from its first state, with the table of the file and the interfaces of the description,
on the frames of the server. -/
theorem routerMain_serves (h : GoodStart o w server text line) {arrivals : List Arrival}
    (htext : textOf arrivals = server.text) :
    routerMain o w arrivals = .serving (framesEnd (server.session o w text line)
      (srRun (server.config w text) (server.inputs w text))) := by
  -- with or without a template, the table is read again after the connection is open
  have hconnect : ∀ table : List SrRtNode, (text = [] → table = []) →
      mainConnect o w arrivals table = .serving (framesEnd (server.session o w text line)
        (srRun (server.config w text) (server.inputs w text))) := by
    intro table hempty
    obtain ⟨later, hlater, hopened⟩ := srConnectToServer_opened h
      ⟨[], table.map SrRtNode.entry⟩ htext
    rw [mainConnect]
    dsimp only
    rw [hopened]
    dsimp only
    have hfile : w.files.after (server.session o w text line).rtables (rtableName o)
        = some text := by
      rw [rtableName_eq]
      exact h.readAgain
    obtain ⟨loaded, hentries, hload⟩ := srLoadRtWrap_good h (w.stack 1) table hempty
    rw [if_neg (by decide), hfile, hload, hentries]
    exact congrArg ProgramEnd.serving (srMain_described h hlater)
  rw [routerMain]
  cases htemplate : o.template with
  | none =>
      -- without a template the file is read before as well
      obtain ⟨loaded, hentries, hload⟩ := srLoadRtWrap_good h (w.stack 0) [] fun _ => rfl
      dsimp only
      rw [h.readFirst htemplate, hload]
      apply hconnect
      rintro rfl
      exact List.map_eq_nil_iff.mp hentries
  | some _ => exact hconnect [] fun _ => rfl

end Start

/-! ## The table `rtable`

The table that comes with the source, with a server that describes its interfaces, sends a datagram
and answers for its host. -/

/-- An entry of the description, with a value of at most 32 bytes. -/
def hwEntry (mKey : UInt32) (value : Bytes) (h : value.length ≤ 32) :
    { entry : CHwEntry // entry.value.length = 32 } :=
  ⟨⟨mKey, value ++ List.replicate (32 - value.length) 0⟩, by simp [h]⟩

/-- A server with the interfaces of `rtable`, which sends a datagram and answers for its host. -/
def rtableServer : VnsServer where
  salt := [1, 2, 3, 4]
  verdict := [1]
  table := none
  hardware :=
    [hwEntry hwinterface [101, 116, 104, 49] (by decide),
      hwEntry hwethip [192, 168, 2, 1] (by decide), hwEntry hwether [2, 0, 0, 0, 0, 1] (by decide),
      hwEntry hwinterface [101, 116, 104, 50] (by decide),
      hwEntry hwethip [172, 64, 3, 1] (by decide), hwEntry hwether [2, 0, 0, 0, 0, 2] (by decide),
      hwEntry hwinterface [101, 116, 104, 51] (by decide),
      hwEntry hwethip [10, 0, 1, 1] (by decide), hwEntry hwether [2, 0, 0, 0, 0, 3] (by decide)]
  frames := datagramAndReply

/-- The options are the usual ones. -/
def rtableOptions : MainOptions where
  host := nameBytes "vrhost"
  user := ⟨[117], by decide⟩
  template := none
  rtable := nameBytes "rtable"
  topo := 0
  logfile := false

def rtableEnv : MainEnv where
  files _ := some rtableText
  stack _ := ⟨[], [], [], []⟩
  connectEnvs _ := keyEnv
  envs := clockEnvs
  taken := 200

theorem rtableServer_config : rtableServer.config rtableEnv rtableText = rtableConfig := by
  have hifs : (rtableServer.config rtableEnv rtableText).ifList = rtableConfig.ifList := by
    decide +kernel
  have hroutes : (rtableServer.config rtableEnv rtableText).routingTable
      = rtableConfig.routingTable := by
    decide +kernel
  exact SrConfig.ext hifs hroutes

theorem goodStart_rtable :
    GoodStart rtableOptions rtableEnv rtableServer rtableText (List.replicate 64 97) := by
  refine ⟨by decide, by decide, by simp [rtableServer], by decide +kernel, by decide +kernel, ?_,
    by decide, by decide +kernel, by decide +kernel, by simp [rtableServer],
    ⟨by decide +kernel, by decide +kernel⟩, by decide +kernel, fun _ => rfl, rfl,
    by decide +kernel, by decide +kernel, ?_, ?_⟩
  · rw [VnsServer.answer, authReply, List.length_append, length_sha1Words_bytes]
    decide +kernel
  · rw [rtableServer_config]
    exact namesFit_rtableConfig
  · rw [rtableServer_config]
    intro f hf
    simp only [rtableServer, datagramAndReply, List.mem_cons, List.not_mem_nil, or_false] at hf
    rcases hf with rfl | rfl
    · exact ⟨by decide +kernel, by decide +kernel⟩
    · exact ⟨by decide +kernel, by decide +kernel⟩

/-- The router is started, queues the datagram and sends it when the answer comes. -/
theorem routerMain_serves_rtable : ∃ s,
    routerMain rtableOptions rtableEnv [.bytes rtableServer.text]
      = .serving (.waits { rtableServer.session rtableOptions rtableEnv rtableText
        (List.replicate 64 97) with router := s }) ∧
    srRun rtableConfig (rtableServer.inputs rtableEnv rtableText) = .ok s ∧
    (sentOut s.history).length = 1 := by
  have hinputs : rtableServer.inputs rtableEnv rtableText
      = sessionInputs rtableConfig clockEnvs 1 datagramAndReply := by
    rw [VnsServer.inputs, rtableServer_config]
    rfl
  obtain ⟨s, hrun, hsent⟩ : ∃ s, srRun rtableConfig
      (sessionInputs rtableConfig clockEnvs 1 datagramAndReply) = .ok s ∧
        decide ((sentOut s.history).length = 1) = true :=
    exists_ok_of_check (by decide +kernel)
  rw [← hinputs] at hrun
  refine ⟨s, ?_, hrun, of_decide_eq_true hsent⟩
  rw [routerMain_serves goodStart_rtable (List.append_nil _), rtableServer_config, hrun]
  rfl

end NetworkProjects.Router
