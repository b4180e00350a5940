import NetworkProjects.Router.AuthReply
import NetworkProjects.Router.HwInfo
import NetworkProjects.Router.NoRoute

/-!
# A session with the server (`sr_read_from_server_expect`, `main`)

The server talks to the router in messages that begin with their length. The router reads the length
and then the rest, each in a loop around `recv`, and `main` does so until a call does not return 1.

What a session does is a function of the bytes the server sends, however they are cut into segments
and whenever a signal interrupts a read (`srMain_eq`): the messages are handled one after another,
and the first length that is refused ends the session. A session of frames is a run of the router on
these frames (`srMain_frames`), so what holds of every run holds of every session.
-/

namespace NetworkProjects.Router

open NetworkProjects.Lib

/-! ## Commands (`vnscommand.h`) -/

/-- `VNSBANNER`. -/
def vnsbanner : UInt32 := 8
/-- `VNSHWINFO`. -/
def vnshwinfo : UInt32 := 16
/-- `VNS_RTABLE`. -/
def vnsRtable : UInt32 := 32
/-- `VNS_AUTH_REQUEST`. -/
def vnsAuthRequest : UInt32 := 128
/-- `VNS_AUTH_STATUS`. -/
def vnsAuthStatus : UInt32 := 512
/-- `IDSIZE`. -/
def idsize : Nat := 32

/-! ## One message

The branches of the `switch`, over the bytes of a message that has been read as a whole. The banner,
the close and the status of the key have texts that are printed, and these are read as well. -/

/-- What a message can change: the router, and what has been sent besides frames or written to a
file. -/
structure VnsSession where
  sr : SrConfig
  router : SrState
  user : Bytes
  replies : Bytes
  rtables : List (Bytes × Bytes)

/-- What surrounds the handling of one message: the rounds of the timeout thread before it, the
clock, the memory nobody wrote, and whether `fopen` opens the file. -/
structure VnsEnv where
  wakes : List (Nat × Memory)
  now : Nat
  beyond : Nat → UInt8
  heap : Nat → UInt8
  stack : Nat → EtherAddr
  ifHeap : IfHeap
  auth : AuthEnv
  fopens : Bool

/-- A string that is read up to its NUL; there is room for `room` bytes with it. -/
def stringAt (rd : Load Fault) : Nat → Nat → Except Fault Bytes
  | 0, _ => .error .outOfBounds
  | room + 1, off =>
      match rd off with
      | .error e => .error e
      | .ok c => if c = 0 then .ok [] else (stringAt rd room (off + 1)).map (c :: ·)

/-- `sr_handle_rtable`: the file that is written, and what is returned. `fn` has room for the
identifier and its NUL. -/
def srHandleRtable (fopens : Bool) (rd : Load Fault) :
    Except Fault (Option (Bytes × Bytes) × Int) := do
  let fn ← stringAt rd (idsize + 1) sizeofCBase
  if fopens then
    let mLen ← loadNetWord rd 0
    let rtable ← rd.bytes (sizeofCBase + idsize) (mLen - 8 - UInt32.ofNat idsize).toNat
    return (some (nameBytes "rtable." ++ fn, rtable), 1)
  else return (none, 0)

/-- `sr_handle_auth_status`. With bad news comes a text, which is printed. -/
def srHandleAuthStatus (rd : Load Fault) (len : Nat) : Except Fault UInt8 := do
  let authOk ← rd sizeofCBase
  if authOk = 0 then
    discard (stringAt rd len (sizeofCBase + 1))
    return authOk
  else return authOk

/-- The `VNSPACKET` branch with the call of `sr_handlepacket`. -/
def handleVnsPacket (env : VnsEnv) (logfile : Bool) (len : Nat) (mem : Nat → UInt8)
    (v : VnsSession) : Except Fault VnsSession := do
  let rd := window .outOfBounds len mem
  let calls ← vnsPacket v.sr rd logfile len
  if ⟨.srHandlepacket, packetLen len⟩ ∈ calls then
    let packet ← rd.bytes sizeofCPacketHeader (packetLen len).toNat
    let interface := nameText (untilNul (memSlice mem sizeofCBase srIfaceNamelen))
    let router ← srStep v.sr v.router
      (.frame interface packet env.now ⟨fun i => mem (len + i), env.heap, env.stack⟩)
    return { v with router := router }
  else return v

/-- The `switch` of `sr_read_from_server_expect`, over the `len` bytes of a message in `mem`. -/
def srCommandSwitch (env : VnsEnv) (logfile : Bool) (len : Nat) (mem : Nat → UInt8)
    (v : VnsSession) (command : UInt32) : Except Fault (VnsSession × Int) := do
  let rd := window .outOfBounds len mem
  if command = vnspacket then
    return (← handleVnsPacket env logfile len mem v, 1)
  else if command = vnsclose then
    discard (stringAt rd len sizeofCBase)
    return (v, 0)
  else if command = vnsbanner then
    discard (stringAt rd len sizeofCBase)
    return (v, 1)
  else if command = vnshwinfo then
    let ifList ← srHandleHwinfo rd env.ifHeap v.sr.ifList
    let sr := { v.sr with ifList := ifList }
    return ({ v with sr := sr }, if srVerifyRoutingTable sr ≠ 0 then -1 else 1)
  else if command = vnsRtable then
    let (file, ret) ← srHandleRtable env.fopens rd
    return ({ v with rtables := v.rtables ++ file.toList }, if ret = 0 then -1 else 1)
  else if command = vnsAuthRequest then
    let (reply, ret) ← srHandleAuthRequest env.auth v.user rd
    return ({ v with replies := v.replies ++ reply }, if ret = 0 then -1 else 1)
  else if command = vnsAuthStatus then
    let authOk ← srHandleAuthStatus rd len
    return (v, if authOk = 0 then -1 else 1)
  else return (v, 1)

/-- `sr_read_from_server_expect`, once the message is there. -/
def srHandleCommand (env : VnsEnv) (expectedCmd : UInt32) (logfile : Bool) (len : Nat)
    (mem : Nat → UInt8) (v : VnsSession) : Except Fault (VnsSession × Int) := do
  let command ← loadNetWord (window .outOfBounds len mem) 4
  if expectedCmd ≠ 0 ∧ command ≠ expectedCmd ∧ command ≠ vnsclose then return (v, -1)
  srCommandSwitch env logfile len mem v command

/-! ## Reading

A length has to be between 4 and 10000. The rest of the message is read behind it, and what
surrounds the message in memory is whatever was there. -/

/-- The length at the head of a message, as an `int`. -/
def commandLength (head : Bytes) : Int := (loadWord .big head 0).toInt32.toInt

/-- Memory from `buf` on, with a message in it. -/
def messageMemory (env : VnsEnv) (message : Bytes) : Nat → UInt8 :=
  fun i => if i < message.length then byteAt message i else env.beyond (i - message.length)

/-- How a call of `sr_read_from_server_expect` ends. Once nothing more arrives it goes on reading.
-/
inductive ReadEnd
  | waits
  | fault (e : Fault)
  | returned (v : VnsSession) (ret : Int) (later : List Arrival)

/-- `sr_read_from_server_expect`. A length below 4 has no room for the length word that is written
back. -/
def srReadCommand (env : VnsEnv) (expectedCmd : UInt32) (logfile : Bool) (v : VnsSession)
    (arrivals : List Arrival) : ReadEnd :=
  match readExactly 4 [] arrivals with
  | none => .waits
  | some (head, arrivals) =>
      if commandLength head > 10000 ∨ commandLength head < 0 then .returned v (-1) arrivals
      else if commandLength head < 4 then .fault .outOfBounds
      else
        match readExactly ((commandLength head).toNat - 4) [] arrivals with
        | none => .waits
        | some (body, arrivals) =>
            match srHandleCommand env expectedCmd logfile (commandLength head).toNat
              (messageMemory env (head ++ body)) v with
            | .error e => .fault e
            | .ok (v, ret) => .returned v ret arrivals

/-- The rule for the length. -/
def vnsFraming : Framing where
  header := 4
  total head :=
    if commandLength head > 10000 ∨ commandLength head < 4 then none
    else some (commandLength head).toNat
  header_pos := by decide
  header_le := by
    intro head n h
    split at h
    · cases h
    · cases h
      omega

theorem vnsFraming_total {head : Bytes} {n : Nat} (h : vnsFraming.total head = some n) :
    commandLength head = n ∧ 4 ≤ n ∧ n ≤ 10000 := by
  have hsome : (if commandLength head > 10000 ∨ commandLength head < 4 then none
    else some (commandLength head).toNat) = some n := h
  split at hsome
  · cases hsome
  · cases hsome
    omega

theorem vnsFraming_total_none {head : Bytes} (h : vnsFraming.total head = none) :
    commandLength head > 10000 ∨ commandLength head < 4 := by
  by_contra hgood
  exact absurd (show some _ = none from (if_neg hgood).symm.trans h) (Option.some_ne_none _)

/-- What a message does, from what the handler says. -/
def ReadEnd.handled (later : List Arrival) : Except Fault (VnsSession × Int) → ReadEnd
  | .error e => .fault e
  | .ok (v, ret) => .returned v ret later

/-- **One call reads one message**, however it comes: what it does depends on the bytes up to the
end of the message, and what is left is what follows them. -/
theorem srReadCommand_eq (env : VnsEnv) (expectedCmd : UInt32) (logfile : Bool) (v : VnsSession)
    (arrivals : List Arrival) :
    match vnsFraming.next (textOf arrivals) with
    | .message m rest => ∃ later, textOf later = rest ∧
        srReadCommand env expectedCmd logfile v arrivals = .handled later
          (srHandleCommand env expectedCmd logfile m.length (messageMemory env m) v)
    | .refused => ∃ later, srReadCommand env expectedCmd logfile v arrivals
        = if commandLength ((textOf arrivals).take 4) > 10000 ∨
            commandLength ((textOf arrivals).take 4) < 0
          then .returned v (-1) later else .fault .outOfBounds
    | .incomplete => srReadCommand env expectedCmd logfile v arrivals = .waits := by
  have hread := vnsFraming.readMessage_eq arrivals
  rw [srReadCommand]
  cases hnext : vnsFraming.next (textOf arrivals) with
  | message m rest =>
      rw [hnext] at hread
      obtain ⟨later, hread, hlater⟩ := hread
      obtain ⟨middle, hhead, htotal, hbody⟩ := vnsFraming.readMessage_message hread
      obtain ⟨hlen, hlow, hhigh⟩ := vnsFraming_total htotal
      have hhead' : readExactly 4 [] arrivals = some (m.take 4, middle) := hhead
      have hbody' : readExactly (m.length - 4) [] middle = some (m.drop 4, later) := hbody
      have hlen' : commandLength (m.take 4) = m.length := hlen
      refine ⟨later, hlater, ?_⟩
      rw [hhead']
      dsimp only
      rw [hlen', if_neg (by omega), if_neg (by omega), Int.toNat_natCast, hbody']
      dsimp only
      rw [List.take_append_drop]
      cases srHandleCommand env expectedCmd logfile m.length (messageMemory env m) v <;> rfl
  | refused =>
      -- a length over 10000 or below 0 ends the call; one below 4 is written behind its buffer
      rw [hnext] at hread
      obtain ⟨middle, hhead, htotal⟩ := vnsFraming.readMessage_refused hread
      have hhead' : readExactly 4 [] arrivals = some ((textOf arrivals).take 4, middle) := hhead
      have hbad : commandLength ((textOf arrivals).take 4) > 10000 ∨
          commandLength ((textOf arrivals).take 4) < 4 := vnsFraming_total_none htotal
      refine ⟨middle, ?_⟩
      rw [hhead']
      dsimp only
      split
      · rfl
      · rw [if_pos (by omega)]
  | incomplete =>
      -- either the four length bytes are missing, or some of what they announce
      rw [hnext] at hread
      rcases vnsFraming.readMessage_incomplete hread with
        hnone | ⟨head, middle, n, hhead, htotal, hnone⟩
      · have hnone' : readExactly 4 [] arrivals = none := hnone
        rw [hnone']
      · obtain ⟨hlen, hlow, hhigh⟩ := vnsFraming_total htotal
        have hhead' : readExactly 4 [] arrivals = some (head, middle) := hhead
        have hnone' : readExactly (n - 4) [] middle = none := hnone
        rw [hhead']
        dsimp only
        rw [hlen, if_neg (by omega), if_neg (by omega), Int.toNat_natCast, hnone']

/-! ## The main loop

Each round reads one message. The text gets shorter with each, so the loop ends or waits; and what
it does is determined by how the text is cut. -/

/-- How `main` ends, or that it waits for the server. -/
inductive MainEnd
  | waits (v : VnsSession)
  | fault (e : Fault)
  | ended (v : VnsSession) (ret : Int)

/-- The rounds of the timeout thread before a message. -/
def wake (env : VnsEnv) (v : VnsSession) : Except Fault VnsSession :=
  (run (srStep v.sr) v.router (env.wakes.map fun (now, mem) => .timeout now mem)).map fun router =>
    { v with router := router }

/-- A call that returns 1 has read a message. -/
theorem length_later_lt {env : VnsEnv} {expectedCmd : UInt32} {logfile : Bool}
    {v v' : VnsSession} {arrivals later : List Arrival} {ret : Int}
    (h : srReadCommand env expectedCmd logfile v arrivals = .returned v' ret later)
    (hret : ret = 1) : (textOf later).length < (textOf arrivals).length := by
  have hread := srReadCommand_eq env expectedCmd logfile v arrivals
  cases hnext : vnsFraming.next (textOf arrivals) with
  | message m rest =>
      rw [hnext] at hread
      obtain ⟨later', hlater, hread⟩ := hread
      rw [h] at hread
      have hsame : later' = later := by
        cases hhandle : srHandleCommand env expectedCmd logfile m.length (messageMemory env m) v with
        | error e =>
            rw [hhandle] at hread
            cases hread
        | ok r =>
            rw [hhandle] at hread
            cases hread
            rfl
      rw [← hsame, hlater]
      exact vnsFraming.length_rest_lt hnext
  | refused =>
      -- a refused length returns -1
      rw [hnext] at hread
      obtain ⟨later', hread⟩ := hread
      rw [h] at hread
      split at hread
      · cases hread
        cases hret
      · cases hread
  | incomplete =>
      rw [hnext, h] at hread
      cases hread

/-- `while (sr_read_from_server(&sr) == 1);`, from the `k`-th message on. -/
def srMain (envs : Nat → VnsEnv) (logfile : Bool) (k : Nat) (v : VnsSession)
    (arrivals : List Arrival) : MainEnd :=
  match wake (envs k) v with
  | .error e => .fault e
  | .ok v =>
      match h : srReadCommand (envs k) 0 logfile v arrivals with
      | .waits => .waits v
      | .fault e => .fault e
      | .returned v ret later =>
          if hret : ret = 1 then srMain envs logfile (k + 1) v later else .ended v ret
termination_by (textOf arrivals).length
decreasing_by exact length_later_lt h hret

/-- The session as it is meant: the messages are handled in order, from the `k`-th on, and then the
router waits, unless the next length is refused. -/
def vnsSession (envs : Nat → VnsEnv) (logfile : Bool) :
    Nat → VnsSession → List Bytes → Bytes → MainEnd
  | k, v, [], tail =>
      match wake (envs k) v with
      | .error e => .fault e
      | .ok v =>
          match vnsFraming.next tail with
          | .refused =>
              if commandLength (tail.take 4) > 10000 ∨ commandLength (tail.take 4) < 0
              then .ended v (-1) else .fault .outOfBounds
          | _ => .waits v
  | k, v, m :: ms, tail =>
      match wake (envs k) v with
      | .error e => .fault e
      | .ok v =>
          match srHandleCommand (envs k) 0 logfile m.length (messageMemory (envs k) m) v with
          | .error e => .fault e
          | .ok (v, ret) =>
              if ret = 1 then vnsSession envs logfile (k + 1) v ms tail else .ended v ret

/-- One round of the loop. -/
theorem srMain_round (envs : Nat → VnsEnv) (logfile : Bool) (k : Nat) (v : VnsSession)
    (arrivals : List Arrival) :
    srMain envs logfile k v arrivals =
      match wake (envs k) v with
      | .error e => .fault e
      | .ok v =>
          match srReadCommand (envs k) 0 logfile v arrivals with
          | .waits => .waits v
          | .fault e => .fault e
          | .returned v ret later =>
              if ret = 1 then srMain envs logfile (k + 1) v later else .ended v ret := by
  rw [srMain]
  cases wake (envs k) v with
  | error e => rfl
  | ok v =>
      dsimp only
      split
      · next h => rw [h]
      · next h => rw [h]
      · next h => rw [h]; rfl

/-- The loop, round by round: each takes the next message off the text. -/
theorem srMain_of_cut {envs : Nat → VnsEnv} {logfile : Bool} (k : Nat) (v : VnsSession)
    (arrivals : List Arrival) {ms : List Bytes} {tail : Bytes}
    (hcut : vnsFraming.cut (textOf arrivals) = (ms, tail)) :
    srMain envs logfile k v arrivals = vnsSession envs logfile k v ms tail := by
  obtain ⟨rfl, rfl⟩ := Prod.ext_iff.mp hcut
  clear hcut
  -- each message shortens what is left of the stream
  induction hlen : (textOf arrivals).length using Nat.strongRecOn generalizing k v arrivals with
  | _ n ih =>
      have hread := fun v => srReadCommand_eq (envs k) 0 logfile v arrivals
      rw [srMain_round]
      cases hnext : vnsFraming.next (textOf arrivals) with
      | message m rest =>
          simp only [hnext] at hread
          rw [vnsFraming.cut_message hnext, vnsSession]
          -- the timer thread runs first, in every round
          cases wake (envs k) v with
          | error e => rfl
          | ok v =>
              obtain ⟨later, hlater, hcall⟩ := hread v
              dsimp only
              rw [hcall]
              cases srHandleCommand (envs k) 0 logfile m.length (messageMemory (envs k) m) v with
              | error e => rfl
              | ok r =>
                  have hless : (textOf later).length < n := by
                    rw [hlater, ← hlen]
                    exact vnsFraming.length_rest_lt hnext
                  have hrest := ih _ hless (k + 1) r.1 later rfl
                  rw [hlater] at hrest
                  show (if r.2 = 1 then srMain envs logfile (k + 1) r.1 later else .ended r.1 r.2)
                    = _
                  rw [hrest]
      | refused =>
          simp only [hnext] at hread
          have hstop : ∀ m rest, vnsFraming.next (textOf arrivals) ≠ .message m rest := by
            rw [hnext]
            exact fun _ _ h => nomatch h
          rw [vnsFraming.cut_stop hstop, vnsSession, hnext]
          cases wake (envs k) v with
          | error e => rfl
          | ok v =>
              obtain ⟨later, hcall⟩ := hread v
              dsimp only
              rw [hcall]
              by_cases hbad : commandLength ((textOf arrivals).take 4) > 10000 ∨
                  commandLength ((textOf arrivals).take 4) < 0
              · rw [if_pos hbad, if_pos hbad]
                rfl
              · rw [if_neg hbad, if_neg hbad]
      | incomplete =>
          simp only [hnext] at hread
          have hstop : ∀ m rest, vnsFraming.next (textOf arrivals) ≠ .message m rest := by
            rw [hnext]
            exact fun _ _ h => nomatch h
          rw [vnsFraming.cut_stop hstop, vnsSession, hnext]
          cases wake (envs k) v with
          | error e => rfl
          | ok v =>
              dsimp only
              rw [hread v]

/-- **A session is a function of the text**: the main loop handles the messages of the text one
after another, in whatever segments they come and whatever signals come in between. -/
theorem srMain_eq (envs : Nat → VnsEnv) (logfile : Bool) (k : Nat) (v : VnsSession)
    (arrivals : List Arrival) :
    srMain envs logfile k v arrivals = vnsSession envs logfile k v
      (vnsFraming.cut (textOf arrivals)).1 (vnsFraming.cut (textOf arrivals)).2 :=
  srMain_of_cut k v arrivals rfl

/-! ## A session of frames

The bytes of a frame are framed by `sr_send_packet` on the other side, and the round hands the same
bytes to the router. An ARP request for another host is dropped before. -/

/-- A frame that the server sends for one of the router's interfaces. -/
structure SentFrame where
  name : IfName
  frame : Bytes

/-- The message it comes in. -/
def SentFrame.message (f : SentFrame) : Bytes := vnsMessage f.name.text f.frame

/-- What the frame sets in motion: nothing, if it is an ARP request for another host. -/
def SentFrame.inputs (sr : SrConfig) (env : VnsEnv) (f : SentFrame) : List SrInput :=
  if (srGetInterface sr f.name.text).any (foreignArpRequest · f.frame) then []
  else [.frame f.name.text f.frame env.now ⟨env.beyond, env.heap, env.stack⟩]

/-- The rounds of the timeout thread before a message, as steps of the router. -/
def wakeInputs (env : VnsEnv) : List SrInput := env.wakes.map fun (now, mem) => .timeout now mem

/-- The steps of a session of frames, from the `k`-th on. -/
def sessionInputs (sr : SrConfig) (envs : Nat → VnsEnv) : Nat → List SentFrame → List SrInput
  | k, [] => wakeInputs (envs k)
  | k, f :: fs =>
      wakeInputs (envs k) ++ f.inputs sr (envs k) ++ sessionInputs sr envs (k + 1) fs

/-- A frame that the router can be sent. -/
structure SentFrame.Sendable (sr : SrConfig) (f : SentFrame) : Prop where
  known : (srGetInterface sr f.name.text).isSome
  short : sizeofCPacketHeader + f.frame.length ≤ 10000

/-- How a session of frames ends, by the run of the router. -/
def framesEnd (v : VnsSession) : Except Fault SrState → MainEnd
  | .error e => .fault e
  | .ok router => .waits { v with router := router }

theorem begins_messageMemory (env : VnsEnv) (m : Bytes) : Begins (messageMemory env m) m :=
  fun _ hi => if_pos hi

/-- The name in a message, as `sr_handlepacket` gets it. -/
theorem nameText_vnsMessage {env : VnsEnv} (f : SentFrame) :
    nameText (untilNul (memSlice (messageMemory env f.message) sizeofCBase srIfaceNamelen))
      = f.name.text := by
  have hlen := f.name.property.2
  have hstart : f.name.val ++ [0]
      <+: memSlice (messageMemory env f.message) sizeofCBase srIfaceNamelen := by
    rw [List.prefix_iff_eq_take]
    apply ext_byteAt
    · rw [List.length_take, length_memSlice, List.length_append, List.length_singleton,
        srIfaceNamelen]
      omega
    · intro i hi
      rw [List.length_append, List.length_singleton] at hi
      rw [byteAt_take (by rw [List.length_append, List.length_singleton]; exact hi),
        byteAt_memSlice (by rw [srIfaceNamelen]; omega)]
      exact (name_in_memory (begins_messageMemory env f.message) i (by omega)).symm
  obtain ⟨rest, hrest⟩ := hstart
  rw [← hrest, List.append_assoc, untilNul_append, if_neg f.name.property.1]
  exact congrArg nameText (List.append_nil _)

/-- The branch hands the frame to the router. -/
theorem handleVnsPacket_frame {v : VnsSession} (fit : NamesFit v.sr) {f : SentFrame}
    (hf : f.Sendable v.sr) (env : VnsEnv) (logfile : Bool) :
    handleVnsPacket env logfile f.message.length (messageMemory env f.message) v
      = (run (srStep v.sr) v.router (f.inputs v.sr env)).map fun router =>
          { v with router := router } := by
  obtain ⟨i, hi⟩ := Option.isSome_iff_exists.mp hf.known
  have hshort := hf.short
  have hlen : f.message.length = sizeofCPacketHeader + f.frame.length := length_vnsMessage _ _
  have hbegins : Begins (messageMemory env f.message) (vnsMessage f.name.text f.frame) :=
    begins_messageMemory env f.message
  have hpacket := vnsPacket_vnsMessage fit hbegins hi hshort logfile
  have hpacketLen : (packetLen f.message.length).toNat = f.frame.length := by
    rw [toNat_packetLen (by omega) (by omega)]
    omega
  have hofNat : UInt32.ofNat f.frame.length = packetLen f.message.length := by
    rw [← hpacketLen, UInt32.ofNat_toNat]
  rw [← hlen, hofNat] at hpacket
  rw [handleVnsPacket, hpacket, SentFrame.inputs, hi, Option.any_some]
  -- an ARP request for another address is dropped before the router sees it
  cases hforeign : foreignArpRequest i f.frame with
  | true => rfl
  | false =>
      have hframe : (window Fault.outOfBounds f.message.length (messageMemory env f.message)).bytes
          sizeofCPacketHeader f.frame.length = .ok f.frame := by
        rw [bytes_window _ (by omega), hbegins.memSlice (by rw [length_vnsMessage]),
          slice_vnsMessage_frame]
      have hbeyond : (fun n => messageMemory env f.message (f.message.length + n)) = env.beyond := by
        funext n
        rw [messageMemory, if_neg (by omega), Nat.add_sub_cancel_left]
      have hmem : (⟨.srHandlepacket, packetLen f.message.length⟩ : VnsCall)
          ∈ [⟨.srArpReqNotForUs, packetLen f.message.length⟩,
            ⟨.srHandlepacket, packetLen f.message.length⟩] := by simp
      simp only [bind, Except.bind, Bool.false_eq_true, if_false]
      rw [if_pos hmem, hpacketLen, hframe]
      dsimp only
      rw [nameText_vnsMessage, hbeyond]
      cases hstep : srStep v.sr v.router
          (.frame f.name.text f.frame env.now ⟨env.beyond, env.heap, env.stack⟩) <;>
        simp [run, hstep, bind, Except.bind, pure, Except.pure, Except.map]

/-- A message with a frame is a step of the router. -/
theorem srHandleCommand_frame {v : VnsSession} (fit : NamesFit v.sr) {f : SentFrame}
    (hf : f.Sendable v.sr) (env : VnsEnv) (logfile : Bool) :
    srHandleCommand env 0 logfile f.message.length (messageMemory env f.message) v
      = (run (srStep v.sr) v.router (f.inputs v.sr env)).map fun router =>
          ({ v with router := router }, 1) := by
  have hlen : f.message.length = sizeofCPacketHeader + f.frame.length := length_vnsMessage _ _
  have hbegins : Begins (messageMemory env f.message) (vnsMessage f.name.text f.frame) :=
    begins_messageMemory env f.message
  have hcommand : loadNetWord (window .outOfBounds f.message.length (messageMemory env f.message)) 4
      = .ok vnspacket := by
    rw [loadNetWord, bytes_window _ (by rw [hlen, sizeofCPacketHeader]; omega),
      hbegins.memSlice (by rw [length_vnsMessage, sizeofCPacketHeader]; omega),
      slice_vnsMessage_command]
    exact congrArg Except.ok (loadWord_of_slice rfl)
  rw [srHandleCommand, hcommand]
  show srCommandSwitch env logfile f.message.length (messageMemory env f.message) v vnspacket = _
  rw [srCommandSwitch, if_pos rfl, handleVnsPacket_frame fit hf]
  cases run (srStep v.sr) v.router (f.inputs v.sr env) <;> rfl

/-- A message that begins with its length is cut out as a whole. -/
theorem vnsFraming_total_of_word {m : Bytes}
    (hword : loadWord .big (m.take 4) 0 = UInt32.ofNat m.length) (hlow : 4 ≤ m.length)
    (hhigh : m.length ≤ 10000) : vnsFraming.total (m.take vnsFraming.header) = some m.length := by
  have hcommand : commandLength (m.take 4) = m.length := by
    rw [commandLength, hword]
    have hsmall : (UInt32.ofNat m.length).toNat = m.length := by
      rw [UInt32.toNat_ofNat']
      omega
    have hint : ∀ x : UInt32, x.toNat < 2 ^ 31 → x.toInt32.toInt = x.toNat := fun x hx =>
      BitVec.toInt_eq_toNat_of_lt (by show 2 * x.toNat < 2 ^ 32; omega)
    rw [hint _ (by omega), hsmall]
  show (if commandLength (m.take 4) > 10000 ∨ commandLength (m.take 4) < 4 then none
    else some (commandLength (m.take 4)).toNat) = _
  rw [hcommand, if_neg (by omega), Int.toNat_natCast]

theorem vnsFraming_message {f : SentFrame} (hshort : sizeofCPacketHeader + f.frame.length ≤ 10000) :
    vnsFraming.total (f.message.take vnsFraming.header) = some f.message.length := by
  have hlen : f.message.length = sizeofCPacketHeader + f.frame.length := length_vnsMessage _ _
  apply vnsFraming_total_of_word
  · rw [hlen, SentFrame.message, vnsMessage, List.append_assoc, List.append_assoc,
      List.take_left' (length_wordBytes _ _)]
    exact loadWord_of_slice rfl
  · rw [hlen, sizeofCPacketHeader]
    omega
  · rw [hlen]
    exact hshort

theorem vnsSession_frames {envs : Nat → VnsEnv} {logfile : Bool} (fs : List SentFrame) {k : Nat}
    {v : VnsSession} (fit : NamesFit v.sr) (hfs : ∀ f ∈ fs, f.Sendable v.sr) :
    vnsSession envs logfile k v (fs.map SentFrame.message) []
      = framesEnd v (run (srStep v.sr) v.router (sessionInputs v.sr envs k fs)) := by
  induction fs generalizing k v with
  | nil =>
      rw [List.map_nil, vnsSession, sessionInputs, wake, ← wakeInputs]
      cases run (srStep v.sr) v.router (wakeInputs (envs k)) <;> rfl
  | cons f fs ih =>
      rw [List.map_cons, vnsSession, sessionInputs, run_append, run_append, wake, ← wakeInputs]
      cases run (srStep v.sr) v.router (wakeInputs (envs k)) with
      | error e => rfl
      | ok s =>
          have hhandle := srHandleCommand_frame (v := { v with router := s }) fit
            (hfs f List.mem_cons_self) (envs k) logfile
          dsimp only [Except.map, Except.bind]
          rw [hhandle]
          dsimp only
          cases run (srStep v.sr) s (f.inputs v.sr (envs k)) with
          | error e => rfl
          | ok t =>
              exact ih (k := k + 1) (v := { v with router := t }) fit fun f' hf' =>
                hfs f' (List.mem_cons_of_mem f hf')

/-- **A session of frames is a run of the router**: when the server's bytes are frames as
`sr_send_packet` writes them, `main` runs the router on these frames, in order, and waits for more.
-/
theorem srMain_frames {envs : Nat → VnsEnv} {logfile : Bool} {v : VnsSession}
    {fs : List SentFrame} {arrivals : List Arrival} (fit : NamesFit v.sr)
    (hfs : ∀ f ∈ fs, f.Sendable v.sr) (heaps : Nat → Nat → UInt8)
    (htext : textOf arrivals
      = (fs.mapIdx fun n f => sendPacketBuffer (heaps n) f.frame f.name.text).flatten) :
    srMain envs logfile 0 v arrivals
      = framesEnd v (run (srStep v.sr) v.router (sessionInputs v.sr envs 0 fs)) := by
  have hmessages : (fs.mapIdx fun n f => sendPacketBuffer (heaps n) f.frame f.name.text)
      = fs.map SentFrame.message := by
    apply List.ext_getElem?
    intro n
    rw [List.getElem?_mapIdx, List.getElem?_map]
    simp only [sendPacketBuffer_eq]
    rfl
  have hcut := vnsFraming.cut_flatten (fs.map SentFrame.message) (by
    intro m hm
    obtain ⟨f, hf, rfl⟩ := List.mem_map.mp hm
    exact vnsFraming_message (hfs f hf).short) []
  have hnil : vnsFraming.cut [] = ([], []) := vnsFraming.cut_stop fun _ _ h => nomatch h
  rw [hnil, List.append_nil, List.append_nil] at hcut
  rw [← hmessages, ← htext, hmessages] at hcut
  rw [srMain_of_cut 0 v arrivals hcut]
  exact vnsSession_frames fs fit hfs

/-- A message to which nothing else happens, with no file to be opened. -/
def quietEnv : VnsEnv where
  wakes := []
  now := 0
  beyond _ := 0
  heap _ := 0
  stack _ := etherAddrAt [] 0
  ifHeap _ := (etherAddrAt [] 0, 0)
  auth := ⟨none, fun _ => 0, ⟨⟨0, 0, 0, 0, 0⟩, 0, 0, ⟨List.replicate 64 0, rfl⟩, 0, false, false⟩,
    fun _ => 0, 0⟩
  fopens := false

/-- The router of `rtable` before its first message. -/
def rtableSession : VnsSession := ⟨rtableConfig, srInit, [117], [], []⟩

theorem namesFit_rtableConfig : NamesFit rtableConfig := by
  intro i hi
  simp only [rtableConfig, List.mem_cons, List.not_mem_nil, or_false] at hi
  rcases hi with rfl | rfl | rfl
  · exact ⟨⟨[101, 116, 104, 49], by decide⟩, by decide +kernel⟩
  · exact ⟨⟨[101, 116, 104, 50], by decide⟩, by decide +kernel⟩
  · exact ⟨⟨[101, 116, 104, 51], by decide⟩, by decide +kernel⟩

/-- A message arrives every second. -/
def clockEnvs (n : Nat) : VnsEnv := { quietEnv with now := 5 + n }

/-- A datagram for the server, and what the server answers when it is asked for its address. -/
def datagramAndReply : List SentFrame :=
  [⟨⟨[101, 116, 104, 51], by decide⟩, clientFrame 64 (dotted 192 168 2 2)⟩,
    ⟨⟨[101, 116, 104, 49], by decide⟩, serverArpReply⟩]

/-- They make two messages. -/
def datagramAndReplyText : Bytes :=
  (datagramAndReply.mapIdx fun _ f => sendPacketBuffer (fun _ => 0) f.frame f.name.text).flatten

/-- The datagram is queued, and sent when the answer comes. -/
theorem srMain_frames_datagramAndReply : ∃ s,
    srMain clockEnvs false 0 rtableSession [.bytes (datagramAndReplyText.take 2), .interrupted,
        .bytes (datagramAndReplyText.drop 2)]
      = .waits { rtableSession with router := s } ∧
    run (srStep rtableConfig) srInit (sessionInputs rtableConfig clockEnvs 0 datagramAndReply)
      = .ok s ∧ (sentOut s.history).length = 1 := by
  obtain ⟨s, hrun, hsent⟩ : ∃ s, run (srStep rtableConfig) srInit
      (sessionInputs rtableConfig clockEnvs 0 datagramAndReply) = .ok s ∧
        decide ((sentOut s.history).length = 1) = true :=
    exists_ok_of_check (by decide +kernel)
  refine ⟨s, ?_, hrun, of_decide_eq_true hsent⟩
  have hsendable : ∀ f ∈ datagramAndReply, f.Sendable rtableSession.sr := by
    intro f hf
    simp only [datagramAndReply, List.mem_cons, List.not_mem_nil, or_false] at hf
    rcases hf with rfl | rfl
    · exact ⟨by decide +kernel, by decide +kernel⟩
    · exact ⟨by decide +kernel, by decide +kernel⟩
  have htext : textOf [.bytes (datagramAndReplyText.take 2), .interrupted,
      .bytes (datagramAndReplyText.drop 2)] = datagramAndReplyText := by
    simp [textOf, Arrival.text]
  rw [srMain_frames namesFit_rtableConfig hsendable (fun _ _ => 0) htext]
  exact congrArg (framesEnd rtableSession) hrun

end NetworkProjects.Router
