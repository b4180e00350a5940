import NetworkProjects.Router.Session

/-!
# Opening a session (`sr_connect_to_server`)

Before it asks the server for a topology the router waits to be asked for its key, answers, and
waits to hear that the answer is good. Whatever the server sends, the router opens nothing before
that (`srConnectToServer_authenticated`). -/

namespace NetworkProjects.Router

open NetworkProjects.Lib

/-! ## The code -/

/-- `VNSOPEN`. -/
def vnsopen : UInt32 := 1
/-- `VNS_OPEN_TEMPLATE`. -/
def vnsOpenTemplate : UInt32 := 64

/-- The rest of `struct sr_instance`, and how many bytes `send` takes. -/
structure ConnectArgs where
  topoId : UInt16
  host : Bytes
  template : Bytes
  taken : Nat

/-- `strncpy` of a string into an array of `n` bytes. -/
def strncpyField (n : Nat) (s : Bytes) : Bytes := (s ++ List.replicate n 0).take n

/-- The `c_open_template` or the `c_open` that is sent. -/
def openMessage (args : ConnectArgs) (user : Bytes) : Bytes :=
  if args.template.length > 0 then
    wordBytes .big 70 ++ wordBytes .big vnsOpenTemplate ++ strncpyField 30 args.template
      ++ strncpyField idsize args.host
  else
    wordBytes .big 108 ++ wordBytes .big vnsopen ++ halfBytes .big args.topoId ++ [0, 0]
      ++ strncpyField idsize args.host ++ strncpyField idsize user ++ List.replicate idsize 0

/-- How `sr_connect_to_server` ends once the socket is connected, with what has been sent. -/
inductive ConnectEnd
  | waits (v : VnsSession)
  | fault (v : VnsSession) (e : Fault)
  | returned (v : VnsSession) (ret : Int) (later : List Arrival)

def ConnectEnd.session : ConnectEnd → VnsSession
  | .waits v => v
  | .fault v _ => v
  | .returned v _ _ => v

/-- `sr_read_from_server_expect(sr, expected_cmd) != 1`, and then -1 or what follows. -/
def expect (env : VnsEnv) (expectedCmd : UInt32) (logfile : Bool) (v : VnsSession)
    (arrivals : List Arrival) (next : VnsSession → List Arrival → ConnectEnd) : ConnectEnd :=
  match srReadCommand env expectedCmd logfile v arrivals with
  | .waits => .waits v
  | .fault e => .fault v e
  | .returned v ret later => if ret ≠ 1 then .returned v (-1) later else next v later

/-- `sr_connect_to_server`, once the socket is connected. -/
def srConnectToServer (args : ConnectArgs) (envs : Nat → VnsEnv) (logfile : Bool) (v : VnsSession)
    (arrivals : List Arrival) : ConnectEnd :=
  expect (envs 0) vnsAuthRequest logfile v arrivals fun v arrivals =>
    expect (envs 1) vnsAuthStatus logfile v arrivals fun v arrivals =>
      let command := openMessage args v.user
      if args.taken < command.length then
        .returned { v with replies := v.replies ++ command.take args.taken } (-1) arrivals
      else
        let v := { v with replies := v.replies ++ command }
        if args.template.length > 0 then
          expect (envs 2) vnsRtable logfile v arrivals fun v arrivals => .returned v 0 arrivals
        else .returned v 0 arrivals

/-! ## What was expected

A read that expects a command returns 1 only for that command. What else it did is read off the
session. -/

section Expected

variable {env : VnsEnv} {expectedCmd : UInt32} {logfile : Bool} {len : Nat} {mem : Nat → UInt8}
  {v v' : VnsSession} {ret : Int}

/-- The command of a message, if it is long enough to have one. -/
def commandOf (m : Bytes) : UInt32 := loadWord .big m 4

/-- A call that expects a command handles that command, or it does not return 1. -/
theorem srHandleCommand_expected (hne : expectedCmd ≠ 0)
    (h : srHandleCommand env expectedCmd logfile len mem v = .ok (v', ret)) :
    (v' = v ∧ ret ≠ 1) ∨
    (loadNetWord (window .outOfBounds len mem) 4 = .ok expectedCmd ∧
      srCommandSwitch env logfile len mem v expectedCmd = .ok (v', ret)) := by
  rw [srHandleCommand] at h
  obtain ⟨command, hcommand, h⟩ := bind_eq_ok.mp h
  by_cases hexpected : command = expectedCmd
  · right
    rw [hexpected] at hcommand h
    rw [if_neg (fun hbad => hbad.2.1 rfl)] at h
    exact ⟨hcommand, h⟩
  · left
    by_cases hother : command = vnsclose
    · rw [hother, if_neg (fun hbad => hbad.2.2 rfl)] at h
      obtain ⟨_, -, h⟩ := bind_eq_ok.mp
        (show (discard (stringAt (window .outOfBounds len mem) len sizeofCBase) >>= fun _ =>
          (.ok (v, 0) : Except Fault (VnsSession × Int))) = .ok (v', ret) from h)
      cases h
      exact ⟨rfl, by decide⟩
    · rw [if_pos ⟨hne, hexpected, hother⟩] at h
      cases h
      exact ⟨rfl, by decide⟩

/-- The branches of the three commands that are expected. -/
theorem srCommandSwitch_authRequest
    (h : srCommandSwitch env logfile len mem v vnsAuthRequest = .ok (v', ret)) :
    ∃ reply r, srHandleAuthRequest env.auth v.user (window .outOfBounds len mem) = .ok (reply, r) ∧
      v' = { v with replies := v.replies ++ reply } ∧ (ret = 1 → r ≠ 0) := by
  obtain ⟨⟨reply, r⟩, hreply, h⟩ := bind_eq_ok.mp
    (show (srHandleAuthRequest env.auth v.user (window .outOfBounds len mem) >>= fun r =>
      (.ok ({ v with replies := v.replies ++ r.1 }, if r.2 = 0 then -1 else 1) :
        Except Fault (VnsSession × Int))) = .ok (v', ret) from h)
  cases h
  refine ⟨reply, r, hreply, rfl, fun hret hzero => ?_⟩
  rw [if_pos hzero] at hret
  cases hret

/-- Whatever is printed, the byte that is returned is the one behind the header. -/
theorem srHandleAuthStatus_read {rd : Load Fault} {authOk : UInt8}
    (h : srHandleAuthStatus rd len = .ok authOk) : rd sizeofCBase = .ok authOk := by
  obtain ⟨c, hc, h⟩ := bind_eq_ok.mp h
  split at h
  · obtain ⟨_, -, h⟩ := bind_eq_ok.mp h
    cases h
    exact hc
  · cases h
    exact hc

theorem srCommandSwitch_authStatus
    (h : srCommandSwitch env logfile len mem v vnsAuthStatus = .ok (v', ret)) :
    v' = v ∧ (ret = 1 → sizeofCBase < len ∧ mem sizeofCBase ≠ 0) := by
  obtain ⟨authOk, hstatus, h⟩ := bind_eq_ok.mp
    (show (srHandleAuthStatus (window .outOfBounds len mem) len >>= fun authOk =>
      (.ok (v, if authOk = 0 then -1 else 1) : Except Fault (VnsSession × Int))) = .ok (v', ret)
      from h)
  cases h
  refine ⟨rfl, fun hret => ?_⟩
  have hauthOk := srHandleAuthStatus_read hstatus
  have hin : sizeofCBase < len := by
    by_contra hout
    rw [window_of_le (Nat.not_lt.mp hout)] at hauthOk
    cases hauthOk
  rw [window_of_lt hin] at hauthOk
  cases hauthOk
  refine ⟨hin, fun hzero => ?_⟩
  rw [if_pos hzero] at hret
  cases hret

theorem srCommandSwitch_rtable
    (h : srCommandSwitch env logfile len mem v vnsRtable = .ok (v', ret)) :
    v'.replies = v.replies := by
  obtain ⟨r, -, h⟩ := bind_eq_ok.mp
    (show (srHandleRtable env.fopens (window .outOfBounds len mem) >>= fun r =>
      (.ok ({ v with rtables := v.rtables ++ r.1.toList }, if r.2 = 0 then -1 else 1) :
        Except Fault (VnsSession × Int))) = .ok (v', ret) from h)
  cases h
  rfl

end Expected

/-! ## What the server has to send first

The replies of the router are always a beginning of the key and the request to open, and the second
one is there only behind a good verdict. -/

/-- The text begins with a request for the key, which `reply` answers. -/
def AnsweredBy (user : Bytes) (auth : AuthEnv) (text rest reply : Bytes) : Prop :=
  ∃ m text' line, vnsFraming.next text = .message m rest ∧ commandOf m = vnsAuthRequest ∧
    auth.authKey = some text' ∧ (pieces authKeyLen newline [] text').head? = some line ∧
    reply = authReply user (sha1 (m.drop sizeofCBase ++ hashedKey auth.keyStack line))

/-- The text begins with the news that the answer was good. -/
def AcceptedBy (text rest : Bytes) : Prop :=
  ∃ m, vnsFraming.next text = .message m rest ∧ commandOf m = vnsAuthStatus ∧
    byteAt m sizeofCBase ≠ 0

/-- What has been sent is no more than an answer, or an answer that was accepted and the message
that opens the session. -/
def SentInOrder (args : ConnectArgs) (user : Bytes) (auth : AuthEnv) (text sent : Bytes) : Prop :=
  sent = [] ∨ ∃ rest reply, AnsweredBy user auth text rest reply ∧
    (sent <+: reply ∨ ∃ rest', AcceptedBy rest rest' ∧ sent <+: reply ++ openMessage args user)

section Authenticated

variable {env : VnsEnv} {logfile : Bool} {v v' : VnsSession} {arrivals later : List Arrival}
  {ret : Int}

/-- A call that returns has read a message, or refused to. -/
theorem message_of_returned {expectedCmd : UInt32}
    (h : srReadCommand env expectedCmd logfile v arrivals = .returned v' ret later) :
    (v' = v ∧ ret ≠ 1) ∨
    ∃ m, vnsFraming.next (textOf arrivals) = .message m (textOf later) ∧
      srHandleCommand env expectedCmd logfile m.length (messageMemory env m) v = .ok (v', ret) := by
  have hread := srReadCommand_eq env expectedCmd logfile v arrivals
  cases hnext : vnsFraming.next (textOf arrivals) with
  | message m rest =>
      right
      rw [hnext] at hread
      obtain ⟨later', hlater, hread⟩ := hread
      rw [h] at hread
      cases hhandle : srHandleCommand env expectedCmd logfile m.length (messageMemory env m) v with
      | error e =>
          rw [hhandle] at hread
          cases hread
      | ok r =>
          rw [hhandle] at hread
          cases hread
          exact ⟨m, by rw [← hlater], hhandle⟩
  | refused =>
      -- nothing was handled, and the result is -1
      left
      rw [hnext] at hread
      obtain ⟨later', hread⟩ := hread
      rw [h] at hread
      split at hread
      · cases hread
        exact ⟨rfl, by decide⟩
      · cases hread
  | incomplete =>
      rw [hnext, h] at hread
      cases hread

/-- The command that is read is the message's. -/
theorem commandOf_eq {m : Bytes} {command : UInt32}
    (h : loadNetWord (window .outOfBounds m.length (messageMemory env m)) 4 = .ok command) :
    sizeofCBase ≤ m.length ∧ commandOf m = command := by
  have hle := le_of_loadNetWord_window h
  rw [loadNetWord, bytes_window _ hle, (begins_messageMemory env m).memSlice hle] at h
  refine ⟨hle, ?_⟩
  have hself : slice (slice m 4 4) 0 4 = slice m 4 4 := by
    simp only [slice, List.drop_zero, List.take_take, Nat.min_self]
  have hword : loadWord .big (slice m 4 4) 0 = commandOf m := by
    rw [commandOf, loadWord, loadWord, hself]
  rw [← hword]
  exact Except.ok.inj h

/-- The length word of a message that is read is its length. -/
theorem mLen_of_next (env : VnsEnv) {text m rest : Bytes} (h : vnsFraming.next text = .message m rest) :
    4 ≤ m.length ∧ m.length ≤ 10000 ∧
      loadNetWord (window .outOfBounds m.length (messageMemory env m)) 0
        = .ok (UInt32.ofNat m.length) := by
  obtain ⟨hlen, hlow, hhigh⟩ := vnsFraming_total (vnsFraming.next_message h).2
  have hlen' : (loadWord .big (m.take 4) 0).toInt32.toInt = m.length := hlen
  refine ⟨hlow, hhigh, ?_⟩
  have hword : loadWord .big (m.take 4) 0 = UInt32.ofNat m.length := by
    generalize loadWord .big (m.take 4) 0 = w at hlen'
    have hint : w.toInt32.toInt = if 2 * w.toNat < 2 ^ 32 then (w.toNat : Int)
        else (w.toNat : Int) - (2 ^ 32 : Nat) := BitVec.toInt_eq_toNat_cond w.toBitVec
    have hw := w.toNat_lt
    apply UInt32.toNat_inj.mp
    rw [UInt32.toNat_ofNat']
    split at hint <;> omega
  rw [loadNetWord, bytes_window _ (by omega), (begins_messageMemory env m).memSlice (by omega),
    slice, List.drop_zero]
  exact congrArg Except.ok hword

/-- The request for the key: nothing is sent, or as much of the answer as `send` takes. -/
theorem read_authRequest
    (h : srReadCommand env vnsAuthRequest logfile v arrivals = .returned v' ret later) :
    (v' = v ∧ ret ≠ 1) ∨
    ∃ reply sent, AnsweredBy v.user env.auth (textOf arrivals) (textOf later) reply ∧
      v' = { v with replies := v.replies ++ sent } ∧ sent <+: reply ∧ (ret = 1 → sent = reply) := by
  rcases message_of_returned h with hnone | ⟨m, hnext, hhandle⟩
  · exact .inl hnone
  · rcases srHandleCommand_expected (by decide) hhandle with hnone | ⟨hcommand, hswitch⟩
    · exact .inl hnone
    · obtain ⟨sent, r, hreply, rfl, hret⟩ := srCommandSwitch_authRequest hswitch
      obtain ⟨-, hhigh, hmLen⟩ := mLen_of_next env hnext
      obtain ⟨hlow, hcommandOf⟩ := commandOf_eq hcommand
      rw [srHandleAuthRequest_eq hlow hhigh hmLen] at hreply
      have hsalt : saltOf (messageMemory env m) m.length = m.drop sizeofCBase := by
        rw [saltOf, (begins_messageMemory env m).memSlice (by omega), slice,
          List.take_of_length_le (by rw [List.length_drop])]
      rw [hsalt] at hreply
      cases hline : env.auth.authKey.bind
          fun text => (pieces authKeyLen newline [] text).head? with
      | none =>
          rw [hline] at hreply
          cases hreply
          refine .inl ⟨by rw [List.append_nil], fun hone => hret hone rfl⟩
      | some line =>
          rw [hline] at hreply
          obtain ⟨text, htext, hhead⟩ := Option.bind_eq_some_iff.mp hline
          refine .inr ⟨_, sent, ⟨m, text, line, hnext, hcommandOf, htext, hhead, rfl⟩, rfl, ?_⟩
          have hsend := Except.ok.inj hreply
          dsimp only at hsend
          rw [sendReply] at hsend
          split at hsend
          · cases hsend
            exact ⟨List.prefix_refl _, fun _ => rfl⟩
          · cases hsend
            exact ⟨List.take_prefix _ _, fun hone => absurd rfl (hret hone)⟩

/-- The news whether the answer was good changes nothing, and only good news goes on. -/
theorem read_authStatus
    (h : srReadCommand env vnsAuthStatus logfile v arrivals = .returned v' ret later) :
    v' = v ∧ (ret = 1 → AcceptedBy (textOf arrivals) (textOf later)) := by
  rcases message_of_returned h with ⟨hsame, hret⟩ | ⟨m, hnext, hhandle⟩
  · exact ⟨hsame, fun hone => absurd hone hret⟩
  · rcases srHandleCommand_expected (by decide) hhandle with ⟨hsame, hret⟩ | ⟨hcommand, hswitch⟩
    · exact ⟨hsame, fun hone => absurd hone hret⟩
    · obtain ⟨hsame, hok⟩ := srCommandSwitch_authStatus hswitch
      refine ⟨hsame, fun hone => ?_⟩
      obtain ⟨hin, hne⟩ := hok hone
      rw [begins_messageMemory env m _ hin] at hne
      exact ⟨m, hnext, (commandOf_eq hcommand).2, hne⟩

theorem read_rtable
    (h : srReadCommand env vnsRtable logfile v arrivals = .returned v' ret later) :
    v'.replies = v.replies := by
  rcases message_of_returned h with ⟨hsame, -⟩ | ⟨m, hnext, hhandle⟩
  · rw [hsame]
  · rcases srHandleCommand_expected (by decide) hhandle with ⟨hsame, -⟩ | ⟨hcommand, hswitch⟩
    · rw [hsame]
    · exact srCommandSwitch_rtable hswitch

end Authenticated

/-- What a chain of expected messages keeps, however it ends. -/
theorem expect_ends {env : VnsEnv} {expectedCmd : UInt32} {logfile : Bool} {v : VnsSession}
    {arrivals : List Arrival} {next : VnsSession → List Arrival → ConnectEnd}
    {P : ConnectEnd → Prop} (hwaits : P (.waits v)) (hfault : ∀ e, P (.fault v e))
    (hfails : ∀ v' ret later, srReadCommand env expectedCmd logfile v arrivals
      = .returned v' ret later → ret ≠ 1 → P (.returned v' (-1) later))
    (hnext : ∀ v' later, srReadCommand env expectedCmd logfile v arrivals
      = .returned v' 1 later → P (next v' later)) :
    P (expect env expectedCmd logfile v arrivals next) := by
  rw [expect]
  split
  · exact hwaits
  · exact hfault _
  · next v' ret later hread =>
    split
    · next hret => exact hfails v' ret later hread hret
    · next hret =>
      rw [not_not] at hret
      rw [hret] at hread
      exact hnext v' later hread

/-- How far the router may have got, by what it has sent and by what it returns. -/
def OpenedInOrder (args : ConnectArgs) (user : Bytes) (auth : AuthEnv) (text : Bytes)
    (e : ConnectEnd) : Prop :=
  SentInOrder args user auth text e.session.replies ∧
  ∀ v later, e = .returned v 0 later → ∃ rest reply rest', AnsweredBy user auth text rest reply ∧
    AcceptedBy rest rest' ∧ v.replies = reply ++ openMessage args user

/-- **Nothing is opened before the key is accepted**, whatever the server sends and however it
comes: all that goes out is the answer to a request for the key and, once the server has said that
it was good, the message that opens the session. -/
theorem srConnectToServer_authenticated (args : ConnectArgs) (envs : Nat → VnsEnv) (logfile : Bool)
    {v : VnsSession} (hstart : v.replies = []) (arrivals : List Arrival) :
    OpenedInOrder args v.user (envs 0).auth (textOf arrivals)
      (srConnectToServer args envs logfile v arrivals) := by
  rw [srConnectToServer]
  -- at each of the three reads the connection can wait, fault, end or go on
  apply expect_ends
  · exact ⟨.inl hstart, fun _ _ h => nomatch h⟩
  · exact fun e => ⟨.inl hstart, fun _ _ h => nomatch h⟩
  · intro v₁ ret later hread _
    refine ⟨?_, fun _ _ h => by injection h with _ hret; cases hret⟩
    rcases read_authRequest hread with ⟨rfl, -⟩ | ⟨reply, sent, hanswered, rfl, hsent, -⟩
    · exact .inl hstart
    · refine .inr ⟨_, reply, hanswered, .inl ?_⟩
      rw [show (ConnectEnd.returned { v with replies := v.replies ++ sent } (-1) later).session.replies
        = v.replies ++ sent from rfl, hstart]
      exact hsent
  · intro v₁ later hread
    rcases read_authRequest hread with ⟨-, hbad⟩ | ⟨reply, sent, hanswered, rfl, -, hsent⟩
    · exact absurd rfl hbad
    · have hreplies : v.replies ++ sent = reply := by rw [hstart, hsent rfl, List.nil_append]
      rw [hreplies]
      have hreply : SentInOrder args v.user (envs 0).auth (textOf arrivals) reply :=
        .inr ⟨_, reply, hanswered, .inl (List.prefix_refl _)⟩
      apply expect_ends
      · exact ⟨hreply, fun _ _ h => nomatch h⟩
      · exact fun e => ⟨hreply, fun _ _ h => nomatch h⟩
      · intro v₂ ret last hstatus _
        obtain ⟨rfl, -⟩ := read_authStatus hstatus
        exact ⟨hreply, fun _ _ h => by injection h with _ hret; cases hret⟩
      · intro v₂ last hstatus
        obtain ⟨rfl, hgood⟩ := read_authStatus hstatus
        have haccepted := hgood rfl
        -- from here on the verdict was good, and any part of OPEN may be sent
        have hopened : ∀ sent, sent <+: openMessage args v.user →
            SentInOrder args v.user (envs 0).auth (textOf arrivals) (reply ++ sent) :=
          fun sent hsent => .inr ⟨_, reply, hanswered, .inr ⟨_, haccepted,
            (List.prefix_append_right_inj reply).mpr hsent⟩⟩
        have hwhole := hopened _ (List.prefix_refl _)
        dsimp only
        split
        · exact ⟨hopened _ (List.take_prefix _ _), fun _ _ h => by injection h with _ hret; cases hret⟩
        · split
          · apply expect_ends
            · exact ⟨hwhole, fun _ _ h => nomatch h⟩
            · exact fun e => ⟨hwhole, fun _ _ h => nomatch h⟩
            · intro v₃ ret end₃ hrtable _
              refine ⟨?_, fun _ _ h => by injection h with _ hret; cases hret⟩
              rw [ConnectEnd.session, read_rtable hrtable]
              exact hwhole
            · intro v₃ end₃ hrtable
              have hsame := read_rtable hrtable
              refine ⟨?_, ?_⟩
              · rw [ConnectEnd.session, hsame]
                exact hwhole
              · intro v₄ end₄ h
                injection h with hv
                rw [← hv, hsame]
                exact ⟨_, reply, _, hanswered, haccepted, rfl⟩
          · refine ⟨hwhole, ?_⟩
            intro v₃ end₃ h
            injection h with hv
            rw [← hv]
            exact ⟨_, reply, _, hanswered, haccepted, rfl⟩

/-- The server asks for the key, with a salt of four bytes, and says that the answer is good. -/
def goodServer : Bytes :=
  wordBytes .big 12 ++ wordBytes .big vnsAuthRequest ++ [1, 2, 3, 4]
    ++ wordBytes .big 9 ++ wordBytes .big vnsAuthStatus ++ [1]

/-- The router has its key in a file. -/
def keyEnv : VnsEnv :=
  { quietEnv with
    auth := { quietEnv.auth with authKey := some (List.replicate 64 97), taken := 100 } }

theorem srConnectToServer_authenticated_goodServer :
    OpenedInOrder ⟨0, [], [], 200⟩ rtableSession.user keyEnv.auth goodServer
      (srConnectToServer ⟨0, [], [], 200⟩ (fun _ => keyEnv) false rtableSession
        [.bytes goodServer]) :=
  srConnectToServer_authenticated ⟨0, [], [], 200⟩ (fun _ => keyEnv) false
    (show rtableSession.replies = [] from rfl) [.bytes goodServer]

end NetworkProjects.Router
