import NetworkProjects.Transport.ControlLoop

/-!
# The close, abstractly

Two parties that ask each other to close. Of a segment nothing matters here but whether it is a
FIN. Everything is seen from one of the parties: `Closing.swap` is the view of the other one.

A party waits for the answer to its FIN, and does nothing else until a segment comes. So the
parties could wait for each other, but as long as nobody takes a FIN for the answer, there is
always something on its way to one that waits (`Unstuck`).

A party can also wait for one that is done and takes nothing any more. What has been sent to such a
party counts as lost, so it is not enough that something is on its way to one of the two. But if
nobody sends data as a FIN, a party is done only when it has heard of the other's close, and has
answered it (`Answered`): if the other one still waits, the answer is on its way.
-/

namespace NetworkProjects.Transport

/-! ## Parties

A party has flags, and moves that set them. The lemmas say of each move which flags it leaves alone.
-/

/-- One party of a close. -/
structure Party where
  /-- The application has asked for the close. -/
  asked : Bool
  /-- The request has not been seen yet. -/
  pending : Bool
  state : ConnectionState
  /-- The FIN has been sent, and its answer has not come. -/
  waiting : Bool
  done : Bool

/-- A close as one party sees it. The channels say of each segment whether it is a FIN, oldest
first. -/
structure Closing where
  me : Party
  peer : Party
  out : List Bool
  inn : List Bool

/-- The view of the other party. -/
def Closing.swap (v : Closing) : Closing := ⟨v.peer, v.me, v.inn, v.out⟩

@[simp] theorem Closing.swap_me (v : Closing) : v.swap.me = v.peer := rfl
@[simp] theorem Closing.swap_peer (v : Closing) : v.swap.peer = v.me := rfl
@[simp] theorem Closing.swap_out (v : Closing) : v.swap.out = v.inn := rfl
@[simp] theorem Closing.swap_inn (v : Closing) : v.swap.inn = v.out := rfl
@[simp] theorem Closing.swap_swap (v : Closing) : v.swap.swap = v := rfl

def Party.ask (p : Party) : Party := { p with asked := true, pending := true }

/-- A segment is taken in the loop. A pending request may be forgotten. -/
def Party.take (p : Party) (fin pending : Bool) : Party :=
  if fin then
    if p.state = .finWait1 then { p with pending, done := true }
    else { p with pending, state := .finWait2 }
  else { p with pending }

/-- The FIN is sent. -/
def Party.close (p : Party) : Party := { p with pending := false, waiting := true }

/-- Something has come that is taken for the answer to the FIN. -/
def Party.acknowledged (p : Party) : Party :=
  if p.state = .finWait2 then { p with waiting := false, done := true }
  else { p with waiting := false, state := .finWait1 }

/-- The party has sent its FIN. -/
def Party.FinSent (p : Party) : Prop := p.waiting ∨ p.state = .finWait1 ∨ p.done

section Take

variable (p : Party) (fin pending : Bool)

theorem Party.take_eq : ∃ state done, p.take fin pending = { p with pending, state, done } := by
  unfold Party.take
  split
  · split
    · exact ⟨p.state, true, rfl⟩
    · exact ⟨.finWait2, p.done, rfl⟩
  · exact ⟨p.state, p.done, rfl⟩

@[simp] theorem Party.asked_take : (p.take fin pending).asked = p.asked := by
  obtain ⟨state, done, h⟩ := p.take_eq fin pending
  rw [h]

@[simp] theorem Party.pending_take : (p.take fin pending).pending = pending := by
  obtain ⟨state, done, h⟩ := p.take_eq fin pending
  rw [h]

@[simp] theorem Party.waiting_take : (p.take fin pending).waiting = p.waiting := by
  obtain ⟨state, done, h⟩ := p.take_eq fin pending
  rw [h]

@[simp] theorem Party.finSent_take : (p.take fin pending).FinSent ↔ p.FinSent := by
  unfold Party.take
  split
  · split
    · next hstate => simp [Party.FinSent, hstate]
    · next hstate => simp [Party.FinSent, hstate]
  · rfl

/-- Whoever takes a FIN knows that the peer closes. -/
theorem Party.heard_take :
    (p.take true pending).state = .finWait2 ∨ (p.take true pending).done = true := by
  rw [Party.take, if_pos rfl]
  split
  · exact .inr rfl
  · exact .inl rfl

theorem Party.take_finWait1 (h : p.state = .finWait1) :
    (p.take fin pending).state = .finWait1 := by
  unfold Party.take
  split
  · exact h
  · exact h

@[simp] theorem Party.asked_acknowledged : p.acknowledged.asked = p.asked := by
  unfold Party.acknowledged
  split
  · rfl
  · rfl

@[simp] theorem Party.waiting_acknowledged : p.acknowledged.waiting = false := by
  unfold Party.acknowledged
  split
  · rfl
  · rfl

theorem Party.finSent_acknowledged : p.acknowledged.FinSent := by
  unfold Party.acknowledged
  split
  · exact .inr (.inr rfl)
  · exact .inr (.inl rfl)

/-- Whoever has taken the peer's FIN before is done with the answer to its own. -/
theorem Party.done_acknowledged :
    p.acknowledged.done = true ↔ p.state = .finWait2 ∨ p.done = true := by
  unfold Party.acknowledged
  split
  · next h => simp [h]
  · next h => simp [h]

end Take

/-- What a party can do. -/
inductive CloseMove
  | idle
  | ask
  | data (fin : Bool)
  | take (fin : Bool)
  | close
  | acknowledged (fin : Bool)
  deriving DecidableEq, Repr

/-- One move of the party whose view it is. -/
inductive CloseStep : CloseMove → Closing → Closing → Prop
  | idle (v : Closing) : CloseStep .idle v v
  | ask (v : Closing) : CloseStep .ask v { v with me := v.me.ask }
  /-- Data is sent, and may have the flag of a FIN. -/
  | data (v : Closing) (fin : Bool) : v.me.waiting = false → v.me.done = false →
      CloseStep (.data fin) v { v with out := v.out ++ [fin] }
  /-- A segment is taken, and answered at any rate if it is a FIN. -/
  | take (v : Closing) (fin pending : Bool) (inn acks : List Bool) :
      v.me.waiting = false → v.me.done = false → v.inn = fin :: inn → (pending → v.me.pending) →
      (∀ ack ∈ acks, ack = false) → (fin = true → acks ≠ []) →
      CloseStep (.take fin) v { v with
        me := v.me.take fin pending, out := v.out ++ acks, inn }
  | close (v : Closing) : v.me.waiting = false → v.me.done = false → v.me.pending = true →
      CloseStep .close v { v with me := v.me.close, out := v.out ++ [true] }
  | acknowledged (v : Closing) (fin : Bool) (inn : List Bool) : v.me.waiting = true →
      v.inn = fin :: inn → CloseStep (.acknowledged fin) v { v with me := v.me.acknowledged, inn }

/-- A FIN that has been sent stays sent. -/
theorem CloseStep.finSent {m : CloseMove} {v v' : Closing} (h : CloseStep m v v')
    (hsent : v.me.FinSent) : v'.me.FinSent := by
  cases h with
  | idle => exact hsent
  | ask => exact hsent
  | data => exact hsent
  | take _ fin pending => exact (v.me.finSent_take fin pending).mpr hsent
  | close => exact .inl rfl
  | acknowledged => exact v.me.finSent_acknowledged

theorem CloseStep.peer {m : CloseMove} {v v' : Closing} (h : CloseStep m v v') :
    v'.peer = v.peer := by
  cases h <;> rfl

/-! ## Agreement

Every stage of the close has been reached behind a request: whoever has sent its FIN was asked to
close, and the peer of whoever has heard of a FIN, or is done, was asked as well. -/

/-- Whoever is as far as this has been asked to close. -/
structure Agreed (v : Closing) : Prop where
  finSent : v.me.pending = true ∨ v.me.FinSent → v.me.asked = true
  heard : v.me.state = .finWait2 → v.peer.asked = true
  out : true ∈ v.out → v.me.asked = true
  done : v.me.done = true → v.peer.asked = true

/-- **A move keeps both agreed**, unless data is sent with the flag of a FIN. -/
theorem CloseStep.agreed {m : CloseMove} {v v' : Closing} (h : CloseStep m v v')
    (hdata : m ≠ .data true) (hme : Agreed v) (hpeer : Agreed v.swap) :
    Agreed v' ∧ Agreed v'.swap := by
  cases h with
  | idle => exact ⟨hme, hpeer⟩
  | ask =>
      constructor
      · exact ⟨fun _ => rfl, hme.heard, fun _ => rfl, hme.done⟩
      · exact ⟨hpeer.finSent, fun _ => rfl, hpeer.out, fun _ => rfl⟩
  | data _ fin hwaiting hdone =>
      have hfin : fin = false := by
        cases fin with
        | false => rfl
        | true => exact absurd rfl hdata
      constructor
      · exact ⟨hme.finSent, hme.heard, fun hout => hme.out (by simpa [hfin] using hout), hme.done⟩
      · exact ⟨hpeer.finSent, hpeer.heard, hpeer.out, hpeer.done⟩
  | take _ fin pending inn acks hwaiting hdone hinn hpending hacks hanswer =>
      -- a FIN that is taken had been sent because the peer was asked
      have hasked : fin = true → v.peer.asked = true := by
        intro hfin
        apply hpeer.out
        simp [hinn, hfin]
      have hout : true ∈ v.out ++ acks → v.me.asked = true := by
        intro hmem
        rcases List.mem_append.mp hmem with hmem | hmem
        · exact hme.out hmem
        · exact Bool.noConfusion (hacks true hmem)
      constructor
      · refine ⟨?_, ?_, by simpa using hout, ?_⟩
        · simpa using fun h => hme.finSent (h.imp_left hpending)
        · cases fin with
          | true => exact fun _ => hasked rfl
          | false => exact hme.heard
        · cases fin with
          | true => exact fun _ => hasked rfl
          | false => exact hme.done
      · refine ⟨hpeer.finSent, by simpa using hpeer.heard, ?_, by simpa using hpeer.done⟩
        intro hmem
        apply hpeer.out
        simp only [Closing.swap_out, hinn] at hmem ⊢
        exact List.mem_cons_of_mem _ hmem
  | close _ hwaiting hdone hpending =>
      have hasked := hme.finSent (.inl hpending)
      constructor
      · exact ⟨fun _ => hasked, hme.heard, fun _ => hasked, hme.done⟩
      · exact ⟨hpeer.finSent, hpeer.heard, hpeer.out, hpeer.done⟩
  | acknowledged _ fin inn hwaiting hinn =>
      have hasked := hme.finSent (.inr (.inl hwaiting))
      constructor
      · refine ⟨fun _ => by simpa using hasked, ?_, by simpa using hme.out, ?_⟩
        · unfold Party.acknowledged
          split
          · exact fun _ => hme.heard ‹_›
          · exact fun h => ConnectionState.noConfusion h
        · intro h
          rcases v.me.done_acknowledged.mp h with hstate | hdone
          · exact hme.heard hstate
          · exact hme.done hdone
      · refine ⟨hpeer.finSent, fun _ => by simpa using hasked, ?_, fun _ => by simpa using hasked⟩
        intro hmem
        apply hpeer.out
        simp only [Closing.swap_out, hinn] at hmem ⊢
        exact List.mem_cons_of_mem _ hmem

/-! ## No stuck party

The FIN is the last thing that a waiting party has sent. Either it is still on its way, or it has
been taken, and something is on its way back. -/

/-- The last thing in the channel, if there is one, is a FIN. -/
def EndsWithFin (channel : List Bool) : Prop := channel = [] ∨ ∃ before, channel = before ++ [true]

theorem EndsWithFin.mem {channel : List Bool} (h : EndsWithFin channel) (hne : channel ≠ []) :
    true ∈ channel := by
  rcases h with h | ⟨before, h⟩
  · exact absurd h hne
  · simp [h]

theorem EndsWithFin.tail {fin : Bool} {channel : List Bool} (h : EndsWithFin (fin :: channel)) :
    EndsWithFin channel := by
  rcases h with h | ⟨before, h⟩
  · cases h
  · cases before with
    | nil => exact .inl (List.cons.inj h).2
    | cons b before => exact .inr ⟨before, (List.cons.inj h).2⟩

/-- What has happened to a FIN, and what comes to a party that waits. -/
structure Unstuck (v : Closing) : Prop where
  heard : v.peer.FinSent → true ∈ v.inn ∨ v.me.state = .finWait2 ∨ v.me.done = true
  last : v.me.waiting = true → EndsWithFin v.out
  served : v.me.waiting = true → v.peer.waiting = false → true ∈ v.out ∨ v.inn ≠ []
  both : v.me.waiting = true → v.peer.waiting = true →
    true ∈ v.out ∧ true ∈ v.inn ∨ 2 ≤ v.out.length ∧ v.inn = [] ∨ 2 ≤ v.inn.length ∧ v.out = []

theorem CloseStep.unstuck {m : CloseMove} {v v' : Closing} (h : CloseStep m v v')
    (hclean : m = .acknowledged true → v.me.state = .finWait2) (hme : Unstuck v)
    (hpeer : Unstuck v.swap) : Unstuck v' ∧ Unstuck v'.swap := by
  cases h with
  | idle => exact ⟨hme, hpeer⟩
  | ask =>
      constructor
      · exact ⟨hme.heard, hme.last, hme.served, hme.both⟩
      · exact ⟨hpeer.heard, hpeer.last, hpeer.served, hpeer.both⟩
  | data _ fin hwaiting hdone =>
      have hstay : ∀ {P : Prop}, v.me.waiting = true → P := by simp [hwaiting]
      constructor
      · exact ⟨hme.heard, hstay, hstay, hstay⟩
      · refine ⟨fun hsent => ?_, hpeer.last, fun _ _ => .inr (by simp), fun _ => hstay⟩
        exact (hpeer.heard hsent).imp_left (List.mem_append_left _)
  | take _ fin pending inn acks hwaiting hdone hinn hpending hacks hanswer =>
      have hstay : ∀ {P : Prop}, (v.me.take fin pending).waiting = true → P := by simp [hwaiting]
      -- whatever has been sent to `me` and is not taken now is still on its way
      have hrest : true ∈ v.inn → fin = true ∨ true ∈ inn := by
        intro hmem
        simpa [hinn, eq_comm] using hmem
      constructor
      · refine ⟨fun hsent => ?_, hstay, hstay, hstay⟩
        cases fin with
        | true => exact .inr (v.me.heard_take pending)
        | false => exact (hme.heard hsent).imp_left fun hmem => (hrest hmem).resolve_left (by simp)
      · refine ⟨fun hsent => ?_, fun hpeerWaiting => ?_, fun hpeerWaiting _ => ?_, fun _ => hstay⟩
        · have hsent := hpeer.heard ((v.me.finSent_take fin pending).mp hsent)
          exact hsent.imp_left (List.mem_append_left _)
        · have hlast := hpeer.last hpeerWaiting
          simp only [Closing.swap_out, hinn] at hlast
          exact hlast.tail
        · rcases hpeer.served hpeerWaiting hwaiting with hmem | hne
          · rcases hrest hmem with hfin | hmem
            · exact .inr (by simpa using fun _ => hanswer hfin)
            · exact .inl hmem
          · exact .inr (by simpa using fun hout => absurd hout hne)
  | close _ hwaiting hdone hpending =>
      have hout : true ∈ v.out ++ [true] := by simp
      have hboth : v.peer.waiting = true →
          true ∈ v.inn ∨ 2 ≤ (v.out ++ [true]).length ∧ v.inn = [] := by
        intro hpeerWaiting
        by_cases hinn : v.inn = []
        · have hne : v.out ≠ [] := by
            rcases hpeer.served hpeerWaiting hwaiting with hmem | hne
            · rw [Closing.swap_out, hinn] at hmem
              cases hmem
            · exact hne
          have hlength := List.length_pos_iff.mpr hne
          exact .inr ⟨by rw [List.length_append]; exact Nat.succ_le_succ hlength, hinn⟩
        · exact .inl ((hpeer.last hpeerWaiting).mem hinn)
      constructor
      · refine ⟨hme.heard, fun _ => .inr ⟨v.out, rfl⟩, fun _ _ => .inl hout, fun _ h => ?_⟩
        exact (hboth h).imp (fun hmem => ⟨hout, hmem⟩) fun hlong => .inl hlong
      · refine ⟨fun _ => .inl hout, hpeer.last, fun _ h => Bool.noConfusion h, fun h _ => ?_⟩
        exact (hboth h).imp (fun hmem => ⟨hmem, hout⟩) fun hlong => .inr hlong
  | acknowledged _ fin inn hwaiting hinn =>
      have hstay : ∀ {P : Prop}, v.me.acknowledged.waiting = true → P := by simp
      constructor
      · refine ⟨fun hsent => ?_, hstay, hstay, hstay⟩
        rcases hme.heard hsent with hmem | hheard
        · cases fin with
          | true => exact .inr (.inr (v.me.done_acknowledged.mpr (.inl (hclean rfl))))
          | false => exact .inl (by simpa [hinn] using hmem)
        · exact .inr (.inr (v.me.done_acknowledged.mpr hheard))
      · refine ⟨fun _ => hpeer.heard (.inl hwaiting), fun hpeerWaiting => ?_,
          fun hpeerWaiting _ => ?_, fun _ => hstay⟩
        · have hlast := hpeer.last hpeerWaiting
          simp only [Closing.swap_out, hinn] at hlast
          exact hlast.tail
        · have hlast := hpeer.last hpeerWaiting
          simp only [Closing.swap_out, hinn] at hlast
          rcases hme.both hwaiting hpeerWaiting with ⟨hmem, -⟩ | ⟨-, hnil⟩ | ⟨hlong, -⟩
          · exact .inr (List.ne_nil_of_mem hmem)
          · rw [hinn] at hnil
            cases hnil
          · apply Or.inl
            apply hlast.tail.mem
            rw [hinn] at hlong
            exact List.length_pos_iff.mp (Nat.lt_of_succ_le (Nat.le_of_succ_le_succ hlong))

/-! ## No party that is left alone -/

/-- Whoever has heard of the peer's close was told of it by a FIN that the close has sent, and
nobody is done before it has answered the peer. -/
structure Answered (v : Closing) : Prop where
  sent : true ∈ v.out → v.me.FinSent
  heard : v.me.state = .finWait2 ∨ v.me.done = true → v.peer.FinSent
  once : v.me.state = .finWait2 → v.peer.state ≠ .finWait2
  waits : v.me.waiting = true → v.me.done = false
  answer : v.me.waiting = true → v.peer.done = true → v.inn ≠ []

/-- A party that has sent its FIN and can still take segments in the loop has seen the answer. -/
theorem Party.FinSent.finWait1 {p : Party} (h : p.FinSent) (hwaiting : p.waiting = false)
    (hdone : p.done = false) : p.state = .finWait1 := by
  rcases h with h | h | h
  · rw [hwaiting] at h
    cases h
  · exact h
  · rw [hdone] at h
    cases h

/-- **A move keeps the answers**, unless data is sent with the flag of a FIN. -/
theorem CloseStep.answered {m : CloseMove} {v v' : Closing} (h : CloseStep m v v')
    (hdata : m ≠ .data true) (hunstuck : Unstuck v) (hunstuck' : Unstuck v.swap)
    (hme : Answered v) (hpeer : Answered v.swap) : Answered v' ∧ Answered v'.swap := by
  cases h with
  | idle => exact ⟨hme, hpeer⟩
  | ask =>
      constructor
      · exact ⟨hme.sent, hme.heard, hme.once, hme.waits, hme.answer⟩
      · exact ⟨hpeer.sent, hpeer.heard, hpeer.once, hpeer.waits, hpeer.answer⟩
  | data _ fin hwaiting hdone =>
      have hfin : fin = false := by
        cases fin with
        | false => rfl
        | true => exact absurd rfl hdata
      constructor
      · exact ⟨fun hmem => hme.sent (by simpa [hfin] using hmem), hme.heard, hme.once, hme.waits,
          hme.answer⟩
      · exact ⟨hpeer.sent, hpeer.heard, hpeer.once, hpeer.waits, fun _ _ => by simp⟩
  | take _ fin pending inn acks hwaiting hdone hinn hpending hacks hanswer =>
      have hstay : ∀ {P : Prop}, (v.me.take fin pending).waiting = true → P := by simp [hwaiting]
      -- a FIN that is taken now has been sent by the peer's close
      have hsent : fin = true → v.peer.FinSent := by
        intro hfin
        apply hpeer.sent
        simp [hinn, hfin]
      have hout : true ∈ v.out ++ acks → v.me.FinSent := by
        intro hmem
        rcases List.mem_append.mp hmem with hmem | hmem
        · exact hme.sent hmem
        · exact Bool.noConfusion (hacks true hmem)
      -- if both were in FIN_WAIT_2, each would have sent its FIN before it heard of the other's
      have honce : (v.me.take fin pending).state = .finWait2 → v.peer.state ≠ .finWait2 := by
        intro hstate hpeerState
        have hbefore : v.me.state = .finWait1 :=
          (hpeer.heard (.inl hpeerState)).finWait1 hwaiting hdone
        cases (v.me.take_finWait1 fin pending hbefore).symm.trans hstate
      constructor
      · refine ⟨by simpa using hout, ?_, honce, hstay, hstay⟩
        cases fin with
        | true => exact fun _ => hsent rfl
        | false => exact hme.heard
      · refine ⟨fun hmem => hpeer.sent ?_, ?_, fun hpeerState hstate => honce hstate hpeerState,
          hpeer.waits, fun hpeerWaiting hdone' => ?_⟩
        · simp only [Closing.swap_out, hinn] at hmem ⊢
          exact List.mem_cons_of_mem _ hmem
        · simpa using hpeer.heard
        · -- whoever is done with a FIN has acknowledged it
          cases fin with
          | true => simpa using fun _ => hanswer rfl
          | false => exact absurd (hdone'.symm.trans hdone) (by simp)
  | close _ hwaiting hdone hpending =>
      constructor
      · refine ⟨fun _ => .inl rfl, hme.heard, hme.once, fun _ => hdone, fun _ hpeerDone => ?_⟩
        have hstate : v.me.state = .finWait1 :=
          (hpeer.heard (.inr hpeerDone)).finWait1 hwaiting hdone
        rcases hunstuck.heard (.inr (.inr hpeerDone)) with hmem | hheard | hheard
        · exact List.ne_nil_of_mem hmem
        · rw [hstate] at hheard
          cases hheard
        · rw [hdone] at hheard
          cases hheard
      · exact ⟨hpeer.sent, fun _ => .inl rfl, hpeer.once, hpeer.waits, fun _ _ => by simp⟩
  | acknowledged _ fin inn hwaiting hinn =>
      have hstay : ∀ {P : Prop}, v.me.acknowledged.waiting = true → P := by simp
      have hstate : v.me.acknowledged.state = .finWait2 → v.me.state = .finWait2 := by
        unfold Party.acknowledged
        split
        · exact id
        · exact fun h => ConnectionState.noConfusion h
      constructor
      · refine ⟨fun _ => v.me.finSent_acknowledged, fun h => ?_, fun h => hme.once (hstate h),
          hstay, hstay⟩
        apply hme.heard
        rcases h with h | h
        · exact .inl (hstate h)
        · exact v.me.done_acknowledged.mp h
      · refine ⟨fun hmem => hpeer.sent ?_, fun _ => v.me.finSent_acknowledged,
          fun hpeerState h => hme.once (hstate h) hpeerState, hpeer.waits,
          fun hpeerWaiting hdone => ?_⟩
        · simp only [Closing.swap_out, hinn] at hmem ⊢
          exact List.mem_cons_of_mem _ hmem
        · -- the peer waits too, and has not heard of `me`: its answer is behind what came
          have hheard : v.me.state = .finWait2 := by
            rcases v.me.done_acknowledged.mp hdone with h | h
            · exact h
            · rw [hme.waits hwaiting] at h
              cases h
          rcases hunstuck'.heard (.inl hwaiting) with hmem | hpeerHeard | hpeerDone
          · exact List.ne_nil_of_mem hmem
          · exact absurd hpeerHeard (hme.once hheard)
          · exact absurd (hpeerDone.symm.trans (hpeer.waits hpeerWaiting)) (by simp)

/-- **Nobody is stuck**: a party that has sent its FIN, and to which nothing is on its way, is done,
if nothing is on its way to the peer either or the peer is done. -/
theorem Answered.done {v : Closing} (hme : Answered v) (hunstuck : Unstuck v)
    (hsent : v.me.FinSent) (hsent' : v.peer.FinSent) (hinn : v.me.done = false → v.inn = [])
    (hout : v.peer.done = false → v.out = []) : v.me.done = true := by
  by_contra hdone
  rw [Bool.not_eq_true] at hdone
  have hinn := hinn hdone
  cases hwaiting : v.me.waiting with
  | true =>
      cases hpeerDone : v.peer.done with
      | true => exact hme.answer hwaiting hpeerDone hinn
      | false =>
          have hout := hout hpeerDone
          cases hpeerWaiting : v.peer.waiting with
          | true => simpa [hout, hinn] using hunstuck.both hwaiting hpeerWaiting
          | false => simpa [hout, hinn] using hunstuck.served hwaiting hpeerWaiting
  | false =>
      -- the FIN of the peer has been taken by somebody, and it was not `me`
      have hstate := hsent.finWait1 hwaiting hdone
      simpa [hinn, hstate, hdone] using hunstuck.heard hsent'

end NetworkProjects.Transport
