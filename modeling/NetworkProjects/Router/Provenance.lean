import NetworkProjects.Router.CacheInvariant
import NetworkProjects.Router.Routes

/-!
# Where the destination address of a forwarded frame comes from

Every valid cache entry was put there by an ARP frame from its IP, and no sweep has invalidated
that mapping since (`Taught`). Sending reads the cache and nothing else, at once or when a
queue is flushed, so every forwarded frame inherits that (`SoundForwarding`).

Uniqueness of valid entries is needed in one place: when the timeout thread expires an entry,
no other valid entry may share its mapping, or the survivor would have lost its provenance.
-/

namespace NetworkProjects.Router

open NetworkProjects.Lib

variable {sr : SrConfig} {s s' : SrState}

/-- An ARP frame taught the router that `ip` is at `mac`, and no sweep has invalidated that
mapping since. -/
def Taught (sr : SrConfig) (ip : InAddr) (mac : EtherAddr) (past : List SrEvent) : Prop :=
  Since (Teaches sr ip mac) (fun e => e = .expired ip mac) past

/-- The event is an IP frame leaving `FillAndSendPkt`. -/
def SrEvent.isForwarding : SrEvent → Bool
  | .transmitted (.fillAndSendPkt .ip) _ _ => true
  | _ => false

theorem SrEvent.isForwarding_iff (e : SrEvent) : e.isForwarding = true ↔
    ∃ interface frame, e = .transmitted (.fillAndSendPkt .ip) interface frame := by
  constructor
  · intro h
    unfold SrEvent.isForwarding at h
    split at h
    · exact ⟨_, _, rfl⟩
    · cases h
  · rintro ⟨interface, frame, rfl⟩
    rfl

/-- If the event is an IP frame leaving `FillAndSendPkt`, it leaves on the interface of its
destination's route, from that interface's address, to the address the route's gateway taught. -/
def SoundForwarding (sr : SrConfig) (past : List SrEvent) (e : SrEvent) : Prop :=
  ∀ interface frame, e = .transmitted (.fillAndSendPkt .ip) interface frame →
    ∃ rt i, longestPrefixMatch sr (ipDst (ipHeader frame)) = some rt ∧
      srGetInterface sr rt.interface = some i ∧ interface = rt.interface ∧
      etherShost frame = i.addr ∧ Taught sr rt.gw (etherDhost frame) past

/-- Entries have provenance, and so has everything forwarded so far. -/
structure Provenance (sr : SrConfig) (s : SrState) : Prop where
  entries : ∀ i, (s.cache.entries i).valid = true →
    Taught sr (s.cache.entries i).ip (s.cache.entries i).mac s.history
  sent : Always (SoundForwarding sr) s.history

/-! ## Events that change nothing -/

/-- An event that neither forwards an IP frame nor invalidates a mapping. -/
def SrEvent.Neutral (e : SrEvent) : Prop :=
  (∀ interface frame, e ≠ .transmitted (.fillAndSendPkt .ip) interface frame) ∧
    ∀ ip mac, e ≠ .expired ip mac

theorem SrEvent.Quiet.neutral {e : SrEvent} (h : e.Quiet) : e.Neutral := by
  refine ⟨?_, ?_⟩
  · rintro interface frame rfl
    exact h rfl
  · rintro ip mac rfl
    exact h

/-- An event that forwards no IP frame is soundly forwarded. -/
theorem SoundForwarding.of_ne {past : List SrEvent} {e : SrEvent}
    (h : ∀ interface frame, e ≠ .transmitted (.fillAndSendPkt .ip) interface frame) :
    SoundForwarding sr past e := by
  intro interface frame he
  exact absurd he (h interface frame)

/-- Provenance survives neutral events that leave the entries alone. -/
theorem Provenance.append_neutral {es : List SrEvent} (h : Provenance sr s)
    (hentries : s'.cache.entries = s.cache.entries) (hhist : s'.history = s.history ++ es)
    (hes : ∀ e ∈ es, e.Neutral) : Provenance sr s' where
  entries := by
    rw [hentries, hhist]
    intro i hi
    exact (h.entries i hi).append fun e he => (hes e he).2 _ _
  sent := by
    rw [hhist]
    apply always_append h.sent
    intro past e he
    exact .of_ne (hes e he).1

theorem srArpreqHandle_neutral {addr : Nat} (haddrs : AddrsOk s.cache)
    (h : srArpreqHandle sr s addr = .ok s') :
    ∃ es, s'.history = s.history ++ es ∧ ∀ e ∈ es, e.Neutral := by
  obtain ⟨before, r, after, hsplit, rfl⟩ := exists_split_of_srArpreqHandle h
  rcases srArpreqHandle_cases hsplit haddrs.nodup h with
    ⟨-, rfl⟩ | ⟨-, -, rfl⟩ | ⟨-, -, iface, frame, rfl⟩
  · exact ⟨[], by simp, by simp⟩
  · exact ⟨[.destroyed r], by simp, by simp [SrEvent.Neutral]⟩
  · exact ⟨[.arpRequested r.addr s.clock, .transmitted (.fillAndSendPkt .arp) iface frame],
      by simp, by simp [SrEvent.Neutral]⟩

theorem Provenance.handle {addr : Nat} (h : Provenance sr s) (haddrs : AddrsOk s.cache)
    (hhandle : srArpreqHandle sr s addr = .ok s') : Provenance sr s' := by
  obtain ⟨es, hhist, hes⟩ := srArpreqHandle_neutral haddrs hhandle
  exact h.append_neutral (srArpreqHandle_sublist haddrs hhandle).1 hhist hes

/-! ## Learning, sending and expiring

The three events that matter: an entry is made, used and invalidated. -/

/-- A valid entry after an insertion is an old one or the mapping just taught. -/
theorem Provenance.insert {past : List SrEvent} {e : SrEvent} {ip : InAddr} {mac : EtherAddr}
    (h : Provenance sr s) (hlast : s.history = past ++ [e]) (hteach : Teaches sr ip mac e) :
    Provenance sr (s.withCache (srArpcacheInsert s.cache mac ip s.clock).1) where
  entries := by
    intro i hi
    simp only [SrState.withCache_cache, SrState.withCache_history] at hi ⊢
    rcases srArpcacheInsert_entries s.cache mac ip s.clock with ⟨k, -, hentries⟩ | hentries
    · rw [hentries] at hi ⊢
      by_cases hik : i = k
      · rw [hik, Function.update_self, hlast]
        exact since_snoc_of_start hteach
      · rw [Function.update_of_ne hik] at hi ⊢
        exact h.entries i hi
    · rw [hentries] at hi ⊢
      exact h.entries i hi
  sent := h.sent

/-- A frame sent to the cached address of the gateway is soundly forwarded. -/
theorem Provenance.send {d : Bytes} {rt : SrRt} {e : SrArpentry} {i : SrIf}
    (h : Provenance sr s) (hrt : longestPrefixMatch sr (ipDst d) = some rt)
    (he : srArpcacheLookup s.cache rt.gw = some e)
    (hi : srGetInterface sr rt.interface = some i) :
    Provenance sr (s.emit (.transmitted (.fillAndSendPkt .ip) rt.interface
      (ethFrame e.mac i.addr .ip d))) where
  entries := by
    intro j hj
    exact (h.entries j hj).snoc (by simp)
  sent := by
    rw [SrState.emit_history, always_snoc]
    refine ⟨h.sent, ?_⟩
    intro interface frame heq
    cases heq
    obtain ⟨j, rfl, hv, hip⟩ := srArpcacheLookup_eq_some he
    refine ⟨rt, i, ?_, hi, rfl, ?_, ?_⟩
    · rw [ipHeader_ethFrame]
      exact hrt
    · rw [etherShost_ethFrame]
    · rw [etherDhost_ethFrame, ← hip]
      exact h.entries j hv

/-- The timeout thread invalidates mappings; the entries it leaves valid keep theirs. -/
theorem Provenance.expire (h : Provenance sr s) (hkeys : KeysOk s.cache) :
    Provenance sr s.expire where
  entries := by
    intro i hi
    obtain ⟨hv, heq, hfresh⟩ := expireEntries_valid hi
    simp only [SrState.expire]
    rw [heq]
    apply (h.entries i hv).append
    -- an expired entry with the same mapping would be this one
    intro e he hexp
    obtain ⟨j, hj, rfl⟩ := List.mem_map.mp he
    have hstale : stale s.clock (s.cache.entries j) = true := (List.mem_filter.mp hj).2
    have hjv : (s.cache.entries j).valid = true := by
      simp only [stale, Bool.and_eq_true] at hstale
      exact hstale.1
    simp only [SrEvent.expired.injEq] at hexp
    have hji := hkeys.entry_unique j i hjv hv hexp.1
    rw [hji, hfresh] at hstale
    cases hstale
  sent := by
    apply always_append h.sent
    intro past e he
    obtain ⟨j, -, rfl⟩ := List.mem_map.mp he
    exact .of_ne (by simp)

/-! ## Every run -/

theorem Provenance.move {x y : SrState × List Bytes} (haddrs : AddrsOk x.1.cache)
    (hkeys : KeysOk x.1.cache) (h : Provenance sr x.1) (hmove : Move sr x y) :
    Provenance sr y.1 := by
  cases hmove with
  | log quiet => exact h.append_neutral rfl rfl (by simpa using quiet.neutral)
  | forward => exact h.append_neutral rfl rfl (by simp [SrEvent.Neutral])
  | send long route entry interface => exact h.send route entry interface
  | @queue s s' d hand rt long route absent handled =>
      have hd : d ≠ [] := List.ne_nil_of_length_pos (Nat.lt_of_lt_of_le (by decide) long)
      have hqueued : Provenance sr
          (s.withCache (srArpcacheQueuereq s.cache rt.gw d rt.interface).1) :=
        ⟨by simpa using h.entries, h.sent⟩
      exact hqueued.handle (haddrs.queue _ _ _) handled
  | learn last teaches => exact h.insert last teaches
  | answer last teaches =>
      exact (h.insert last teaches).append_neutral rfl rfl (by simp [SrEvent.Neutral])
  | handle handled => exact h.handle haddrs handled
  | expire => exact h.expire hkeys

theorem provenance_init (sr : SrConfig) : Provenance sr srInit where
  entries := by
    intro i hi
    cases hi
  sent := always_nil _

/-- **Forwarding is sound in every run**, at each of the frames that the history says were
transmitted. -/
theorem soundForwarding_of_srRun {inputs : List SrInput} (hlong : ∀ i ∈ inputs, i.Long sr)
    (hrun : srRun sr inputs = .ok s) : Always (SoundForwarding sr) s.history := by
  have key := srRun_rule (P := fun _ x => KeysOk x.1.cache ∧ Provenance sr x.1)
    ⟨(repInv_init sr).toKeysOk, provenance_init sr⟩ ?_ ?_ hlong hrun
  · exact key.2.2.sent
  · rintro _ s i ⟨hkeys, hprov⟩
    rw [SrState.tick_cache]
    exact ⟨hkeys, by simpa using hprov.entries, by simpa using hprov.sent⟩
  · rintro _ _ x y haddrs ⟨hkeys, hprov⟩ hmove
    exact ⟨hkeys.move haddrs hmove, hprov.move haddrs hkeys hmove⟩

theorem soundForwarding_queueAndFlush : ∃ s, srRun rtableConfig queueAndFlush = .ok s ∧
    (∃ interface frame, .transmitted (.fillAndSendPkt .ip) interface frame ∈ s.history) ∧
      Always (SoundForwarding rtableConfig) s.history := by
  obtain ⟨s, hrun, hsent⟩ : ∃ s, srRun rtableConfig queueAndFlush = .ok s ∧
      s.history.any SrEvent.isForwarding = true := exists_ok_of_check (by decide +kernel)
  refine ⟨s, hrun, ?_, soundForwarding_of_srRun (by decide +kernel) hrun⟩
  obtain ⟨e, he, hfwd⟩ := List.any_eq_true.mp hsent
  obtain ⟨interface, frame, rfl⟩ := e.isForwarding_iff.mp hfwd
  exact ⟨interface, frame, he⟩

end NetworkProjects.Router
