import Cloak.Mux.SessionActs

set_option autoImplicit false

/-! # The books of a session

Three records of one fact have to agree: the counter `active_stream_count`, the active entries of the
stream table, and the `retired` flag of each stream. They are updated in six functions, on normal and
on error paths. `Booked` says that they agree, `Watched` that an idle open session has asked for its
inactivity timer, and `Phase` how far the end of the session has come; every act keeps the three. -/

namespace Cloak

open Lib

/-- A call of `cloak_session_close`. -/
def PendingCall.isClose : PendingCall → Bool
  | .close => true
  | _ => false

theorem PendingCall.isClose_of_ne {c : PendingCall} (h : c ≠ .close) : ¬ c.isClose = true := by
  cases c with
  | close => exact absurd rfl h
  | _ => exact Bool.false_ne_true

namespace Session

/-- The counter, the table and the `retired` flags agree. -/
structure Booked (s : Session) : Prop where
  count : s.activeStreamCount = s.streams.actives.length
  listed : ∀ k h, (k, h) ∈ s.streams.actives →
    ∃ e, s.entry h = some e ∧ e.stream.id = k ∧ e.retired = false
  counted : ∀ h e, s.entry h = some e → e.retired = false → (e.stream.id, h) ∈ s.streams.actives

/-- An open session without active streams has asked for its inactivity timer, and a closed one has
    called it off. -/
structure Watched (s : Session) : Prop where
  idle : s.closed = false → s.activeStreamCount = 0 → s.inactivityTimer = true
  off : s.closed = true → s.inactivityTimer = false

/-! ## The counter, the table and the flags -/

theorem Booked.congr {s s' : Session} (hb : s.Booked)
    (hcount : s'.activeStreamCount = s.activeStreamCount) (hstreams : s'.streams = s.streams)
    (hheap : s'.heap = s.heap) : s'.Booked := by
  have hentry : ∀ h, s'.entry h = s.entry h := fun h => by rw [entry, hheap, entry]
  refine ⟨by rw [hcount, hstreams, hb.count], fun k h hmem => ?_, fun h e he hret => ?_⟩
  · rw [hstreams] at hmem
    rw [hentry]
    exact hb.listed k h hmem
  · rw [hentry] at he
    rw [hstreams]
    exact hb.counted h e he hret

/-- A stream changes, but neither its id nor its `retired` flag. -/
theorem Booked.setEntry {s : Session} (hb : s.Booked) {h : StreamHandle} {e : StreamEntry}
    (he : s.entry h = some e) {st : Stream} (hid : st.id = e.stream.id) :
    (s.setEntry h { e with stream := st }).Booked := by
  refine ⟨hb.count, fun k h' hmem => ?_, fun h' e' he' hret => ?_⟩
  · obtain ⟨e', he', hk, hret⟩ := hb.listed k h' hmem
    by_cases heq : h' = h
    · subst heq
      obtain rfl := Option.some.inj (he.symm.trans he')
      exact ⟨_, entry_setEntry_self he _, hid.trans hk, hret⟩
    · exact ⟨e', (entry_set_of_ne s _ heq).trans he', hk, hret⟩
  · rcases entry_set he' with ⟨rfl, heq⟩ | ⟨_, hold⟩
    · obtain rfl := Option.some.inj heq
      change (st.id, h') ∈ _
      rw [hid]
      exact hb.counted h' e he hret
    · exact hb.counted h' e' hold hret

/-- An active stream leaves the table, the count, and either the heap or the streams that are not
    retired. -/
theorem Booked.remove {s : Session} (hb : s.Booked) {k : UInt32} {h : StreamHandle}
    (hmem : (k, h) ∈ s.streams.actives) {o : Option StreamEntry}
    (ho : ∀ e, o = some e → e.retired = true) (b : Bool) :
    Booked { s with
      heap := s.heap.set h o
      streams := s.streams.tombstone k
      activeStreamCount := s.activeStreamCount - 1
      inactivityTimer := b } := by
  have hlook := Strmtab.mem_actives_iff.mp hmem
  have hmem' : ∀ k' h', (k', h') ∈ (s.streams.tombstone k).actives
      ↔ k' ≠ k ∧ (k', h') ∈ s.streams.actives := by
    intro k' h'
    rw [Strmtab.mem_actives_iff, Strmtab.lookup_tombstone, Strmtab.mem_actives_iff]
    split
    · next heq =>
      rw [hlook]
      constructor
      · exact fun hc => by cases hc
      · exact fun hc => absurd heq hc.1
    · next hne => exact ⟨fun hl => ⟨hne, hl⟩, fun hl => hl.2⟩
  -- the table lists `h` under one key only, the id of its stream
  obtain ⟨e₀, he₀, hid₀, _⟩ := hb.listed k h hmem
  have hkey : ∀ k', (k', h) ∈ s.streams.actives → k' = k := by
    intro k' hk'
    obtain ⟨e, he, hid, _⟩ := hb.listed k' h hk'
    obtain rfl := Option.some.inj (he₀.symm.trans he)
    exact hid.symm.trans hid₀
  refine ⟨?_, fun k' h' hin => ?_, fun h' e he hret => ?_⟩
  · change s.activeStreamCount - 1 = (s.streams.tombstone k).actives.length
    rw [hb.count, Strmtab.length_actives_tombstone hlook, Nat.add_sub_cancel]
  · obtain ⟨hne, hold⟩ := (hmem' k' h').mp hin
    obtain ⟨e, he, hid, hret⟩ := hb.listed k' h' hold
    have hneh : h' ≠ h := by
      rintro rfl
      exact hne (hkey k' hold)
    exact ⟨e, (entry_set_of_ne s o hneh).trans he, hid, hret⟩
  · rcases entry_set he with ⟨rfl, heq⟩ | ⟨hneh, hold⟩
    · rw [ho e heq] at hret
      cases hret
    · have hin := hb.counted h' e hold hret
      refine (hmem' _ _).mpr ⟨fun heq => hneh ?_, hin⟩
      rw [heq] at hin
      have hlook' := Strmtab.mem_actives_iff.mp hin
      rw [hlook] at hlook'
      exact (Entry.active.inj (Option.some.inj hlook')).symm

theorem Booked.retireStream {s : Session} (hb : s.Booked) (h : StreamHandle) :
    (s.retireStream h).Booked := by
  unfold Session.retireStream
  split
  · exact hb
  · next e he =>
    split
    · exact hb
    · next hret =>
      have hmem := hb.counted h e he (Bool.eq_false_iff.mpr hret)
      exact hb.remove hmem (fun e' heq => by rw [← Option.some.inj heq]) _

/-- After `session_retire_stream` the stream is retired. -/
theorem retired_retireStream {s : Session} {h : StreamHandle} {e : StreamEntry}
    (he : s.entry h = some e) : (s.retireStream h).entry h = some { e with retired := true } := by
  unfold retireStream
  rw [he]
  dsimp only
  split
  · next hret => rw [he, ← hret]
  · exact entry_setEntry_self he _

/-- A retired stream, or none, is freed. -/
theorem Booked.freeEntry {s : Session} (hb : s.Booked) {h : StreamHandle}
    (hret : ∀ e, s.entry h = some e → e.retired = true) : (s.freeEntry h).Booked := by
  refine ⟨hb.count, fun k h' hmem => ?_, fun h' e he hlive => ?_⟩
  · obtain ⟨e, he, hid, hlive⟩ := hb.listed k h' hmem
    have hne : h' ≠ h := by
      rintro rfl
      rw [hret e he] at hlive
      cases hlive
    exact ⟨e, (entry_set_of_ne s none hne).trans he, hid, hlive⟩
  · rcases entry_set he with ⟨_, hc⟩ | ⟨_, hold⟩
    · cases hc
    · exact hb.counted h' e hold hlive

/-- A stream is retired and freed. -/
theorem Booked.release {s : Session} (hb : s.Booked) (h : StreamHandle) :
    ((s.retireStream h).freeEntry h).Booked := by
  refine (hb.retireStream h).freeEntry fun e he => ?_
  cases hold : s.entry h with
  | none =>
    rw [Session.retireStream, hold] at he
    dsimp only at he
    rw [hold] at he
    cases he
  | some e₀ =>
    rw [retired_retireStream hold] at he
    rw [← Option.some.inj he]

theorem Booked.create {s : Session} (hb : s.Booked) {id : UInt32} {st : Stream}
    {t : Strmtab StreamHandle} {alloc : Bool} (hst : initStream s.config id = .ok st)
    (hins : s.streams.insertActive id s.heap.length alloc = (t, true)) :
    Booked { s with
      streams := t
      heap := s.heap ++ [some ⟨st, false⟩]
      activeStreamCount := s.activeStreamCount + 1 } := by
  have hid : st.id = id := (Stream.init_spec hst).1
  have hcases := s.streams.insertActive_cases id s.heap.length alloc
  rw [hins] at hcases
  rcases hcases with ⟨hc, _⟩ | ⟨_, hnew, hlook⟩
  · cases hc
  have hkept : ∀ k h, (k, h) ∈ s.streams.actives → (k, h) ∈ t.actives := by
    intro k h hmem
    have hold := Strmtab.mem_actives_iff.mp hmem
    have hne : k ≠ id := fun heq => hnew h (heq ▸ hold)
    rw [Strmtab.mem_actives_iff, hlook, if_neg hne, hold]
  have hentry : Session.entry { s with heap := s.heap ++ [some ⟨st, false⟩] } s.heap.length
      = some ⟨st, false⟩ := by
    rw [entry, List.getD_append_right _ _ _ _ (Nat.le_refl _), Nat.sub_self]
    rfl
  refine ⟨?_, fun k h hmem => ?_, fun h e he hret => ?_⟩
  · change s.activeStreamCount + 1 = t.actives.length
    rw [Strmtab.length_actives_insertActive hins, hb.count]
  · rw [Strmtab.mem_actives_iff] at hmem
    change t.lookup k = _ at hmem
    rw [hlook] at hmem
    split at hmem
    · next heq =>
      obtain rfl := Entry.active.inj (Option.some.inj hmem)
      exact ⟨_, hentry, by rw [heq]; exact hid, rfl⟩
    · obtain ⟨e, he, hk, hret⟩ := hb.listed k h (Strmtab.mem_actives_iff.mpr hmem)
      refine ⟨e, ?_, hk, hret⟩
      rw [entry, List.getD_append _ _ _ _ (lt_length_of_entry he)]
      exact he
  · rcases entry_append he with ⟨rfl, rfl⟩ | ⟨_, hold⟩
    · rw [Strmtab.mem_actives_iff]
      change t.lookup st.id = _
      rw [hlook, if_pos hid]
    · exact hkept _ _ (hb.counted h e hold hret)

theorem Booked.regrow {s : Session} (hb : s.Booked) {t : Strmtab StreamHandle}
    (hlook : ∀ k, t.lookup k = s.streams.lookup k) : Booked { s with streams := t } := by
  have hmem : ∀ k h, (k, h) ∈ t.actives ↔ (k, h) ∈ s.streams.actives := by
    intro k h
    rw [Strmtab.mem_actives_iff, Strmtab.mem_actives_iff, hlook]
  refine ⟨?_, fun k h hin => hb.listed k h ((hmem k h).mp hin), fun h e he hret =>
    (hmem _ _).mpr (hb.counted h e he hret)⟩
  change s.activeStreamCount = t.actives.length
  rw [Strmtab.length_actives_congr hlook, hb.count]

/-- Every act keeps the books. -/
theorem Act.booked {s₀ : Session} {ev : SessionEv} {s s' : Session} {fx : List SessionEffect}
    (h : Act s₀ ev s fx s') (hb : s.Booked) : s'.Booked := by
  cases h with
  | quiet hq => exact hb.congr hq.activeStreamCount hq.streams hq.heap
  | called => exact hb.congr rfl rfl rfl
  | returned => exact hb.congr rfl rfl rfl
  | touched he hid => exact hb.setEntry he hid
  | fed _ he => exact hb.setEntry he (Stream.sameWrite_feedFrame _ _ _).id
  | retired h => exact hb.retireStream h
  | created hst hins => exact hb.create hst hins
  | regrown hlook => exact hb.regrow hlook
  | releasing => exact hb.congr rfl rfl rfl
  | released => exact hb.release _
  | @releaseReturned h cs =>
    have hb' : Booked { s with calls := cs } := hb.congr rfl rfl rfl
    exact hb'.release h
  | freedAgain => exact hb
  | closing => exact hb.congr rfl rfl rfl
  | closedAtOnce => exact hb.congr rfl rfl rfl
  | closeReturned => exact hb.congr rfl rfl rfl
  | swept _ _ hmem => exact hb.remove hmem (fun e hc => by cases hc) _

theorem closed_retireStream (s : Session) (h : StreamHandle) :
    (s.retireStream h).closed = s.closed := by
  unfold retireStream
  split
  · rfl
  · split <;> rfl

/-- No act reopens a session. -/
theorem Act.closed {s₀ : Session} {ev : SessionEv} {s s' : Session} {fx : List SessionEffect} (h : Act s₀ ev s fx s')
    (hclosed : s.closed = true) : s'.closed = true := by
  cases h with
  | quiet hq => rw [hq.closed, hclosed]
  | retired h => rw [closed_retireStream, hclosed]
  | @released h => exact (closed_retireStream s h).trans hclosed
  | @releaseReturned h cs => exact (closed_retireStream { s with calls := cs } h).trans hclosed
  | closing => rfl
  | closedAtOnce => rfl
  | _ => exact hclosed

/-! ## The inactivity timer -/

theorem Watched.congr {s s' : Session} (hw : s.Watched) (hclosed : s'.closed = s.closed)
    (hcount : s'.activeStreamCount = s.activeStreamCount)
    (htimer : s'.inactivityTimer = s.inactivityTimer) : s'.Watched := by
  refine ⟨fun hopen hzero => ?_, fun hdone => ?_⟩
  · rw [htimer]
    exact hw.idle (hclosed ▸ hopen) (hcount ▸ hzero)
  · rw [htimer]
    exact hw.off (hclosed ▸ hdone)

/-- A closed session whose inactivity timer is off has nothing more to watch. -/
theorem watched_of_closed {s : Session} (hclosed : s.closed = true)
    (hoff : s.inactivityTimer = false) : s.Watched := by
  refine ⟨fun hopen => ?_, fun _ => hoff⟩
  rw [hclosed] at hopen
  cases hopen

theorem Watched.retireStream {s : Session} (hw : s.Watched) (h : StreamHandle) :
    (s.retireStream h).Watched := by
  unfold Session.retireStream
  split
  · exact hw
  · split
    · exact hw
    · refine ⟨fun hopen hzero => if_pos ⟨hzero, hopen⟩, fun hdone => ?_⟩
      change s.closed = true at hdone
      refine (if_neg fun hc => ?_).trans (hw.off hdone)
      rw [hc.2] at hdone
      cases hdone

theorem Act.watched {s₀ : Session} {ev : SessionEv} {s s' : Session} {fx : List SessionEffect}
    (h : Act s₀ ev s fx s') (hw : s.Watched) : s'.Watched := by
  cases h with
  | quiet hq => exact hw.congr hq.closed hq.activeStreamCount hq.inactivityTimer
  | called => exact hw.congr rfl rfl rfl
  | returned => exact hw.congr rfl rfl rfl
  | touched => exact hw.congr rfl rfl rfl
  | fed => exact hw.congr rfl rfl rfl
  | retired h => exact hw.retireStream h
  | created => exact ⟨fun _ hzero => absurd hzero (Nat.succ_ne_zero _), hw.off⟩
  | regrown => exact hw.congr rfl rfl rfl
  | releasing => exact hw.congr rfl rfl rfl
  | @released h => exact (hw.retireStream h).congr rfl rfl rfl
  | @releaseReturned h cs =>
    have hw' : Watched { s with calls := cs } := hw.congr rfl rfl rfl
    exact (hw'.retireStream h).congr rfl rfl rfl
  | freedAgain => exact hw
  | closing => exact watched_of_closed rfl rfl
  | closedAtOnce => exact watched_of_closed rfl rfl
  | closeReturned => exact hw.congr rfl rfl rfl
  | swept _ hclosed => exact watched_of_closed hclosed (hw.off hclosed)

/-! ## The end of a session -/

theorem brokens_retireStream (s : Session) (h : StreamHandle) :
    (s.retireStream h).brokens = s.brokens := by
  unfold Session.retireStream
  split
  · rfl
  · split <;> rfl

/-- `on_broken` is called by the first teardown timer only. -/
theorem Act.brokens {s₀ : Session} {ev : SessionEv} {s s' : Session} {fx : List SessionEffect}
    (h : Act s₀ ev s fx s') : s'.brokens = s.brokens := by
  cases h with
  | quiet hq => exact hq.brokens
  | retired h => exact brokens_retireStream s h
  | @released h => exact brokens_retireStream s h
  | @releaseReturned h cs => exact brokens_retireStream { s with calls := cs } h
  | _ => rfl

theorem Acts.brokens {s₀ : Session} {ev : SessionEv} {s s' : Session} {fx : List SessionEffect}
    (h : Acts s₀ ev s fx s') : s'.brokens = s.brokens :=
  h.invariant (P := fun s' => s'.brokens = s.brokens) (fun _ _ _ ha heq => ha.brokens.trans heq) rfl

theorem brokens_destroy (s : Session) : s.destroy.brokens = s.brokens := by
  have hacts : Acts s .destroy { s.closeInternal with teardownTimer := .idle }
      (freeAllEffects { s.closeInternal with teardownTimer := .idle })
      (freeAllActiveStreams { s.closeInternal with teardownTimer := .idle }) :=
    freeAllActiveStreams_acts (Or.inr rfl) rfl
  have hsame := hacts.brokens
  exact hsame

/-- How many calls of `cloak_session_close` wait for the switchboard. -/
def closings (s : Session) : Nat := s.calls.countP PendingCall.isClose

/-- How far the end has come. `on_broken` is due in the second and third phase and has been called in
    the last. -/
inductive Phase (s : Session) : Prop
  | live : s.closed = false → s.teardownTimer = .idle → s.closings = 0 → s.brokens = 0 → Phase s
  | closing : s.closed = true → s.teardownTimer = .idle → s.closings = 1 → s.brokens = 0 → Phase s
  | deferred : s.closed = true → s.teardownTimer = .deferred → s.closings = 0 → s.brokens = 0 →
    Phase s
  | broken : s.closed = true → s.teardownTimer ≠ .deferred → s.closings = 0 → s.brokens = 1 → Phase s

theorem Phase.congr {s s' : Session} (hp : s.Phase) (hclosed : s'.closed = s.closed)
    (hteardown : s'.teardownTimer = s.teardownTimer) (hclosings : s'.closings = s.closings)
    (hbrokens : s'.brokens = s.brokens) : s'.Phase := by
  cases hp with
  | live h1 h2 h3 h4 =>
    exact .live (hclosed.trans h1) (hteardown.trans h2) (hclosings.trans h3) (hbrokens.trans h4)
  | closing h1 h2 h3 h4 =>
    exact .closing (hclosed.trans h1) (hteardown.trans h2) (hclosings.trans h3) (hbrokens.trans h4)
  | deferred h1 h2 h3 h4 =>
    exact .deferred (hclosed.trans h1) (hteardown.trans h2) (hclosings.trans h3) (hbrokens.trans h4)
  | broken h1 h2 h3 h4 =>
    exact .broken (hclosed.trans h1) (fun hd => h2 (hteardown.symm.trans hd)) (hclosings.trans h3)
      (hbrokens.trans h4)

theorem Phase.brokens_le_one {s : Session} (hp : s.Phase) : s.brokens ≤ 1 := by
  cases hp with
  | live _ _ _ h4 => omega
  | closing _ _ _ h4 => omega
  | deferred _ _ _ h4 => omega
  | broken _ _ _ h4 => omega

/-- An open session has not begun to end. -/
theorem Phase.of_open {s : Session} (hp : s.Phase) (hopen : s.closed = false) :
    s.teardownTimer = .idle ∧ s.closings = 0 ∧ s.brokens = 0 := by
  cases hp with
  | live _ h2 h3 h4 => exact ⟨h2, h3, h4⟩
  | closing h1 => rw [hopen] at h1; cases h1
  | deferred h1 => rw [hopen] at h1; cases h1
  | broken h1 => rw [hopen] at h1; cases h1

/-- While `cloak_session_close` waits for the switchboard, nothing else of the end has happened. -/
theorem Phase.of_closing {s : Session} (hp : s.Phase) (hpos : 0 < s.closings) :
    s.closed = true ∧ s.teardownTimer = .idle ∧ s.closings = 1 ∧ s.brokens = 0 := by
  cases hp with
  | live _ _ h3 => omega
  | closing h1 h2 h3 h4 => exact ⟨h1, h2, h3, h4⟩
  | deferred _ _ h3 => omega
  | broken _ _ h3 => omega

theorem closings_cons {s : Session} {c : PendingCall} {cs : List PendingCall}
    (hcalls : s.calls = c :: cs) : s.closings = closings { s with calls := cs }
      + if c.isClose then 1 else 0 := by
  rw [closings, hcalls, closings, List.countP_cons]

theorem closings_push {s : Session} (c : PendingCall) :
    (s.push c).closings = s.closings + if c.isClose then 1 else 0 :=
  closings_cons rfl

theorem phase_retireStream {s : Session} (hp : s.Phase) (h : StreamHandle) :
    (s.retireStream h).Phase := by
  unfold Session.retireStream
  split
  · exact hp
  · split
    · exact hp
    · exact hp.congr rfl rfl rfl rfl

theorem Act.phase {s₀ : Session} {ev : SessionEv} {s s' : Session} {fx : List SessionEffect}
    (h : Act s₀ ev s fx s') (hp : s.Phase) : s'.Phase := by
  cases h with
  | quiet hq =>
    exact hp.congr hq.closed hq.teardownTimer (by rw [closings, hq.calls, closings]) hq.brokens
  | called hc => exact hp.congr rfl rfl (by rw [closings_push, if_neg (PendingCall.isClose_of_ne hc)]; rfl) rfl
  | returned hcalls hc =>
    exact hp.congr rfl rfl (by rw [closings_cons hcalls, if_neg (PendingCall.isClose_of_ne hc)]; rfl)
      rfl
  | touched => exact hp.congr rfl rfl rfl rfl
  | fed => exact hp.congr rfl rfl rfl rfl
  | retired h => exact phase_retireStream hp h
  | created => exact hp.congr rfl rfl rfl rfl
  | regrown => exact hp.congr rfl rfl rfl rfl
  | releasing => exact hp.congr rfl rfl (closings_push _) rfl
  | @released h => exact (phase_retireStream hp h).congr rfl rfl rfl rfl
  | @releaseReturned h cs hcalls =>
    have hp' : Phase { s with calls := cs } :=
      hp.congr rfl rfl (closings_cons hcalls).symm rfl
    exact (phase_retireStream hp' h).congr rfl rfl rfl rfl
  | freedAgain => exact hp
  | closing hopen =>
    obtain ⟨hidle, hnone, hzero⟩ := hp.of_open hopen
    have hone : (s.closeInternal.push .close).closings = s.closings + 1 := closings_push _
    exact .closing rfl hidle (by rw [hone, hnone]) hzero
  | closedAtOnce hopen =>
    obtain ⟨_, hnone, hzero⟩ := hp.of_open hopen
    exact .deferred rfl rfl hnone hzero
  | @closeReturned cs hcalls =>
    have hcount : s.closings = closings { s with calls := cs } + 1 := closings_cons hcalls
    obtain ⟨hclosed, _, hone, hzero⟩ := hp.of_closing (by omega)
    refine .deferred hclosed rfl ?_ hzero
    change closings { s with calls := cs } = 0
    omega
  | swept => exact hp.congr rfl rfl rfl rfl

end Session

end Cloak
