import Cloak.Mux.SessionTimers

set_option autoImplicit false

/-! # The end of a session

A session ends in two steps of the reactor: the first timer tells the owner, the second frees what is
left. `cloak_session_destroy` may come at any moment in between, also from inside `on_broken`.

* `on_broken` is counted by `Session.brokens`. At most one call follows from `Phase`; that there is one
  once the session is closed rests on the first timer, which the session adds without looking whether
  that succeeds.
* `Ledger` follows every stream object from its allocation to its one `free`. It needs the owner to
  play by the rules: to release a stream once, and none after the sweep. -/

namespace Cloak

open Lib

namespace TimedSession

/-! ## The owner hears of the end -/

/-- The first teardown timer is pending if the session has asked for it. -/
def Due (t : TimedSession) : Prop :=
  t.base.teardownTimer = .deferred → (t.teardownTimerId, .deferred) ∈ t.timers.pending

/-- Nothing is due while no teardown is asked for. -/
theorem due_of_idle {t : TimedSession} (hidle : t.base.teardownTimer = .idle) : t.Due := by
  intro hd
  rw [hidle] at hd
  cases hd

theorem Due.retire {t : TimedSession} (hd : t.Due) (hp : t.base.Phase) (timerOk : Bool) {s : Session}
    (h : StreamHandle) (hclosed : s.closed = t.base.closed)
    (hflag : s.teardownTimer = t.base.teardownTimer) :
    (applyAll timerOk { t with base := s.retireStream h } (s.retireEffects h)).Due := by
  obtain ⟨hteardown, ⟨hfx, _⟩ | ⟨hfx, _, hopen⟩⟩ := retireStream_timers s h
  · rw [hfx]
    exact fun hset => hd (hflag ▸ hteardown ▸ hset)
  · -- the inactivity timer is added again only while the session is open
    have hidle := (hp.of_open (hclosed ▸ hopen)).1
    refine due_of_idle ?_
    rw [base_applyAll]
    exact hteardown.trans (hflag.trans hidle)

theorem Due.release {t : TimedSession} (hd : t.Due) (hp : t.base.Phase) (timerOk : Bool)
    {s : Session} (h : StreamHandle) (hclosed : s.closed = t.base.closed)
    (hflag : s.teardownTimer = t.base.teardownTimer) :
    (applyAll timerOk { t with base := (s.retireStream h).freeEntry h }
      (s.retireEffects h ++ [.free h])).Due := by
  have hret := hd.retire hp timerOk h hclosed hflag
  rw [applyAll_append, applyAll_base timerOk t]
  rw [applyAll_base] at hret
  exact hret

theorem due_of_act {timerOk : Bool} {s₀ : Session} {ev : SessionEv} {t : TimedSession}
    {s' : Session} {fx : List SessionEffect} (h : Session.Act s₀ ev t.base fx s')
    (hp : t.base.Phase) (hd : t.Due) (hok : .addDeferred ∈ fx → timerOk = true) :
    (applyAll timerOk { t with base := s' } fx).Due := by
  cases h with
  | quiet hq => exact fun hset => hd (hq.teardownTimer ▸ hset)
  | called => exact hd
  | returned => exact hd
  | touched => exact hd
  | fed => exact hd
  | retired h => exact hd.retire hp timerOk h rfl rfl
  | created => exact hd
  | regrown => exact hd
  | releasing => exact hd
  | @released h => exact hd.release hp timerOk h rfl rfl
  | @releaseReturned h cs => exact hd.release hp timerOk (s := { t.base with calls := cs }) h rfl rfl
  | freedAgain => exact hd
  | closing hopen => exact due_of_idle (hp.of_open hopen).1
  | closedAtOnce =>
    obtain rfl := hok (by simp)
    exact fun _ => Timers.mem_add_true _ _
  | closeReturned =>
    obtain rfl := hok (by simp)
    exact fun _ => Timers.mem_add_true _ _
  | swept => exact hd

/-- Sound, and with its first teardown timer pending if that is due. -/
def Heard (t : TimedSession) : Prop := t.Sound ∧ t.Due

theorem Heard.acts {timerOk : Bool} {s₀ : Session} {ev : SessionEv} {t : TimedSession}
    {s' : Session} {fx : List SessionEffect} (h : Session.Acts s₀ ev t.base fx s') (ht : t.Heard)
    (hok : .addDeferred ∈ fx → timerOk = true) :
    (applyAll timerOk { t with base := s' } fx).Heard :=
  timed_of_acts (P := Heard) (fun _ _ _ hsub hact ht =>
    ⟨ht.1.act hact, due_of_act hact ht.1.phase ht.2 fun hmem => hok (hsub _ hmem)⟩) h t rfl
    (fun _ hf => hf) ht

theorem Due.step {evp : Evp} {t : TimedSession} (ht : t.Good) (hd : t.Due) {ev : TimedEv}
    (hok : Grants .addDeferred evp t ev) (hlive : (t.step evp ev).Good) : (t.step evp ev).Due := by
  cases ev with
  | call ev timerOk =>
    dsimp only [TimedSession.step]
    split
    · next hcall =>
      have hok' : .addDeferred ∈ t.base.callEffects evp ev → timerOk = true := by
        intro hmem
        refine hok ?_
        rw [requests, if_pos hcall]
        exact hmem
      have hacts := @Session.call_acts evp ev t.base hcall.1 hcall.2
      have ht' : Heard { t with released := t.released ++ releases t.base ev } :=
        ⟨⟨ht.sound.live, ht.sound.booked, ht.sound.phase, ht.sound.clocked.congr rfl rfl rfl rfl rfl⟩,
          hd⟩
      exact (Heard.acts (t := { t with released := t.released ++ releases t.base ev }) hacts ht'
        hok').2
    · exact hd
  | destroy =>
    dsimp only [TimedSession.step] at hlive ⊢
    split
    · next hcall =>
      rw [if_pos hcall] at hlive
      have hgone := ht.destroy.destroyed
      rw [hlive.sound.live] at hgone
      cases hgone
    · exact hd
  | fire id env timerOk =>
    dsimp only [TimedSession.step]
    split
    · next hcalls =>
      split
      · exact hd
      · next k hfind =>
        have hmem := Timers.mem_of_find hfind
        cases k with
        | inactivity =>
          have hacts : Session.Acts t.base (.inactivityTimer env)
              { t.base with inactivityTimer := false }
              (Session.checkTimeoutEffects evp { t.base with inactivityTimer := false } env)
              (Session.checkTimeout evp { t.base with inactivityTimer := false } env) :=
            Session.checkTimeout_acts env
          -- an inactivity timer is pending only in an open session
          have hopen : t.base.closed = false := by
            cases hclosed : t.base.closed with
            | false => rfl
            | true =>
              have hflag := (ht.sound.clocked.inactivity id hmem).2
              rw [ht.watched.off hclosed] at hflag
              cases hflag
          have ht' := ht.sound.unwatched hmem
          refine (Heard.acts hacts ⟨ht', due_of_idle (ht.sound.phase.of_open hopen).1⟩
            fun hin => hok ?_).2
          rw [requests, if_pos hcalls, hfind]
          exact hin
        | deferred => exact fun hset => by cases hset
        | sweep =>
          exact (Heard.acts (ht.sweep_acts hmem) ⟨(ht.sweeping hmem).sound, due_of_idle rfl⟩
            (by simp [Session.freeAllEffects])).2
    · exact hd

/-! ## The owner hears of it once -/

/-- No event takes a call of `on_broken` back. -/
theorem brokens_step {evp : Evp} {t : TimedSession} (ht : t.Good) (ev : TimedEv) :
    t.base.brokens ≤ (t.step evp ev).base.brokens := by
  cases ev with
  | call ev timerOk =>
    dsimp only [TimedSession.step]
    split
    · next hcall =>
      rw [TimedSession.call, base_applyAll]
      exact Nat.le_of_eq (Session.Acts.brokens (Session.call_acts hcall.1 hcall.2)).symm
    · exact Nat.le_refl _
  | destroy =>
    dsimp only [TimedSession.step]
    split
    · rw [TimedSession.destroy, base_applyAll]
      exact Nat.le_of_eq t.base.brokens_destroy.symm
    · exact Nat.le_refl _
  | fire id env timerOk =>
    dsimp only [TimedSession.step]
    split
    · split
      · exact Nat.le_refl _
      · next k hfind =>
        cases k with
        | inactivity =>
          rw [TimedSession.fire, base_applyAll]
          have hacts : Session.Acts t.base (.inactivityTimer env)
              { t.base with inactivityTimer := false }
              (Session.checkTimeoutEffects evp { t.base with inactivityTimer := false } env)
              (Session.checkTimeout evp { t.base with inactivityTimer := false } env) :=
            Session.checkTimeout_acts env
          exact Nat.le_of_eq hacts.brokens.symm
        | deferred =>
          rw [TimedSession.fire, base_applyAll, Session.brokens, Session.brokens, Session.callback,
            List.count_append]
          exact Nat.le_add_right _ _
        | sweep =>
          rw [TimedSession.fire, base_applyAll]
          exact Nat.le_of_eq (ht.sweep_acts (Timers.mem_of_find hfind)).brokens.symm
    · exact Nat.le_refl _

/-- Along a run the number of calls of `on_broken` only grows, and stays at most one. -/
theorem brokens_run {evp : Evp} {t : TimedSession} (ht : t.Good ∨ t.Gone) (es : List TimedEv) :
    t.base.brokens ≤ (run (step evp) t es).base.brokens
      ∧ (run (step evp) t es).base.brokens ≤ 1 := by
  induction es generalizing t with
  | nil =>
    refine ⟨Nat.le_refl _, ?_⟩
    rcases ht with hgood | hgone
    · exact hgood.sound.phase.brokens_le_one
    · exact hgone.brokens
  | cons ev es ih =>
    rcases ht with hgood | hgone
    · obtain ⟨hle, hone⟩ := ih (hgood.step ev)
      exact ⟨Nat.le_trans (brokens_step hgood ev) hle, hone⟩
    · have hsame : t.step evp ev = t := hgone.step ev
      obtain ⟨hle, hone⟩ := ih (Or.inr (hsame.symm ▸ hgone))
      refine ⟨?_, hone⟩
      rw [hsame] at hle
      change _ ≤ (run (step evp) (t.step evp ev) es).base.brokens
      rw [hsame]
      exact hle

/-! ## Every stream object is freed once -/

/-- The owner's part: it releases a stream the session gave it, once, and none after the sweep. -/
def Owner (t : TimedSession) : TimedEv → Prop
  | .call (.releaseStream h _) _ =>
    h < t.base.heap.length ∧ h ∉ t.released ∧ t.swept = false
  | _ => True

/-- The streams whose release waits for the switchboard. -/
def releasing (s : Session) : List StreamHandle :=
  s.calls.filterMap fun c => match c with
    | .releaseStream h => some h
    | _ => none

/-- The account of the stream objects. -/
structure Ledger (t : TimedSession) : Prop where
  nodup : t.freed.Nodup
  freed : ∀ h ∈ t.freed, h < t.base.heap.length ∧ t.base.entry h = none
  waiting : ∀ h ∈ releasing t.base, t.base.entry h ≠ none
  once : (releasing t.base).Nodup
  asked : ∀ h ∈ releasing t.base, h ∈ t.released
  why : ∀ h < t.base.heap.length, t.base.entry h = none → h ∈ t.released ∨ t.swept = true

/-- The ledger speaks of the heap by which pointers are valid and which objects are freed. -/
theorem Ledger.congr {t t' : TimedSession} (hl : t.Ledger) (hfreed : t'.freed = t.freed)
    (hlen : t'.base.heap.length = t.base.heap.length)
    (hnone : ∀ h, t'.base.entry h = none ↔ t.base.entry h = none)
    (hcalls : releasing t'.base = releasing t.base) (hreleased : ∀ h ∈ t.released, h ∈ t'.released)
    (hswept : t.swept = true → t'.swept = true) : t'.Ledger := by
  refine ⟨hfreed ▸ hl.nodup, fun h hmem => ?_, fun h hmem => ?_, hcalls ▸ hl.once, fun h hmem => ?_,
    fun h hlt he => ?_⟩
  · rw [hfreed] at hmem
    rw [hlen, hnone]
    exact hl.freed h hmem
  · rw [hcalls] at hmem
    rw [ne_eq, hnone]
    exact hl.waiting h hmem
  · rw [hcalls] at hmem
    exact hreleased h (hl.asked h hmem)
  · rw [hlen] at hlt
    rw [hnone] at he
    rcases hl.why h hlt he with hr | hs
    · exact Or.inl (hreleased h hr)
    · exact Or.inr (hswept hs)

/-- A stream is freed that no waiting release is about. -/
theorem Ledger.free {t : TimedSession} (hl : t.Ledger) {h : StreamHandle} {u : Session}
    (timerOk : Bool) (hsome : t.base.entry h ≠ none)
    (hlen : u.heap.length = t.base.heap.length) (hgone : u.entry h = none)
    (hother : ∀ h' ≠ h, u.entry h' = none ↔ t.base.entry h' = none)
    (hcalls : ∀ h' ∈ releasing u, h' ∈ releasing t.base ∧ h' ≠ h) (honce : (releasing u).Nodup)
    (hwhy : h ∈ t.released ∨ t.swept = true) :
    (apply timerOk { t with base := u } (.free h)).Ledger := by
  have hlt : h < t.base.heap.length := by
    obtain ⟨e, he⟩ := Option.ne_none_iff_exists'.mp hsome
    exact Session.lt_length_of_entry he
  refine ⟨?_, fun h' hmem => ?_, fun h' hmem => ?_, honce, fun h' hmem => ?_, fun h' hlt' he => ?_⟩
  · change (t.freed ++ [h]).Nodup
    refine List.nodup_append.mpr ⟨hl.nodup, List.nodup_singleton h, fun a ha b hb => ?_⟩
    rw [List.mem_singleton] at hb
    rintro rfl
    rw [hb] at ha
    exact hsome (hl.freed h ha).2
  · change h' < u.heap.length ∧ u.entry h' = none
    rw [hlen]
    by_cases heq : h' = h
    · subst heq
      exact ⟨hlt, hgone⟩
    · rcases List.mem_append.mp hmem with hold | hnew
      · exact ⟨(hl.freed h' hold).1, (hother h' heq).mpr (hl.freed h' hold).2⟩
      · exact absurd (List.mem_singleton.mp hnew) heq
  · obtain ⟨hold, hne⟩ := hcalls h' hmem
    exact fun hc => hl.waiting h' hold ((hother h' hne).mp hc)
  · exact hl.asked h' (hcalls h' hmem).1
  · change h' < u.heap.length at hlt'
    rw [hlen] at hlt'
    by_cases heq : h' = h
    · subst heq
      exact hwhy
    · exact hl.why h' hlt' ((hother h' heq).mp he)

/-- Changing a stream frees none. -/
theorem entry_setEntry_none {s : Session} {h : StreamHandle} {e : StreamEntry}
    (he : s.entry h = some e) (e' : StreamEntry) (h' : StreamHandle) :
    (s.setEntry h e').entry h' = none ↔ s.entry h' = none := by
  by_cases heq : h' = h
  · subst heq
    rw [Session.entry_setEntry_self he, he]
    simp
  · rw [Session.setEntry, Session.entry_set_of_ne s _ heq]

/-- What retiring a stream leaves alone. -/
theorem heap_retireStream (s : Session) (h : StreamHandle) :
    (s.retireStream h).heap.length = s.heap.length
      ∧ (∀ h', (s.retireStream h).entry h' = none ↔ s.entry h' = none)
      ∧ (s.retireStream h).calls = s.calls := by
  unfold Session.retireStream
  split
  · exact ⟨rfl, fun _ => Iff.rfl, rfl⟩
  · next e he =>
    split
    · exact ⟨rfl, fun _ => Iff.rfl, rfl⟩
    · exact ⟨List.length_set, fun h' => entry_setEntry_none he _ h', rfl⟩

/-- Retiring a stream changes nothing in the ledger. -/
theorem Ledger.retire {t : TimedSession} (hl : t.Ledger) (timerOk : Bool) {s : Session}
    (h : StreamHandle) (hheap : s.heap = t.base.heap) (hcalls : s.calls = t.base.calls) :
    (applyAll timerOk { t with base := s.retireStream h } (s.retireEffects h)).Ledger := by
  obtain ⟨hlen, hnone, hsame⟩ := heap_retireStream s h
  have hnone' : ∀ h', (s.retireStream h).entry h' = none ↔ t.base.entry h' = none := by
    intro h'
    rw [hnone, Session.entry, hheap, Session.entry]
  have hrel : releasing (s.retireStream h) = releasing t.base := by
    rw [releasing, hsame, hcalls, releasing]
  obtain ⟨_, ⟨hfx, _⟩ | ⟨hfx, _⟩⟩ := retireStream_timers s h
  · rw [hfx]
    exact hl.congr rfl (hlen.trans (by rw [hheap])) hnone' hrel (fun _ hr => hr) id
  · rw [hfx]
    exact hl.congr rfl (hlen.trans (by rw [hheap])) hnone' hrel (fun _ hr => hr) id

/-- Retiring a stream and freeing it. -/
theorem Ledger.release {t : TimedSession} (hl : t.Ledger) (timerOk : Bool) {s : Session}
    (h : StreamHandle) (hheap : s.heap = t.base.heap) (hsome : t.base.entry h ≠ none)
    (hcalls : ∀ h' ∈ releasing s, h' ∈ releasing t.base ∧ h' ≠ h) (honce : (releasing s).Nodup)
    (hwhy : h ∈ t.released ∨ t.swept = true) :
    (applyAll timerOk { t with base := (s.retireStream h).freeEntry h }
      (s.retireEffects h ++ [.free h])).Ledger := by
  obtain ⟨hlen, hnone, hsame⟩ := heap_retireStream s h
  have hentry : ∀ h', s.entry h' = t.base.entry h' := fun h' => by
    rw [Session.entry, hheap, Session.entry]
  have hrel : releasing ((s.retireStream h).freeEntry h) = releasing s := by
    rw [releasing, Session.freeEntry, hsame, releasing]
  have hfree := hl.free (u := (s.retireStream h).freeEntry h) timerOk hsome
    (by rw [Session.freeEntry, List.length_set, hlen, hheap]) (Session.entry_freeEntry_self _ _)
    (fun h' hne => by
      rw [Session.freeEntry, Session.entry_set_of_ne _ _ hne, hnone, hentry])
    (by rw [hrel]; exact hcalls) (by rw [hrel]; exact honce) hwhy
  -- the timer that retiring may add is nothing to the ledger
  refine hfree.congr ?_ (by rw [base_applyAll]; rfl) (fun h' => by rw [base_applyAll]; rfl)
    (by rw [base_applyAll]; rfl) ?_ ?_
  · obtain ⟨_, ⟨hfx, _⟩ | ⟨hfx, _⟩⟩ := retireStream_timers s h
    · rw [hfx]; rfl
    · rw [hfx]; rfl
  · obtain ⟨_, ⟨hfx, _⟩ | ⟨hfx, _⟩⟩ := retireStream_timers s h
    · rw [hfx]; exact fun _ hr => hr
    · rw [hfx]; exact fun _ hr => hr
  · rw [swept_applyAll]
    exact id

theorem releasing_cons {s : Session} {c : PendingCall} {cs : List PendingCall}
    (hcalls : s.calls = c :: cs) (hc : ∀ h, c ≠ .releaseStream h) :
    releasing { s with calls := cs } = releasing s := by
  rw [releasing, releasing, hcalls]
  cases c with
  | releaseStream h => exact absurd rfl (hc h)
  | _ => rfl

theorem releasing_releaseStream {s : Session} {h : StreamHandle} {cs : List PendingCall}
    (hcalls : s.calls = .releaseStream h :: cs) :
    releasing s = h :: releasing { s with calls := cs } := by
  rw [releasing, hcalls]
  rfl

/-- A stream with a release in progress has a call in progress. -/
theorem inCall_of_releasing {s : Session} {h : StreamHandle} (hmem : h ∈ releasing s) :
    s.inCall h = true := by
  obtain ⟨c, hc, hch⟩ := List.mem_filterMap.mp hmem
  cases c with
  | releaseStream h' =>
    obtain rfl := Option.some.inj hch
    exact List.any_eq_true.mpr ⟨_, hc, by simp [PendingCall.handle?]⟩
  | write => cases hch
  | closeStream => cases hch
  | close => cases hch

/-- A new stream enters the ledger. -/
theorem Ledger.create {t : TimedSession} (hl : t.Ledger) {s' : Session} (e : StreamEntry)
    (hheap : s'.heap = t.base.heap ++ [some e]) (hcalls : s'.calls = t.base.calls) :
    Ledger { t with base := s' } := by
  have hlen : s'.heap.length = t.base.heap.length + 1 := by
    rw [hheap, List.length_append, List.length_singleton]
  have hold : ∀ h < t.base.heap.length, s'.entry h = t.base.entry h := by
    intro h hlt
    rw [Session.entry, hheap, List.getD_append _ _ _ _ hlt, Session.entry]
  have hnew : s'.entry t.base.heap.length = some e := by
    rw [Session.entry, hheap, List.getD_append_right _ _ _ _ (Nat.le_refl _), Nat.sub_self]
    rfl
  have hrel : releasing s' = releasing t.base := by rw [releasing, hcalls, releasing]
  refine ⟨hl.nodup, fun h hmem => ?_, fun h hmem => ?_, hrel.symm ▸ hl.once,
    fun h hmem => hl.asked h (hrel ▸ hmem), fun h hlt he => ?_⟩
  · obtain ⟨hlt, he⟩ := hl.freed h hmem
    exact ⟨hlen ▸ Nat.lt_succ_of_lt hlt, (hold h hlt).trans he⟩
  · have hwait := hl.waiting h (hrel ▸ hmem)
    obtain ⟨e', he'⟩ := Option.ne_none_iff_exists'.mp hwait
    change s'.entry h ≠ none
    rw [hold h (Session.lt_length_of_entry he')]
    exact hwait
  · change s'.entry h = none at he
    rcases Nat.lt_or_eq_of_le (Nat.le_of_lt_succ (hlen ▸ hlt)) with hlt | heq
    · exact hl.why h hlt ((hold h hlt).symm.trans he)
    · rw [heq, hnew] at he
      cases he

/-- Every act of a call keeps the ledger. The event's own stream is one the owner has just released
    and had not released before. -/
theorem ledger_of_act {timerOk : Bool} {s₀ : Session} {ev : SessionEv} {t : TimedSession}
    {s' : Session} {fx : List SessionEffect} (h : Session.Act s₀ ev t.base fx s')
    (hev : ¬ (ev = .teardownTimer ∨ ev = .destroy))
    (hvalid : ∀ h env, ev = .releaseStream h env → s₀.entry h ≠ none)
    (hasked : ∀ h env, ev = .releaseStream h env → h ∈ t.released) (hl : t.Ledger) :
    (applyAll timerOk { t with base := s' } fx).Ledger := by
  have hplain : ∀ s' : Session, s'.heap = t.base.heap → releasing s' = releasing t.base →
      Ledger { t with base := s' } := by
    intro s' hheap hrel
    have hnone : ∀ h, s'.entry h = none ↔ t.base.entry h = none := fun h => by
      rw [Session.entry, hheap, Session.entry]
    exact hl.congr rfl (congrArg List.length hheap) hnone hrel (fun _ hr => hr) id
  cases h with
  | quiet hq => exact hplain _ hq.heap (by rw [releasing, hq.calls, releasing])
  | called _ hc => exact hplain _ rfl (releasing_cons rfl hc).symm
  | returned hcalls _ hc => exact hplain _ rfl (releasing_cons hcalls hc)
  | touched he =>
    exact hl.congr rfl List.length_set (entry_setEntry_none he _) rfl (fun _ hr => hr) id
  | fed _ he =>
    exact hl.congr rfl List.length_set (entry_setEntry_none he _) rfl (fun _ hr => hr) id
  | retired h => exact hl.retire timerOk h rfl rfl
  | created => exact hl.create _ rfl rfl
  | regrown => exact hplain _ rfl rfl
  | @releasing h e env hev hin he =>
    have hnew : h ∉ releasing t.base := fun hmem => by
      rw [inCall_of_releasing hmem] at hin
      cases hin
    have hsome : t.base.entry h ≠ none := fun hc => by
      rw [he] at hc
      cases hc
    refine ⟨hl.nodup, hl.freed, fun h' hmem => ?_, List.nodup_cons.mpr ⟨hnew, hl.once⟩,
      fun h' hmem => ?_, hl.why⟩
    · rcases List.mem_cons.mp hmem with rfl | hold
      · exact hsome
      · exact hl.waiting h' hold
    · rcases List.mem_cons.mp hmem with rfl | hold
      · exact hasked _ _ hev
      · exact hl.asked h' hold
  | @released h e env hev hin he =>
    refine hl.release timerOk h rfl (fun hc => by rw [he] at hc; cases hc) (fun h' hmem => ?_)
      hl.once (Or.inl (hasked h env hev))
    refine ⟨hmem, ?_⟩
    rintro rfl
    rw [inCall_of_releasing hmem] at hin
    cases hin
  | @releaseReturned h cs hcalls =>
    have hrel := releasing_releaseStream hcalls
    have hmem : h ∈ releasing t.base := by rw [hrel]; exact List.mem_cons_self
    obtain ⟨hnotin, honce⟩ := List.nodup_cons.mp (hrel ▸ hl.once)
    refine hl.release timerOk (s := { t.base with calls := cs }) h rfl (hl.waiting h hmem)
      (fun h' hmem' => ⟨by rw [hrel]; exact List.mem_cons_of_mem _ hmem', ?_⟩) honce
      (Or.inl (hl.asked h hmem))
    rintro rfl
    exact hnotin hmem'
  | freedAgain hev _ hnone => exact absurd hnone (hvalid _ _ hev)
  | closing => exact hl.congr rfl rfl (fun _ => Iff.rfl) rfl (fun _ hr => hr) id
  | closedAtOnce => exact hl.congr rfl rfl (fun _ => Iff.rfl) rfl (fun _ hr => hr) id
  | closeReturned hcalls =>
    exact hl.congr rfl rfl (fun _ => Iff.rfl) (releasing_cons hcalls (by simp)) (fun _ hr => hr) id
  | swept hsweep => exact absurd hsweep hev

theorem released_applyAll (timerOk : Bool) (t : TimedSession) (fx : List SessionEffect) :
    (t.applyAll timerOk fx).released = t.released := by
  induction fx generalizing t with
  | nil => rfl
  | cons f fx ih =>
    rw [applyAll_cons, ih]
    cases f <;> rfl

/-- Every call of an owner that plays by the rules keeps the ledger. -/
theorem Ledger.call {evp : Evp} {t : TimedSession} (hl : t.Ledger) {ev : SessionEv} {timerOk : Bool}
    (hlive : t.base.destroyed = false) (hcall : Session.isCall ev = true)
    (howner : t.Owner (.call ev timerOk)) : (t.call evp ev timerOk).Ledger := by
  have hl' : Ledger { t with released := t.released ++ releases t.base ev } :=
    hl.congr rfl rfl (fun _ => Iff.rfl) rfl (fun _ hr => List.mem_append_left _ hr) id
  by_cases hbusy : ∃ h env, ev = .releaseStream h env ∧ t.base.inCall h = true
  · -- not a step: one of the stream's own calls is in progress
    obtain ⟨h, env, rfl, hin⟩ := hbusy
    have hsame : t.base.step evp (.releaseStream h env) = t.base := by
      simp only [Session.step, hlive, hin, if_true, Bool.false_eq_true, if_false]
    have hnone : t.base.callEffects evp (.releaseStream h env) = [] := by
      simp only [Session.callEffects, hin, if_true]
    rw [TimedSession.call, hsame, hnone]
    exact hl'
  · have hvalid : ∀ h env, ev = .releaseStream h env → t.base.entry h ≠ none := by
      rintro h env rfl hnone
      obtain ⟨hlt, hnew, hswept⟩ := howner
      rcases hl.why h hlt hnone with hr | hs
      · exact hnew hr
      · rw [hs] at hswept
        cases hswept
    have hasked : ∀ h env, ev = .releaseStream h env →
        h ∈ t.released ++ releases t.base ev := by
      rintro h env rfl
      refine List.mem_append_right _ ?_
      rw [releases, if_neg fun hin => hbusy ⟨h, env, rfl, hin⟩]
      exact List.mem_cons_self
    refine (timed_of_acts (P := fun u => u.Ledger ∧ ∀ h env, ev = .releaseStream h env →
      h ∈ u.released) (fun u fx s' _ hact hu => ?_) (Session.call_acts hlive hcall)
      { t with released := t.released ++ releases t.base ev } rfl (fun _ hf => hf) ⟨hl', hasked⟩).1
    refine ⟨ledger_of_act hact ?_ hvalid hu.2 hu.1, fun h env hev => ?_⟩
    · rintro (rfl | rfl)
      · cases hcall
      · cases hcall
    rw [released_applyAll]
    exact hu.2 h env hev

/-- The sweep frees each active stream, none of which was freed before. -/
theorem Ledger.sweepAll {timerOk : Bool} (l : List (UInt32 × StreamHandle)) :
    ∀ t : TimedSession, t.Ledger → t.base.Booked → t.swept = true → t.base.calls = [] →
      (l.map Prod.fst).Nodup → (∀ kh ∈ l, kh ∈ t.base.streams.actives) →
      (applyAll timerOk { t with base := l.foldl Session.destroyStream t.base }
        (l.map fun kh => .free kh.2)).Ledger := by
  induction l with
  | nil => exact fun t hl _ _ _ _ _ => hl
  | cons kh l ih =>
    intro t hl hb hswept hcalls hnodup hall
    obtain ⟨hnotin, hnodup⟩ := List.nodup_cons.mp hnodup
    have hmem := hall kh List.mem_cons_self
    obtain ⟨e, he, _⟩ := hb.listed kh.1 kh.2 hmem
    have hrel : releasing (t.base.destroyStream kh) = [] := by
      rw [releasing, show (t.base.destroyStream kh).calls = [] from hcalls]
      rfl
    have hl' : (apply timerOk { t with base := t.base.destroyStream kh } (.free kh.2)).Ledger := by
      refine hl.free timerOk (fun hc => by rw [he] at hc; cases hc) List.length_set
        (Session.entry_freeEntry_self t.base kh.2) (fun h' hne => ?_) ?_ ?_ (Or.inr hswept)
      · exact (congrArg (· = none) (Session.entry_set_of_ne t.base none hne)).to_iff
      · rw [hrel]
        exact fun h' hc => by cases hc
      · rw [hrel]
        exact List.nodup_nil
    refine ih _ hl' (hb.remove hmem (fun e hc => by cases hc) _) hswept hcalls hnodup
      fun kh' hin => ?_
    have hne : kh'.1 ≠ kh.1 := fun heq => hnotin (heq ▸ List.mem_map_of_mem hin)
    have hold := Strmtab.mem_actives_iff.mp (hall kh' (List.mem_cons_of_mem _ hin))
    refine Strmtab.mem_actives_iff.mpr ?_
    change (t.base.streams.tombstone kh.1).lookup kh'.1 = _
    rw [Strmtab.lookup_tombstone, if_neg hne, hold]

theorem Ledger.fire {evp : Evp} {t : TimedSession} (ht : t.Good) (hl : t.Ledger) {id : Nat}
    {k : SessionTimer} (env : ClosingEnv) (timerOk : Bool) (hcalls : t.base.calls = [])
    (hmem : (id, k) ∈ t.timers.pending) : (t.fire evp id env timerOk k).Ledger := by
  cases k with
  | inactivity =>
    have hacts : Session.Acts t.base (.inactivityTimer env) { t.base with inactivityTimer := false }
        (Session.checkTimeoutEffects evp { t.base with inactivityTimer := false } env)
        (Session.checkTimeout evp { t.base with inactivityTimer := false } env) :=
      Session.checkTimeout_acts env
    refine timed_of_acts (P := Ledger) (fun u fx s' _ hact hu => ?_) hacts
      { t with
        timers := t.timers.cancel id
        base := { t.base with inactivityTimer := false } } rfl (fun _ hf => hf)
      (hl.congr rfl rfl (fun _ => Iff.rfl) rfl (fun _ hr => hr) fun hs => hs)
    exact ledger_of_act hact (by simp) (fun h env hc => by cases hc) (fun h env hc => by cases hc) hu
  | deferred => exact hl.congr rfl rfl (fun _ => Iff.rfl) rfl (fun _ hr => hr) fun hs => hs
  | sweep =>
    have hl' : Ledger { t with
        timers := t.timers.cancel id
        base := { t.base with teardownTimer := .idle }
        teardownTimerId := 0
        swept := true } :=
      hl.congr rfl rfl (fun _ => Iff.rfl) rfl (fun _ hr => hr) fun _ => rfl
    exact hl'.sweepAll t.base.streams.actives _ (ht.sweeping hmem).sound.booked rfl hcalls
      t.base.streams.nodup_keys_actives fun _ hin => hin

/-- What `cloak_session_destroy` asks before it frees. -/
def cancels (s : Session) : List SessionEffect :=
  (if s.closed then [] else [.cancelInactivity]) ++ [.cancelTeardown]

theorem freed_cancels (t : TimedSession) (s : Session) :
    (t.applyAll true (cancels s)).freed = t.freed := by
  unfold cancels
  split <;> rfl

theorem destroy_eq (t : TimedSession) : t.destroy = applyAll true
    (applyAll true { t with base := t.base.destroy, swept := true } (cancels t.base))
    t.base.freeAllEffects := by
  rw [TimedSession.destroy, Session.destroyEffects, List.append_cons _ SessionEffect.cancelTeardown,
    applyAll_append, cancels]

theorem Ledger.destroy {t : TimedSession} (ht : t.Good) (hl : t.Ledger)
    (hcalls : t.base.calls = []) : t.destroy.Ledger := by
  -- before the frees, with the session closed
  have hl' : Ledger { applyAll true { t with swept := true } (cancels t.base) with
      base := { t.base.closeInternal with teardownTimer := .idle } } := by
    refine hl.congr (freed_cancels _ _) rfl (fun h => Iff.rfl) rfl ?_ fun _ => ?_
    · intro h hr
      change h ∈ (applyAll true { t with swept := true } (cancels t.base)).released
      rw [released_applyAll]
      exact hr
    · exact swept_applyAll true { t with swept := true } (cancels t.base)
  have hdone := @Ledger.sweepAll true t.base.streams.actives _ hl'
    (ht.sound.booked.congr rfl rfl rfl) (swept_applyAll true { t with swept := true } _) hcalls
    t.base.streams.nodup_keys_actives fun _ hin => hin
  rw [destroy_eq, applyAll_base true { t with swept := true }]
  rw [applyAll_base]
  rw [applyAll_base, applyAll_base] at hdone
  exact hdone.congr rfl rfl (fun _ => Iff.rfl) rfl (fun _ hr => hr) id

/-- An owner that plays by the rules keeps the ledger, whatever else happens. -/
theorem Ledger.step {evp : Evp} {t : TimedSession} (ht : t.Good) (hl : t.Ledger) {ev : TimedEv}
    (howner : t.Owner ev) : (t.step evp ev).Ledger := by
  cases ev with
  | call ev timerOk =>
    dsimp only [TimedSession.step]
    split
    · next hcall => exact hl.call hcall.1 hcall.2 howner
    · exact hl
  | destroy =>
    dsimp only [TimedSession.step]
    split
    · next hcall => exact hl.destroy ht hcall.2
    · exact hl
  | fire id env timerOk =>
    dsimp only [TimedSession.step]
    split
    · next hcalls =>
      split
      · exact hl
      · next k hfind => exact hl.fire ht env timerOk hcalls (Timers.mem_of_find hfind)
    · exact hl

/-! ## What the sweep reaches -/

/-- The events that free all active streams: the second teardown timer and the destruction. -/
def Sweeps (t : TimedSession) : TimedEv → Prop
  | .call _ _ => False
  | .destroy => t.base.destroyed = false ∧ t.base.calls = []
  | .fire id _ _ => t.base.calls = [] ∧ t.timers.find id = some .sweep

theorem freed_freeAll (timerOk : Bool) (l : List (UInt32 × StreamHandle)) (t : TimedSession) :
    (t.applyAll timerOk (l.map fun kh => .free kh.2)).freed = t.freed ++ l.map Prod.snd := by
  induction l generalizing t with
  | nil => rw [List.map_nil, List.map_nil, List.append_nil, applyAll_nil]
  | cons kh l ih =>
    rw [List.map_cons, applyAll_cons, ih, List.map_cons, List.append_cons]
    rfl

/-- Freeing the streams `l` buries their ids and leaves the others listed. -/
theorem mem_actives_foldl_destroyStream (l : List (UInt32 × StreamHandle)) (s : Session) {k : UInt32}
    {h : StreamHandle} (hmem : (k, h) ∈ (l.foldl Session.destroyStream s).streams.actives) :
    (k, h) ∈ s.streams.actives ∧ k ∉ l.map Prod.fst := by
  induction l generalizing s with
  | nil => exact ⟨hmem, List.not_mem_nil⟩
  | cons kh l ih =>
    obtain ⟨hold, hnotin⟩ := ih (s.destroyStream kh) hmem
    have hlook := Strmtab.mem_actives_iff.mp hold
    change (s.streams.tombstone kh.1).lookup k = _ at hlook
    rw [Strmtab.lookup_tombstone] at hlook
    split at hlook
    · cases hseen : s.streams.lookup kh.1 with
      | none => rw [hseen] at hlook; cases hlook
      | some e => rw [hseen] at hlook; cases hlook
    · next hne =>
      refine ⟨Strmtab.mem_actives_iff.mpr hlook, fun hc => ?_⟩
      rcases List.mem_cons.mp hc with heq | hc
      · exact hne heq
      · exact hnotin hc

theorem entry_foldl_destroyStream (l : List (UInt32 × StreamHandle)) (s : Session)
    {h : StreamHandle} (hmem : h ∈ l.map Prod.snd ∨ s.entry h = none) :
    (l.foldl Session.destroyStream s).entry h = none := by
  induction l generalizing s with
  | nil =>
    rcases hmem with hc | hnone
    · cases hc
    · exact hnone
  | cons kh l ih =>
    refine ih (s.destroyStream kh) ?_
    by_cases heq : h = kh.2
    · subst heq
      exact Or.inr (Session.entry_freeEntry_self s kh.2)
    · rcases hmem with hmem | hnone
      · rcases List.mem_cons.mp hmem with hc | hmem
        · exact absurd hc heq
        · exact Or.inl hmem
      · exact Or.inr ((Session.entry_set_of_ne s none heq).trans hnone)

/-- `session_free_all_active_streams` leaves no active stream and no object of one. -/
theorem freeAllActiveStreams_spec (s : Session) :
    s.freeAllActiveStreams.streams.actives = []
      ∧ ∀ k h, (k, h) ∈ s.streams.actives → s.freeAllActiveStreams.entry h = none := by
  constructor
  · refine List.eq_nil_iff_forall_not_mem.mpr fun ⟨k, h⟩ hmem => ?_
    obtain ⟨hold, hnotin⟩ := mem_actives_foldl_destroyStream _ s hmem
    exact hnotin (List.mem_map_of_mem hold)
  · intro k h hmem
    have hin : h ∈ s.streams.actives.map Prod.snd := List.mem_map_of_mem hmem
    exact entry_foldl_destroyStream _ s (Or.inl hin)

/-- The sweep and the destruction free exactly the streams that are active, and leave none. -/
theorem sweep_spec {evp : Evp} {t : TimedSession} {ev : TimedEv} (hev : t.Sweeps ev) :
    (t.step evp ev).freed = t.freed ++ t.base.streams.actives.map Prod.snd
      ∧ (t.step evp ev).base.streams.actives = []
      ∧ ∀ k h, (k, h) ∈ t.base.streams.actives → (t.step evp ev).base.entry h = none := by
  cases ev with
  | call => exact hev.elim
  | destroy =>
    have hstep : t.step evp .destroy = t.destroy := if_pos hev
    rw [hstep]
    have hspec := freeAllActiveStreams_spec { t.base.closeInternal with teardownTimer := .idle }
    refine ⟨?_, ?_⟩
    · rw [destroy_eq, Session.freeAllEffects, freed_freeAll, freed_cancels]
    · rw [TimedSession.destroy, base_applyAll]
      exact hspec
  | fire id env timerOk =>
    obtain ⟨hcalls, hfind⟩ := hev
    have hstep : t.step evp (.fire id env timerOk) = t.fire evp id env timerOk .sweep := by
      simp only [TimedSession.step, if_pos hcalls, hfind]
    have hspec := freeAllActiveStreams_spec { t.base with teardownTimer := .idle }
    rw [hstep]
    refine ⟨?_, ?_⟩
    · rw [TimedSession.fire, applyAll_cons, Session.freeAllEffects, freed_freeAll]
      rfl
    · rw [TimedSession.fire, base_applyAll]
      exact hspec

/-! ## Runs -/

theorem init_due {config : SessionConfig} {timerOk : Bool} {t : TimedSession}
    (h : init config timerOk = .ok t) : t.Due ∧ t.Ledger := by
  unfold init Session.init at h
  split at h
  · cases h
  · split at h
    · cases h
    · cases h
      refine ⟨due_of_idle rfl, List.nodup_nil, ?_, ?_, List.nodup_nil, ?_, ?_⟩
      · exact fun h hmem => absurd hmem List.not_mem_nil
      · exact fun h hmem => absurd hmem List.not_mem_nil
      · exact fun h hmem => absurd hmem List.not_mem_nil
      · exact fun h hlt => absurd hlt (Nat.not_lt_zero h)

theorem run_due {evp : Evp} {t : TimedSession} (ht : t.Good) (hd : t.Due) {es : List TimedEv}
    (hes : Obeys (step evp) (Grants .addDeferred evp) t es) :
    (run (step evp) t es).Good ∧ (run (step evp) t es).Due ∨ (run (step evp) t es).Gone := by
  refine run_guarded (P := fun (t : TimedSession) => t.Good ∧ t.Due ∨ t.Gone)
    (fun t ev h hok => ?_) (Or.inl ⟨ht, hd⟩) hes
  rcases h with ⟨hgood, hdue⟩ | hgone
  · rcases hgood.step ev with hgood' | hgone'
    · exact Or.inl ⟨hgood', hdue.step hgood hok hgood'⟩
    · exact Or.inr hgone'
  · rw [hgone.step ev]
    exact Or.inr hgone

theorem run_ledger {evp : Evp} {t : TimedSession} (ht : t.Good) (hl : t.Ledger) {es : List TimedEv}
    (hes : Obeys (step evp) Owner t es) : (run (step evp) t es).Ledger := by
  refine (run_guarded (P := fun (t : TimedSession) => (t.Good ∨ t.Gone) ∧ t.Ledger)
    (fun t ev h howner => ?_) ⟨Or.inl ht, hl⟩ hes).2
  obtain ⟨hgood | hgone, hl⟩ := h
  · exact ⟨hgood.step ev, hl.step hgood howner⟩
  · rw [hgone.step ev]
    exact ⟨Or.inr hgone, hl⟩

theorem run_gone {evp : Evp} {t : TimedSession} (ht : t.Gone) (es : List TimedEv) :
    run (step evp) t es = t := by
  induction es with
  | nil => rfl
  | cons ev es ih =>
    change run (step evp) (t.step evp ev) es = t
    rw [ht.step ev, ih]

/-- A closed session that has not been destroyed, has no `cloak_session_close` in progress and no first
    teardown timer pending has told its owner. -/
theorem Good.heard {t : TimedSession} (ht : t.Good) (hd : t.Due) (hclosed : t.base.closed = true)
    (hreturned : t.base.closings = 0) (hran : t.timers.armed .deferred = []) :
    t.base.brokens = 1 := by
  cases ht.sound.phase with
  | live h1 => rw [hclosed] at h1; cases h1
  | closing _ _ h3 => omega
  | deferred _ h2 =>
    have hmem := hd h2
    rw [Timers.armed, List.map_eq_nil_iff, List.filter_eq_nil_iff] at hran
    exact absurd (decide_eq_true rfl) (hran _ hmem)
  | broken _ _ _ h4 => exact h4

/-- A session ends once. In every state of every run in which the reactor has room for the first
    teardown timer: `on_broken` has been called at most once; if the session is closed, not destroyed,
    and its timer has run, it has been called, and never is again; after `cloak_session_destroy` no
    timer is pending and nothing happens any more; an owner that plays by the rules sees no stream
    object freed twice; and the sweep, or the destruction, frees the streams that are active then. -/
theorem session_teardown (evp : Evp) (config : SessionConfig) (timerOk : Bool) (t₀ : TimedSession)
    (h0 : init config timerOk = .ok t₀) (es : List TimedEv)
    (hes : Obeys (step evp) (Grants .addDeferred evp) t₀ es) :
    (run (step evp) t₀ es).base.brokens ≤ 1
      ∧ ((run (step evp) t₀ es).base.closed = true →
        (run (step evp) t₀ es).base.destroyed = false →
        (run (step evp) t₀ es).base.closings = 0 →
        (run (step evp) t₀ es).timers.armed .deferred = [] →
        ∀ es', (run (step evp) t₀ (es ++ es')).base.brokens = 1)
      ∧ ((run (step evp) t₀ es).base.destroyed = true →
        (run (step evp) t₀ es).timers.pending = []
          ∧ ∀ es', run (step evp) t₀ (es ++ es') = run (step evp) t₀ es)
      ∧ (Obeys (step evp) Owner t₀ es → (run (step evp) t₀ es).freed.Nodup)
      ∧ ∀ ev, (run (step evp) t₀ es).Sweeps ev →
        (step evp (run (step evp) t₀ es) ev).freed
            = (run (step evp) t₀ es).freed
              ++ (run (step evp) t₀ es).base.streams.actives.map Prod.snd
          ∧ (step evp (run (step evp) t₀ es) ev).base.streams.actives = []
          ∧ ∀ k h, (k, h) ∈ (run (step evp) t₀ es).base.streams.actives →
            (step evp (run (step evp) t₀ es) ev).base.entry h = none := by
  obtain ⟨hdue, hledger⟩ := init_due h0
  have hgood := init_good h0
  have hreached := run_due hgood hdue hes
  refine ⟨(brokens_run (Or.inl hgood) es).2, fun hclosed hlive hreturned hran es' => ?_,
    fun hgone => ?_, fun howner => (run_ledger hgood hledger howner).nodup, fun ev hev => sweep_spec hev⟩
  · rcases hreached with ⟨hgood', hdue'⟩ | hgone'
    · have hone := hgood'.heard hdue' hclosed hreturned hran
      obtain ⟨hge, hle⟩ := @brokens_run evp _ (Or.inl hgood') es'
      rw [run_append]
      omega
    · rw [hgone'.destroyed] at hlive
      cases hlive
  · rcases hreached with ⟨hgood', _⟩ | hgone'
    · rw [hgood'.sound.live] at hgone
      cases hgone
    · refine ⟨hgone'.unarmed, fun es' => ?_⟩
      rw [run_append, run_gone hgone']

/-- The last connection is lost, the owner hears of it, and the session is swept. -/
def lostRun : List TimedEv :=
  [.call .poolBroken true, .fire 2 ⟨0, fun _ => 0, ⟨⟨0, fun _ => 0⟩, true⟩⟩ true,
    .fire 3 ⟨0, fun _ => 0, ⟨⟨0, fun _ => 0⟩, true⟩⟩ true]

theorem session_teardown_lost : ∃ t₀, init Session.smallConfig true = .ok t₀
    ∧ Obeys (step Evp.plain) (Grants .addDeferred Evp.plain) t₀ lostRun
    ∧ (run (step Evp.plain) t₀ lostRun).base.brokens = 1 := by
  have hobeys : ∀ t, Obeys (step Evp.plain) (Grants .addDeferred Evp.plain) t lostRun :=
    fun t => ⟨fun _ => rfl, fun _ => rfl, fun _ => rfl, trivial⟩
  refine ⟨_, rfl, hobeys _, ?_⟩
  have hend := (session_teardown Evp.plain Session.smallConfig true _ rfl lostRun (hobeys _)).2.1
    (by decide +kernel) (by decide +kernel) (by decide +kernel) (by decide +kernel) []
  rw [List.append_nil] at hend
  exact hend

/-- The inactivity timer has fired while a stream was open, so closing the session makes no room for
    another timer. If there is none, the session is closed and nobody ever hears of it: no timer is
    pending, no call is in progress, and `on_broken` has not been called. -/
theorem session_teardown_unheard : ∃ t₀, init Session.smallConfig true = .ok t₀
    ∧ (run (step Evp.plain) t₀ outlivedRun).base.activeStreamCount = 1
    ∧ (run (step Evp.plain) t₀ outlivedRun).timers.pending = []
    ∧ (run (step Evp.plain) t₀ (outlivedRun ++ [.call .poolBroken false])).base.closed = true
    ∧ (run (step Evp.plain) t₀ (outlivedRun ++ [.call .poolBroken false])).base.destroyed = false
    ∧ (run (step Evp.plain) t₀ (outlivedRun ++ [.call .poolBroken false])).base.calls = []
    ∧ (run (step Evp.plain) t₀ (outlivedRun ++ [.call .poolBroken false])).timers.pending = []
    ∧ (run (step Evp.plain) t₀ (outlivedRun ++ [.call .poolBroken false])).base.brokens = 0 := by
  refine ⟨_, rfl, ?_, ?_, ?_, ?_, ?_, ?_, ?_⟩
  all_goals decide +kernel

end TimedSession

end Cloak
