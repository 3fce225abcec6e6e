import Cloak.Lib.Timers
import Cloak.Mux.SessionBooks
import Cloak.Mux.SessionIds

set_option autoImplicit false

/-! # A session and its timers

`Session` records what the session has asked of the reactor; here the reactor answers. Adding a timer
can fail, and the session does not look at the answer. The other users of the reactor are left out:
their timers have other ids.

A timer that is pending fires whatever the session has become in the meantime, also after
`cloak_session_destroy`. That this does not happen is a result, not part of the model. -/

namespace Cloak

open Lib

/-- The timer callbacks of a session. -/
inductive SessionTimer where
  /-- `session_check_timeout` -/
  | inactivity
  /-- `session_deferred_teardown_cb` -/
  | deferred
  /-- `session_teardown_sweep_cb` -/
  | sweep
deriving DecidableEq, Repr

/-- A session with its timers and the record of its frees: the streams the owner has released, the
    calls of `free`, and whether all active streams have been freed at once. -/
structure TimedSession where
  base : Session
  timers : Timers SessionTimer
  inactivityTimerId : Nat
  teardownTimerId : Nat
  released : List StreamHandle
  freed : List StreamHandle
  swept : Bool

/-- A call into the session, its destruction, or one of its timers. An event adds one timer at most,
    and `timerOk` is whether that succeeds. -/
inductive TimedEv where
  | call (ev : SessionEv) (timerOk : Bool)
  | destroy
  | fire (id : Nat) (env : ClosingEnv) (timerOk : Bool)

/-- Whether the timer an event adds is added. -/
def TimedEv.timerOk : TimedEv → Bool
  | .call _ timerOk => timerOk
  | .destroy => true
  | .fire _ _ timerOk => timerOk

namespace TimedSession

/-- One request to the reactor or the allocator. -/
def apply (timerOk : Bool) (t : TimedSession) : SessionEffect → TimedSession
  | .rearmInactivity =>
    { t with
      timers := ((t.timers.cancel t.inactivityTimerId).add .inactivity timerOk).1
      inactivityTimerId := ((t.timers.cancel t.inactivityTimerId).add .inactivity timerOk).2 }
  | .cancelInactivity => { t with timers := t.timers.cancel t.inactivityTimerId }
  | .addDeferred =>
    { t with
      timers := (t.timers.add .deferred timerOk).1
      teardownTimerId := (t.timers.add .deferred timerOk).2 }
  | .addSweep =>
    { t with
      timers := (t.timers.add .sweep timerOk).1
      teardownTimerId := (t.timers.add .sweep timerOk).2 }
  | .dropTeardown => { t with teardownTimerId := 0 }
  | .cancelTeardown => { t with timers := t.timers.cancel t.teardownTimerId }
  | .free h => { t with freed := t.freed ++ [h] }

/-- The requests of an event, in order. -/
def applyAll (timerOk : Bool) (t : TimedSession) (fx : List SessionEffect) : TimedSession :=
  fx.foldl (apply timerOk) t

/-- `cloak_session_init`; the timer ids start as `CLOAK_TIMER_INVALID`. -/
def init (config : SessionConfig) (timerOk : Bool) : Except Stream.InitError TimedSession :=
  (Session.init config).map fun s =>
    apply timerOk ⟨s, .empty, 0, 0, [], [], false⟩ .rearmInactivity

/-- The stream a call releases. -/
def releases (s : Session) : SessionEv → List StreamHandle
  | .releaseStream h _ => if s.inCall h then [] else [h]
  | _ => []

/-- A call into the session. -/
def call (evp : Evp) (t : TimedSession) (ev : SessionEv) (timerOk : Bool) : TimedSession :=
  applyAll timerOk { t with
    base := t.base.step evp ev
    released := t.released ++ releases t.base ev } (t.base.callEffects evp ev)

/-- `cloak_session_destroy`. -/
def destroy (t : TimedSession) : TimedSession :=
  applyAll true { t with base := t.base.destroy, swept := true } t.base.destroyEffects

/-- The reactor takes the timer `id` out and calls its callback. -/
def fire (evp : Evp) (t : TimedSession) (id : Nat) (env : ClosingEnv) (timerOk : Bool) :
    SessionTimer → TimedSession
  | .inactivity =>
    applyAll timerOk { t with
      timers := t.timers.cancel id
      base := Session.checkTimeout evp { t.base with inactivityTimer := false } env }
      (Session.checkTimeoutEffects evp { t.base with inactivityTimer := false } env)
  | .deferred =>
    applyAll timerOk { t with
      timers := t.timers.cancel id
      base := Session.callback { t.base with teardownTimer := .sweep } .broken } [.addSweep]
  | .sweep =>
    applyAll timerOk { t with
      timers := t.timers.cancel id
      base := Session.freeAllActiveStreams { t.base with teardownTimer := .idle }
      swept := true } (.dropTeardown :: t.base.freeAllEffects)

/-- One event. After `cloak_session_destroy` there is no session to call. -/
def step (evp : Evp) (t : TimedSession) : TimedEv → TimedSession
  | .call ev timerOk =>
    if t.base.destroyed = false ∧ Session.isCall ev then t.call evp ev timerOk else t
  | .destroy => if t.base.destroyed = false ∧ t.base.calls = [] then t.destroy else t
  | .fire id env timerOk =>
    if t.base.calls = [] then
      match t.timers.find id with
      | none => t
      | some k => t.fire evp id env timerOk k
    else t

/-! ## Requests and acts -/

theorem applyAll_nil (timerOk : Bool) (t : TimedSession) : t.applyAll timerOk [] = t := rfl

theorem applyAll_cons (timerOk : Bool) (t : TimedSession) (f : SessionEffect)
    (fx : List SessionEffect) :
    t.applyAll timerOk (f :: fx) = (t.apply timerOk f).applyAll timerOk fx := rfl

theorem applyAll_append (timerOk : Bool) (t : TimedSession) (fx fx' : List SessionEffect) :
    t.applyAll timerOk (fx ++ fx') = (t.applyAll timerOk fx).applyAll timerOk fx' :=
  List.foldl_append

/-- The requests do not look at the session behind them. -/
theorem applyAll_base (timerOk : Bool) (t : TimedSession) (s : Session) (fx : List SessionEffect) :
    applyAll timerOk { t with base := s } fx = { t.applyAll timerOk fx with base := s } := by
  induction fx generalizing t with
  | nil => rfl
  | cons f fx ih =>
    rw [applyAll_cons, applyAll_cons, ← ih]
    cases f <;> rfl

@[simp] theorem base_applyAll (timerOk : Bool) (t : TimedSession) (fx : List SessionEffect) :
    (t.applyAll timerOk fx).base = t.base := by
  have hbase := congrArg TimedSession.base (applyAll_base timerOk t t.base fx)
  exact hbase

/-- What every act keeps, with its share of the requests `fx₀`, a chain of acts keeps. -/
theorem timed_of_acts {timerOk : Bool} {s₀ : Session} {ev : SessionEv} {fx₀ : List SessionEffect}
    {P : TimedSession → Prop}
    (hact : ∀ (t : TimedSession) fx s', (∀ f ∈ fx, f ∈ fx₀) → Session.Act s₀ ev t.base fx s' → P t →
      P (applyAll timerOk { t with base := s' } fx))
    {s s' : Session} {fx : List SessionEffect} (h : Session.Acts s₀ ev s fx s') :
    ∀ t : TimedSession, t.base = s → (∀ f ∈ fx, f ∈ fx₀) → P t →
      P (applyAll timerOk { t with base := s' } fx) := by
  induction h with
  | none =>
    rintro t rfl _ ht
    exact ht
  | @more s s₁ s₂ fx fx' ha _ ih =>
    rintro t rfl hsub ht
    have hfirst := hact t fx s₁ (fun f hf => hsub f (List.mem_append_left _ hf)) ha ht
    have hrest := ih _ (base_applyAll ..) (fun f hf => hsub f (List.mem_append_right _ hf)) hfirst
    rw [applyAll_append, applyAll_base timerOk t s₂ fx]
    rw [applyAll_base timerOk t s₁ fx] at hrest
    exact hrest

/-! ## Timers and flags -/

/-- A pending timer is the one whose id the session keeps, and the session has asked for it. -/
structure Clocked (t : TimedSession) : Prop where
  inactivity : ∀ id, (id, .inactivity) ∈ t.timers.pending →
    id = t.inactivityTimerId ∧ t.base.inactivityTimer = true
  deferred : ∀ id, (id, .deferred) ∈ t.timers.pending →
    id = t.teardownTimerId ∧ t.base.teardownTimer = .deferred
  sweep : ∀ id, (id, .sweep) ∈ t.timers.pending →
    id = t.teardownTimerId ∧ t.base.teardownTimer = .sweep

theorem Clocked.congr {t t' : TimedSession} (hc : t.Clocked) (htimers : t'.timers = t.timers)
    (hid : t'.inactivityTimerId = t.inactivityTimerId)
    (hid' : t'.teardownTimerId = t.teardownTimerId)
    (hflag : t'.base.inactivityTimer = t.base.inactivityTimer)
    (hflag' : t'.base.teardownTimer = t.base.teardownTimer) : t'.Clocked := by
  refine ⟨fun id hmem => ?_, fun id hmem => ?_, fun id hmem => ?_⟩
  · rw [htimers] at hmem
    rw [hid, hflag]
    exact hc.inactivity id hmem
  · rw [htimers] at hmem
    rw [hid', hflag']
    exact hc.deferred id hmem
  · rw [htimers] at hmem
    rw [hid', hflag']
    exact hc.sweep id hmem

/-- No teardown timer is pending while none is asked for. -/
theorem Clocked.of_idle {t : TimedSession} (hc : t.Clocked) (hidle : t.base.teardownTimer = .idle)
    {id : Nat} {k : SessionTimer} (hmem : (id, k) ∈ t.timers.pending) : k = .inactivity := by
  cases k with
  | inactivity => rfl
  | deferred =>
    have hflag := (hc.deferred id hmem).2
    rw [hidle] at hflag
    cases hflag
  | sweep =>
    have hflag := (hc.sweep id hmem).2
    rw [hidle] at hflag
    cases hflag

/-- `session_reschedule_inactivity_timer`. -/
theorem Clocked.rearm {t : TimedSession} (hc : t.Clocked) (timerOk : Bool) {s : Session}
    (hflag : s.inactivityTimer = true) (hflag' : s.teardownTimer = t.base.teardownTimer) :
    (apply timerOk { t with base := s } .rearmInactivity).Clocked := by
  refine ⟨fun id hmem => ⟨?_, hflag⟩, fun id hmem => ?_, fun id hmem => ?_⟩
  · -- every inactivity timer from before had the id that is cancelled
    rcases Timers.mem_add hmem with hold | hnew
    · obtain ⟨hold, hne⟩ := Timers.mem_cancel.mp hold
      exact absurd (hc.inactivity id hold).1 hne
    · exact (Prod.mk.inj hnew).1
  · rcases Timers.mem_add hmem with hold | hnew
    · obtain ⟨hid, hd⟩ := hc.deferred id (Timers.mem_cancel.mp hold).1
      exact ⟨hid, hflag'.trans hd⟩
    · cases (Prod.mk.inj hnew).2
  · rcases Timers.mem_add hmem with hold | hnew
    · obtain ⟨hid, hs⟩ := hc.sweep id (Timers.mem_cancel.mp hold).1
      exact ⟨hid, hflag'.trans hs⟩
    · cases (Prod.mk.inj hnew).2

/-- The inactivity timer is cancelled. -/
theorem Clocked.cancelInactivity {t : TimedSession} (hc : t.Clocked) (timerOk : Bool) {s : Session}
    (hflag' : s.teardownTimer = t.base.teardownTimer) :
    (apply timerOk { t with base := s } .cancelInactivity).Clocked
      ∧ ∀ id, (id, SessionTimer.inactivity)
        ∉ (apply timerOk { t with base := s } .cancelInactivity).timers.pending := by
  have hnone : ∀ id, (id, SessionTimer.inactivity) ∉ (t.timers.cancel t.inactivityTimerId).pending := by
    intro id hmem
    obtain ⟨hold, hne⟩ := Timers.mem_cancel.mp hmem
    exact hne (hc.inactivity id hold).1
  refine ⟨⟨fun id hmem => absurd hmem (hnone id), fun id hmem => ?_, fun id hmem => ?_⟩, hnone⟩
  · obtain ⟨hid, hd⟩ := hc.deferred id (Timers.mem_cancel.mp hmem).1
    exact ⟨hid, hflag'.trans hd⟩
  · obtain ⟨hid, hs⟩ := hc.sweep id (Timers.mem_cancel.mp hmem).1
    exact ⟨hid, hflag'.trans hs⟩

/-- The first teardown timer is added. -/
theorem Clocked.addDeferred {t : TimedSession} (hc : t.Clocked) (timerOk : Bool)
    (hidle : t.base.teardownTimer = .idle) {s : Session} (hflag : s.teardownTimer = .deferred)
    (hflag' : s.inactivityTimer = t.base.inactivityTimer) :
    (apply timerOk { t with base := s } .addDeferred).Clocked := by
  refine ⟨fun id hmem => ?_, fun id hmem => ⟨?_, hflag⟩, fun id hmem => ?_⟩
  · rcases Timers.mem_add hmem with hold | hnew
    · obtain ⟨hid, hi⟩ := hc.inactivity id hold
      exact ⟨hid, hflag'.trans hi⟩
    · cases (Prod.mk.inj hnew).2
  · rcases Timers.mem_add hmem with hold | hnew
    · cases hc.of_idle hidle hold
    · exact (Prod.mk.inj hnew).1
  · rcases Timers.mem_add hmem with hold | hnew
    · cases hc.of_idle hidle hold
    · cases (Prod.mk.inj hnew).2

/-- Freeing stream objects is nothing to the timers. -/
theorem Clocked.free {t : TimedSession} (hc : t.Clocked) (timerOk : Bool) (h : StreamHandle) :
    (t.apply timerOk (.free h)).Clocked :=
  hc.congr rfl rfl rfl rfl rfl

/-- What retiring a stream does to the flags, and what it asks for. -/
theorem retireStream_timers (s : Session) (h : StreamHandle) :
    (s.retireStream h).teardownTimer = s.teardownTimer
      ∧ (s.retireEffects h = [] ∧ (s.retireStream h).inactivityTimer = s.inactivityTimer
        ∨ s.retireEffects h = [.rearmInactivity] ∧ (s.retireStream h).inactivityTimer = true
          ∧ s.closed = false) := by
  unfold Session.retireStream Session.retireEffects
  cases he : s.entry h with
  | none => exact ⟨rfl, Or.inl ⟨rfl, rfl⟩⟩
  | some e =>
    dsimp only
    cases hret : e.retired with
    | true => exact ⟨rfl, Or.inl ⟨rfl, rfl⟩⟩
    | false =>
      refine ⟨rfl, ?_⟩
      by_cases hlast : s.activeStreamCount - 1 = 0 ∧ s.closed = false
      · exact Or.inr ⟨if_pos hlast, if_pos hlast, hlast.2⟩
      · exact Or.inl ⟨if_neg hlast, if_neg hlast⟩

/-- A stream is retired. -/
theorem Clocked.retire {t : TimedSession} (hc : t.Clocked) (timerOk : Bool) {s : Session}
    (h : StreamHandle) (hflag : s.inactivityTimer = t.base.inactivityTimer)
    (hflag' : s.teardownTimer = t.base.teardownTimer) :
    (applyAll timerOk { t with base := s.retireStream h } (s.retireEffects h)).Clocked := by
  obtain ⟨hteardown, ⟨hfx, hsame⟩ | ⟨hfx, hset, _⟩⟩ := retireStream_timers s h
  · rw [hfx]
    exact hc.congr rfl rfl rfl (hsame.trans hflag) (hteardown.trans hflag')
  · rw [hfx]
    exact hc.rearm timerOk hset (hteardown.trans hflag')

/-- A stream is retired and freed. -/
theorem Clocked.release {t : TimedSession} (hc : t.Clocked) (timerOk : Bool) {s : Session}
    (h : StreamHandle) (hflag : s.inactivityTimer = t.base.inactivityTimer)
    (hflag' : s.teardownTimer = t.base.teardownTimer) :
    (applyAll timerOk { t with base := (s.retireStream h).freeEntry h }
      (s.retireEffects h ++ [.free h])).Clocked := by
  have hret := (hc.retire timerOk h hflag hflag').free timerOk h
  rw [applyAll_append]
  refine hret.congr ?_ ?_ ?_ ?_ ?_
  all_goals simp only [applyAll_cons, applyAll_nil, apply, applyAll_base, Session.freeEntry]

/-- Every act keeps timers and flags together. -/
theorem clocked_of_act {timerOk : Bool} {s₀ : Session} {ev : SessionEv} {t : TimedSession} {s' : Session}
    {fx : List SessionEffect} (h : Session.Act s₀ ev t.base fx s') (hp : t.base.Phase)
    (hc : t.Clocked) : (applyAll timerOk { t with base := s' } fx).Clocked := by
  cases h with
  | quiet hq => exact hc.congr rfl rfl rfl hq.inactivityTimer hq.teardownTimer
  | called => exact hc.congr rfl rfl rfl rfl rfl
  | returned => exact hc.congr rfl rfl rfl rfl rfl
  | touched => exact hc.congr rfl rfl rfl rfl rfl
  | fed => exact hc.congr rfl rfl rfl rfl rfl
  | retired h => exact hc.retire timerOk h rfl rfl
  | created => exact hc.congr rfl rfl rfl rfl rfl
  | regrown => exact hc.congr rfl rfl rfl rfl rfl
  | releasing => exact hc.congr rfl rfl rfl rfl rfl
  | @released h => exact hc.release timerOk h rfl rfl
  | @releaseReturned h cs => exact hc.release timerOk (s := { t.base with calls := cs }) h rfl rfl
  | freedAgain => exact hc.free timerOk _
  | closing =>
    exact (hc.cancelInactivity timerOk (s := t.base.closeInternal.push .close) rfl).1
  | closedAtOnce hopen =>
    have hidle := (hp.of_open hopen).1
    exact ((hc.cancelInactivity timerOk (s := t.base.closeInternal) rfl).1).addDeferred timerOk hidle
      rfl rfl
  | @closeReturned cs hcalls =>
    have hcount : t.base.closings = Session.closings { t.base with calls := cs } + 1 :=
      Session.closings_cons hcalls
    have hidle := (hp.of_closing (by omega)).2.1
    exact hc.addDeferred timerOk hidle rfl rfl
  | swept => exact hc.congr rfl rfl rfl rfl rfl

/-! ## One event -/

/-- What holds of a session from `cloak_session_init` to `cloak_session_destroy`, also while its
    inactivity timer is being served. -/
structure Sound (t : TimedSession) : Prop where
  live : t.base.destroyed = false
  booked : t.base.Booked
  phase : t.base.Phase
  clocked : t.Clocked

/-- What is left after `cloak_session_destroy`. -/
structure Gone (t : TimedSession) : Prop where
  destroyed : t.base.destroyed = true
  closed : t.base.closed = true
  booked : t.base.Booked
  unarmed : t.timers.pending = []
  swept : t.swept = true
  brokens : t.base.brokens ≤ 1

theorem act_destroyed {s₀ : Session} {ev : SessionEv} {s s' : Session} {fx : List SessionEffect}
    (h : Session.Act s₀ ev s fx s') : s'.destroyed = s.destroyed := by
  have hretire : ∀ (s : Session) (h : StreamHandle), (s.retireStream h).destroyed = s.destroyed := by
    intro s h
    unfold Session.retireStream
    split
    · rfl
    · split <;> rfl
  cases h with
  | quiet hq => exact hq.destroyed
  | retired h => exact hretire s h
  | @released h => exact hretire s h
  | @releaseReturned h cs => exact hretire { s with calls := cs } h
  | _ => rfl

theorem Sound.act {timerOk : Bool} {s₀ : Session} {ev : SessionEv} {t : TimedSession} {s' : Session}
    {fx : List SessionEffect} (h : Session.Act s₀ ev t.base fx s') (ht : t.Sound) :
    (applyAll timerOk { t with base := s' } fx).Sound := by
  have hbase : (applyAll timerOk { t with base := s' } fx).base = s' := base_applyAll ..
  refine ⟨?_, ?_, ?_, clocked_of_act h ht.phase ht.clocked⟩
  · rw [hbase, act_destroyed h]
    exact ht.live
  · rw [hbase]
    exact h.booked ht.booked
  · rw [hbase]
    exact h.phase ht.phase

theorem Sound.acts {timerOk : Bool} {s₀ : Session} {ev : SessionEv} {t : TimedSession} {s' : Session}
    {fx : List SessionEffect} (h : Session.Acts s₀ ev t.base fx s') (ht : t.Sound) :
    (applyAll timerOk { t with base := s' } fx).Sound :=
  timed_of_acts (fun _ _ _ _ ha ht => ht.act ha) h t rfl (fun _ hf => hf) ht

theorem Sound.call {evp : Evp} {t : TimedSession} (ht : t.Sound) {ev : SessionEv} (timerOk : Bool)
    (hcall : Session.isCall ev = true) : (t.call evp ev timerOk).Sound := by
  have ht' : Sound { t with released := t.released ++ releases t.base ev } :=
    ⟨ht.live, ht.booked, ht.phase, ht.clocked.congr rfl rfl rfl rfl rfl⟩
  exact ht'.acts (t := { t with released := t.released ++ releases t.base ev })
    (Session.call_acts ht.live hcall)

/-- The timer that fires is out of the table, and it was the only one of its kind. -/
theorem Clocked.fired {t : TimedSession} (hc : t.Clocked) {id : Nat} {k : SessionTimer}
    (hmem : (id, k) ∈ t.timers.pending) (id' : Nat) : (id', k) ∉ (t.timers.cancel id).pending := by
  intro hmem'
  obtain ⟨hold, hne⟩ := Timers.mem_cancel.mp hmem'
  cases k with
  | inactivity => exact hne ((hc.inactivity id' hold).1.trans (hc.inactivity id hmem).1.symm)
  | deferred => exact hne ((hc.deferred id' hold).1.trans (hc.deferred id hmem).1.symm)
  | sweep => exact hne ((hc.sweep id' hold).1.trans (hc.sweep id hmem).1.symm)

/-- The inactivity timer fires. -/
theorem Sound.unwatched {t : TimedSession} (ht : t.Sound) {id : Nat}
    (hmem : (id, .inactivity) ∈ t.timers.pending) :
    Sound { t with
      timers := t.timers.cancel id
      base := { t.base with inactivityTimer := false } } := by
  refine ⟨ht.live, ht.booked.congr rfl rfl rfl, ht.phase.congr rfl rfl rfl rfl, ?_⟩
  exact ⟨fun id' hmem' => absurd hmem' (ht.clocked.fired hmem id'),
    fun id' hmem' => ht.clocked.deferred id' (Timers.mem_cancel.mp hmem').1,
    fun id' hmem' => ht.clocked.sweep id' (Timers.mem_cancel.mp hmem').1⟩

/-- The teardown phase and the timer that fires for it. -/
theorem Sound.deferred_phase {t : TimedSession} (ht : t.Sound) {id : Nat}
    (hmem : (id, .deferred) ∈ t.timers.pending) :
    t.base.closed = true ∧ t.base.closings = 0 ∧ t.base.brokens = 0 := by
  have hflag := (ht.clocked.deferred id hmem).2
  cases ht.phase with
  | live _ h2 => rw [hflag] at h2; cases h2
  | closing _ h2 => rw [hflag] at h2; cases h2
  | deferred h1 _ h3 h4 => exact ⟨h1, h3, h4⟩
  | broken _ h2 => exact absurd hflag h2

theorem Sound.sweep_phase {t : TimedSession} (ht : t.Sound) {id : Nat}
    (hmem : (id, .sweep) ∈ t.timers.pending) :
    t.base.closed = true ∧ t.base.closings = 0 ∧ t.base.brokens = 1 := by
  have hflag := (ht.clocked.sweep id hmem).2
  cases ht.phase with
  | live _ h2 => rw [hflag] at h2; cases h2
  | closing _ h2 => rw [hflag] at h2; cases h2
  | deferred _ h2 => rw [hflag] at h2; cases h2
  | broken h1 _ h3 h4 => exact ⟨h1, h3, h4⟩

/-- While a teardown timer is pending, it is the only timer of the session. -/
theorem Sound.only_teardown {t : TimedSession} (ht : t.Sound) (hw : t.base.Watched)
    (hclosed : t.base.closed = true) {id id' : Nat} {k k' : SessionTimer}
    (hmem : (id, k) ∈ t.timers.pending) (hmem' : (id', k') ∈ t.timers.pending) : k' = k := by
  have hoff : ∀ id, (id, SessionTimer.inactivity) ∉ t.timers.pending := by
    intro id hin
    have hflag := (ht.clocked.inactivity id hin).2
    rw [hw.off hclosed] at hflag
    cases hflag
  have hflag : ∀ id k, (id, k) ∈ t.timers.pending →
      (k = .deferred ∧ t.base.teardownTimer = .deferred)
        ∨ (k = .sweep ∧ t.base.teardownTimer = .sweep) := by
    intro id k hin
    cases k with
    | inactivity => exact absurd hin (hoff id)
    | deferred => exact Or.inl ⟨rfl, (ht.clocked.deferred id hin).2⟩
    | sweep => exact Or.inr ⟨rfl, (ht.clocked.sweep id hin).2⟩
  rcases hflag id k hmem with ⟨rfl, h1⟩ | ⟨rfl, h1⟩
  · rcases hflag id' k' hmem' with ⟨rfl, _⟩ | ⟨rfl, h2⟩
    · rfl
    · rw [h1] at h2
      cases h2
  · rcases hflag id' k' hmem' with ⟨rfl, h2⟩ | ⟨rfl, _⟩
    · rw [h1] at h2
      cases h2
    · rfl

/-- With the teardown timer that fires, the session has no timer left. -/
theorem Sound.last_timer {t : TimedSession} (ht : t.Sound) (hw : t.base.Watched)
    (hclosed : t.base.closed = true) {id : Nat} {k : SessionTimer}
    (hmem : (id, k) ∈ t.timers.pending) : (t.timers.cancel id).pending = [] := by
  refine List.eq_nil_iff_forall_not_mem.mpr fun ⟨id', k'⟩ hmem' => ?_
  obtain rfl := ht.only_teardown hw hclosed hmem (Timers.mem_cancel.mp hmem').1
  exact ht.clocked.fired hmem id' hmem'

/-- Freeing streams is no business of the reactor. -/
theorem timers_freeAll (timerOk : Bool) (l : List (UInt32 × StreamHandle)) (t : TimedSession) :
    (t.applyAll timerOk (l.map fun kh => .free kh.2)).timers = t.timers := by
  induction l generalizing t with
  | nil => rfl
  | cons kh l ih => exact ih (t.apply timerOk (.free kh.2))

theorem clocked_of_unarmed {t : TimedSession} (hnil : t.timers.pending = []) : t.Clocked := by
  refine ⟨fun id hmem => ?_, fun id hmem => ?_, fun id hmem => ?_⟩
  all_goals
    rw [hnil] at hmem
    cases hmem

/-- A live session between events. -/
structure Good (t : TimedSession) : Prop where
  sound : t.Sound
  watched : t.base.Watched

theorem Good.call {evp : Evp} {t : TimedSession} (ht : t.Good) {ev : SessionEv} (timerOk : Bool)
    (hcall : Session.isCall ev = true) : (t.call evp ev timerOk).Good := by
  refine ⟨ht.sound.call timerOk hcall, ?_⟩
  rw [TimedSession.call, base_applyAll]
  exact (Session.call_acts ht.sound.live hcall).invariant (fun _ _ _ ha hw => ha.watched hw)
    ht.watched

/-- `session_check_timeout` leaves an idle session closed. -/
theorem watched_checkTimeout {evp : Evp} {s : Session} (env : ClosingEnv)
    (hoff : s.inactivityTimer = false) : (s.checkTimeout evp env).Watched := by
  unfold Session.checkTimeout
  split
  · next hidle =>
    unfold Session.close
    rw [if_neg (by rw [hidle.2]; exact Bool.false_ne_true)]
    split
    · exact Session.watched_of_closed rfl rfl
    · exact Session.watched_of_closed rfl rfl
  · next hbusy => exact ⟨fun hopen hzero => absurd ⟨hzero, hopen⟩ hbusy, fun _ => hoff⟩

theorem Good.fire_inactivity {evp : Evp} {t : TimedSession} (ht : t.Good) {id : Nat}
    (env : ClosingEnv) (timerOk : Bool) (hmem : (id, .inactivity) ∈ t.timers.pending) :
    (t.fire evp id env timerOk .inactivity).Good := by
  have hacts : Session.Acts t.base (.inactivityTimer env) { t.base with inactivityTimer := false }
      (Session.checkTimeoutEffects evp { t.base with inactivityTimer := false } env)
      (Session.checkTimeout evp { t.base with inactivityTimer := false } env) :=
    Session.checkTimeout_acts env
  refine ⟨(ht.sound.unwatched hmem).acts hacts, ?_⟩
  rw [TimedSession.fire, base_applyAll]
  exact watched_checkTimeout env rfl

/-- `session_deferred_teardown_cb`: the owner hears that the session is broken. -/
theorem Good.fire_deferred {evp : Evp} {t : TimedSession} (ht : t.Good) {id : Nat}
    (env : ClosingEnv) (timerOk : Bool) (hmem : (id, .deferred) ∈ t.timers.pending) :
    (t.fire evp id env timerOk .deferred).Good := by
  obtain ⟨hclosed, hclosings, hbrokens⟩ := ht.sound.deferred_phase hmem
  have hnil := ht.sound.last_timer ht.watched hclosed hmem
  have hone : Session.brokens (Session.callback { t.base with teardownTimer := .sweep } .broken)
      = 1 := by
    rw [Session.brokens, Session.callback, List.count_append, List.count_singleton]
    change t.base.brokens + 1 = 1
    rw [hbrokens]
  have honly : ∀ p ∈ (t.fire evp id env timerOk .deferred).timers.pending,
      p = ((t.fire evp id env timerOk .deferred).teardownTimerId, .sweep) := by
    intro p hp
    rcases Timers.mem_add hp with hold | hnew
    · rw [hnil] at hold
      cases hold
    · exact hnew
  refine ⟨⟨ht.sound.live, ht.sound.booked.congr rfl rfl rfl,
    .broken hclosed (by simp [TimedSession.fire, Session.callback]) hclosings hone, ?_⟩,
    Session.watched_of_closed hclosed (ht.watched.off hclosed)⟩
  refine ⟨fun id' hmem' => ?_, fun id' hmem' => ?_, fun id' hmem' => ?_⟩
  · cases (Prod.mk.inj (honly _ hmem')).2
  · cases (Prod.mk.inj (honly _ hmem')).2
  · exact ⟨(Prod.mk.inj (honly _ hmem')).1, rfl⟩

/-- The second teardown timer has fired and nothing is freed yet. -/
theorem Good.sweeping {t : TimedSession} (ht : t.Good) {id : Nat}
    (hmem : (id, .sweep) ∈ t.timers.pending) :
    Good { t with
      timers := t.timers.cancel id
      base := { t.base with teardownTimer := .idle }
      teardownTimerId := 0
      swept := true } := by
  obtain ⟨hclosed, hclosings, hbrokens⟩ := ht.sound.sweep_phase hmem
  have hnil := ht.sound.last_timer ht.watched hclosed hmem
  exact ⟨⟨ht.sound.live, ht.sound.booked.congr rfl rfl rfl,
    .broken hclosed (by simp) hclosings hbrokens, clocked_of_unarmed hnil⟩,
    ht.watched.congr rfl rfl rfl⟩

/-- `session_teardown_sweep_cb` frees the active streams. -/
theorem Good.sweep_acts {t : TimedSession} (ht : t.Good) {id : Nat}
    (hmem : (id, .sweep) ∈ t.timers.pending) :
    Session.Acts t.base .teardownTimer { t.base with teardownTimer := .idle } t.base.freeAllEffects
      (Session.freeAllActiveStreams { t.base with teardownTimer := .idle }) :=
  Session.freeAllActiveStreams_acts (Or.inl rfl) (ht.sound.sweep_phase hmem).1

theorem Good.fire_sweep {evp : Evp} {t : TimedSession} (ht : t.Good) {id : Nat}
    (env : ClosingEnv) (timerOk : Bool) (hmem : (id, .sweep) ∈ t.timers.pending) :
    (t.fire evp id env timerOk .sweep).Good := by
  have hgood := ht.sweeping hmem
  refine ⟨hgood.sound.acts (ht.sweep_acts hmem), ?_⟩
  rw [TimedSession.fire, base_applyAll]
  exact (ht.sweep_acts hmem).invariant (fun _ _ _ ha hw => ha.watched hw) hgood.watched

theorem Good.fire {evp : Evp} {t : TimedSession} (ht : t.Good) {id : Nat} {k : SessionTimer}
    (env : ClosingEnv) (timerOk : Bool) (hmem : (id, k) ∈ t.timers.pending) :
    (t.fire evp id env timerOk k).Good := by
  cases k with
  | inactivity => exact ht.fire_inactivity env timerOk hmem
  | deferred => exact ht.fire_deferred env timerOk hmem
  | sweep => exact ht.fire_sweep env timerOk hmem

/-- `cloak_session_destroy` cancels every timer of the session. -/
theorem Good.unarmed_destroy {t : TimedSession} (ht : t.Good) : t.destroy.timers.pending = [] := by
  have hsplit : t.destroy.timers
      = (applyAll true { t with base := t.base.destroy, swept := true }
          ((if t.base.closed then [] else [.cancelInactivity]) ++ [.cancelTeardown])).timers := by
    rw [TimedSession.destroy, Session.destroyEffects, List.append_cons _ SessionEffect.cancelTeardown,
      applyAll_append]
    exact timers_freeAll true t.base.streams.actives _
  rw [hsplit]
  refine List.eq_nil_iff_forall_not_mem.mpr fun ⟨id, k⟩ hmem => ?_
  cases hclosed : t.base.closed with
  | true =>
    rw [hclosed] at hmem
    obtain ⟨hold, hne⟩ := Timers.mem_cancel.mp hmem
    cases k with
    | inactivity =>
      have hflag := (ht.sound.clocked.inactivity id hold).2
      rw [ht.watched.off hclosed] at hflag
      cases hflag
    | deferred => exact hne (ht.sound.clocked.deferred id hold).1
    | sweep => exact hne (ht.sound.clocked.sweep id hold).1
  | false =>
    rw [hclosed] at hmem
    obtain ⟨hmem, _⟩ := Timers.mem_cancel.mp hmem
    obtain ⟨hold, hne⟩ := Timers.mem_cancel.mp hmem
    obtain rfl := ht.sound.clocked.of_idle (ht.sound.phase.of_open hclosed).1 hold
    exact hne (ht.sound.clocked.inactivity id hold).1

theorem swept_applyAll (timerOk : Bool) (t : TimedSession) (fx : List SessionEffect) :
    (t.applyAll timerOk fx).swept = t.swept := by
  induction fx generalizing t with
  | nil => rfl
  | cons f fx ih =>
    rw [applyAll_cons, ih]
    cases f <;> rfl

theorem Good.destroy {t : TimedSession} (ht : t.Good) : t.destroy.Gone := by
  have hacts : Session.Acts t.base .destroy { t.base.closeInternal with teardownTimer := .idle }
      (Session.freeAllEffects { t.base.closeInternal with teardownTimer := .idle })
      (Session.freeAllActiveStreams { t.base.closeInternal with teardownTimer := .idle }) :=
    Session.freeAllActiveStreams_acts (Or.inr rfl) rfl
  have hbooked : Session.Booked { t.base.closeInternal with teardownTimer := .idle } :=
    ht.sound.booked.congr rfl rfl rfl
  have hwatched : Session.Watched { t.base.closeInternal with teardownTimer := .idle } :=
    Session.watched_of_closed rfl rfl
  have hbase : t.destroy.base = t.base.destroy := by rw [TimedSession.destroy, base_applyAll]
  have hclosed := hacts.invariant (P := fun s => s.closed = true)
    (fun _ _ _ ha hs => ha.closed hs) rfl
  refine ⟨by rw [hbase]; rfl, ?_, ?_, ht.unarmed_destroy, ?_, ?_⟩
  · rw [hbase]
    exact hclosed
  · rw [hbase]
    exact (hacts.invariant (fun _ _ _ ha hb => ha.booked hb) hbooked).congr rfl rfl rfl
  · rw [TimedSession.destroy, swept_applyAll]
  · rw [hbase, Session.brokens_destroy]
    exact ht.sound.phase.brokens_le_one

/-- Nothing happens any more to a session that is gone. -/
theorem Gone.step {evp : Evp} {t : TimedSession} (ht : t.Gone) (ev : TimedEv) :
    t.step evp ev = t := by
  cases ev with
  | call ev timerOk => exact if_neg fun hc => by rw [ht.destroyed] at hc; cases hc.1
  | destroy => exact if_neg fun hc => by rw [ht.destroyed] at hc; cases hc.1
  | fire id env timerOk =>
    have hfind : t.timers.find id = none := by rw [Timers.find, ht.unarmed]; rfl
    simp only [TimedSession.step, hfind, ite_self]

/-- Every event keeps a live session sound, or ends it. -/
theorem Good.step {evp : Evp} {t : TimedSession} (ht : t.Good) (ev : TimedEv) :
    (t.step evp ev).Good ∨ (t.step evp ev).Gone := by
  cases ev with
  | call ev timerOk =>
    dsimp only [TimedSession.step]
    split
    · next hcall => exact Or.inl (ht.call timerOk hcall.2)
    · exact Or.inl ht
  | destroy =>
    dsimp only [TimedSession.step]
    split
    · exact Or.inr ht.destroy
    · exact Or.inl ht
  | fire id env timerOk =>
    dsimp only [TimedSession.step]
    split
    · split
      · exact Or.inl ht
      · next k hfind => exact Or.inl (ht.fire env timerOk (Timers.mem_of_find hfind))
    · exact Or.inl ht

/-- A property of sessions that every act keeps, and that speaks of the streams only, is kept by every
    event. -/
theorem Good.step_base {evp : Evp} {t : TimedSession} (ht : t.Good) {P : Session → Prop}
    (hact : ∀ s₀ ev s fx s', Session.Act s₀ ev s fx s' → P s → P s')
    (hflags : ∀ s s' : Session, s'.activeStreamCount = s.activeStreamCount →
      s'.streams = s.streams → s'.heap = s.heap → P s → P s')
    (h : P t.base) (ev : TimedEv) : P (t.step evp ev).base := by
  cases ev with
  | call ev timerOk =>
    dsimp only [TimedSession.step]
    split
    · next hcall =>
      rw [TimedSession.call, base_applyAll]
      exact (Session.call_acts hcall.1 hcall.2).invariant (hact _ _) h
    · exact h
  | destroy =>
    dsimp only [TimedSession.step]
    split
    · have hacts : Session.Acts t.base .destroy { t.base.closeInternal with teardownTimer := .idle }
          (Session.freeAllEffects { t.base.closeInternal with teardownTimer := .idle })
          (Session.freeAllActiveStreams { t.base.closeInternal with teardownTimer := .idle }) :=
        Session.freeAllActiveStreams_acts (Or.inr rfl) rfl
      have hswept := hacts.invariant (hact _ _) (hflags t.base _ rfl rfl rfl h)
      rw [TimedSession.destroy, base_applyAll]
      exact hflags (Session.freeAllActiveStreams { t.base.closeInternal with teardownTimer := .idle })
        _ rfl rfl rfl hswept
    · exact h
  | fire id env timerOk =>
    dsimp only [TimedSession.step]
    split
    · split
      · exact h
      · next k hfind =>
        cases k with
        | inactivity =>
          have hacts : Session.Acts t.base (.inactivityTimer env)
              { t.base with inactivityTimer := false }
              (Session.checkTimeoutEffects evp { t.base with inactivityTimer := false } env)
              (Session.checkTimeout evp { t.base with inactivityTimer := false } env) :=
            Session.checkTimeout_acts env
          rw [TimedSession.fire, base_applyAll]
          exact hacts.invariant (hact _ _) (hflags t.base _ rfl rfl rfl h)
        | deferred =>
          rw [TimedSession.fire, base_applyAll]
          exact hflags t.base _ rfl rfl rfl h
        | sweep =>
          rw [TimedSession.fire, base_applyAll]
          exact (ht.sweep_acts (Timers.mem_of_find hfind)).invariant (hact _ _)
            (hflags t.base _ rfl rfl rfl h)
    · exact h

/-! ## Sessions that get their inactivity timer -/

/-- The requests of an event. -/
def requests (evp : Evp) (t : TimedSession) : TimedEv → List SessionEffect
  | .call ev _ =>
    if t.base.destroyed = false ∧ Session.isCall ev then t.base.callEffects evp ev else []
  | .destroy =>
    if t.base.destroyed = false ∧ t.base.calls = [] then t.base.destroyEffects else []
  | .fire id env _ =>
    if t.base.calls = [] then
      match t.timers.find id with
      | none => []
      | some .inactivity =>
        Session.checkTimeoutEffects evp { t.base with inactivityTimer := false } env
      | some .deferred => [.addSweep]
      | some .sweep => .dropTeardown :: t.base.freeAllEffects
    else []

/-- If the event adds a timer by the request `f`, the reactor has room for it. -/
def Grants (f : SessionEffect) (evp : Evp) (t : TimedSession) (ev : TimedEv) : Prop :=
  f ∈ t.requests evp ev → ev.timerOk = true

/-- The inactivity timer is pending if the session has asked for it. -/
def Armed (t : TimedSession) : Prop :=
  t.base.inactivityTimer = true → (t.inactivityTimerId, .inactivity) ∈ t.timers.pending

theorem Armed.retire {t : TimedSession} (ha : t.Armed) {timerOk : Bool} {s : Session}
    (h : StreamHandle) (hflag : s.inactivityTimer = t.base.inactivityTimer)
    (hok : .rearmInactivity ∈ s.retireEffects h → timerOk = true) :
    (applyAll timerOk { t with base := s.retireStream h } (s.retireEffects h)).Armed := by
  obtain ⟨_, ⟨hfx, hsame⟩ | ⟨hfx, _⟩⟩ := retireStream_timers s h
  · rw [hfx]
    exact fun hset => ha (hflag ▸ hsame ▸ hset)
  · rw [hfx] at hok ⊢
    obtain rfl := hok List.mem_cons_self
    exact fun _ => Timers.mem_add_true _ _

theorem Armed.release {t : TimedSession} (ha : t.Armed) {timerOk : Bool} {s : Session}
    (h : StreamHandle) (hflag : s.inactivityTimer = t.base.inactivityTimer)
    (hok : .rearmInactivity ∈ s.retireEffects h ++ [.free h] → timerOk = true) :
    (applyAll timerOk { t with base := (s.retireStream h).freeEntry h }
      (s.retireEffects h ++ [.free h])).Armed := by
  have hret := ha.retire h hflag fun hmem => hok (List.mem_append_left _ hmem)
  rw [applyAll_append, applyAll_base timerOk t]
  rw [applyAll_base] at hret
  exact hret

theorem armed_of_act {timerOk : Bool} {s₀ : Session} {ev : SessionEv} {t : TimedSession} {s' : Session}
    {fx : List SessionEffect} (h : Session.Act s₀ ev t.base fx s') (ha : t.Armed)
    (hok : .rearmInactivity ∈ fx → timerOk = true) :
    (applyAll timerOk { t with base := s' } fx).Armed := by
  cases h with
  | quiet hq => exact fun hset => ha (hq.inactivityTimer ▸ hset)
  | called => exact ha
  | returned => exact ha
  | touched => exact ha
  | fed => exact ha
  | retired h => exact ha.retire h rfl hok
  | created => exact ha
  | regrown => exact ha
  | releasing => exact ha
  | @released h => exact ha.release h rfl hok
  | @releaseReturned h cs => exact ha.release (s := { t.base with calls := cs }) h rfl hok
  | freedAgain => exact ha
  | closing => exact fun hset => by cases hset
  | closedAtOnce => exact fun hset => by cases hset
  | closeReturned => exact fun hset => Timers.mem_add_of_mem (ha hset) _ _
  | swept => exact ha

theorem Armed.acts {timerOk : Bool} {s₀ : Session} {ev : SessionEv} {t : TimedSession} {s' : Session}
    {fx : List SessionEffect} (h : Session.Acts s₀ ev t.base fx s') (ha : t.Armed)
    (hok : .rearmInactivity ∈ fx → timerOk = true) :
    (applyAll timerOk { t with base := s' } fx).Armed :=
  timed_of_acts (fun _ _ _ hsub hact ha => armed_of_act hact ha fun hmem => hok (hsub _ hmem)) h t rfl
    (fun _ hf => hf) ha

theorem rearm_notMem_checkTimeoutEffects (evp : Evp) (s : Session) (env : ClosingEnv) :
    .rearmInactivity ∉ s.checkTimeoutEffects evp env := by
  unfold Session.checkTimeoutEffects Session.closeEffects
  split
  · split
    · simp
    · split <;> simp
  · simp

theorem Armed.step {evp : Evp} {t : TimedSession} (ht : t.Good) (ha : t.Armed) {ev : TimedEv}
    (hok : Grants .rearmInactivity evp t ev) (hgood : (t.step evp ev).Good) :
    (t.step evp ev).Armed := by
  cases ev with
  | call ev timerOk =>
    dsimp only [TimedSession.step]
    split
    · next hcall =>
      have hok' : .rearmInactivity ∈ t.base.callEffects evp ev → timerOk = true := by
        intro hmem
        refine hok ?_
        rw [requests, if_pos hcall]
        exact hmem
      have hacts := @Session.call_acts evp ev t.base hcall.1 hcall.2
      exact Armed.acts (t := { t with released := t.released ++ releases t.base ev }) hacts ha hok'
    · exact ha
  | destroy =>
    dsimp only [TimedSession.step] at hgood ⊢
    split
    · next hcall =>
      -- the session is gone, so it is not live
      rw [if_pos hcall] at hgood
      have hgone := ht.destroy.destroyed
      rw [hgood.sound.live] at hgone
      cases hgone
    · exact ha
  | fire id env timerOk =>
    dsimp only [TimedSession.step]
    split
    · split
      · exact ha
      · next k hfind =>
        have hmem := Timers.mem_of_find hfind
        cases k with
        | inactivity =>
          have hacts : Session.Acts t.base (.inactivityTimer env) { t.base with inactivityTimer := false }
              (Session.checkTimeoutEffects evp { t.base with inactivityTimer := false } env)
              (Session.checkTimeout evp { t.base with inactivityTimer := false } env) :=
            Session.checkTimeout_acts env
          have hoff : Armed { t with
              timers := t.timers.cancel id
              base := { t.base with inactivityTimer := false } } := fun hset => by cases hset
          exact hoff.acts hacts fun hin =>
            absurd hin (rearm_notMem_checkTimeoutEffects evp _ env)
        | deferred =>
          intro hset
          change t.base.inactivityTimer = true at hset
          rw [ht.watched.off (ht.sound.deferred_phase hmem).1] at hset
          cases hset
        | sweep =>
          have hoff : Armed { t with
              timers := t.timers.cancel id
              base := { t.base with teardownTimer := .idle }
              teardownTimerId := 0
              swept := true } := by
            intro hset
            change t.base.inactivityTimer = true at hset
            rw [ht.watched.off (ht.sound.sweep_phase hmem).1] at hset
            cases hset
          exact hoff.acts (ht.sweep_acts hmem) (by simp [Session.freeAllEffects])
    · exact ha

/-! ## Runs -/

theorem init_good {config : SessionConfig} {timerOk : Bool} {t : TimedSession}
    (h : init config timerOk = .ok t) : t.Good := by
  unfold init Session.init at h
  split at h
  · cases h
  · split at h
    · cases h
    · cases h
      have hbooked : ∀ s : Session, s.activeStreamCount = 0 → s.streams = .init Session.strmtabHint →
          s.heap = [] → s.Booked := by
        intro s hcount hstreams hheap
        have hnone : s.streams.actives = [] := by rw [hstreams, Strmtab.actives_init]
        refine ⟨by rw [hcount, hnone]; rfl, fun k h hmem => ?_, fun h e he => ?_⟩
        · rw [hnone] at hmem
          cases hmem
        · rw [Session.entry, hheap] at he
          cases he
      refine ⟨⟨rfl, hbooked _ rfl rfl rfl, .live rfl rfl rfl rfl, ?_⟩, fun _ _ => rfl, fun hc => by cases hc⟩
      exact Clocked.rearm (t := ⟨_, .empty, 0, 0, [], [], false⟩) (clocked_of_unarmed rfl) timerOk rfl
        rfl

theorem init_armed {config : SessionConfig} {t : TimedSession} (h : init config true = .ok t) :
    t.Armed := by
  unfold init Session.init at h
  split at h
  · cases h
  · split at h
    · cases h
    · cases h
      exact fun _ => Timers.mem_add_true _ _

/-- Every run keeps a session sound to its end. -/
theorem run_good {evp : Evp} {t : TimedSession} (ht : t.Good) (es : List TimedEv) :
    (run (step evp) t es).Good ∨ (run (step evp) t es).Gone := by
  refine run_invariant (P := fun (t : TimedSession) => t.Good ∨ t.Gone) (Or.inl ht) (fun t ev h => ?_) es
  rcases h with hgood | hgone
  · exact hgood.step ev
  · rw [hgone.step ev]
    exact Or.inr hgone

theorem run_armed {evp : Evp} {t : TimedSession} (ht : t.Good) (ha : t.Armed) {es : List TimedEv}
    (hes : Obeys (step evp) (Grants .rearmInactivity evp) t es) :
    (run (step evp) t es).Good ∧ (run (step evp) t es).Armed ∨ (run (step evp) t es).Gone := by
  refine run_guarded (P := fun (t : TimedSession) => t.Good ∧ t.Armed ∨ t.Gone)
    (fun t ev h hok => ?_) (Or.inl ⟨ht, ha⟩) hes
  rcases h with ⟨hgood, harmed⟩ | hgone
  · rcases hgood.step ev with hgood' | hgone'
    · exact Or.inl ⟨hgood', harmed.step hgood hok hgood'⟩
    · exact Or.inr hgone'
  · rw [hgone.step ev]
    exact Or.inr hgone

/-- A property of sessions that every act keeps, and that speaks of the streams only, holds along
    every run. -/
theorem run_base {evp : Evp} {t : TimedSession} (ht : t.Good ∨ t.Gone) {P : Session → Prop}
    (hact : ∀ s₀ ev s fx s', Session.Act s₀ ev s fx s' → P s → P s')
    (hflags : ∀ s s' : Session, s'.activeStreamCount = s.activeStreamCount →
      s'.streams = s.streams → s'.heap = s.heap → P s → P s')
    (h : P t.base) (es : List TimedEv) : P (run (step evp) t es).base := by
  refine (run_invariant (P := fun (u : TimedSession) => (u.Good ∨ u.Gone) ∧ P u.base) ⟨ht, h⟩
    (fun u ev hu => ?_) es).2
  obtain ⟨hgood | hgone, hp⟩ := hu
  · exact ⟨hgood.step ev, hgood.step_base hact hflags hp ev⟩
  · rw [hgone.step ev]
    exact ⟨Or.inr hgone, hp⟩

/-- The books of a session balance in every state it reaches: the counter is the number of active
    entries, an active entry leads to the stream of its key, which is not retired, and an open session
    without active streams has one inactivity timer pending, as long as the reactor has had room for
    every inactivity timer. -/
theorem session_books (evp : Evp) (config : SessionConfig) (t₀ : TimedSession)
    (h0 : init config true = .ok t₀) (es : List TimedEv)
    (hes : Obeys (step evp) (Grants .rearmInactivity evp) t₀ es) :
    (run (step evp) t₀ es).base.activeStreamCount
        = (run (step evp) t₀ es).base.streams.actives.length
      ∧ (∀ k h, (k, h) ∈ (run (step evp) t₀ es).base.streams.actives →
        ∃ e, (run (step evp) t₀ es).base.entry h = some e ∧ e.stream.id = k ∧ e.retired = false)
      ∧ ((run (step evp) t₀ es).base.closed = false →
        (run (step evp) t₀ es).base.activeStreamCount = 0 →
        ∃ id, (run (step evp) t₀ es).timers.armed .inactivity = [id]) := by
  rcases run_armed (init_good h0) (init_armed h0) hes with ⟨hgood, harmed⟩ | hgone
  · refine ⟨hgood.sound.booked.count, hgood.sound.booked.listed, fun hopen hzero => ?_⟩
    exact ⟨_, Timers.armed_eq_singleton (harmed (hgood.watched.idle hopen hzero))
      fun id' hmem => (hgood.sound.clocked.inactivity id' hmem).1⟩
  · refine ⟨hgone.booked.count, hgone.booked.listed, fun hopen => ?_⟩
    rw [hgone.closed] at hopen
    cases hopen

/-- A session for concrete runs. -/
def small : TimedSession := (init Session.smallConfig true).toOption.get rfl

theorem init_small : init Session.smallConfig true = .ok small := rfl

/-- The peer opens and closes stream 5, and the reactor has room for the timer. -/
def openAndCloseRun : List TimedEv :=
  [.call (.envelope (Session.envelopeOf Session.smallConfig.obfuscator (Session.openAndClose 5))
    ⟨true, true, true⟩ ⟨true, true⟩) true]

theorem session_books_one : ∃ t₀, init Session.smallConfig true = .ok t₀
    ∧ Obeys (step Evp.plain) (Grants .rearmInactivity Evp.plain) t₀ openAndCloseRun
    ∧ (run (step Evp.plain) t₀ openAndCloseRun).base.closed = false
    ∧ ∃ id, (run (step Evp.plain) t₀ openAndCloseRun).timers.armed .inactivity = [id] := by
  have hdeob := Session.deobfuscate_envelopeOf Session.smallConfig.obfuscator (Session.openAndClose 5)
    (by decide) (by decide) (by decide)
  have hgrants : ∀ t, Obeys (step Evp.plain) (Grants .rearmInactivity Evp.plain) t openAndCloseRun :=
    fun t => ⟨fun _ => rfl, trivial⟩
  unfold openAndCloseRun at hgrants ⊢
  generalize Session.envelopeOf Session.smallConfig.obfuscator (Session.openAndClose 5) = bytes
    at hdeob hgrants ⊢
  have hframe : Frame.deobfuscate Evp.plain small.base.config.obfuscator bytes
      = some (Session.openAndClose 5) := hdeob
  refine ⟨small, init_small, hgrants _, ?_,
    (session_books Evp.plain Session.smallConfig small init_small _ (hgrants _)).2.2 ?_ ?_⟩
  all_goals
    simp only [run, List.foldl_cons, List.foldl_nil, step, call, releases, Session.isCall,
      Session.step, Session.callEffects, Session.onEnvelope, Session.envelopeEffects, hframe]
    decide +kernel

/-- The inactivity timer fires while a stream is open, and its slot goes to another user of the
    reactor. -/
def outlivedRun : List TimedEv :=
  [.call (.openStream ⟨true, true, true⟩) true,
    .fire 1 ⟨0, fun _ => 0, ⟨⟨0, fun _ => 0⟩, true⟩⟩ true]

/-- The stream is closed, and once its closing frame is sent there is no room for the timer. -/
def unwatchedRun : List TimedEv :=
  outlivedRun ++ [.call (.closeStream 0 ⟨0, fun _ => 0, ⟨⟨0, fun _ => 0⟩, true⟩⟩) true,
    .call (.sinkReturn true ⟨0, fun _ => 0⟩) false]

/-- With no room for the timer that the retirement of the last stream asks for, the session stays
    open without streams and without a timer that would ever close it. -/
theorem session_books_unwatched : ∃ t₀, init Session.smallConfig true = .ok t₀
    ∧ (run (step Evp.plain) t₀ outlivedRun).base.activeStreamCount = 1
    ∧ (run (step Evp.plain) t₀ outlivedRun).timers.pending = []
    ∧ (run (step Evp.plain) t₀ unwatchedRun).base.closed = false
    ∧ (run (step Evp.plain) t₀ unwatchedRun).base.activeStreamCount = 0
    ∧ (run (step Evp.plain) t₀ unwatchedRun).timers.armed .inactivity = [] := by
  refine ⟨small, init_small, ?_, ?_, ?_, ?_, ?_⟩
  all_goals decide +kernel

end TimedSession

end Cloak
