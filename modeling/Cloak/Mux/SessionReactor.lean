import Cloak.Common.ReactorUsers
import Cloak.Mux.SessionTeardown

set_option autoImplicit false

/-! # A session in its reactor

`TimedSession` leaves it open whether a timer can be added. Here the session has the reactor of
`Common/ReactorTimers`, with the handles it gets from it, and shares it with others. `Shows` relates the two
sessions: they are one session, the timer with the id `i` has the handle `ids i`, and the same timers
are pending. What happens in the reactor is a run of `TimedSession` (`Shows.run`), so what holds of its runs
holds of the session's.

The converse is not true. The reactor cannot refuse a timer to a session whose own timer was pending just
before (`Shows.rearm_succeeds` and below), while a run of `TimedSession` may say that it does. -/

namespace Cloak

open Lib

/-- A session, its reactor, and the handles of its timers. The callbacks of the others are `ω`. -/
structure ReactorSession (ω : Type) where
  base : Session
  run : TimerRun (SessionTimer ⊕ ω)
  inactivityTimeoutMs : Nat
  inactivityTimerId : Nat
  teardownTimerId : Nat
  released : List StreamHandle
  freed : List StreamHandle
  swept : Bool

/-- What can happen: a call into the session, its destruction, a turn of `process_expired_timers`, or
something the others do. `mem` is whether there is memory for the heap and for the slots. -/
inductive ReactorSessionEv (ω : Type) where
  | call (ev : SessionEv) (mem : Bool × Bool)
  | destroy
  | turn (env : ClosingEnv) (mem : Bool × Bool)
  | others (e : TimerEvent (SessionTimer ⊕ ω))

variable {ω : Type}

/-- `cloak_reactor_add_timer` for a callback of the session. -/
def TimerRun.addOwn (w : TimerRun (SessionTimer ⊕ ω)) (delayMs : Nat) (k : SessionTimer)
    (mem : Bool × Bool) : TimerRun (SessionTimer ⊕ ω) × Nat :=
  (w.add delayMs (some (.inl k)) mem.1 mem.2,
    (w.reactor.addTimer w.nowMs delayMs (some (.inl k)) mem.1 mem.2).2)

namespace ReactorSession

/-- One request to the reactor or the allocator. -/
def apply (mem : Bool × Bool) (c : ReactorSession ω) : SessionEffect → ReactorSession ω
  | .rearmInactivity =>
    let added := (c.run.cancel c.inactivityTimerId).addOwn c.inactivityTimeoutMs .inactivity mem
    { c with run := added.1, inactivityTimerId := added.2 }
  | .cancelInactivity => { c with run := c.run.cancel c.inactivityTimerId }
  | .addDeferred =>
    let added := c.run.addOwn 0 .deferred mem
    { c with run := added.1, teardownTimerId := added.2 }
  | .addSweep =>
    let added := c.run.addOwn 0 .sweep mem
    { c with run := added.1, teardownTimerId := added.2 }
  | .dropTeardown => { c with teardownTimerId := CLOAK_TIMER_INVALID }
  | .cancelTeardown => { c with run := c.run.cancel c.teardownTimerId }
  | .free h => { c with freed := c.freed ++ [h] }

/-- The requests of an event, in order. -/
def applyAll (mem : Bool × Bool) (c : ReactorSession ω) (fx : List SessionEffect) : ReactorSession ω :=
  fx.foldl (apply mem) c

/-- `cloak_session_init`. -/
def init (config : SessionConfig) (inactivityTimeoutMs : Nat) (w : TimerRun (SessionTimer ⊕ ω))
    (mem : Bool × Bool) : Except Stream.InitError (ReactorSession ω) :=
  (Session.init config).map fun s =>
    apply mem ⟨s, w, inactivityTimeoutMs, CLOAK_TIMER_INVALID, CLOAK_TIMER_INVALID, [], [], false⟩
      .rearmInactivity

/-- A call into the session. -/
def call (evp : Evp) (c : ReactorSession ω) (ev : SessionEv) (mem : Bool × Bool) : ReactorSession ω :=
  applyAll mem { c with
    base := c.base.step evp ev
    released := c.released ++ TimedSession.releases c.base ev } (c.base.callEffects evp ev)

/-- `cloak_session_destroy`. -/
def destroy (c : ReactorSession ω) : ReactorSession ω :=
  applyAll (true, true) { c with base := c.base.destroy, swept := true } c.base.destroyEffects

/-- The callback of a timer that has left the reactor. -/
def fire (evp : Evp) (c : ReactorSession ω) (env : ClosingEnv) (mem : Bool × Bool) :
    SessionTimer → ReactorSession ω
  | .inactivity =>
    applyAll mem { c with base := Session.checkTimeout evp { c.base with inactivityTimer := false } env }
      (Session.checkTimeoutEffects evp { c.base with inactivityTimer := false } env)
  | .deferred =>
    applyAll mem { c with base := Session.callback { c.base with teardownTimer := .sweep } .broken }
      [.addSweep]
  | .sweep =>
    applyAll mem { c with
      base := Session.freeAllActiveStreams { c.base with teardownTimer := .idle }
      swept := true } (.dropTeardown :: c.base.freeAllEffects)

/-- A turn of `process_expired_timers`, with the callback if it is the session's. -/
def turn (evp : Evp) (c : ReactorSession ω) (env : ClosingEnv) (mem : Bool × Bool) : ReactorSession ω :=
  match c.run.firing with
  | none => { c with run := c.run.turn }
  | some top =>
    match top.cb with
    | .inl k => fire evp { c with run := c.run.turn } env mem k
    | .inr _ => { c with run := c.run.turn }

/-- One event. The reactor does not run inside a call. -/
def step (evp : Evp) (c : ReactorSession ω) : ReactorSessionEv ω → ReactorSession ω
  | .call ev mem => if c.base.destroyed = false ∧ Session.isCall ev then c.call evp ev mem else c
  | .destroy => if c.base.destroyed = false ∧ c.base.calls = [] then c.destroy else c
  | .turn env mem => if c.base.calls = [] then c.turn evp env mem else c
  | .others e => if c.run.isOthers e then { c with run := c.run.step e } else c

/-! ## An event adds one timer -/

end ReactorSession

/-- The requests that add a timer. -/
def SessionEffect.adds : SessionEffect → Bool
  | .rearmInactivity => true
  | .addDeferred => true
  | .addSweep => true
  | _ => false

/-- One of the requests adds a timer at most. -/
def OneAdd (fx : List SessionEffect) : Prop := fx.countP SessionEffect.adds ≤ 1

namespace Session

variable (evp : Evp) (s : Session)

theorem oneAdd_retire (h : StreamHandle) : OneAdd (s.retireEffects h) := by
  unfold retireEffects
  split
  · exact Nat.zero_le _
  · split_ifs
    · exact Nat.zero_le _
    · exact Nat.le_refl 1
    · exact Nat.zero_le _

theorem oneAdd_passiveClose : OneAdd s.passiveCloseEffects := by
  unfold passiveCloseEffects
  split
  · exact Nat.zero_le _
  · exact Nat.le_refl 1

theorem oneAdd_close (env : ClosingEnv) : OneAdd (s.closeEffects evp env) := by
  unfold closeEffects
  split
  · exact Nat.zero_le _
  · split
    · exact Nat.le_refl 1
    · exact Nat.zero_le _

theorem oneAdd_closeStream (h : StreamHandle) (env : ClosingEnv) :
    OneAdd (s.closeStreamEffects evp h env) := by
  unfold closeStreamEffects
  split
  · exact Nat.zero_le _
  · split
    · exact Nat.zero_le _
    · split
      · exact oneAdd_retire _ h
      · exact Nat.zero_le _

/-- The stream is freed behind its retirement. -/
theorem oneAdd_retire_free (h : StreamHandle) : OneAdd (s.retireEffects h ++ [.free h]) := by
  rw [OneAdd, List.countP_append]
  exact s.oneAdd_retire h

theorem oneAdd_release (h : StreamHandle) (env : ClosingEnv) : OneAdd (s.releaseEffects evp h env) := by
  unfold releaseEffects
  split
  · split
    · exact Nat.zero_le _
    · exact Nat.zero_le _
  · split
    · exact Nat.zero_le _
    · split
      · exact oneAdd_retire_free _ h
      · exact Nat.zero_le _

theorem oneAdd_resume (c : PendingCall) : OneAdd (s.resumeEffects c) := by
  cases c with
  | write h bytes => exact Nat.zero_le _
  | closeStream h => exact s.oneAdd_retire h
  | releaseStream h => exact s.oneAdd_retire_free h
  | close => exact Nat.le_refl 1

theorem oneAdd_feed (h : StreamHandle) (frame : Frame) (allocs : FeedAllocs) :
    OneAdd (s.feedEffects h frame allocs) := by
  unfold feedEffects
  split
  · exact Nat.zero_le _
  · split
    · exact Nat.zero_le _
    · exact oneAdd_retire _ h

theorem oneAdd_envelope (bytes : List UInt8) (allocs : StreamAllocs) (feed : FeedAllocs) :
    OneAdd (s.envelopeEffects evp bytes allocs feed) := by
  unfold envelopeEffects
  split
  · exact Nat.zero_le _
  · split
    · exact Nat.zero_le _
    · split
      · exact s.oneAdd_passiveClose
      · split
        · exact Nat.zero_le _
        · exact s.oneAdd_feed _ _ feed
        · split
          · exact Nat.zero_le _
          · exact oneAdd_feed _ _ _ feed

theorem oneAdd_call (ev : SessionEv) : OneAdd (s.callEffects evp ev) := by
  unfold callEffects
  split
  · exact s.oneAdd_closeStream evp _ _
  · split
    · exact Nat.zero_le _
    · exact s.oneAdd_release evp _ _
  · exact s.oneAdd_close evp _
  · exact s.oneAdd_envelope evp _ _ _
  · split
    · exact Nat.zero_le _
    · exact oneAdd_resume _ _
  · exact s.oneAdd_passiveClose
  · exact Nat.zero_le _

theorem oneAdd_checkTimeout (env : ClosingEnv) : OneAdd (s.checkTimeoutEffects evp env) := by
  unfold checkTimeoutEffects
  split
  · exact s.oneAdd_close evp env
  · exact Nat.zero_le _

theorem oneAdd_freeAll : OneAdd (.dropTeardown :: s.freeAllEffects) := by
  have hnone : s.freeAllEffects.countP SessionEffect.adds = 0 := by
    rw [List.countP_eq_zero]
    intro f hf
    obtain ⟨kh, -, rfl⟩ := List.mem_map.mp hf
    exact Bool.false_ne_true
  rw [OneAdd, List.countP_cons_of_neg Bool.false_ne_true, hnone]
  exact Nat.zero_le _

theorem quiet_destroy : ∀ f ∈ s.destroyEffects, f.adds = false := by
  intro f hf
  rcases List.mem_append.mp hf with hf | hf
  · split at hf
    · cases hf
    · rw [List.mem_singleton.mp hf]
      rfl
  · rcases List.mem_cons.mp hf with rfl | hf
    · rfl
    · obtain ⟨kh, -, rfl⟩ := List.mem_map.mp hf
      rfl

end Session

namespace ReactorSession

/-! ## The simulation -/

/-- The session is `t`, and its timers are those of `t` under the handles `ids`. -/
structure Shows (ids : Nat → Nat) (c : ReactorSession ω) (t : TimedSession) : Prop where
  base : c.base = t.base
  seen : c.run.Seen ids t.timers
  inactivityTimerId : c.inactivityTimerId = ids t.inactivityTimerId
  teardownTimerId : c.teardownTimerId = ids t.teardownTimerId
  inactivity_le : t.inactivityTimerId ≤ t.timers.issued
  teardown_le : t.teardownTimerId ≤ t.timers.issued
  released : c.released = t.released
  freed : c.freed = t.freed
  swept : c.swept = t.swept

variable {ids : Nat → Nat} {c : ReactorSession ω} {t : TimedSession} {mem : Bool × Bool}

/-- A request that adds no timer. -/
theorem Shows.apply_quiet (mem : Bool × Bool) (h : Shows ids c t) {f : SessionEffect}
    (hquiet : f.adds = false) (ok : Bool) :
    Shows ids (c.apply mem f) (t.apply ok f) := by
  cases f with
  | rearmInactivity => cases hquiet
  | addDeferred => cases hquiet
  | addSweep => cases hquiet
  | cancelInactivity =>
    have hseen := h.seen.cancel h.inactivity_le
    rw [← h.inactivityTimerId] at hseen
    exact { h with seen := hseen }
  | cancelTeardown =>
    have hseen := h.seen.cancel h.teardown_le
    rw [← h.teardownTimerId] at hseen
    exact { h with seen := hseen }
  | dropTeardown =>
    exact { h with
      teardownTimerId := h.seen.invalid.symm
      teardown_le := Nat.zero_le _ }
  | free s => exact { h with freed := congrArg (· ++ [s]) h.freed }

/-- A request; where it adds a timer the reactor has an answer. -/
theorem Shows.apply (mem : Bool × Bool) (h : Shows ids c t) (f : SessionEffect) :
    ∃ ok ids', Shows ids' (c.apply mem f) (t.apply ok f) := by
  have hteardown : ∀ k : SessionTimer, ∃ ok ids',
      Shows ids' { c with run := (c.run.addOwn 0 k mem).1, teardownTimerId := (c.run.addOwn 0 k mem).2 }
        { t with timers := (t.timers.add k ok).1, teardownTimerId := (t.timers.add k ok).2 } := by
    intro k
    obtain ⟨ok, ids', hseen, hid, hold⟩ := h.seen.add k 0 mem.1 mem.2
    obtain ⟨hle, hmono⟩ := t.timers.add_le k ok
    exact ⟨ok, ids', { h with
      seen := hseen
      inactivityTimerId := h.inactivityTimerId.trans (hold _ h.inactivity_le).symm
      teardownTimerId := hid.symm
      inactivity_le := Nat.le_trans h.inactivity_le hmono
      teardown_le := hle }⟩
  cases f with
  | rearmInactivity =>
    have hcancelled := h.seen.cancel h.inactivity_le
    rw [← h.inactivityTimerId] at hcancelled
    obtain ⟨ok, ids', hseen, hid, hold⟩ := hcancelled.add .inactivity c.inactivityTimeoutMs mem.1 mem.2
    obtain ⟨hle, hmono⟩ := (t.timers.cancel t.inactivityTimerId).add_le .inactivity ok
    exact ⟨ok, ids', { h with
      seen := hseen
      inactivityTimerId := hid.symm
      teardownTimerId := h.teardownTimerId.trans (hold _ h.teardown_le).symm
      inactivity_le := hle
      teardown_le := Nat.le_trans h.teardown_le hmono }⟩
  | addDeferred => exact hteardown .deferred
  | addSweep => exact hteardown .sweep
  | cancelInactivity => exact ⟨true, ids, h.apply_quiet mem rfl true⟩
  | cancelTeardown => exact ⟨true, ids, h.apply_quiet mem rfl true⟩
  | dropTeardown => exact ⟨true, ids, h.apply_quiet mem rfl true⟩
  | free s => exact ⟨true, ids, h.apply_quiet mem rfl true⟩

/-- Such a request does not look at the answer. -/
theorem apply_ok_of_quiet (t : TimedSession) {f : SessionEffect} (hquiet : f.adds = false) (ok ok' : Bool) :
    t.apply ok f = t.apply ok' f := by
  cases f with
  | rearmInactivity => cases hquiet
  | addDeferred => cases hquiet
  | addSweep => cases hquiet
  | _ => rfl

theorem Shows.applyAll_quiet (mem : Bool × Bool) {fx : List SessionEffect} (h : Shows ids c t)
    (hquiet : ∀ f ∈ fx, f.adds = false) (ok : Bool) :
    Shows ids (c.applyAll mem fx) (t.applyAll ok fx) := by
  induction fx generalizing c t with
  | nil => exact h
  | cons f fx ih =>
    rw [List.forall_mem_cons] at hquiet
    exact ih (h.apply_quiet mem hquiet.1 ok) hquiet.2

/-- The requests of an event. The answer to the one that adds a timer is `timerOk`. -/
theorem Shows.applyAll (mem : Bool × Bool) {fx : List SessionEffect} (h : Shows ids c t)
    (hone : OneAdd fx) :
    ∃ ok ids', Shows ids' (c.applyAll mem fx) (t.applyAll ok fx) := by
  induction fx generalizing c t with
  | nil => exact ⟨true, ids, h⟩
  | cons f fx ih =>
    cases hadds : f.adds with
    | true =>
      have hrest : ∀ f ∈ fx, f.adds = false := by
        rw [OneAdd, List.countP_cons_of_pos hadds] at hone
        have hzero : fx.countP SessionEffect.adds = 0 := by omega
        intro f' hf'
        exact Bool.eq_false_iff.mpr (List.countP_eq_zero.mp hzero f' hf')
      obtain ⟨ok, ids', happly⟩ := h.apply mem f
      exact ⟨ok, ids', happly.applyAll_quiet mem hrest ok⟩
    | false =>
      rw [OneAdd, List.countP_cons_of_neg (by simp [hadds])] at hone
      obtain ⟨ok, ids', hrest⟩ := ih (h.apply_quiet mem hadds true) hone
      refine ⟨ok, ids', ?_⟩
      rw [TimedSession.applyAll_cons, apply_ok_of_quiet t hadds ok true]
      exact hrest

/-- A timer of the session fires. -/
theorem Shows.fire (h : Shows ids c t) (evp : Evp) {top : TimerEntry (SessionTimer ⊕ ω)}
    {k : SessionTimer} (htop : c.run.firing = some top) (hcb : top.cb = .inl k) (env : ClosingEnv) :
    ∃ i ok ids', t.timers.find i = some k
      ∧ Shows ids' (ReactorSession.fire evp { c with run := c.run.turn } env mem k)
         (t.fire evp i env ok k) := by
  obtain ⟨i, hi, hseen⟩ := h.seen.fired htop hcb
  have hbase := h.base
  -- what both sessions are like when the callback begins, whatever it has done to its own fields
  have hstart : ∀ (s : Session) (sw : Bool),
      Shows ids { c with run := c.run.turn, base := s, swept := sw }
      { t with timers := t.timers.cancel i, base := s, swept := sw } := fun s sw =>
    { h with base := rfl, seen := hseen, swept := rfl }
  obtain ⟨s, tm, a, b, rel, fr, sw⟩ := t
  obtain ⟨s', w, ms, a', b', rel', fr', sw'⟩ := c
  obtain rfl : s' = s := hbase
  obtain rfl : sw' = sw := h.swept
  cases k with
  | inactivity =>
    obtain ⟨ok, ids', hfired⟩ := (hstart (Session.checkTimeout evp { s' with inactivityTimer := false } env)
      sw').applyAll mem (Session.oneAdd_checkTimeout evp { s' with inactivityTimer := false } env)
    exact ⟨i, ok, ids', Timers.find_of_mem hi, hfired⟩
  | deferred =>
    obtain ⟨ok, ids', hfired⟩ := (hstart (Session.callback { s' with teardownTimer := .sweep } .broken)
      sw').applyAll mem (show OneAdd [.addSweep] from Nat.le_refl 1)
    exact ⟨i, ok, ids', Timers.find_of_mem hi, hfired⟩
  | sweep =>
    obtain ⟨ok, ids', hfired⟩ := (hstart (Session.freeAllActiveStreams { s' with teardownTimer := .idle })
      true).applyAll mem s'.oneAdd_freeAll
    exact ⟨i, ok, ids', Timers.find_of_mem hi, hfired⟩

/-- What happens to the session in its reactor is an event of the other one, or none. -/
theorem Shows.step (h : Shows ids c t) (evp : Evp) (e : ReactorSessionEv ω) :
    ∃ ids' evs, Shows ids' (c.step evp e) (Lib.run (TimedSession.step evp) t evs) := by
  have hbase := h.base
  cases e with
  | call ev mem =>
    dsimp only [ReactorSession.step]
    split
    -- one timer is added at most, so one answer for all the memory there is
    · next hcall =>
      have hstart : Shows ids
          { c with
            base := c.base.step evp ev
            released := c.released ++ TimedSession.releases c.base ev }
          { t with
            base := t.base.step evp ev
            released := t.released ++ TimedSession.releases t.base ev } :=
        { h with base := by rw [hbase], released := by rw [hbase, h.released] }
      obtain ⟨ok, ids', hdone⟩ := hstart.applyAll mem (c.base.oneAdd_call evp ev)
      refine ⟨ids', [.call ev ok], ?_⟩
      change Shows ids' _ (t.step evp (.call ev ok))
      rw [TimedSession.step, if_pos (hbase ▸ hcall), TimedSession.call, ← hbase]
      rw [← hbase] at hdone
      exact hdone
    · exact ⟨ids, [], h⟩
  | destroy =>
    dsimp only [ReactorSession.step]
    split
    · next hlive =>
      have hstart : Shows ids { c with base := c.base.destroy, swept := true }
          { t with base := t.base.destroy, swept := true } :=
        { h with base := by rw [hbase], swept := rfl }
      have hdone := hstart.applyAll_quiet (true, true) c.base.quiet_destroy true
      refine ⟨ids, [.destroy], ?_⟩
      change Shows ids _ (t.step evp .destroy)
      rw [TimedSession.step, if_pos (hbase ▸ hlive), TimedSession.destroy, ← hbase]
      rw [← hbase] at hdone
      exact hdone
    · exact ⟨ids, [], h⟩
  | turn env mem =>
    dsimp only [ReactorSession.step]
    split
    · next hcalls =>
      unfold ReactorSession.turn
      cases htop : c.run.firing with
      | none =>
        refine ⟨ids, [], { h with seen := h.seen.passed fun top hsome => ?_ }⟩
        rw [htop] at hsome
        cases hsome
      | some top =>
        dsimp only
        cases hcb : top.cb with
        -- a timer of the session's, or one of the others', which the session does not see
        | inl k =>
          obtain ⟨i, ok, ids', hfind, hfired⟩ := h.fire evp htop hcb env
          refine ⟨ids', [.fire i env ok], ?_⟩
          change Shows ids' _ (t.step evp (.fire i env ok))
          rw [TimedSession.step, if_pos (hbase ▸ hcalls), hfind]
          exact hfired
        | inr f =>
          refine ⟨ids, [], { h with seen := h.seen.passed fun top' hsome => ?_ }⟩
          obtain rfl := Option.some.inj (htop.symm.trans hsome)
          rw [hcb]
          rfl
    · exact ⟨ids, [], h⟩
  | others e =>
    dsimp only [ReactorSession.step]
    split
    · next hothers => exact ⟨ids, [], { h with seen := h.seen.others hothers }⟩
    · exact ⟨ids, [], h⟩

/-- What happens to the session in its reactor is a run of the other one. -/
theorem Shows.run (h : Shows ids c t) (evp : Evp) (es : List (ReactorSessionEv ω)) :
    ∃ ids' evs, Shows ids' (Lib.run (ReactorSession.step evp) c es)
      (Lib.run (TimedSession.step evp) t evs) := by
  induction es generalizing ids c t with
  | nil => exact ⟨ids, [], h⟩
  | cons e es ih =>
    obtain ⟨ids₁, evs₁, h₁⟩ := h.step evp e
    obtain ⟨ids₂, evs₂, h₂⟩ := ih h₁
    refine ⟨ids₂, evs₁ ++ evs₂, ?_⟩
    rw [Lib.run_append]
    exact h₂

/-- The others have been at work in the reactor before the session comes. -/
theorem seen_before [Inhabited ω] {pre : List (TimerEvent (SessionTimer ⊕ ω))}
    (hpre : Obeys TimerRun.step (fun w e => w.isOthers e = true ∨ e = .turn) TimerRun.create pre) :
    TimerRun.Seen (fun _ => CLOAK_TIMER_INVALID) Timers.empty
      (Lib.run TimerRun.step (TimerRun.create : TimerRun (SessionTimer ⊕ ω)) pre) := by
  refine run_guarded (P := fun w : TimerRun (SessionTimer ⊕ ω) =>
    TimerRun.Seen (fun _ => CLOAK_TIMER_INVALID) Timers.empty w) ?_ ?_ hpre
  · rintro w e hseen (hothers | rfl)
    · exact hseen.others hothers
    · refine hseen.passed fun top htop => ?_
      cases hcb : top.cb with
      | inr f => rfl
      | inl k =>
        obtain ⟨i, hi, -⟩ := hseen.fired htop hcb
        cases hi
  · exact TimerRun.seen_empty ⟨_, _, .create⟩ (Nat.le_refl 0) fun timer hmem => by cases hmem

theorem shows_init [Inhabited ω] {pre : List (TimerEvent (SessionTimer ⊕ ω))} {config : SessionConfig}
    {inactivityTimeoutMs : Nat} {c : ReactorSession ω}
    (hpre : Obeys TimerRun.step (fun w e => w.isOthers e = true ∨ e = .turn) TimerRun.create pre)
    (hinit : init config inactivityTimeoutMs (Lib.run TimerRun.step TimerRun.create pre) mem = .ok c) :
    ∃ ok ids t, TimedSession.init config ok = .ok t ∧ Shows ids c t := by
  unfold init at hinit
  cases hs : Session.init config with
  | error err =>
    rw [hs] at hinit
    cases hinit
  | ok s =>
    rw [hs] at hinit
    obtain rfl := Except.ok.inj hinit
    have hstart : Shows (fun _ => CLOAK_TIMER_INVALID)
        ⟨s, Lib.run TimerRun.step TimerRun.create pre, inactivityTimeoutMs, CLOAK_TIMER_INVALID,
          CLOAK_TIMER_INVALID, [], [], false⟩ ⟨s, .empty, 0, 0, [], [], false⟩ :=
      ⟨rfl, seen_before hpre, rfl, rfl, Nat.le_refl 0, Nat.le_refl 0, rfl, rfl, rfl⟩
    obtain ⟨ok, ids, hshows⟩ := hstart.apply mem .rearmInactivity
    refine ⟨ok, ids, _, ?_, hshows⟩
    rw [TimedSession.init, hs]
    rfl

/-- Whatever the others do in the reactor and whenever memory runs out, the session is one that a run of
`TimedSession` reaches, and the owner hears once at most that it is broken. -/
theorem session_in_reactor [Inhabited ω] (evp : Evp) {pre : List (TimerEvent (SessionTimer ⊕ ω))}
    {config : SessionConfig} {inactivityTimeoutMs : Nat} {c : ReactorSession ω}
    (hpre : Obeys TimerRun.step (fun w e => w.isOthers e = true ∨ e = .turn) TimerRun.create pre)
    (hinit : init config inactivityTimeoutMs (Lib.run TimerRun.step TimerRun.create pre) mem = .ok c)
    (es : List (ReactorSessionEv ω)) :
    (∃ ok t evs, TimedSession.init config ok = .ok t
        ∧ (Lib.run (step evp) c es).base = (Lib.run (TimedSession.step evp) t evs).base
        ∧ (Lib.run (step evp) c es).freed = (Lib.run (TimedSession.step evp) t evs).freed)
      ∧ (Lib.run (step evp) c es).base.brokens ≤ 1 := by
  obtain ⟨ok, ids, t, ht, hshows⟩ := shows_init hpre hinit
  obtain ⟨ids', evs, hrun⟩ := hshows.run evp es
  refine ⟨⟨ok, t, evs, ht, hrun.base, hrun.freed⟩, ?_⟩
  rw [hrun.base]
  exact (TimedSession.brokens_run (Or.inl (TimedSession.init_good ht)) evs).2

/-! ## Answers that do not occur -/

/-- `session_reschedule_inactivity_timer` with its timer pending gets a new one. -/
theorem Shows.rearm_succeeds (h : Shows ids c t)
    (hpending : (t.inactivityTimerId, .inactivity) ∈ t.timers.pending)
    (hgen : c.inactivityTimerId >>> TIMER_SLOT_BITS < TIMER_GEN_MAX) :
    (c.apply mem .rearmInactivity).inactivityTimerId ≠ CLOAK_TIMER_INVALID := by
  rw [h.inactivityTimerId] at hgen
  simp only [ReactorSession.apply, TimerRun.addOwn, h.inactivityTimerId]
  exact h.seen.add_after_cancel hpending hgen _ _ _ _ _

/-- So does `session_passive_close` for the first teardown timer, -/
theorem Shows.close_succeeds (h : Shows ids c t)
    (hpending : (t.inactivityTimerId, .inactivity) ∈ t.timers.pending)
    (hgen : c.inactivityTimerId >>> TIMER_SLOT_BITS < TIMER_GEN_MAX) :
    (c.applyAll mem [.cancelInactivity, .addDeferred]).teardownTimerId ≠ CLOAK_TIMER_INVALID := by
  rw [h.inactivityTimerId] at hgen
  simp only [ReactorSession.applyAll, List.foldl_cons, List.foldl_nil, ReactorSession.apply,
    TimerRun.addOwn, h.inactivityTimerId]
  exact h.seen.add_after_cancel hpending hgen _ _ _ _ _

/-- and the first teardown timer for the second. -/
theorem Shows.sweep_succeeds (h : Shows ids c t) (evp : Evp) {top : TimerEntry (SessionTimer ⊕ ω)}
    (htop : c.run.firing = some top) (hgen : top.id >>> TIMER_SLOT_BITS < TIMER_GEN_MAX)
    (env : ClosingEnv) :
    (ReactorSession.fire evp { c with run := c.run.turn } env mem .deferred).teardownTimerId
      ≠ CLOAK_TIMER_INVALID := by
  simp only [ReactorSession.fire, ReactorSession.applyAll, List.foldl_cons, List.foldl_nil,
    ReactorSession.apply, TimerRun.addOwn]
  exact h.seen.add_after_fired htop hgen _ _ _ _ _

end ReactorSession

end Cloak
