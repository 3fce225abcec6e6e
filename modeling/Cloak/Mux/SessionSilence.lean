import Cloak.Mux.ConnNotices
import Cloak.Mux.SessionPool
import Cloak.Mux.SessionRetired

set_option autoImplicit false

/-! # What the owner hears after the end

`session_on_envelope` looks at `closed` before it calls the owner, `session_switchboard_drained_adapter`
does not. `on_broken` is called by the first of two timers and the connections are closed by the
second, and in between they are still registered with the reactor: a connection that has been waiting
for its socket may get rid of all its bytes there, and reports it. So may one that a closing frame is
sent on, by an owner that releases its streams inside `on_broken`.

`Drains` is that step, said in terms of the queue, its limit and the kernel's answers, and
`quietAfterBroken_iff` is the law: the owner hears nothing after `on_broken` exactly in the runs that
have no such step from then on. -/

namespace Cloak

open Lib

namespace TimedSession

/-! ## The callbacks of one step -/

/-- Every step of a session is a chain of moves. -/
theorem step_base_moves (evp : Evp) (t : TimedSession) (ev : TimedEv) :
    ∃ sev, Session.Moves evp t.base sev t.base (t.step evp ev).base := by
  cases ev with
  | call sev timerOk =>
    refine ⟨sev, ?_⟩
    dsimp only [TimedSession.step]
    split
    · rw [TimedSession.call, base_applyAll]
      exact Session.step_moves evp t.base sev
    · exact .refl
  | destroy =>
    refine ⟨.destroy, ?_⟩
    dsimp only [TimedSession.step]
    split
    · rw [TimedSession.destroy, base_applyAll]
      exact Session.destroy_moves t.base
    · exact .refl
  | fire timer env timerOk =>
    refine ⟨.destroy, ?_⟩
    dsimp only [TimedSession.step]
    split
    · split
      · exact .refl
      · next k _ =>
        cases k with
        | inactivity =>
          rw [TimedSession.fire, base_applyAll]
          refine .head (b := { t.base with inactivityTimer := false })
            (.untracked ⟨rfl, rfl, rfl, rfl, rfl, rfl, rfl, rfl, id⟩) ?_
          unfold Session.checkTimeout
          split
          · exact Session.close_moves _ env
          · exact .refl
        | deferred =>
          rw [TimedSession.fire, base_applyAll]
          exact .head (b := { t.base with teardownTimer := .sweep })
            (.untracked ⟨rfl, rfl, rfl, rfl, rfl, rfl, rfl, rfl, id⟩) (.single .brokenUp)
        | sweep =>
          rw [TimedSession.fire, base_applyAll]
          exact .head (b := { t.base with teardownTimer := .idle })
            (.untracked ⟨rfl, rfl, rfl, rfl, rfl, rfl, rfl, rfl, id⟩)
            (Session.freeAllActiveStreams_moves _)
    · exact .refl

/-- Callbacks are only added, and a closed session adds none about streams. -/
theorem callbacks_step (evp : Evp) (t : TimedSession) (ev : TimedEv) :
    ∃ new, (t.step evp ev).base.callbacks = t.base.callbacks ++ new
      ∧ (t.base.closed = true → ∀ c ∈ new, c = .broken) := by
  obtain ⟨sev, hmoves⟩ := step_base_moves evp t ev
  have hinbound : t.base.closed = true → t.base.inbound evp sev = none := by
    intro hclosed
    unfold Session.inbound
    split
    · rw [if_pos hclosed]
    · rfl
  refine hmoves.invariant (P := fun s => ∃ new, s.callbacks = t.base.callbacks ++ new
    ∧ (t.base.closed = true → ∀ c ∈ new, c = .broken)) ?_ ⟨[], (List.append_nil _).symm, ?_⟩
  · rintro s s' hmove ⟨new, heq, hnew⟩
    cases hmove with
    | untracked hu => exact ⟨new, hu.callbacks.trans heq, hnew⟩
    | @routed frame c hin =>
      refine ⟨new ++ [c], ?_, fun hclosed => ?_⟩
      · rw [Session.callback, heq, List.append_assoc]
      · rw [hinbound hclosed] at hin
        cases hin
    | brokenUp =>
      refine ⟨new ++ [.broken], ?_, fun hclosed c hc => ?_⟩
      · rw [Session.callback, heq, List.append_assoc]
      · rcases List.mem_append.mp hc with hold | hlast
        · exact hnew hclosed c hold
        · exact List.mem_singleton.mp hlast
    | _ => exact ⟨new, heq, hnew⟩
  · intro _ c hc
    cases hc

/-- `on_broken` is called by the first teardown timer, on its own, and by nothing else. -/
theorem Good.step_brokens (evp : Evp) {t : TimedSession} (ht : t.Good) (ev : TimedEv) :
    (t.step evp ev).base.brokens = t.base.brokens
      ∨ ((∃ id env timerOk, ev = .fire id env timerOk) ∧ t.base.brokens = 0
        ∧ (t.step evp ev).base.callbacks = t.base.callbacks ++ [.broken]
        ∧ (t.step evp ev).base.sealed = t.base.sealed) := by
  cases ev with
  | call sev timerOk =>
    refine Or.inl ?_
    dsimp only [TimedSession.step]
    split
    · next hcall =>
      rw [TimedSession.call, base_applyAll]
      exact (Session.call_acts hcall.1 hcall.2).brokens
    · rfl
  | destroy =>
    refine Or.inl ?_
    dsimp only [TimedSession.step]
    split
    · rw [TimedSession.destroy, base_applyAll, Session.brokens_destroy]
    · rfl
  | fire id env timerOk =>
    dsimp only [TimedSession.step]
    split
    · split
      · exact Or.inl rfl
      · next k hfind =>
        have hmem := Timers.mem_of_find hfind
        cases k with
        | inactivity =>
          have hacts : Session.Acts t.base (.inactivityTimer env)
              { t.base with inactivityTimer := false }
              (Session.checkTimeoutEffects evp { t.base with inactivityTimer := false } env)
              (Session.checkTimeout evp { t.base with inactivityTimer := false } env) :=
            Session.checkTimeout_acts env
          rw [TimedSession.fire, base_applyAll]
          exact Or.inl hacts.brokens
        | deferred =>
          refine Or.inr ⟨⟨id, env, timerOk, rfl⟩, (ht.sound.deferred_phase hmem).2.2, ?_, ?_⟩
          · rw [TimedSession.fire, base_applyAll]
            rfl
          · rw [TimedSession.fire, base_applyAll]
            rfl
        | sweep =>
          rw [TimedSession.fire, base_applyAll]
          exact Or.inl (ht.sweep_acts hmem).brokens
    · exact Or.inl rfl

end TimedSession

namespace PooledSession

/-! ## The law -/

/-- The send of the frame a step of the session seals. -/
def sendStep (evp : Evp) (p : PooledSession) (ev : TimedEv) (d : PoolDraw) : Option (Nat × ConnEv) :=
  match sealedBy p.timed.base (p.timed.step evp ev).base with
  | none => none
  | some f =>
    if (p.onSession evp ev).pool.broken = true ∨ (p.onSession evp ev).pool.conns = [] then none
    else some (p.pool.pickConn d.pick, .send f.wire d.kernel d.keys)

/-- The connection an event makes take a step, if any, and that step. -/
def connStep (evp : Evp) (p : PooledSession) : PoolEv → Option (Nat × ConnEv)
  | .addConn _ => none
  | .owner ev d _ => if ev.isOwners then sendStep evp p ev d else none
  | .returned draws d retireOk _ =>
    match p.sends with
    | [] => none
    | a :: _ => sendStep evp p (.call (.sinkReturn (p.answer a) draws) retireOk) d
  | .conn i ev _ _ _ _ => if ev.isOwn then some (i, ev) else none

/-- The event lets a connection that has been waiting for its socket send all it has. -/
def Drains (evp : Evp) (p : PooledSession) (e : PoolEv) : Prop :=
  ∃ i ev w, connStep evp p e = some (i, ev) ∧ p.pool.conns[i]? = some w ∧ w.Empties ev

/-- After `on_broken` the owner hears nothing but `on_broken`. -/
def QuietAfterBroken (told : List OwnerCall) : Prop :=
  ∀ pre post, told = pre ++ .broken :: post → ∀ c ∈ post, c = .broken

/-- No connection runs empty once `on_broken` has been called. -/
def Undrained (evp : Evp) (p : PooledSession) (e : PoolEv) : Prop :=
  .broken ∈ p.told → ¬ p.Drains evp e

/-- What every step keeps. -/
structure Wired (p : PooledSession) : Prop where
  session : p.timed.Good ∨ p.timed.Gone
  pool : p.pool.Sound
  heard : .broken ∈ p.told → .broken ∈ p.timed.base.callbacks

/-! ## What every step keeps -/

theorem Wired.congr {p p' : PooledSession} (h : p.Wired) (htimed : p'.timed = p.timed)
    (hpool : p'.pool = p.pool) (htold : p'.told = p.told) : p'.Wired :=
  ⟨htimed ▸ h.session, hpool ▸ h.pool, by rw [htold, htimed]; exact h.heard⟩

theorem sound_closeAll {sb : Switchboard} (h : sb.Sound) : sb.closeAll.Sound := by
  refine ⟨h.maxFrameLen_le, ?_, ?_, ?_, ?_, ?_⟩ <;> simp [Switchboard.closeAll]

/-- Once `on_broken` has been called the session is closed, and it is not called again. -/
theorem Wired.brokens_pos {p : PooledSession} (h : p.Wired) (htold : .broken ∈ p.told) :
    0 < p.timed.base.brokens := List.count_pos_iff.mpr (h.heard htold)

theorem Wired.closed {p : PooledSession} (h : p.Wired) (htold : .broken ∈ p.told) :
    p.timed.base.closed = true := by
  have hpos := h.brokens_pos htold
  rcases h.session with hg | hg
  · cases hg.sound.phase with
    | live _ _ _ hzero => omega
    | closing _ _ _ hzero => omega
    | deferred hclosed _ _ hzero => exact hclosed
    | broken hclosed _ _ _ => exact hclosed
  · exact hg.closed

/-- What a step of the session tells the owner: nothing once `on_broken` has been called, and
    `on_broken` only on its own, from a timer, with no frame on its way. -/
theorem Wired.onSession (evp : Evp) {p : PooledSession} (h : p.Wired) (ev : TimedEv) :
    (p.onSession evp ev).Wired
      ∧ ∃ new, (p.onSession evp ev).told = p.told ++ new ∧ (.broken ∈ p.told → new = [])
        ∧ (.broken ∉ new ∨ new = [.broken] ∧ sealedBy p.timed.base (p.timed.step evp ev).base = none
          ∧ ∃ id env timerOk, ev = .fire id env timerOk) := by
  obtain ⟨new, hcallbacks, hclosed⟩ := TimedSession.callbacks_step evp p.timed ev
  have hnews : news p.timed.base (p.timed.step evp ev).base
      = new.filterMap SessionCallback.ownerCall? := by
    rw [news, hcallbacks, List.drop_left]
  have hofNew : .broken ∈ new.filterMap SessionCallback.ownerCall? → .broken ∈ new := by
    intro hmem
    obtain ⟨c, hc, hcall⟩ := List.mem_filterMap.mp hmem
    cases c with
    | broken => exact hc
    | _ => cases hcall
  have hcount : (p.timed.step evp ev).base.brokens
      = p.timed.base.brokens + new.count .broken := by
    rw [Session.brokens, hcallbacks, List.count_append]
    rfl
  have hsession : (p.timed.step evp ev).Good ∨ (p.timed.step evp ev).Gone := by
    rcases h.session with hg | hg
    · exact hg.step ev
    · rw [hg.step]
      exact Or.inr hg
  refine ⟨⟨hsession, ?_, ?_⟩, _, congrArg (p.told ++ ·) hnews, ?_, ?_⟩
  · dsimp only [PooledSession.onSession]
    split
    · exact sound_closeAll h.pool
    · exact h.pool
  · intro hmem
    dsimp only [PooledSession.onSession] at hmem ⊢
    rw [hnews] at hmem
    rw [hcallbacks]
    rcases List.mem_append.mp hmem with hold | hnew
    · exact List.mem_append_left _ (h.heard hold)
    · exact List.mem_append_right _ (hofNew hnew)
  · intro htold
    -- the session is closed, so all that is new would be `on_broken`, and it has been called
    have hle : (p.timed.step evp ev).base.brokens ≤ 1 := by
      rcases hsession with hg | hg
      · exact hg.sound.phase.brokens_le_one
      · exact hg.brokens
    have hpos := h.brokens_pos htold
    have hnil : new = [] := by
      refine List.eq_nil_iff_forall_not_mem.mpr fun c hc => ?_
      have hmem := hclosed (h.closed htold) c hc ▸ hc
      have hone := List.count_pos_iff.mpr hmem
      omega
    rw [hnil]
    rfl
  · rcases h.session with hg | hg
    · rcases hg.step_brokens evp ev with hsame | ⟨hfire, _, heq, hseal⟩
      · refine Or.inl fun hmem => ?_
        have hone := List.count_pos_iff.mpr (hofNew hmem)
        omega
      · refine Or.inr ⟨?_, ?_, hfire⟩
        · rw [List.append_cancel_left (hcallbacks.symm.trans heq)]
          rfl
        · rw [sealedBy, hseal]
          exact List.getElem?_eq_none (Nat.le_refl _)
    · rw [hg.step] at hcallbacks
      have hnil : new = [] := by
        have hlen := congrArg List.length hcallbacks
        rw [List.length_append] at hlen
        exact List.length_eq_zero_iff.mp (by omega)
      rw [hnil]
      exact Or.inl List.not_mem_nil

/-- What a part of an event tells the owner: nothing that ends with `on_broken`, and once `on_broken`
    has been called nothing, or a drain if it `drains`. -/
def Tells (drains : Prop) (told told' : List OwnerCall) : Prop :=
  ∃ new, told' = told ++ new ∧ (.broken ∈ told → new = [] ∧ ¬ drains ∨ new = [.writable] ∧ drains)
    ∧ .broken ∉ new

theorem Tells.refl {drains : Prop} (hno : ¬ drains) (told : List OwnerCall) : Tells drains told told :=
  ⟨[], (List.append_nil _).symm, fun _ => Or.inl ⟨rfl, hno⟩, List.not_mem_nil⟩

theorem Tells.broken_iff {drains : Prop} {told told' : List OwnerCall} (h : Tells drains told told') :
    .broken ∈ told' ↔ .broken ∈ told := by
  obtain ⟨new, rfl, _, hnew⟩ := h
  rw [List.mem_append, or_iff_left hnew]

/-- Two parts, of which one at most drains. -/
theorem Tells.trans {drains drains' both : Prop} {told told' told'' : List OwnerCall}
    (h : Tells drains told told') (h' : Tells drains' told' told'') (hone : ¬ (drains ∧ drains'))
    (hboth : both ↔ drains ∨ drains') : Tells both told told'' := by
  have hiff := h.broken_iff
  obtain ⟨new, rfl, hquiet, hnew⟩ := h
  obtain ⟨new', rfl, hquiet', hnew'⟩ := h'
  refine ⟨new ++ new', List.append_assoc .., fun hb => ?_, fun hmem => ?_⟩
  · rw [hboth]
    rcases hquiet hb with ⟨rfl, hno⟩ | ⟨rfl, hyes⟩
    · rcases hquiet' (hiff.mpr hb) with ⟨rfl, hno'⟩ | ⟨rfl, hyes'⟩
      · exact Or.inl ⟨rfl, not_or.mpr ⟨hno, hno'⟩⟩
      · exact Or.inr ⟨rfl, Or.inr hyes'⟩
    · rcases hquiet' (hiff.mpr hb) with ⟨rfl, hno'⟩ | ⟨rfl, hyes'⟩
      · exact Or.inr ⟨rfl, Or.inl hyes⟩
      · exact absurd ⟨hyes, hyes'⟩ hone
  · rcases List.mem_append.mp hmem with hin | hin
    · exact hnew hin
    · exact hnew' hin

/-- A step of the session other than the first teardown timer. -/
theorem Wired.onSession_tells (evp : Evp) {p : PooledSession} (h : p.Wired) (ev : TimedEv)
    (hev : sealedBy p.timed.base (p.timed.step evp ev).base ≠ none
      ∨ ∀ id env timerOk, ev ≠ .fire id env timerOk) :
    (p.onSession evp ev).Wired ∧ Tells False p.told (p.onSession evp ev).told := by
  obtain ⟨hw, new, htold, hquiet, hno | ⟨_, hseal, id, env, timerOk, rfl⟩⟩ := h.onSession evp ev
  · exact ⟨hw, new, htold, fun hb => Or.inl ⟨hquiet hb, id⟩, hno⟩
  · rcases hev with hsome | hnot
    · exact absurd hseal hsome
    · exact absurd rfl (hnot id env timerOk)

theorem Wired.onConn {p : PooledSession} (h : p.Wired) (i : Nat) (ev : ConnEv) :
    (p.onConn i ev).Wired
      ∧ Tells (∃ w, p.pool.conns[i]? = some w ∧ w.Empties ev) p.told (p.onConn i ev).told := by
  unfold PooledSession.onConn
  cases hi : p.pool.conns[i]? with
  | none =>
    refine ⟨h, .refl ?_ _⟩
    rintro ⟨w, hw, _⟩
    cases hw
  | some w =>
    dsimp only
    have hmem := List.mem_of_getElem? hi
    have hnotice := w.step_notices ev (h.pool.maxFrameLen w hmem ▸ h.pool.maxFrameLen_le)
      (h.pool.opened w hmem)
    have hcount : (w.step ev).drained - w.drained = if w.Empties ev then 1 else 0 := by omega
    rw [hcount]
    refine ⟨⟨h.session, h.pool.stepConn i ev, fun hb => h.heard ?_⟩, _, rfl, fun _ => ?_, ?_⟩
    · rcases List.mem_append.mp hb with hold | hnew
      · exact hold
      · cases (List.mem_replicate.mp hnew).2
    · by_cases he : w.Empties ev
      · rw [if_pos he]
        exact Or.inr ⟨rfl, w, rfl, he⟩
      · rw [if_neg he]
        refine Or.inl ⟨rfl, ?_⟩
        rintro ⟨w', hw', he'⟩
        rw [Option.some.inj hw'] at he
        exact he he'
    · intro hb
      cases (List.mem_replicate.mp hb).2

theorem Wired.reportBroken (evp : Evp) {p : PooledSession} (h : p.Wired) (was timerOk : Bool) :
    (reportBroken evp was timerOk p).Wired
      ∧ Tells False p.told (reportBroken evp was timerOk p).told := by
  unfold PooledSession.reportBroken
  split
  · exact h.onSession_tells evp _ (Or.inr fun _ _ _ hev => by cases hev)
  · exact ⟨h, .refl id _⟩

theorem Wired.send (evp : Evp) {p : PooledSession} (h : p.Wired) (frame : List UInt8) (d : PoolDraw)
    (timerOk : Bool) : (p.send evp frame d timerOk).Wired
      ∧ Tells (¬ (p.pool.broken = true ∨ p.pool.conns = [])
          ∧ ∃ w, p.pool.conns[p.pool.pickConn d.pick]? = some w
            ∧ w.Empties (.send frame d.kernel d.keys))
        p.told (p.send evp frame d timerOk).told := by
  unfold PooledSession.send
  by_cases hclosed : p.pool.broken = true ∨ p.pool.conns = []
  · rw [if_pos hclosed]
    exact ⟨h.congr rfl rfl rfl, .refl (fun hd => hd.1 hclosed) _⟩
  · rw [if_neg hclosed]
    obtain ⟨hw, htells⟩ := h.onConn (p.pool.pickConn d.pick) (.send frame d.kernel d.keys)
    obtain ⟨hw', htells'⟩ := Wired.reportBroken evp
      (p := { p.onConn (p.pool.pickConn d.pick) (.send frame d.kernel d.keys) with
        sends := some (p.pool.pickConn d.pick) :: p.sends }) (hw.congr rfl rfl rfl) p.pool.broken timerOk
    exact ⟨hw', htells.trans htells' (fun hd => hd.2)
      ((and_iff_right hclosed).trans (iff_of_eq (or_false _)).symm)⟩

/-- The first teardown timer tells the owner that the session is broken, which it has not been told. -/
def Ends (told told' : List OwnerCall) : Prop := told' = told ++ [.broken] ∧ .broken ∉ told

theorem Wired.onSessionSend {evp : Evp} {p : PooledSession} (h : p.Wired) (ev : TimedEv) (d : PoolDraw)
    (timerOk : Bool) : (p.onSessionSend evp ev d timerOk).Wired
      ∧ (Tells (∃ i cev w, sendStep evp p ev d = some (i, cev) ∧ p.pool.conns[i]? = some w
            ∧ w.Empties cev) p.told (p.onSessionSend evp ev d timerOk).told
        ∨ Ends p.told (p.onSessionSend evp ev d timerOk).told) := by
  unfold PooledSession.onSessionSend
  cases hseal : sealedBy p.timed.base (p.timed.step evp ev).base with
  | none =>
    obtain ⟨hw, new, htold, hquiet, hnew⟩ := h.onSession evp ev
    refine ⟨hw, ?_⟩
    have hno : ∀ i cev, sendStep evp p ev d ≠ some (i, cev) := by
      intro i cev hstep
      rw [sendStep, hseal] at hstep
      cases hstep
    rcases hnew with hnot | ⟨hone, _⟩
    · exact Or.inl ⟨new, htold, fun hb => Or.inl ⟨hquiet hb, fun ⟨i, cev, w, hs, _⟩ => hno i cev hs⟩,
        hnot⟩
    · refine Or.inr ⟨by rw [← hone]; exact htold, fun hb => ?_⟩
      rw [hquiet hb] at hone
      cases hone
  | some f =>
    obtain ⟨hw, htells⟩ := h.onSession_tells evp ev (Or.inl (by rw [hseal]; simp))
    obtain ⟨hw', htells'⟩ := hw.send evp f.wire d timerOk
    refine ⟨hw', Or.inl (htells.trans htells' (fun hd => hd.1) ?_)⟩
    -- a pool with connections is the pool from before the session's step
    have hpool : (p.onSession evp ev).pool.conns ≠ [] → (p.onSession evp ev).pool = p.pool := by
      dsimp only [PooledSession.onSession]
      split
      · exact fun hne => absurd rfl hne
      · exact fun _ => rfl
    rw [sendStep, hseal, false_or]
    dsimp only
    by_cases hclosed : (p.onSession evp ev).pool.broken = true ∨ (p.onSession evp ev).pool.conns = []
    · rw [if_pos hclosed]
      refine ⟨?_, fun hd => absurd hclosed hd.1⟩
      rintro ⟨_, _, _, hs, _⟩
      cases hs
    · rw [if_neg hclosed, hpool fun hnil => hclosed (Or.inr hnil)]
      constructor
      · rintro ⟨i, cev, w, hs, hget, he⟩
        obtain ⟨rfl, rfl⟩ := Prod.mk.inj (Option.some.inj hs)
        exact ⟨hpool (fun hnil => hclosed (Or.inr hnil)) ▸ hclosed, w, hget, he⟩
      · rintro ⟨_, w, hget, he⟩
        exact ⟨_, _, w, rfl, hget, he⟩

/-- What one event tells the owner. -/
theorem Wired.step (evp : Evp) {p : PooledSession} (h : p.Wired) (e : PoolEv) :
    (p.step evp e).Wired
      ∧ (Tells (p.Drains evp e) p.told (p.step evp e).told ∨ Ends p.told (p.step evp e).told) := by
  have hnone : connStep evp p e = none → ¬ p.Drains evp e := by
    rintro hno ⟨i, ev, w, hs, _⟩
    rw [hno] at hs
    cases hs
  cases e with
  | addConn framing =>
    have hno : ¬ p.Drains evp (.addConn framing) := hnone rfl
    dsimp only [PooledSession.step]
    split
    · exact ⟨h, Or.inl (.refl hno _)⟩
    · split
      · exact ⟨h, Or.inl (.refl hno _)⟩
      · next pool hadd => exact ⟨⟨h.session, h.pool.addConnFramed hadd, h.heard⟩, Or.inl (.refl hno _)⟩
  | owner ev d timerOk =>
    dsimp only [PooledSession.step, Drains, connStep] at hnone ⊢
    split
    · next hown => exact h.onSessionSend ev d timerOk
    · next hown =>
      rw [if_neg hown] at hnone
      exact ⟨h, Or.inl (.refl (hnone rfl) _)⟩
  | returned draws d retireOk timerOk =>
    dsimp only [PooledSession.step, Drains, connStep] at hnone ⊢
    cases hsends : p.sends with
    | nil =>
      rw [hsends] at hnone
      exact ⟨h, Or.inl (.refl (hnone rfl) _)⟩
    | cons a sends =>
      exact Wired.onSessionSend (p := { p with sends := sends }) (h.congr rfl rfl rfl)
        (.call (.sinkReturn (p.answer a) draws) retireOk) d timerOk
  | conn i ev allocs feed retireOk timerOk =>
    dsimp only [PooledSession.step]
    by_cases hown : ev.isOwn = true
    · have hdrains : p.Drains evp (.conn i ev allocs feed retireOk timerOk)
          ↔ ∃ w, p.pool.conns[i]? = some w ∧ w.Empties ev := by
        simp only [Drains, connStep, if_pos hown, Option.some.injEq, Prod.mk.injEq]
        constructor
        · rintro ⟨_, _, w, ⟨rfl, rfl⟩, hget, he⟩
          exact ⟨w, hget, he⟩
        · rintro ⟨w, hget, he⟩
          exact ⟨i, ev, w, ⟨rfl, rfl⟩, hget, he⟩
      rw [if_pos hown]
      obtain ⟨hw, htells⟩ := h.onConn i ev
      cases hi : p.pool.conns[i]? with
      | none =>
        refine ⟨h, Or.inl (.refl ?_ _)⟩
        rw [hdrains, hi]
        rintro ⟨w, hw, _⟩
        cases hw
      | some w =>
        dsimp only
        cases handedUp w ev with
        | none =>
          obtain ⟨hw', htells'⟩ := hw.reportBroken evp p.pool.broken timerOk
          exact ⟨hw', Or.inl (htells.trans htells' (fun hd => hd.2)
            (hdrains.trans (iff_of_eq (or_false _)).symm))⟩
        | some frame =>
          obtain ⟨hw', htells'⟩ := hw.onSession_tells evp
            (.call (.envelope frame allocs feed) retireOk) (Or.inr fun _ _ _ hev => by cases hev)
          obtain ⟨hw'', htells''⟩ := hw'.reportBroken evp p.pool.broken timerOk
          have hfirst := htells.trans htells' (fun hd => hd.2)
            (hdrains.trans (iff_of_eq (or_false _)).symm)
          exact ⟨hw'', Or.inl (hfirst.trans htells'' (fun hd => hd.2) (iff_of_eq (or_false _)).symm)⟩
    · rw [if_neg hown]
      refine ⟨h, Or.inl (.refl (hnone ?_) _)⟩
      dsimp only [connStep]
      rw [if_neg hown]

/-! ## Runs -/

theorem wired_init {config : SessionConfig} {timerOk : Bool} {p : PooledSession}
    (h : init config timerOk = some p) : p.Wired ∧ p.told = [] := by
  unfold init at h
  split at h
  · next t sb ht hsb =>
    obtain rfl := Option.some.inj h
    exact ⟨⟨Or.inl (TimedSession.init_good ht), Switchboard.sound_init hsb, fun hb => by cases hb⟩, rfl⟩
  · cases h

theorem quietAfterBroken_of_not_mem {told : List OwnerCall} (h : .broken ∉ told) :
    QuietAfterBroken told := by
  intro pre post heq
  exact absurd (heq ▸ List.mem_append_right _ List.mem_cons_self) h

/-- More callbacks never mend a record. -/
theorem QuietAfterBroken.of_append {told new : List OwnerCall} (h : QuietAfterBroken (told ++ new)) :
    QuietAfterBroken told := by
  intro pre post heq c hc
  exact h pre (post ++ new) (by rw [heq, List.append_assoc, List.cons_append]) c
    (List.mem_append_left _ hc)

theorem quietAfterBroken_concat {told : List OwnerCall} (h : .broken ∉ told) :
    QuietAfterBroken (told ++ [.broken]) := by
  intro pre post heq c hc
  rcases List.eq_nil_or_concat post with rfl | ⟨post', x, rfl⟩
  · cases hc
  · -- the one `broken` of the record is its last entry
    have heq' : told ++ [.broken] = (pre ++ .broken :: post') ++ [x] := by simpa using heq
    rw [(List.append_inj' heq' rfl).1] at h
    exact absurd (List.mem_append_right _ List.mem_cons_self) h

/-- The record stays quiet in an event exactly if nothing drains after `on_broken`. -/
theorem Wired.quiet_step {evp : Evp} {p : PooledSession} (h : p.Wired) (e : PoolEv)
    (hq : QuietAfterBroken p.told) :
    QuietAfterBroken (p.step evp e).told ↔ p.Undrained evp e := by
  rcases (h.step evp e).2 with ⟨new, heq, hafter, hnew⟩ | ⟨heq, hb⟩
  · rw [heq]
    by_cases hb : .broken ∈ p.told
    · rcases hafter hb with ⟨rfl, hno⟩ | ⟨rfl, hdrains⟩
      · rw [List.append_nil]
        exact ⟨fun _ _ => hno, fun _ => hq⟩
      · refine ⟨fun hquiet => ?_, fun hu => absurd hdrains (hu hb)⟩
        obtain ⟨pre, post, hsplit⟩ := List.append_of_mem hb
        have hlast := hquiet pre (post ++ [.writable])
          (by rw [hsplit, List.append_assoc, List.cons_append]) .writable
          (List.mem_append_right _ List.mem_cons_self)
        cases hlast
    · exact ⟨fun _ hmem => absurd hmem hb, fun _ => quietAfterBroken_of_not_mem fun hmem =>
        (List.mem_append.mp hmem).elim hb hnew⟩
  · rw [heq]
    exact ⟨fun _ hmem => absurd hmem hb, fun _ => quietAfterBroken_concat hb⟩

/-- Callbacks are only added. -/
theorem Wired.told_run (evp : Evp) (es : List PoolEv) {p : PooledSession} (h : p.Wired) :
    ∃ new, (run (PooledSession.step evp) p es).told = p.told ++ new := by
  induction es generalizing p with
  | nil => exact ⟨[], (List.append_nil _).symm⟩
  | cons e es ih =>
    obtain ⟨hw, htold⟩ := h.step evp e
    obtain ⟨new', heq'⟩ := ih hw
    obtain ⟨new, heq⟩ : ∃ new, (p.step evp e).told = p.told ++ new := by
      rcases htold with ⟨new, heq, _⟩ | ⟨heq, _⟩
      · exact ⟨new, heq⟩
      · exact ⟨_, heq⟩
    refine ⟨new ++ new', ?_⟩
    rw [← List.append_assoc, ← heq]
    exact heq'

theorem Wired.quiet_run {evp : Evp} (es : List PoolEv) {p : PooledSession} (h : p.Wired)
    (hq : QuietAfterBroken p.told) :
    QuietAfterBroken (run (PooledSession.step evp) p es).told
      ↔ Obeys (PooledSession.step evp) (Undrained evp) p es := by
  induction es generalizing p with
  | nil => exact ⟨fun _ => trivial, fun _ => hq⟩
  | cons e es ih =>
    have hw := (h.step evp e).1
    by_cases hu : p.Undrained evp e
    · exact (ih hw ((h.quiet_step e hq).mpr hu)).trans (and_iff_right hu).symm
    · refine ⟨fun hquiet => ?_, fun hobeys => absurd hobeys.1 hu⟩
      obtain ⟨new, heq⟩ := hw.told_run evp es
      change QuietAfterBroken (run (PooledSession.step evp) (p.step evp e) es).told at hquiet
      rw [heq] at hquiet
      exact absurd ((h.quiet_step e hq).mp hquiet.of_append) hu

/-- The owner hears nothing after `on_broken` exactly in the runs in which, from `on_broken` on until
    the connections are closed, none that has been waiting for its socket runs empty. -/
theorem quietAfterBroken_iff (evp : Evp) (config : SessionConfig) (timerOk : Bool)
    (p₀ : PooledSession) (h0 : init config timerOk = some p₀) (es : List PoolEv) :
    QuietAfterBroken (run (step evp) p₀ es).told ↔ Obeys (step evp) (Undrained evp) p₀ es := by
  obtain ⟨hw, htold⟩ := wired_init h0
  exact hw.quiet_run es (quietAfterBroken_of_not_mem (by rw [htold]; exact List.not_mem_nil))

/-- The record of the peer's first frame on stream 5. -/
def peerRecord : List UInt8 :=
  ConnWorld.tlsHeader (Session.envelopeOf Session.smallConfig.obfuscator (Session.firstData 5)).length
    ++ Session.envelopeOf Session.smallConfig.obfuscator (Session.firstData 5)

/-- The peer opens stream 5 over the first of two connections. One byte is written to it and goes out
    over the same connection, whose socket asks to wait. The peer of the second hangs up. -/
def loseOne : List PoolEv :=
  [.addConn .tlsRecord, .addConn .tlsRecord,
    .conn 0 (.read connIoChunk peerRecord) ⟨true, true, true⟩ ⟨true, true⟩ true true,
    .conn 0 (.dispatch [] []) ⟨true, true, true⟩ ⟨true, true⟩ true true,
    .owner (.call (.write 0 [7] ⟨0, fun _ => 0⟩) true) ⟨0, [.again], []⟩ true,
    .returned ⟨0, fun _ => 0⟩ ⟨0, [], []⟩ true true,
    .conn 1 .hangUp ⟨true, true, true⟩ ⟨true, true⟩ true true]

/-- The teardown timer `id` fires. -/
def fireTimer (id : Nat) : PoolEv :=
  .owner (.fire id ⟨0, fun _ => 0, ⟨⟨0, fun _ => 0⟩, true⟩⟩ true) ⟨0, [], []⟩ true

/-- The owner releases the stream, which the broken pool does not carry. -/
def releaseFirst : List PoolEv :=
  [.owner (.call (.releaseStream 0 ⟨0, fun _ => 0, ⟨⟨0, fun _ => 0⟩, true⟩⟩) true) ⟨0, [], []⟩ true,
    .returned ⟨0, fun _ => 0⟩ ⟨0, [], []⟩ true true]

/-- The socket of the first connection takes everything. -/
def drainFirst : PoolEv :=
  .conn 0 (.drain [.wrote connIoChunk]) ⟨true, true, true⟩ ⟨true, true⟩ true true

/-- The session `init` makes of `smallConfig`. -/
def smallPool : PooledSession := (init Session.smallConfig true).get rfl

theorem init_smallPool : init Session.smallConfig true = some smallPool := rfl

/-- The peer's record has arrived. -/
def recordIn : PooledSession := run (step Evp.plain) smallPool (loseOne.take 3)

/-- What the record carries is handed up. -/
def hearFirst : PoolEv := .conn 0 (.dispatch [] []) ⟨true, true, true⟩ ⟨true, true⟩ true true

/-- The session has heard the peer's first frame. -/
def firstHeard : PooledSession :=
  { recordIn.onConn 0 (.dispatch [] []) with
    timed := TimedSession.smallOpened
    told := [.newStream 5] }

theorem handedUp_recordIn : recordIn.pool.conns[0]?.bind (handedUp · (.dispatch [] []))
    = some (Session.envelopeOf Session.smallConfig.obfuscator (Session.firstData 5)) := by
  decide +kernel

theorem step_hearFirst : step Evp.plain recordIn hearFirst = firstHeard := by
  obtain ⟨w, hw, hup⟩ := Option.bind_eq_some_iff.mp handedUp_recordIn
  have hdeob := Session.deobfuscate_envelopeOf Session.smallConfig.obfuscator (Session.firstData 5)
    (by decide) (by decide) (by decide)
  have hopened : TimedSession.step Evp.plain TimedSession.small
      (TimedSession.peerEnvelope (Session.firstData 5)) = TimedSession.smallOpened :=
    TimedSession.step_newStream rfl rfl rfl hdeob (by decide) (by decide +kernel) rfl
  have htimed : (recordIn.onConn 0 (.dispatch [] [])).timed = TimedSession.small := by
    rw [onConn, hw]
    rfl
  have htold : (recordIn.onConn 0 (.dispatch [] [])).told = [] := by decide +kernel
  have hbroken : (recordIn.onConn 0 (.dispatch [] [])).pool.broken = false := by decide +kernel
  have hswept : TimedSession.smallOpened.swept = false := by decide +kernel
  have hnews : news TimedSession.small.base TimedSession.smallOpened.base = [.newStream 5] := by
    decide +kernel
  have hsession : (recordIn.onConn 0 (.dispatch [] [])).onSession Evp.plain
      (TimedSession.peerEnvelope (Session.firstData 5)) = firstHeard := by
    rw [onSession, htimed, hopened, hswept, htold, hnews]
    rfl
  simp only [step, hearFirst, ConnEv.isOwn, if_true, hw, hup]
  change reportBroken Evp.plain recordIn.pool.broken true
    ((recordIn.onConn 0 (.dispatch [] [])).onSession Evp.plain
      (TimedSession.peerEnvelope (Session.firstData 5))) = firstHeard
  rw [hsession, reportBroken, if_neg fun h => Bool.false_ne_true (hbroken.symm.trans h.2)]

/-- A run that begins with `loseOne`, behind the peer's first frame. -/
theorem run_loseOne (es : List PoolEv) : run (step Evp.plain) smallPool (loseOne ++ es)
    = run (step Evp.plain) firstHeard (loseOne.drop 4 ++ es) := by
  have hcut : loseOne ++ es = loseOne.take 3 ++ hearFirst :: (loseOne.drop 4 ++ es) := rfl
  rw [hcut, run_append, ← recordIn, run, List.foldl_cons, step_hearFirst]
  rfl

/-- Both timers fire before the socket is ready again. -/
theorem quietAfterBroken_swept : ∃ p₀, init Session.smallConfig true = some p₀
    ∧ Obeys (step Evp.plain) (Undrained Evp.plain) p₀
      (loseOne ++ fireTimer 2 :: releaseFirst ++ [fireTimer 3, drainFirst]) := by
  refine ⟨smallPool, init_smallPool,
    (quietAfterBroken_iff Evp.plain Session.smallConfig true smallPool init_smallPool _).mp ?_⟩
  have htold : (run (step Evp.plain) smallPool
      (loseOne ++ fireTimer 2 :: releaseFirst ++ [fireTimer 3, drainFirst])).told
        = [.newStream 5] ++ [.broken] := by
    rw [List.append_assoc, run_loseOne]
    decide +kernel
  exact htold.symm ▸ quietAfterBroken_concat (by decide)

/-- The owner releases its streams inside `on_broken`, and the socket is ready again between the two
    timers: `on_writable` is called after `on_broken`. -/
theorem writable_after_broken : ∃ p₀, init Session.smallConfig true = some p₀
    ∧ (run (step Evp.plain) p₀ (loseOne ++ fireTimer 2 :: releaseFirst ++ [drainFirst])).told
      = [.newStream 5, .broken, .writable]
    ∧ ¬ QuietAfterBroken
      (run (step Evp.plain) p₀ (loseOne ++ fireTimer 2 :: releaseFirst ++ [drainFirst])).told := by
  have htold : (run (step Evp.plain) smallPool
      (loseOne ++ fireTimer 2 :: releaseFirst ++ [drainFirst])).told
        = [.newStream 5, .broken, .writable] := by
    rw [List.append_assoc, run_loseOne]
    decide +kernel
  refine ⟨smallPool, init_smallPool, htold, fun hquiet => ?_⟩
  have hlast := hquiet [.newStream 5] [.writable] htold .writable List.mem_cons_self
  cases hlast

end PooledSession

end Cloak
