import Cloak.Mux.SessionIsolation
import Cloak.Server.RegistryChains

set_option autoImplicit false

/-! # The session registry (`registry.c`)

The server's sessions, found by uid and session id. A session that has broken is dead: the lookups
skip it, and a deferred sweep frees it. Until then a new session of the same pair may stand beside
it.

Every entry is in the key chain of its pair and in the uid chain of its uid, and a new entry goes to
the head of both. `entries` is all of them with the newest first, so a walk of one chain meets the
entries it looks for in the order of this list.

What the operations can do to the live sessions is said once. `Shrinks` is all but the creation of
a session: each live entry was live before, with the same pair and configuration. -/

namespace Cloak

/-- `struct cloak_registry_entry`. `address` stands for the allocation, which never moves. -/
structure RegistryEntry where
  address : Nat
  uid : List UInt8
  sessionId : Nat
  sesh : PooledSession
  dead : Bool

/-- The configuration the session was set up with. -/
def RegistryEntry.config (e : RegistryEntry) : SessionConfig := e.sesh.timed.base.config

/-- `cloak_server_registry_t`. -/
structure Registry where
  entries : List RegistryEntry
  deadChain : List Nat
  sweepTimer : Bool
  nextAddress : Nat

/-- The configuration of a session never changes. -/
theorem PooledSession.config_step (evp : Evp) (p : PooledSession) (e : PoolEv) :
    (p.step evp e).timed.base.config = p.timed.base.config := by
  refine PooledSession.step_invariant
    (P := fun q : PooledSession => q.timed.base.config = p.timed.base.config) ?_ ?_ ?_ ?_ rfl e
  · intro q ev hq
    obtain ⟨sev, hmoves⟩ := TimedSession.step_base_moves evp q.timed ev
    exact hmoves.invariant (P := fun s => s.config = p.timed.base.config)
      (fun _ _ hmove hs => hmove.config.trans hs) hq
  · intro q i ev hq
    unfold PooledSession.onConn
    split
    · exact hq
    · exact hq
  · intro q sends hq
    exact hq
  · intro q framing pool _ _ hq
    exact hq

/-- `cloak_session_add_conn_framed`, and whether the connection can be allocated. -/
def PooledSession.addConnFramed (p : PooledSession) (framing : Framing) (connOk : Bool) :
    Option PooledSession :=
  if p.timed.base.closed then none
  else if !connOk then none
  else (p.pool.addConnFramed framing).map fun pool => { p with pool := pool }

theorem PooledSession.config_addConnFramed {p q : PooledSession} {framing : Framing} {connOk : Bool}
    (h : p.addConnFramed framing connOk = some q) :
    q.timed.base.config = p.timed.base.config := by
  unfold addConnFramed at h
  split_ifs at h
  obtain ⟨pool, -, rfl⟩ := Option.map_eq_some_iff.mp h
  rfl

namespace Registry

/-- `cloak_server_registry_init`. -/
def init : Registry := ⟨[], [], false, 0⟩

/-- The live entry of a pair. -/
def isLive (uid : List UInt8) (sessionId : Nat) (e : RegistryEntry) : Bool :=
  !e.dead && e.sessionId = sessionId && e.uid = uid

/-- `registry_find_live`. -/
def findLive (r : Registry) (uid : List UInt8) (sessionId : Nat) : Option RegistryEntry :=
  r.entries.find? (isLive uid sessionId)

/-- `cloak_server_registry_find`. -/
def find (r : Registry) (uid : List UInt8) (sessionId : Nat) : Option RegistryEntry :=
  r.findLive uid sessionId

/-- `cloak_server_registry_get_or_create`, with whether the entry and what its session needs can be
    allocated: the entry, and whether it is new. -/
def getOrCreate (r : Registry) (uid : List UInt8) (sessionId : Nat) (config : SessionConfig)
    (allocOk timerOk : Bool) : Registry × Option (RegistryEntry × Bool) :=
  match r.findLive uid sessionId with
  | some e => (r, some (e, false))
  | none =>
    if registryMaxSessions ≤ r.entries.length then (r, none)
    else if !allocOk then (r, none)
    else
      match PooledSession.init config timerOk with
      | none => (r, none)
      | some sesh =>
        ({ r with
            entries := ⟨r.nextAddress, uid, sessionId, sesh, false⟩ :: r.entries
            nextAddress := r.nextAddress + 1 },
          some (⟨r.nextAddress, uid, sessionId, sesh, false⟩, true))

/-- `registry_entry_unlink` and `registry_free_entry`. -/
def remove (r : Registry) (a : Nat) : Registry :=
  { r with
    entries := r.entries.filter (·.address ≠ a)
    deadChain := r.deadChain.filter (· ≠ a) }

/-- `cloak_server_registry_close`. -/
def close (r : Registry) (uid : List UInt8) (sessionId : Nat) : Registry :=
  match r.findLive uid sessionId with
  | none => r
  | some e => r.remove e.address

/-- `cloak_server_registry_close_all_for_uid`, dead entries included. -/
def closeAllForUid (r : Registry) (uid : List UInt8) : Registry :=
  (r.entries.filter (·.uid = uid)).foldl (fun r e => r.remove e.address) r

/-- `registry_sweep_dead_entries`. -/
def sweepDeadEntries (r : Registry) : Registry := r.deadChain.foldl remove r

/-- `registry_sweep_timer_cb`. -/
def sweepTimerCb (r : Registry) : Registry :=
  if r.sweepTimer then sweepDeadEntries { r with sweepTimer := false } else r

/-- Puts a changed entry back. -/
def update (r : Registry) (a : Nat) (f : RegistryEntry → RegistryEntry) : Registry :=
  { r with entries := r.entries.map fun e => if e.address = a then f e else e }

/-- The session at `a` after `cloak_session_add_conn_framed`. -/
def attach (r : Registry) (a : Nat) (framing : Framing) (connOk : Bool) : Registry :=
  r.update a fun e => { e with sesh := (e.sesh.addConnFramed framing connOk).getD e.sesh }

/-- `registry_mark_dead`. -/
def markDead (r : Registry) (a : Nat) : Registry :=
  { r.update a fun e => { e with dead := true } with deadChain := a :: r.deadChain }

/-- `registry_arm_sweep`. -/
def armSweep (r : Registry) (timerOk : Bool) : Registry :=
  if r.sweepTimer then r
  else if timerOk then { r with sweepTimer := true }
  else r.sweepDeadEntries

/-- `registry_on_session_broken`, around the owner's callback. -/
def onSessionBroken (r : Registry) (a : Nat) (timerOk : Bool) : Registry :=
  (r.markDead a).armSweep timerOk

/-- An event of the session at `a`. If it tells its owner that it is broken, the registry is the one
    to hear it. -/
def stepSession (evp : Evp) (r : Registry) (a : Nat) (ev : PoolEv) (timerOk : Bool) : Registry :=
  match r.entries.find? (·.address = a) with
  | none => r
  | some e =>
    if .broken ∈ (e.sesh.step evp ev).told.drop e.sesh.told.length then
      (r.update a fun e => { e with sesh := e.sesh.step evp ev }).onSessionBroken a timerOk
    else r.update a fun e => { e with sesh := e.sesh.step evp ev }

/-! ## What becomes of the live sessions -/

/-- The two are one session of one pair. -/
structure SameSession (e e' : RegistryEntry) : Prop where
  address : e.address = e'.address
  uid : e.uid = e'.uid
  sessionId : e.sessionId = e'.sessionId
  config : e.config = e'.config

theorem SameSession.refl (e : RegistryEntry) : SameSession e e := ⟨rfl, rfl, rfl, rfl⟩

theorem SameSession.trans {e e' e'' : RegistryEntry} (h : SameSession e e')
    (h' : SameSession e' e'') : SameSession e e'' :=
  ⟨h.address.trans h'.address, h.uid.trans h'.uid, h.sessionId.trans h'.sessionId,
    h.config.trans h'.config⟩

/-- No session has come to life, and those that live are what they were. -/
def Shrinks (r r' : Registry) : Prop :=
  ∀ e' ∈ r'.entries, e'.dead = false → ∃ e ∈ r.entries, e.dead = false ∧ SameSession e e'

theorem Shrinks.refl (r : Registry) : r.Shrinks r :=
  fun e he hlive => ⟨e, he, hlive, .refl e⟩

theorem Shrinks.trans {r r' r'' : Registry} (h : r.Shrinks r') (h' : r'.Shrinks r'') :
    r.Shrinks r'' := by
  intro e'' he'' hlive''
  obtain ⟨e', he', hlive', hsame'⟩ := h' e'' he'' hlive''
  obtain ⟨e, he, hlive, hsame⟩ := h e' he' hlive'
  exact ⟨e, he, hlive, hsame.trans hsame'⟩

theorem shrinks_of_subset {r r' : Registry} (h : r'.entries ⊆ r.entries) : r.Shrinks r' :=
  fun e he hlive => ⟨e, h he, hlive, .refl e⟩

theorem shrinks_remove (r : Registry) (a : Nat) : r.Shrinks (r.remove a) :=
  shrinks_of_subset (List.filter_subset_self _)

theorem shrinks_close (r : Registry) (uid : List UInt8) (sessionId : Nat) :
    r.Shrinks (r.close uid sessionId) := by
  unfold close
  split
  · exact .refl r
  · exact shrinks_remove r _

theorem shrinks_foldl {α : Type} {f : Registry → α → Registry}
    (hf : ∀ (r : Registry) a, r.Shrinks (f r a)) (as : List α) (r : Registry) : r.Shrinks (as.foldl f r) := by
  induction as generalizing r with
  | nil => exact .refl r
  | cons a as ih => exact (hf r a).trans (ih _)

theorem shrinks_closeAllForUid (r : Registry) (uid : List UInt8) :
    r.Shrinks (r.closeAllForUid uid) :=
  shrinks_foldl (fun r (e : RegistryEntry) => shrinks_remove r e.address) _ r

theorem shrinks_sweepDeadEntries (r : Registry) : r.Shrinks r.sweepDeadEntries :=
  shrinks_foldl shrinks_remove _ r

theorem shrinks_sweepTimerCb (r : Registry) : r.Shrinks r.sweepTimerCb := by
  unfold sweepTimerCb
  split
  · exact (shrinks_of_subset (List.Subset.refl _)).trans (shrinks_sweepDeadEntries _)
  · exact .refl r

/-- A change of one entry that does not bring it back to life. -/
theorem shrinks_update (r : Registry) (a : Nat) {f : RegistryEntry → RegistryEntry}
    (hsame : ∀ e, SameSession e (f e)) (hdead : ∀ e, (f e).dead = false → e.dead = false) :
    r.Shrinks (r.update a f) := by
  intro e' he' hlive
  obtain ⟨e, he, rfl⟩ := List.mem_map.mp he'
  by_cases ha : e.address = a
  · rw [if_pos ha] at hlive ⊢
    exact ⟨e, he, hdead e hlive, hsame e⟩
  · rw [if_neg ha] at hlive ⊢
    exact ⟨e, he, hlive, .refl e⟩

theorem shrinks_attach (r : Registry) (a : Nat) (framing : Framing) (connOk : Bool) :
    r.Shrinks (r.attach a framing connOk) := by
  refine r.shrinks_update a (fun e => ⟨rfl, rfl, rfl, ?_⟩) (fun _ h => h)
  unfold RegistryEntry.config
  cases hadd : e.sesh.addConnFramed framing connOk with
  | none => rfl
  | some q => exact (PooledSession.config_addConnFramed hadd).symm

theorem shrinks_onSessionBroken (r : Registry) (a : Nat) (timerOk : Bool) :
    r.Shrinks (r.onSessionBroken a timerOk) := by
  have hmark : r.Shrinks (r.markDead a) :=
    (r.shrinks_update a (f := fun e => { e with dead := true }) (fun e => ⟨rfl, rfl, rfl, rfl⟩)
      (fun e h => by cases h)).trans (shrinks_of_subset (List.Subset.refl _))
  refine hmark.trans ?_
  unfold onSessionBroken armSweep
  split
  · exact .refl _
  · split
    · exact shrinks_of_subset (List.Subset.refl _)
    · exact shrinks_sweepDeadEntries _

theorem shrinks_stepSession (evp : Evp) (r : Registry) (a : Nat) (ev : PoolEv) (timerOk : Bool) :
    r.Shrinks (r.stepSession evp a ev timerOk) := by
  have hstep : r.Shrinks (r.update a fun e => { e with sesh := e.sesh.step evp ev }) :=
    r.shrinks_update a (fun e => ⟨rfl, rfl, rfl, (e.sesh.config_step evp ev).symm⟩) (fun e h => h)
  unfold stepSession
  split
  · exact .refl r
  · split
    · exact hstep.trans (shrinks_onSessionBroken _ _ _)
    · exact hstep

/-! ## One live session for each pair -/

/-- What a lookup finds is live and has the pair. -/
theorem find_some {r : Registry} {uid : List UInt8} {sessionId : Nat} {e : RegistryEntry}
    (h : r.find uid sessionId = some e) :
    e ∈ r.entries ∧ e.dead = false ∧ e.uid = uid ∧ e.sessionId = sessionId := by
  have hp := List.find?_some h
  simp only [isLive, Bool.and_eq_true, Bool.not_eq_true', decide_eq_true_eq] at hp
  exact ⟨List.mem_of_find?_eq_some h, hp.1.1, hp.2, hp.1.2⟩

/-- Where a lookup finds nothing there is nothing. -/
theorem find_none {r : Registry} {uid : List UInt8} {sessionId : Nat}
    (h : r.find uid sessionId = none) {e : RegistryEntry} (he : e ∈ r.entries)
    (hlive : e.dead = false) (huid : e.uid = uid) : e.sessionId ≠ sessionId := by
  intro hid
  have hno := List.find?_eq_none.mp h e he
  simp [isLive, hlive, huid, hid] at hno

/-- Two live entries of one pair are one session. -/
def Unique (r : Registry) : Prop :=
  ∀ e ∈ r.entries, ∀ e' ∈ r.entries, e.dead = false → e'.dead = false → e.uid = e'.uid →
    e.sessionId = e'.sessionId → SameSession e e'

theorem unique_init : init.Unique := fun _ he => absurd he List.not_mem_nil

theorem SameSession.symm {e e' : RegistryEntry} (h : SameSession e e') : SameSession e' e :=
  ⟨h.address.symm, h.uid.symm, h.sessionId.symm, h.config.symm⟩

theorem Unique.shrinks {r r' : Registry} (h : r.Unique) (hr : r.Shrinks r') : r'.Unique := by
  intro e he e' he' hlive hlive' huid hid
  obtain ⟨f, hf, hflive, hfsame⟩ := hr e he hlive
  obtain ⟨f', hf', hflive', hfsame'⟩ := hr e' he' hlive'
  have hone := h f hf f' hf' hflive hflive' (by rw [hfsame.uid, hfsame'.uid, huid])
    (by rw [hfsame.sessionId, hfsame'.sessionId, hid])
  exact hfsame.symm.trans (hone.trans hfsame')

/-- What `cloak_server_registry_get_or_create` does for a pair that has no live session: nothing, or
    one new session with the configuration it was given. -/
theorem getOrCreate_cases {r : Registry} {uid : List UInt8} {sessionId : Nat}
    (hnone : r.find uid sessionId = none) (config : SessionConfig) (allocOk timerOk : Bool) :
    r.getOrCreate uid sessionId config allocOk timerOk = (r, none)
      ∨ ∃ e, e.uid = uid ∧ e.sessionId = sessionId ∧ e.config = config ∧ e.dead = false
        ∧ r.getOrCreate uid sessionId config allocOk timerOk
          = ({ r with entries := e :: r.entries, nextAddress := r.nextAddress + 1 },
              some (e, true)) := by
  unfold find at hnone
  unfold getOrCreate
  rw [hnone]
  dsimp only
  split
  · exact .inl rfl
  · split
    · exact .inl rfl
    · split
      · exact .inl rfl
      · next sesh hinit =>
        refine .inr ⟨_, rfl, rfl, ?_, rfl, rfl⟩
        exact (PooledSession.fitted_init hinit).2.sized.config

/-- A new session keeps it that way. -/
theorem Unique.cons {r : Registry} (h : r.Unique) {e : RegistryEntry}
    (hnone : r.find e.uid e.sessionId = none) :
    Unique { r with entries := e :: r.entries, nextAddress := r.nextAddress + 1 } := by
  intro f hf f' hf' hlive hlive' huid hid
  rcases List.mem_cons.mp hf with rfl | hf₀
  · rcases List.mem_cons.mp hf' with rfl | hf₀'
    · exact .refl _
    · exact absurd hid.symm (find_none hnone hf₀' hlive' huid.symm)
  · rcases List.mem_cons.mp hf' with rfl | hf₀'
    · exact absurd hid (find_none hnone hf₀ hlive huid)
    · exact h f hf₀ f' hf₀' hlive hlive' huid hid

end Registry

end Cloak
