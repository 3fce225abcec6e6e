import Cloak.Mux.Relay

set_option autoImplicit false

/-! # Back-pressure

The pauses of a session and what ends them. A connection that cannot write waits for its socket, one
whose reading the valve has stopped waits for its timer, and a relay that stops reading its
descriptor waits for the valve's timer or for the pool. The pool's part runs through three modules:
the connection reports an empty queue, the session passes that on as `on_writable`, and the owner of
the session tells all its relays, one after the other (`proxy_on_writable`, `piper_on_writable`).

The machine interleaves the parts of these callbacks freely. `conn` is a step of a connection: the
frames relays and sessions send are such steps, at any time. A drained connection starts a walk over
the relays, and a walk may be interrupted by anything, other walks included. Between two events of
the reactor no walk is in progress.

The point of the invariant (`Inv.waits`) is the relay that waits for the pool. It paused because some
connection could not take one frame; an empty queue could, by the check at the start of every relay,
so that connection has something queued. It has write interest then, and the step that empties the
last such queue is the one that starts a walk. -/

namespace Cloak

open Lib

/-- An open session's pool and relays, and the walks of `on_writable` in progress, innermost first:
    the relays each still has to tell. -/
structure RelayedSession where
  pool : Switchboard
  relays : List Relay
  walks : List (List Nat)
  closed : Bool

/-- What can happen. Relays are named by their place; one that is done stays there. -/
inductive FlowEv where
  | addConn (framing : Framing)
  | conn (i : Nat) (ev : ConnEv)
  | startRelay (kind : RelayKind) (stream : Stream) (ended timerOk : Bool)
  | pumpTurn (i : Nat) (v : ValveReading) (timerOk : Bool) (fd : FdRead)
  | rateTimer (i : Nat) (v : ValveReading) (timerOk : Bool)
  | finishTimer (i : Nat)
  | streamData (i : Nat) (ended : Bool)
  | stopRelay (i : Nat)
  | notifyNext (v : ValveReading) (timerOk : Bool)
  | close

namespace RelayedSession

/-- A relay's own step. -/
def onRelay (s : RelayedSession) (i : Nat) (f : Relay → Relay) : RelayedSession :=
  match s.relays[i]? with
  | none => s
  | some r => { s with relays := s.relays.set i (f r) }

/-- A connection's step, with `on_drained` and the end of a broken pool behind it. -/
def onConn (s : RelayedSession) (i : Nat) (ev : ConnEv) : RelayedSession :=
  match s.pool.conns[i]? with
  | none => s
  | some w =>
    { s with
      pool := s.pool.stepConn i ev
      walks :=
        if w.drained < (w.step ev).drained then List.range s.relays.length :: s.walks else s.walks
      closed := (s.pool.stepConn i ev).broken }

/-- The innermost walk tells its next relay, or ends. -/
def notifyNext (s : RelayedSession) (v : ValveReading) (timerOk : Bool) : RelayedSession :=
  match s.walks with
  | [] => s
  | [] :: walks => { s with walks := walks }
  | (i :: rest) :: walks =>
    { s.onRelay i (·.notifyWritable s.pool.minConnFree v timerOk) with walks := rest :: walks }

/-- One event. -/
def step (s : RelayedSession) (ev : FlowEv) : RelayedSession :=
  if s.closed then s
  else
    match ev with
    | .addConn framing =>
      match s.pool.addConnFramed framing with
      | none => s
      | some pool => { s with pool := pool }
    | .conn i ev => s.onConn i ev
    | .startRelay kind stream ended timerOk =>
      match Relay.start kind stream s.pool.minConnFree ended timerOk with
      | none => s
      | some r => { s with relays := s.relays ++ [r] }
    | .pumpTurn i v timerOk fd => s.onRelay i (·.pumpTurn s.pool.minConnFree v timerOk fd)
    | .rateTimer i v timerOk => s.onRelay i (·.onRateTimer s.pool.minConnFree v timerOk)
    | .finishTimer i => s.onRelay i Relay.onFinishTimer
    | .streamData i ended => s.onRelay i (·.onStreamData ended)
    | .stopRelay i => s.onRelay i Relay.teardown
    | .notifyNext v timerOk => s.notifyNext v timerOk
    | .close => { s with closed := true }

end RelayedSession

/-! ## One relay -/

namespace Relay

/-- A pause with something behind it: a timer, the end, or a pool that is `busy`. -/
def Settled (busy : Prop) (r : Relay) : Prop :=
  r.fdReadPaused = true → r.rateTimer = true ∨ r.isFinishing = true ∨ busy

theorem Settled.mono {p q : Prop} {r : Relay} (h : r.Settled p) (hpq : p → q) : r.Settled q :=
  fun hpaused => (h hpaused).imp_right (Or.imp_right hpq)

theorem settled_teardown (busy : Prop) (r : Relay) : r.teardown.Settled busy := by
  intro _
  unfold teardown
  split
  · next hdone => exact Or.inr (Or.inl (by rw [isFinishing, hdone, Bool.true_or]))
  · exact Or.inr (Or.inl rfl)

@[simp] theorem stream_teardown (r : Relay) : r.teardown.stream = r.stream := by
  unfold teardown
  split <;> rfl

variable {busy : Prop} {r : Relay} {minConnFree : Nat} {v : ValveReading}

/-- Without room, the timer is armed unless the pool is the reason. -/
theorem settled_pauseOrFinish (hbusy : minConnFree < streamRelayFrameCost r.stream → busy)
    (hroom : (r.room minConnFree v).1 = false) (timerOk : Bool) :
    (r.pauseOrFinish (r.room minConnFree v).2 timerOk).Settled busy
      ∧ (r.pauseOrFinish (r.room minConnFree v).2 timerOk).stream = r.stream := by
  unfold pauseOrFinish
  split
  · unfold armRateTimer
    split
    · next harm =>
      split at harm
      · obtain ⟨rfl, _⟩ := Prod.mk.inj harm
        exact ⟨fun _ => Or.inl (by assumption), rfl⟩
      · obtain ⟨rfl, hok⟩ := Prod.mk.inj harm
        exact ⟨fun _ => Or.inl hok, rfl⟩
    · next harm =>
      refine ⟨settled_teardown busy _, ?_⟩
      rw [stream_teardown]
      split at harm
      · cases harm
      · obtain ⟨rfl, _⟩ := Prod.mk.inj harm
        rfl
  · next hdelay =>
    refine ⟨fun _ => Or.inr (Or.inr (hbusy ?_)), rfl⟩
    rcases room_eq_false hroom with hpool | hvalve
    · exact hpool
    · exact absurd hvalve hdelay

/-- A relay that was told of a drain has something behind its pause. -/
theorem settled_notifyWritable (hbusy : minConnFree < streamRelayFrameCost r.stream → busy)
    (v : ValveReading) (timerOk : Bool) :
    (r.notifyWritable minConnFree v timerOk).Settled busy
      ∧ (r.notifyWritable minConnFree v timerOk).stream = r.stream := by
  unfold notifyWritable
  split
  · next hskip =>
    refine ⟨fun hpaused => ?_, rfl⟩
    rcases hskip with hfin | hopen
    · exact Or.inr (Or.inl hfin)
    · rw [hopen] at hpaused
      cases hpaused
  · split
    · next hroom => exact settled_pauseOrFinish hbusy hroom timerOk
    · exact ⟨fun hpaused => absurd hpaused Bool.false_ne_true, rfl⟩

theorem settled_pumpTurn (hbusy : minConnFree < streamRelayFrameCost r.stream → busy)
    (v : ValveReading) (timerOk : Bool) (fd : FdRead) :
    (r.pumpTurn minConnFree v timerOk fd = r ∨ (r.pumpTurn minConnFree v timerOk fd).Settled busy)
      ∧ (r.pumpTurn minConnFree v timerOk fd).stream = r.stream := by
  unfold pumpTurn
  split
  · exact ⟨Or.inl rfl, rfl⟩
  · split
    · next hroom =>
      obtain ⟨hset, hst⟩ := settled_pauseOrFinish hbusy hroom timerOk
      exact ⟨Or.inr hset, hst⟩
    · split
      · exact ⟨Or.inr (settled_teardown busy r), stream_teardown r⟩
      · exact ⟨Or.inl rfl, rfl⟩

theorem settled_onRateTimer (hbusy : minConnFree < streamRelayFrameCost r.stream → busy)
    (v : ValveReading) (timerOk : Bool) :
    (r.onRateTimer minConnFree v timerOk = r ∨ (r.onRateTimer minConnFree v timerOk).Settled busy)
      ∧ (r.onRateTimer minConnFree v timerOk).stream = r.stream := by
  unfold onRateTimer
  split
  · obtain ⟨hset, hst⟩ := settled_notifyWritable (r := { r with rateTimer := false }) hbusy v
      timerOk
    exact ⟨Or.inr hset, hst⟩
  · exact ⟨Or.inl rfl, rfl⟩

theorem settled_onFinishTimer (busy : Prop) (r : Relay) :
    (r.onFinishTimer = r ∨ r.onFinishTimer.Settled busy) ∧ r.onFinishTimer.stream = r.stream := by
  unfold onFinishTimer
  split
  · exact ⟨Or.inr (settled_teardown busy _), stream_teardown _⟩
  · exact ⟨Or.inl rfl, rfl⟩

theorem settled_onStreamData (busy : Prop) (r : Relay) (ended : Bool) :
    (r.onStreamData ended = r ∨ (r.onStreamData ended).Settled busy)
      ∧ (r.onStreamData ended).stream = r.stream := by
  unfold onStreamData
  split
  · exact ⟨Or.inl rfl, rfl⟩
  · split
    · exact ⟨Or.inr (settled_teardown busy r), stream_teardown r⟩
    · exact ⟨Or.inl rfl, rfl⟩

end Relay

/-! ## The whole session -/

namespace RelayedSession

/-- Some connection of the pool has something queued. -/
def Busy (s : RelayedSession) : Prop := ∃ w ∈ s.pool.conns, w.conn.sendQ.len ≠ 0

structure Inv (s : RelayedSession) : Prop where
  sound : s.pool.Sound
  unbroken : s.closed = false → s.pool.broken = false
  fits : ∀ r ∈ s.relays, streamRelayFrameCost r.stream ≤ s.pool.connSendQueueCap
  conns : s.relays ≠ [] → s.pool.conns ≠ []
  waits : s.closed = false → ∀ (i : Nat) (r : Relay), s.relays[i]? = some r →
    r.Settled (s.Busy ∨ ∃ walk ∈ s.walks, i ∈ walk)

/-- A pool that cannot take a relay's frame has something queued. -/
theorem Inv.busy {s : RelayedSession} (hs : s.Inv) {r : Relay} (hr : r ∈ s.relays)
    (hfull : s.pool.minConnFree < streamRelayFrameCost r.stream) : s.Busy := by
  obtain ⟨w, hw, heq⟩ := Switchboard.exists_minConnFree (hs.conns (List.ne_nil_of_mem hr))
  refine ⟨w, hw, ?_⟩
  have hcap := hs.sound.cap w hw
  have hfits := hs.fits r hr
  rw [heq, ByteQueue.freeSpace] at hfull
  omega

/-- A relay's own step keeps the invariant: it leaves the relay alone or its pause settled. -/
theorem Inv.onRelay {s : RelayedSession} (hs : s.Inv) (i : Nat) {f : Relay → Relay}
    (hf : ∀ r ∈ s.relays, (f r = r ∨ (f r).Settled s.Busy) ∧ (f r).stream = r.stream) :
    (s.onRelay i f).Inv := by
  unfold RelayedSession.onRelay
  split
  · exact hs
  · next r hr =>
    have hmem := List.mem_of_getElem? hr
    obtain ⟨hset, hst⟩ := hf r hmem
    refine ⟨hs.sound, hs.unbroken, ?_, ?_, ?_⟩
    · intro r' hr'
      rcases List.mem_or_eq_of_mem_set hr' with hin | rfl
      · exact hs.fits r' hin
      · rw [hst]
        exact hs.fits r hmem
    · intro _
      exact hs.conns (List.ne_nil_of_mem hmem)
    · intro hopen j r' hr'
      have hold := hs.waits hopen
      by_cases hji : j = i
      · subst hji
        rw [List.getElem?_set_self (List.getElem?_eq_some_iff.mp hr).1] at hr'
        obtain rfl := Option.some.inj hr'
        rcases hset with hsame | hset
        · rw [hsame]
          exact hold j r hr
        · exact hset.mono Or.inl
      · rw [List.getElem?_set_ne (Ne.symm hji)] at hr'
        exact hold j r' hr'

/-- The step that empties the last queue starts a walk. -/
theorem Inv.onConn {s : RelayedSession} (hs : s.Inv) (hopen : s.closed = false) (i : Nat)
    (ev : ConnEv) : (s.onConn i ev).Inv := by
  unfold RelayedSession.onConn
  split
  · exact hs
  · next w hw =>
    have hmem := List.mem_of_getElem? hw
    have hpool : (s.pool.stepConn i ev).conns = s.pool.conns.set i (w.step ev) := by
      simp only [Switchboard.stepConn, hw]
    have hbroken : (s.pool.stepConn i ev).broken = (s.pool.broken || (w.step ev).conn.broken) := by
      simp only [Switchboard.stepConn, hw]
    refine ⟨hs.sound.stepConn i ev, id, ?_, ?_, ?_⟩
    · rw [Switchboard.connSendQueueCap_stepConn]
      exact hs.fits
    · intro hrel hnil
      have hlen := congrArg List.length hnil
      rw [Switchboard.length_conns_stepConn] at hlen
      exact hs.conns hrel (List.length_eq_zero_iff.mp hlen)
    · intro hlive j r hr
      rw [hbroken] at hlive
      have hk := w.step_kept ev
      have hsync := hs.sound.synced (hs.unbroken hopen) w hmem
      refine (hs.waits hopen j r hr).mono ?_
      rintro (⟨v, hv, hlen⟩ | ⟨walk, hwalk, hj⟩)
      · by_cases hnow : (w.step ev).conn.sendQ.len = 0 ∧ w.conn.sendQ.len ≠ 0
        · -- this connection has just run empty, and every relay will be told
          have hdrained := hk.notices (Bool.or_eq_false_iff.mp hlive).2 hsync hnow.2 hnow.1
          refine Or.inr ⟨List.range s.relays.length, ?_, List.mem_range.mpr
            (List.getElem?_eq_some_iff.mp hr).1⟩
          dsimp only
          rw [if_pos hdrained]
          exact List.mem_cons_self
        · -- the busy connection is another one, or still busy
          refine Or.inl ?_
          obtain ⟨k, hkv⟩ := List.mem_iff_getElem?.mp hv
          by_cases hki : k = i
          · subst hki
            rw [hw] at hkv
            obtain rfl := Option.some.inj hkv
            refine ⟨w.step ev, ?_, fun h0 => hnow ⟨h0, hlen⟩⟩
            rw [hpool]
            exact List.mem_of_getElem? (List.getElem?_set_self (List.getElem?_eq_some_iff.mp hw).1)
          · refine ⟨v, ?_, hlen⟩
            rw [hpool]
            exact List.mem_of_getElem? ((List.getElem?_set_ne (Ne.symm hki)).trans hkv)
      · refine Or.inr ⟨walk, ?_, hj⟩
        dsimp only
        split
        · exact List.mem_cons_of_mem _ hwalk
        · exact hwalk

theorem onRelay_frame (s : RelayedSession) (i : Nat) (f : Relay → Relay) :
    (s.onRelay i f).pool = s.pool ∧ (s.onRelay i f).walks = s.walks
      ∧ (s.onRelay i f).closed = s.closed := by
  unfold onRelay
  split <;> exact ⟨rfl, rfl, rfl⟩

/-- The relay a walk tells needs it no more. -/
theorem Inv.notifyNext {s : RelayedSession} (hs : s.Inv) (v : ValveReading) (timerOk : Bool) :
    (s.notifyNext v timerOk).Inv := by
  unfold RelayedSession.notifyNext
  split
  · exact hs
  · next walks hwalks =>
    refine ⟨hs.sound, hs.unbroken, hs.fits, hs.conns, fun hopen j r hr => ?_⟩
    refine (hs.waits hopen j r hr).mono (Or.imp_right ?_)
    rintro ⟨walk, hwalk, hj⟩
    rw [hwalks] at hwalk
    rcases List.mem_cons.mp hwalk with rfl | hin
    · cases hj
    · exact ⟨walk, hin, hj⟩
  · next i rest walks hwalks =>
    have htold : ∀ r ∈ s.relays, (r.notifyWritable s.pool.minConnFree v timerOk).Settled s.Busy
        ∧ (r.notifyWritable s.pool.minConnFree v timerOk).stream = r.stream :=
      fun r hr => Relay.settled_notifyWritable (hs.busy hr) v timerOk
    have hon := hs.onRelay i (f := (·.notifyWritable s.pool.minConnFree v timerOk))
      fun r hr => ⟨Or.inr (htold r hr).1, (htold r hr).2⟩
    obtain ⟨hpool, hwalks', _⟩ :=
      s.onRelay_frame i (·.notifyWritable s.pool.minConnFree v timerOk)
    refine ⟨hon.sound, hon.unbroken, hon.fits, hon.conns, fun hopen j r hr => ?_⟩
    have hbusy : (s.onRelay i (·.notifyWritable s.pool.minConnFree v timerOk)).Busy → s.Busy := by
      unfold Busy
      rw [hpool]
      exact id
    by_cases hji : j = i
    · subst hji
      -- the relay just told: settled without the walk
      have hr' : (s.onRelay j (·.notifyWritable s.pool.minConnFree v timerOk)).relays[j]? = some r := hr
      unfold RelayedSession.onRelay at hr'
      split at hr'
      · next hnone =>
        rw [hnone] at hr'
        cases hr'
      · next r₀ hr₀ =>
        dsimp only at hr'
        rw [List.getElem?_set_self (List.getElem?_eq_some_iff.mp hr₀).1] at hr'
        obtain rfl := Option.some.inj hr'
        refine (htold r₀ (List.mem_of_getElem? hr₀)).1.mono fun hb => Or.inl ?_
        unfold Busy at hb ⊢
        rw [hpool]
        exact hb
    · refine (hon.waits hopen j r hr).mono (Or.imp_right ?_)
      rintro ⟨walk, hwalk, hj⟩
      rw [hwalks', hwalks] at hwalk
      rcases List.mem_cons.mp hwalk with rfl | hin
      · rcases List.mem_cons.mp hj with rfl | hrest
        · exact absurd rfl hji
        · exact ⟨rest, List.mem_cons_self, hrest⟩
      · exact ⟨walk, List.mem_cons_of_mem _ hin, hj⟩

theorem Inv.addConn {s : RelayedSession} (hs : s.Inv) {framing : Framing} {pool : Switchboard}
    (h : s.pool.addConnFramed framing = some pool) : Inv { s with pool := pool } := by
  have hsound := hs.sound.addConnFramed h
  obtain ⟨_, c, _, rfl⟩ := Switchboard.addConnFramed_eq_some h
  refine ⟨hsound, hs.unbroken, hs.fits, fun _ => by simp, fun hopen j r hr => ?_⟩
  refine (hs.waits hopen j r hr).mono (Or.imp_left ?_)
  rintro ⟨w, hw, hlen⟩
  exact ⟨w, List.mem_append_left _ hw, hlen⟩

/-- A relay starts only where a frame fits, and with its reading on. -/
theorem Inv.startRelay {s : RelayedSession} (hs : s.Inv) {kind : RelayKind} {stream : Stream}
    {ended timerOk : Bool} {r : Relay}
    (h : Relay.start kind stream s.pool.minConnFree ended timerOk = some r) :
    Inv { s with relays := s.relays ++ [r] } := by
  obtain ⟨hfit, hstream, hpaused⟩ : streamRelayFrameCost stream ≤ s.pool.minConnFree
      ∧ r.stream = stream ∧ r.fdReadPaused = false := by
    unfold Relay.start at h
    split at h
    · cases h
    · next hfit =>
      refine ⟨Nat.not_lt.mp hfit, ?_⟩
      split at h
      · split at h
        · obtain rfl := Option.some.inj h
          exact ⟨rfl, rfl⟩
        · cases h
      · obtain rfl := Option.some.inj h
        exact ⟨rfl, rfl⟩
  have hpos := streamRelayFrameCost_pos stream
  have hne : s.pool.conns ≠ [] := by
    intro hnil
    rw [Switchboard.minConnFree, hnil] at hfit
    dsimp only at hfit
    omega
  refine ⟨hs.sound, hs.unbroken, ?_, fun _ => hne, ?_⟩
  · intro r' hr'
    rcases List.mem_append.mp hr' with hold | hnew
    · exact hs.fits r' hold
    · obtain ⟨w, hw, heq⟩ := Switchboard.exists_minConnFree hne
      have hcap := hs.sound.cap w hw
      rw [List.mem_singleton.mp hnew, hstream]
      rw [heq, ByteQueue.freeSpace] at hfit
      dsimp only
      omega
  · intro hopen j r' hr'
    dsimp only at hr'
    rcases Nat.lt_or_ge j s.relays.length with hlt | hge
    · rw [List.getElem?_append_left hlt] at hr'
      exact hs.waits hopen j r' hr'
    · rw [List.getElem?_append_right hge] at hr'
      rw [List.mem_singleton.mp (List.mem_of_getElem? hr')]
      intro hp
      rw [hpaused] at hp
      cases hp

theorem Inv.step {s : RelayedSession} (hs : s.Inv) (ev : FlowEv) : (s.step ev).Inv := by
  unfold RelayedSession.step
  split
  · exact hs
  · next hclosed =>
    have hopen := Bool.eq_false_iff.mpr hclosed
    cases ev with
    | addConn framing =>
      dsimp only
      split
      · exact hs
      · next hadd => exact hs.addConn hadd
    | conn i ev => exact hs.onConn hopen i ev
    | startRelay kind stream ended timerOk =>
      dsimp only
      split
      · exact hs
      · next hstart => exact hs.startRelay hstart
    | pumpTurn i v timerOk fd =>
      exact hs.onRelay i fun r hr => Relay.settled_pumpTurn (hs.busy hr) v timerOk fd
    | rateTimer i v timerOk =>
      exact hs.onRelay i fun r hr => Relay.settled_onRateTimer (hs.busy hr) v timerOk
    | finishTimer i => exact hs.onRelay i fun r _ => Relay.settled_onFinishTimer s.Busy r
    | streamData i ended => exact hs.onRelay i fun r _ => Relay.settled_onStreamData s.Busy r ended
    | stopRelay i =>
      exact hs.onRelay i fun r _ => ⟨Or.inr (Relay.settled_teardown s.Busy r), Relay.stream_teardown r⟩
    | notifyNext v timerOk => exact hs.notifyNext v timerOk
    | close =>
      refine ⟨hs.sound, ?_, hs.fits, hs.conns, ?_⟩
      · intro h
        cases h
      · intro h
        cases h

/-- A session before its first connection. -/
def fresh (pool : Switchboard) : RelayedSession := ⟨pool, [], [], false⟩

theorem inv_fresh {m cap : Nat} {pool : Switchboard} (h : Switchboard.init m cap = some pool) :
    (fresh pool).Inv := by
  refine ⟨Switchboard.sound_init h, fun _ => ?_, fun r hr => absurd hr List.not_mem_nil,
    fun hne => absurd rfl hne, fun _ i r hr => by cases hr⟩
  unfold Switchboard.init at h
  split at h
  · cases h
  · obtain rfl := Option.some.inj h
    rfl

/-- In an open session a connection that runs empty starts a walk over all relays. -/
theorem Inv.walk_of_emptied {s : RelayedSession} (hs : s.Inv) (hopen : s.closed = false) {j : Nat}
    {w : ConnWorld} (hw : s.pool.conns[j]? = some w) (hlen : w.conn.sendQ.len ≠ 0) (ev : ConnEv)
    (hlive : (w.step ev).conn.broken = false) (hempty : (w.step ev).conn.sendQ.len = 0) :
    List.range s.relays.length ∈ (s.step (.conn j ev)).walks := by
  have hsync := hs.sound.synced (hs.unbroken hopen) w (List.mem_of_getElem? hw)
  have hdrained := (w.step_kept ev).notices hlive hsync hlen hempty
  rw [RelayedSession.step, if_neg (by rw [hopen]; decide)]
  simp only [RelayedSession.onConn, hw, if_pos hdrained]
  exact List.mem_cons_self

/-- No wake-up is lost: whatever has happened to an open session, between two events of its reactor
    every live connection has write interest exactly while something is queued, every read the valve
    has stopped has its timer, and every relay that has stopped reading has its timer, is finishing,
    or some connection has something queued, and then whatever step empties that queue starts a walk
    that will tell the relay. -/
theorem no_lost_wakeup (m cap : Nat) (pool : Switchboard) (hinit : Switchboard.init m cap = some pool)
    (es : List FlowEv) (s : RelayedSession) (hs : s = run step (fresh pool) es)
    (hopen : s.closed = false) (hidle : s.walks = []) :
    (∀ w ∈ s.pool.conns, w.conn.broken = false →
        (w.conn.interest.writable = true ↔ w.conn.sendQ.len ≠ 0))
      ∧ (∀ w ∈ s.pool.conns, w.conn.readPaused = true → w.conn.rxResumeTimer = true)
      ∧ ∀ (i : Nat) (r : Relay), s.relays[i]? = some r → r.fdReadPaused = true →
        r.rateTimer = true ∨ r.isFinishing = true
          ∨ ∃ (j : Nat) (w : ConnWorld), s.pool.conns[j]? = some w ∧ w.conn.sendQ.len ≠ 0
            ∧ ∀ ev, (w.step ev).conn.broken = false → (w.step ev).conn.sendQ.len = 0 →
              ∃ walk ∈ (s.step (.conn j ev)).walks, i ∈ walk := by
  have hinv : s.Inv := by
    rw [hs]
    exact run_invariant (inv_fresh hinit) (fun s ev h => h.step ev) es
  have hsync := hinv.sound.synced (hinv.unbroken hopen)
  refine ⟨fun w hw _ => ?_, fun w hw => (hsync w hw).paused, fun i r hr hpaused => ?_⟩
  · rw [(hsync w hw).interest]
    exact (hsync w hw).want
  · rcases hinv.waits hopen i r hr hpaused with htimer | hfin | ⟨w, hw, hlen⟩ | ⟨walk, hwalk, _⟩
    · exact Or.inl htimer
    · exact Or.inr (Or.inl hfin)
    · obtain ⟨j, hj⟩ := List.mem_iff_getElem?.mp hw
      refine Or.inr (Or.inr ⟨j, w, hj, hlen, fun ev hlive hempty =>
        ⟨_, hinv.walk_of_emptied hopen hj hlen ev hlive hempty, ?_⟩⟩)
      exact List.mem_range.mpr (List.getElem?_eq_some_iff.mp hr).1
    · rw [hidle] at hwalk
      cases hwalk

/-- A relay that finds its only connection too full: both wait for the same queue. -/
theorem no_lost_wakeup_full : ∃ pool st, Switchboard.init 270 275 = some pool
    ∧ Stream.init 1 ⟨.none, List.replicate 32 0, rfl⟩ 270 256 8 .ordered = .ok st
    ∧ ((run step (fresh pool) [.addConn .tlsRecord, .startRelay .stream st false true,
        .conn 0 (.send [7] [] []), .pumpTurn 0 ⟨none, 0, 0⟩ true .data]).relays.map (·.fdReadPaused)
      = [true])
    ∧ ∀ w ∈ (run step (fresh pool) [.addConn .tlsRecord, .startRelay .stream st false true,
        .conn 0 (.send [7] [] []), .pumpTurn 0 ⟨none, 0, 0⟩ true .data]).pool.conns,
      w.conn.broken = false → (w.conn.interest.writable = true ↔ w.conn.sendQ.len ≠ 0) :=
  ⟨_, _, rfl, rfl, by decide +kernel, (no_lost_wakeup 270 275 _ rfl _ _ rfl (by decide +kernel)
    (by decide +kernel)).1⟩

end RelayedSession

end Cloak
