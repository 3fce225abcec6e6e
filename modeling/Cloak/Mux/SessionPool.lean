import Cloak.Mux.RelayBudget
import Cloak.Mux.SessionTimers

set_option autoImplicit false

/-! # A session and its connections

The frames a session seals go to the connections of its pool, and what the connections report comes
back: an envelope, a drained queue, the end. `PooledSession` is a session with its timers and its
pool. A call that waits for `cloak_switchboard_send` waits for one connection, whose number is on the
stack `sends`, and the answer is whether that connection is broken when the call goes on.

`told` is what the owner of the session hears, in order. The connections are registered with the
reactor until `cloak_switchboard_close_all`, which the second teardown timer and
`cloak_session_destroy` call, so their events may come at any time before that. An event of the
reactor is cut into steps as in `ConnEv`, and the steps of a session and its connections come in any
order. -/

namespace Cloak

open Lib

/-- What the owner of a session hears. -/
inductive OwnerCall where
  | newStream (id : UInt32)
  | streamData (id : UInt32)
  | writable
  | broken
deriving DecidableEq, Repr

/-- The owner's part of the session's own record. -/
def SessionCallback.ownerCall? : SessionCallback → Option OwnerCall
  | .fed _ => none
  | .newStream id => some (.newStream id)
  | .streamData id => some (.streamData id)
  | .broken => some .broken

/-- `cloak_switchboard_close_all`. -/
def Switchboard.closeAll (sb : Switchboard) : Switchboard := { sb with conns := [] }

/-- A session, its pool, the connection each call in progress waits for, and what the owner has
    heard. -/
structure PooledSession where
  timed : TimedSession
  pool : Switchboard
  sends : List (Option Nat)
  told : List OwnerCall

/-- What can happen. `owner` is a call of the owner, the destruction of the session, or one of its
    timers, `returned` the return of the innermost `cloak_switchboard_send`, `conn` a step of a
    connection. The last Bool of each is whether a teardown timer can be added if the event breaks
    the pool. -/
inductive PoolEv where
  | addConn (framing : Framing)
  | owner (ev : TimedEv) (d : PoolDraw) (timerOk : Bool)
  | returned (draws : FrameDraws) (d : PoolDraw) (retireOk timerOk : Bool)
  | conn (i : Nat) (ev : ConnEv) (allocs : StreamAllocs) (feed : FeedAllocs) (retireOk timerOk : Bool)

/-- The events of a session that do not come from its connections. -/
def TimedEv.isOwners : TimedEv → Bool
  | .call (.envelope _ _ _) _ => false
  | .call (.sinkReturn _ _) _ => false
  | .call .poolBroken _ => false
  | _ => true

/-- The steps of a connection that are not sends of its session. -/
def ConnEv.isOwn : ConnEv → Bool
  | .send _ _ _ => false
  | _ => true

namespace PooledSession

/-- `cloak_session_init`, with its pool. -/
def init (config : SessionConfig) (timerOk : Bool) : Option PooledSession :=
  match TimedSession.init config timerOk,
    Switchboard.init config.maxOnWireSize config.connSendQueueCap with
  | .ok t, some sb => some ⟨t, sb, [], []⟩
  | _, _ => none

/-- What a step of the session tells the owner. -/
def news (s s' : Session) : List OwnerCall :=
  (s'.callbacks.drop s.callbacks.length).filterMap SessionCallback.ownerCall?

/-- A step of the session. Its sweep and its destruction close the connections. -/
def onSession (evp : Evp) (p : PooledSession) (ev : TimedEv) : PooledSession :=
  { p with
    timed := p.timed.step evp ev
    pool := if (p.timed.step evp ev).swept then p.pool.closeAll else p.pool
    told := p.told ++ news p.timed.base (p.timed.step evp ev).base }

/-- A step of connection `i`. `session_switchboard_drained_adapter` passes a drained queue on to the
    owner. -/
def onConn (p : PooledSession) (i : Nat) (ev : ConnEv) : PooledSession :=
  match p.pool.conns[i]? with
  | none => p
  | some w =>
    { p with
      pool := p.pool.stepConn i ev
      told := p.told ++ List.replicate ((w.step ev).drained - w.drained) .writable }

/-- `session_on_switchboard_broken`, the first time a connection of the pool breaks. -/
def reportBroken (evp : Evp) (was : Bool) (timerOk : Bool) (p : PooledSession) : PooledSession :=
  if was = false ∧ p.pool.broken = true then p.onSession evp (.call .poolBroken timerOk) else p

/-- `cloak_switchboard_send` until the connection it picks has done its work. -/
def send (evp : Evp) (p : PooledSession) (frame : List UInt8) (d : PoolDraw) (timerOk : Bool) :
    PooledSession :=
  if p.pool.broken = true ∨ p.pool.conns = [] then { p with sends := none :: p.sends }
  else
    reportBroken evp p.pool.broken timerOk
      { p.onConn (p.pool.pickConn d.pick) (.send frame d.kernel d.keys) with
        sends := some (p.pool.pickConn d.pick) :: p.sends }

/-- The frame a step of the session has sealed. -/
def sealedBy (s s' : Session) : Option SealedFrame := s'.sealed[s.sealed.length]?

/-- A step of the session, and the frame it has sealed on its way. -/
def onSessionSend (evp : Evp) (p : PooledSession) (ev : TimedEv) (d : PoolDraw) (timerOk : Bool) :
    PooledSession :=
  match sealedBy p.timed.base (p.timed.step evp ev).base with
  | none => p.onSession evp ev
  | some f => (p.onSession evp ev).send evp f.wire d timerOk

/-- What `cloak_switchboard_send` returns, given the connection it has used. -/
def answer (p : PooledSession) : Option Nat → Bool
  | none => false
  | some i =>
    match p.pool.conns[i]? with
    | none => false
    | some w => !w.conn.broken

/-- The envelope a step of connection `i` hands up. -/
def handedUp (w : ConnWorld) (ev : ConnEv) : Option (List UInt8) :=
  (w.step ev).delivered[w.delivered.length]?

/-- One event. -/
def step (evp : Evp) (p : PooledSession) : PoolEv → PooledSession
  | .addConn framing =>
    if p.timed.base.closed then p
    else
      match p.pool.addConnFramed framing with
      | none => p
      | some pool => { p with pool := pool }
  | .owner ev d timerOk => if ev.isOwners then p.onSessionSend evp ev d timerOk else p
  | .returned draws d retireOk timerOk =>
    match p.sends with
    | [] => p
    | a :: sends =>
      onSessionSend evp { p with sends := sends } (.call (.sinkReturn (p.answer a) draws) retireOk) d
        timerOk
  | .conn i ev allocs feed retireOk timerOk =>
    if ev.isOwn then
      match p.pool.conns[i]? with
      | none => p
      | some w =>
        match handedUp w ev with
        | none => reportBroken evp p.pool.broken timerOk (p.onConn i ev)
        | some frame =>
          reportBroken evp p.pool.broken timerOk
            ((p.onConn i ev).onSession evp (.call (.envelope frame allocs feed) retireOk))
    else p

/-- What steps of the session and of its connections keep, every event keeps. -/
theorem step_invariant {evp : Evp} {P : PooledSession → Prop}
    (hsession : ∀ p ev, P p → P (p.onSession evp ev)) (hconn : ∀ p i ev, P p → P (p.onConn i ev))
    (hsends : ∀ (p : PooledSession) sends, P p → P { p with sends := sends })
    (hadd : ∀ (p : PooledSession) framing pool, p.timed.base.closed = false →
      p.pool.addConnFramed framing = some pool → P p → P { p with pool := pool })
    {p : PooledSession} (h : P p) (e : PoolEv) : P (p.step evp e) := by
  have hreport : ∀ was timerOk p, P p → P (reportBroken evp was timerOk p) := by
    intro was timerOk p hp
    unfold reportBroken
    split
    · exact hsession _ _ hp
    · exact hp
  have hsend : ∀ p ev d timerOk, P p → P (p.onSessionSend evp ev d timerOk) := by
    intro p ev d timerOk hp
    unfold onSessionSend
    split
    · exact hsession _ _ hp
    · unfold send
      split
      · exact hsends _ _ (hsession _ _ hp)
      · exact hreport _ _ _ (hsends _ _ (hconn _ _ _ (hsession _ _ hp)))
  cases e with
  | addConn framing =>
    dsimp only [step]
    split
    · exact h
    · next hopen =>
      split
      · exact h
      · next pool hpool => exact hadd _ _ _ (Bool.eq_false_iff.mpr hopen) hpool h
  | owner ev d timerOk =>
    dsimp only [step]
    split
    · exact hsend _ _ _ _ h
    · exact h
  | returned draws d retireOk timerOk =>
    dsimp only [step]
    split
    · exact h
    · exact hsend _ _ _ _ (hsends _ _ h)
  | conn i ev allocs feed retireOk timerOk =>
    dsimp only [step]
    split
    · split
      · exact h
      · split
        · exact hreport _ _ _ (hconn _ _ _ h)
        · exact hreport _ _ _ (hsession _ _ (hconn _ _ _ h))
    · exact h

end PooledSession

end Cloak
