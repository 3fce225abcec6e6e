import Cloak.Client.ConnectorRuns
import Cloak.Common.Random

set_option autoImplicit false

/-! # The client stack (`client_stack.c`)

The stack keeps one slot for each bring-up of a session. A slot waits for its next round, has a
connector at work on the round, or holds the session. In shared mode there is one bring-up, which
starts over when its session breaks; in singleplex every local connection asks for its own.

What the environment decides comes with the event: the random draws, whether an allocation succeeds and
whether a timer can be armed. The stack destroys a connector from inside its `on_done`. A context of the
piper is a key that may come again once it has been answered or cancelled. `io` is a record that no
operation reads. -/

namespace Cloak

open Lib

/-- `CLOAK_CLIENT_STACK_DEFAULT_RECONNECT_BASE_MS`. -/
def stackDefaultReconnectBaseMs : Nat := 500

/-- `CLOAK_CLIENT_STACK_MAX_RECONNECT_DELAY_MS`. -/
def stackMaxReconnectDelayMs : Nat := 30000

/-- `CLOAK_CLIENT_STACK_RECONNECT_JITTER_PCT`. -/
def stackReconnectJitterPct : Nat := 25

/-- The fields of `cloak_client_config_t` that the stack reads. -/
structure ClientConfig where
  numConn : Int
  singleplex : Bool
  udp : Bool
  remoteHost : List UInt8
  remotePort : List UInt8
  localPort : List UInt8
  browser : ClientBrowser
  transport : TransportMode
  serverName : List UInt8
  altNames : List (List UInt8)
  serverPub : List UInt8
  uid : List UInt8
  proxyMethod : List UInt8
  encryptionMethod : AeadMethod
  streamTimeoutSec : Int

/-- The fields of `cloak_client_stack_config_t` that a bring-up reads. -/
structure StackConfig where
  sessionTemplate : SessionConfig
  dialTimeoutMs : Nat
  handshakeTimeoutMs : Nat
  connectorMaxAttempts : Int
  connectorRetryBaseMs : Nat
  reconnectBaseMs : Nat
  maxRounds : Int
  adminSession : Bool

/-- The `CLOAK_CLIENT_STACK_ERR_` codes. -/
inductive StackError where
  | config
  | template
  | resolve
  | piper
  | listen
  | connector
deriving DecidableEq, Repr

/-- `cloak_client_stack_event_t`. -/
inductive StackEvent where
  | roundStarted
  | roundFailed
  | sessionUp
  | sessionDown
  | gaveUp
deriving DecidableEq, Repr

/-- `slot_state_t`. -/
inductive SlotState where
  | pending
  | live
deriving DecidableEq, Repr

/-- One entry of the record of a stack: what it tells its owner, the rounds it starts, and its dealings
    with the piper. -/
inductive StackIo where
  | emit (event : StackEvent) (sessionId : UInt32) (round retryInMs : Nat)
  | round (bringUp : Nat) (sessionId : UInt32)
  | setSession (bringUp : Nat)
  | requested (ctx : Nat)
  | refused (ctx : Nat)
  | cancelled (ctx : Nat)
  | ready (ctx : Nat)
  | failed (ctx : Nat)

/-- `stack_slot_t`. `bringUp` names the slot; a slot that replaces one whose session broke takes its
    name. `connector` is there while `connector_ready` is set, and `retryTimer` is the delay of a timer
    that is armed. -/
structure StackSlot where
  bringUp : Nat
  ctx : Option Nat
  shared : Bool
  state : SlotState
  connector : Option ClientConnector
  sessionLive : Bool
  sessionId : UInt32
  round : Nat
  retryTimer : Option Nat

/-- `cloak_client_stack`. `made` counts the bring-ups so far. -/
structure ClientStack where
  cfg : StackConfig
  config : ClientConfig
  remoteLen : Nat
  slots : List StackSlot
  pending : Nat
  live : Nat
  roundsStarted : Nat
  reconnects : Nat
  sessionsUp : Nat
  sessionsFailed : Nat
  sessionsDown : Nat
  made : Nat
  io : List StackIo

/-- What starting a round meets: the draws of the session id, the draw of the server name, and whether
    the connector gets its memory and its timer. -/
structure RoundEnv where
  draws : Nat → UInt32
  nameDraw : UInt32
  allocOk : Bool
  timerOk : Bool

/-- What arming the retry timer meets, with the byte the delay is jittered with. -/
structure ArmEnv where
  timerOk : Bool
  jitter : UInt8

/-- `stack_backoff_ms`, with the byte it draws. -/
def stackBackoffMs (base round : Nat) (r : UInt8) : Nat :=
  if round ≤ 1 then 0
  else
    let delay := min (doubleDelay stackMaxReconnectDelayMs (round - 2) base) stackMaxReconnectDelayMs
    let span := delay * stackReconnectJitterPct / 100
    delay - span + 2 * span * r.toNat / 256

/-- The loop of `stack_pick_session_id`. -/
def drawSessionId (inUse : UInt32 → Bool) : List UInt32 → UInt32 → UInt32
  | [], id => id
  | cand :: cands, id =>
    if cand = 0 then drawSessionId inUse cands id
    else if inUse cand then drawSessionId inUse cands cand
    else cand

/-- `stack_pick_server_name`. -/
def pickServerName (config : ClientConfig) (draw : UInt32) : List UInt8 :=
  let n := config.altNames.length + 1
  if n ≤ 1 then config.serverName
  else
    match (randomBelow (.ofNat n) draw).toNat with
    | 0 => config.serverName
    | i + 1 => config.altNames.getD i []

namespace ClientStack

/-! ## Slots -/

/-- `stack_id_in_use`. -/
def idInUse (s : ClientStack) (id : UInt32) : Bool := s.slots.any fun sl => sl.sessionId = id

/-- `stack_pick_session_id`. -/
def pickSessionId (s : ClientStack) (draws : Nat → UInt32) : UInt32 :=
  if s.cfg.adminSession then 0 else drawSessionId s.idInUse ((List.range 64).map draws) 1

/-- The slot of a bring-up. -/
def find (s : ClientStack) (k : Nat) : Option StackSlot := s.slots.find? fun sl => sl.bringUp = k

/-- What is written through a pointer to a slot. -/
def put (s : ClientStack) (sl : StackSlot) : ClientStack :=
  { s with slots := s.slots.map fun sl' => if sl'.bringUp = sl.bringUp then sl else sl' }

def record (s : ClientStack) (io : List StackIo) : ClientStack := { s with io := s.io ++ io }

/-- `stack_slot_new`, once the allocation has succeeded. -/
def slotNew (s : ClientStack) (bringUp : Nat) (ctx : Option Nat) (shared : Bool) :
    ClientStack × StackSlot :=
  let sl : StackSlot :=
    { bringUp, ctx, shared
      state := .pending
      connector := none
      sessionLive := false
      sessionId := 0
      round := 0
      retryTimer := none }
  ({ s with slots := sl :: s.slots, pending := s.pending + 1 }, sl)

/-- `stack_slot_destroy`. -/
def slotDestroy (s : ClientStack) (sl : StackSlot) : ClientStack :=
  let s := { s with slots := s.slots.filter fun sl' => sl'.bringUp ≠ sl.bringUp }
  match sl.state with
  | .pending => { s with pending := s.pending - 1 }
  | .live => { s with live := s.live - 1 }

/-! ## Rounds -/

/-- The configuration of a round's connector. -/
def connectorConfig (s : ClientStack) (sessionId : UInt32) (nameDraw : UInt32) : ConnectorConfig where
  remoteLen := s.remoteLen
  numConn := s.config.numConn
  browser := s.config.browser
  transport := s.config.transport
  serverName := pickServerName s.config nameDraw
  serverPub := s.config.serverPub
  uid := s.config.uid
  proxyMethod := s.config.proxyMethod
  encryptionMethod := s.config.encryptionMethod
  sessionId := sessionId
  unordered := s.config.udp
  dialTimeoutMs := s.cfg.dialTimeoutMs
  handshakeTimeoutMs := s.cfg.handshakeTimeoutMs
  maxAttempts := s.cfg.connectorMaxAttempts
  retryBaseMs := s.cfg.connectorRetryBaseMs
  sessionTemplate := s.cfg.sessionTemplate

/-- The connector of a round, initialized and started. -/
def startConnector (s : ClientStack) (sessionId : UInt32) (env : RoundEnv) : Option ClientConnector :=
  match ClientConnector.init (s.connectorConfig sessionId env.nameDraw) env.allocOk with
  | .error _ => none
  | .ok c =>
    match c.start env.timerOk with
    | (_, false) => none
    | (c, true) => some c

/-- `stack_start_round`, and whether it succeeds. The id is drawn while the slot still has its last
    one. -/
def startRound (s : ClientStack) (sl : StackSlot) (byReconnect : Bool) (env : RoundEnv) :
    ClientStack × StackSlot × Bool :=
  let sl := { sl with sessionId := s.pickSessionId env.draws, round := sl.round + 1 }
  let s := (s.put sl).record [.round sl.bringUp sl.sessionId]
  match s.startConnector sl.sessionId env with
  | none => (s, sl, false)
  | some c =>
    let sl := { sl with connector := some c }
    let s :=
      { s.put sl with
        roundsStarted := s.roundsStarted + 1
        reconnects := if byReconnect then s.reconnects + 1 else s.reconnects }
    (s.record [.emit .roundStarted sl.sessionId sl.round 0], sl, true)

/-- `stack_give_up`. -/
def giveUp (s : ClientStack) (sl : StackSlot) : ClientStack :=
  { s with sessionsFailed := s.sessionsFailed + 1 }.slotDestroy sl
    |>.record (.emit .gaveUp sl.sessionId sl.round 0 :: sl.ctx.toList.map .failed)

/-- `stack_arm_round`: the delay, when a round is scheduled. -/
def armRound (s : ClientStack) (sl : StackSlot) (delayRound : Nat) (env : ArmEnv) : Option Nat :=
  if s.cfg.maxRounds ≠ 0 ∧ s.cfg.maxRounds < ((sl.round + 1 : Nat) : Int) then none
  else if env.timerOk then some (stackBackoffMs s.cfg.reconnectBaseMs delayRound env.jitter)
  else none

/-- `stack_retry_timer`. -/
def onRetryTimer (s : ClientStack) (k : Nat) (env : RoundEnv) : ClientStack :=
  match s.find k with
  | none => s
  | some sl =>
    match s.startRound { sl with retryTimer := none } true env with
    | (s, _, true) => s
    | (s, sl, false) => (s.record [.emit .roundFailed sl.sessionId sl.round 0]).giveUp sl

/-- `stack_conn_done`. -/
def connDone (s : ClientStack) (sl : StackSlot) (status : ConnectorStatus) (env : ArmEnv) :
    ClientStack :=
  let sl := { sl with connector := none }
  if status = .done then
    let s := { s with pending := s.pending - 1, live := s.live + 1, sessionsUp := s.sessionsUp + 1 }
    let sl := { sl with sessionLive := true, state := .live }
    let s := s.record [.emit .sessionUp sl.sessionId sl.round 0]
    if sl.shared then (s.put sl).record [.setSession sl.bringUp]
    else (s.put { sl with ctx := none }).record (sl.ctx.toList.map .ready)
  else
    match s.armRound sl (sl.round + 1) env with
    | some delay =>
      (s.put { sl with retryTimer := some delay }).record [.emit .roundFailed sl.sessionId sl.round delay]
    | none => ((s.put sl).record [.emit .roundFailed sl.sessionId sl.round 0]).giveUp sl

/-- A callback of a slot's connector. `on_done` is called from inside it. -/
def onConnector (s : ClientStack) (k : Nat) (e : ClientConnector.Event) (env : ArmEnv) : ClientStack :=
  match s.find k with
  | none => s
  | some sl =>
    match sl.connector with
    | none => s
    | some c =>
      let c := c.step e
      if c.notified then s.connDone sl c.status env
      else s.put { sl with connector := some c }

/-- `stack_schedule_replacement`, with whether the slot can be allocated. -/
def scheduleReplacement (s : ClientStack) (dead : StackSlot) (slotOk : Bool) (env : ArmEnv) :
    ClientStack :=
  if slotOk then
    match s.slotNew dead.bringUp none true with
    | (s, sl) =>
      let sl := { sl with sessionId := dead.sessionId }
      let s := s.put sl
      match s.armRound sl 2 env with
      | some delay => s.put { sl with retryTimer := some delay }
      | none => s.giveUp sl
  else
    { s with sessionsFailed := s.sessionsFailed + 1 }.record [.emit .gaveUp dead.sessionId 0 0]

/-- `stack_on_broken`. -/
def onBroken (s : ClientStack) (k : Nat) (slotOk : Bool) (env : ArmEnv) : ClientStack :=
  match s.slots.find? fun sl => sl.sessionLive && sl.bringUp == k with
  | none => s
  | some sl =>
    let s := { s with sessionsDown := s.sessionsDown + 1 }.slotDestroy sl
      |>.record [.emit .sessionDown sl.sessionId 0 0]
    if sl.shared then s.scheduleReplacement sl slotOk env else s

/-! ## Requests of the piper -/

/-- The request of a context, and the slot `stack_new_session` makes for it. -/
def request (s : ClientStack) (ctx : Nat) : ClientStack × StackSlot :=
  { s.record [.requested ctx] with made := s.made + 1 }.slotNew s.made (some ctx) false

/-- `stack_new_session`. -/
def newSession (s : ClientStack) (ctx : Nat) (slotOk : Bool) (env : RoundEnv) : ClientStack :=
  if slotOk then
    match (s.request ctx).1.startRound (s.request ctx).2 false env with
    | (s, _, true) => s
    | (s, sl, false) => (s.slotDestroy { sl with ctx := none }).record [.refused ctx]
  else s.record [.requested ctx, .refused ctx]

/-- `stack_cancel_session`. -/
def cancelSession (s : ClientStack) (ctx : Nat) : ClientStack :=
  let s := s.record [.cancelled ctx]
  match s.slots.find? fun sl => sl.ctx = some ctx with
  | none => s
  | some sl => s.slotDestroy { sl with ctx := none }

/-! ## Construction -/

/-- The defaults of `fill_template_defaults`, and the fields it clears. -/
def fillTemplateDefaults (t : SessionConfig) : SessionConfig where
  ordering := .invalid
  obfuscator := ⟨.none, List.replicate 32 0, length_zeroKey⟩
  maxOnWireSize := if t.maxOnWireSize = 0 then 16401 else t.maxOnWireSize
  streamRecvCapacity := if t.streamRecvCapacity = 0 then 65536 else t.streamRecvCapacity
  streamMaxPendingFrames := if t.streamMaxPendingFrames = 0 then 64 else t.streamMaxPendingFrames
  connSendQueueCap := if t.connSendQueueCap = 0 then 262144 else t.connSendQueueCap

/-- The defaults of `cloak_client_stack_open`. -/
def fillDefaults (cfg : StackConfig) : StackConfig :=
  { cfg with
    sessionTemplate := fillTemplateDefaults cfg.sessionTemplate
    reconnectBaseMs :=
      if cfg.reconnectBaseMs = 0 then stackDefaultReconnectBaseMs else cfg.reconnectBaseMs
    maxRounds := if cfg.maxRounds < 0 then 0 else cfg.maxRounds }

/-- The configurations `cloak_client_stack_open` refuses. -/
def badConfig (cfg : StackConfig) (c : ClientConfig) : Prop :=
  c.numConn < 1 ∨ (connectorMaxConn : Int) < c.numConn
    ∨ (c.singleplex ∧ c.numConn ≠ 1)
    ∨ (cfg.adminSession ∧ (c.numConn ≠ 1 ∨ c.singleplex))
    ∨ c.remoteHost = [] ∨ c.remotePort = [] ∨ c.localPort = [] ∨ c.proxyMethod = []
    ∨ c.transport ≠ .direct
    ∨ (c.udp ∧ c.singleplex)
    ∨ c.streamTimeoutSec < 0

instance (cfg : StackConfig) (c : ClientConfig) : Decidable (badConfig cfg c) :=
  inferInstanceAs (Decidable (_ ∨ _ ∨ _ ∨ _ ∨ _ ∨ _ ∨ _ ∨ _ ∨ _ ∨ _ ∨ _))

/-- The throwaway session that `cloak_client_stack_open` checks the template with. -/
def probeConfig (cfg : StackConfig) (c : ClientConfig) : SessionConfig :=
  { cfg.sessionTemplate with ordering := if c.udp then .unordered else .ordered }

/-- What opening a stack meets: the throwaway session, the length of the address that `RemoteHost`
    resolves to, the piper, the listener, the first slot and its round. -/
structure OpenEnv where
  probeOk : Bool
  remote : Option Nat
  piperOk : Bool
  listenOk : Bool
  slotOk : Bool
  round : RoundEnv

/-- The handle before its first bring-up. -/
def handle (cfg : StackConfig) (config : ClientConfig) (remoteLen : Nat) : ClientStack where
  cfg := cfg
  config := config
  remoteLen := remoteLen
  slots := []
  pending := 0
  live := 0
  roundsStarted := 0
  reconnects := 0
  sessionsUp := 0
  sessionsFailed := 0
  sessionsDown := 0
  made := 0
  io := []

/-- The shared bring-up of a new handle, and its slot. -/
def firstSlot (s : ClientStack) : ClientStack × StackSlot := { s with made := 1 }.slotNew 0 none true

/-- `cloak_client_stack_open`, on arguments that are not `NULL` and with its own allocation made. -/
def stackOpen (cfg : StackConfig) (c : ClientConfig) (env : OpenEnv) : Except StackError ClientStack :=
  let cfg := fillDefaults cfg
  if badConfig cfg c then .error .config
  else if env.probeOk = false ∨ ¬(probeConfig cfg c).Accepted then .error .template
  else
    match env.remote with
    | none => .error .resolve
    | some remoteLen =>
      if env.piperOk = false then .error .piper
      else if env.listenOk = false then .error .listen
      else if c.singleplex then .ok (handle cfg c remoteLen)
      else if env.slotOk = false then .error .connector
      else
        match (handle cfg c remoteLen).firstSlot.1.startRound (handle cfg c remoteLen).firstSlot.2 false
          env.round with
        | (s, _, true) => .ok s
        | (_, _, false) => .error .connector

/-! ## Runs -/

/-- What can happen to an open stack. -/
inductive Event where
  | connector (k : Nat) (e : ClientConnector.Event) (env : ArmEnv)
  | retryTimer (k : Nat) (env : RoundEnv)
  | broken (k : Nat) (slotOk : Bool) (env : ArmEnv)
  | newSession (ctx : Nat) (slotOk : Bool) (env : RoundEnv)
  | cancelSession (ctx : Nat)

/-- A callback of a connector that the stack owns: it is destroyed when it reports and not before. -/
def Owned : ClientConnector.Event → Prop
  | .kickoff _ d => d = true
  | .retry _ _ d => d = true
  | .dialDone _ _ _ _ _ d => d = true
  | .handshakeDone _ _ _ _ d => d = true
  | .destroy => False

/-- What a record says of a context: it asks, or its request ends. -/
def asks (ctx : Nat) : StackIo → Option Bool
  | .requested c => if c = ctx then some true else none
  | .refused c | .cancelled c | .ready c | .failed c => if c = ctx then some false else none
  | _ => none

/-- A context has asked for a session, and was neither refused nor answered nor cancelled since. -/
def Outstanding (ctx : Nat) (io : List StackIo) : Prop := (io.filterMap (asks ctx)).getLast? = some true

/-- Something the stack waits for happens: a connector calls back, a timer fires that is armed. A
    context of a singleplex piper asks when it has no request outstanding. -/
def Enabled (s : ClientStack) : Event → Prop
  | .connector k e _ =>
    ∃ sl ∈ s.slots, sl.bringUp = k ∧ ∃ c, sl.connector = some c ∧ c.Enabled e ∧ Owned e
  | .retryTimer k _ => ∃ sl ∈ s.slots, sl.bringUp = k ∧ sl.retryTimer.isSome = true
  | .broken .. => True
  | .newSession ctx _ _ => s.config.singleplex = true ∧ ¬Outstanding ctx s.io
  | .cancelSession _ => True

/-- One event. -/
def step (s : ClientStack) : Event → ClientStack
  | .connector k e env => s.onConnector k e env
  | .retryTimer k env => s.onRetryTimer k env
  | .broken k slotOk env => s.onBroken k slotOk env
  | .newSession ctx slotOk env => s.newSession ctx slotOk env
  | .cancelSession ctx => s.cancelSession ctx

end ClientStack

end Cloak
