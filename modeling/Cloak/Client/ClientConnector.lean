import Cloak.Client.ClientAuth
import Cloak.Client.ClientHandshake
import Cloak.Client.HelloRoundTrip
import Cloak.Mux.Session

set_option autoImplicit false

/-! # The client connector (`client_connector.c`)

A connector brings up one session over several connections. Each connection dials, shakes hands and
tries again after a delay when that fails, up to `max_attempts` times; when all of them are through,
their keys are compared and their sockets go to a new session.

What the environment decides comes with the event: whether a dial, a handshake or a timer can be
started, what a handshake ends with, whether the session can be set up, and whether the owner destroys
the connector from inside `on_done`. A dial or a handshake that has been cancelled does not call back,
which is the contract of both. `io` is a record that no operation reads. -/

namespace Cloak

open Lib

/-- `cloak_transport_mode_t`. -/
inductive TransportMode where
  | direct
  | cdn
deriving DecidableEq, Repr

/-- `CLOAK_CLIENT_CONNECTOR_MAX_CONN`. -/
def connectorMaxConn : Nat := 64

/-- `CLOAK_CLIENT_SERVER_NAME_MAX`. -/
def clientServerNameMax : Nat := 253

/-- `CLOAK_CLIENT_CONNECTOR_DEFAULT_MAX_ATTEMPTS`. -/
def connectorDefaultMaxAttempts : Nat := 5

/-- `CLOAK_CLIENT_CONNECTOR_DEFAULT_RETRY_BASE_MS`. -/
def connectorDefaultRetryBaseMs : Nat := 500

/-- `CLOAK_CLIENT_CONNECTOR_MAX_RETRY_DELAY_MS`. -/
def connectorMaxRetryDelayMs : Nat := 8000

/-- `CLOAK_CLIENT_CONNECTOR_DEFAULT_DIAL_TIMEOUT_MS`. -/
def connectorDefaultDialTimeoutMs : Nat := 10000

/-- A session key has 32 bytes. -/
abbrev SessionKey := { key : List UInt8 // key.length = 32 }

/-- `cloak_client_connector_config_t`. The strings are the texts before their terminators. -/
structure ConnectorConfig where
  remoteLen : Nat
  numConn : Int
  browser : ClientBrowser
  transport : TransportMode
  serverName : List UInt8
  serverPub : List UInt8
  uid : List UInt8
  proxyMethod : List UInt8
  encryptionMethod : AeadMethod
  sessionId : UInt32
  unordered : Bool
  dialTimeoutMs : Nat
  handshakeTimeoutMs : Nat
  maxAttempts : Int
  retryBaseMs : Nat
  sessionTemplate : SessionConfig

/-- `cloak_client_connector_status_t`. -/
inductive ConnectorStatus where
  | pending
  | done
  | failed
deriving DecidableEq, Repr

/-- `cloak_client_connector_error_t`. -/
inductive ConnectorError where
  | none
  | config
  | dial
  | handshake
  | keyMismatch
  | session
  | internal
deriving DecidableEq, Repr

/-- `cloak_client_handshake_config_t`, as a connection fills it in. -/
structure ConnectorHandshake where
  socket : Nat
  browser : ClientBrowser
  serverName : List UInt8
  serverPub : List UInt8
  uid : List UInt8
  proxyMethod : List UInt8
  encryptionMethod : AeadMethod
  sessionId : UInt32
  unordered : Bool
  nowUnix : Int
  timeoutMs : Nat

/-- One entry of the record of a connector: what it does with sockets and with the session, what its
    connections reach, and what it reports. A descriptor is named by the number of sockets that were
    obtained before it. -/
inductive ConnectorIo where
  | attempt (i : Nat)
  | dialed (i s : Nat)
  | handshake (i : Nat) (config : ConnectorHandshake)
  | keyed (i : Nat) (key : SessionKey)
  | closed (s : Nat)
  | sessionInit (config : SessionConfig)
  | sessionAdd (s : Nat)
  | sessionDestroy
  | report (status : ConnectorStatus)

/-- `cloak_client_connector_conn_t`. `retryTimer` is the delay of a timer that is armed. -/
structure ConnectorConn where
  retryTimer : Option Nat
  dialActive : Bool
  hsActive : Bool
  fd : Option Nat
  key : SessionKey
  haveKey : Bool
  done : Bool
  attempts : Nat
  browser : ClientBrowser

/-- `cloak_client_connector_t`. `config` is what `cloak_client_connector_init` copied, with the
    defaults filled in; `num_conn` is the length of `conns`. `sockets` counts the sockets obtained so
    far, and `destroyed` says that the owner is done with it. -/
structure ClientConnector where
  config : ConnectorConfig
  maxAttempts : Nat
  retryBaseMs : Nat
  dialTimeoutMs : Nat
  conns : List ConnectorConn
  kickoffTimer : Bool
  status : ConnectorStatus
  error : ConnectorError
  lastHandshakeError : HandshakeError
  completed : Nat
  totalAttempts : Nat
  sessionOwned : Bool
  notified : Bool
  started : Bool
  destroyed : Bool
  sockets : Nat
  io : List ConnectorIo

/-- What an attempt meets: whether the dial starts, whether a timer can be armed for the next one, and
    the byte its delay is jittered with. -/
structure AttemptEnv where
  dialOk : Bool
  timerOk : Bool
  jitter : UInt8

/-- What setting up the session meets: `cloak_session_init`, and `cloak_session_add_conn` for each
    connection. -/
structure AssembleEnv where
  initOk : Bool
  addOk : Nat → Bool

/-- How a handshake ends. The second is `cloak_client_handshake_session_key` returning `NULL`. -/
inductive HandshakeOutcome where
  | done (key : SessionKey)
  | keyless
  | failed (err : HandshakeError)

/-- The ladder of both backoffs: `n` doublings, which stop at the bound. -/
def doubleDelay (bound : Nat) : (n : Nat) → (delay : Nat) → Nat
  | 0, delay => delay
  | n + 1, delay => if delay < bound then doubleDelay bound n (delay * 2) else delay

/-- `backoff_ms`, with the byte it draws. -/
def connectorBackoffMs (retryBaseMs attempt : Nat) (r : UInt8) : Nat :=
  let delay := min (doubleDelay connectorMaxRetryDelayMs (attempt - 1) retryBaseMs)
    connectorMaxRetryDelayMs
  delay - delay / 4 + 2 * (delay / 4) * r.toNat / 256

namespace ClientConnector

/-! ## Release and report -/

/-- What `conn_release` leaves of a connection. -/
def released (conn : ConnectorConn) : ConnectorConn :=
  { conn with retryTimer := none, dialActive := false, hsActive := false, fd := none }

/-- The socket `conn_release` closes. -/
def closes (conn : ConnectorConn) : List ConnectorIo := conn.fd.toList.map .closed

/-- `conn_release`. -/
def connRelease (c : ClientConnector) (i : Nat) : ClientConnector :=
  { c with
    conns := c.conns.modify i released
    io := c.io ++ c.conns[i]?.toList.flatMap closes }

/-- `connector_release`. -/
def release (c : ClientConnector) : ClientConnector :=
  { c with
    kickoffTimer := false
    conns := c.conns.map released
    io := c.io ++ c.conns.flatMap closes }

/-- `cloak_session_destroy` of a session that the caller has never been shown. -/
def dropSession (c : ClientConnector) : ClientConnector :=
  if c.sessionOwned then { c with sessionOwned := false, io := c.io ++ [.sessionDestroy] } else c

/-- `fail`. -/
def fail (c : ClientConnector) (err : ConnectorError) : ClientConnector :=
  if c.status ≠ .pending then c
  else { c with status := .failed, error := err }.release.dropSession

/-- `cloak_client_connector_destroy`. -/
def destroy (c : ClientConnector) : ClientConnector :=
  { c.release.dropSession with
    conns := []
    notified := true
    destroyed := true
    status := if c.status = .pending then .failed else c.status }

/-- `finish`. -/
def finish (c : ClientConnector) (ownerDestroys : Bool) : ClientConnector :=
  if c.status = .pending ∨ c.notified then c
  else
    let c := { c with notified := true, io := c.io ++ [.report c.status] }
    if ownerDestroys then c.destroy else c

/-! ## Assembling the session -/

/-- `keys_agree`. -/
def keysAgree (c : ClientConnector) : Bool :=
  match c.conns with
  | [] => true
  | conn :: conns => conns.all fun conn' => conn'.key = conn.key

/-- The key of the first connection. -/
def agreedKey (c : ClientConnector) : SessionKey :=
  match c.conns with
  | [] => ⟨List.replicate 32 0, length_zeroKey⟩
  | conn :: _ => conn.key

/-- The configuration of the session. -/
def sessionConfig (config : ConnectorConfig) (key : SessionKey) : SessionConfig :=
  { config.sessionTemplate with
    obfuscator := ⟨config.encryptionMethod, key.val, key.property⟩
    ordering := if config.unordered then .unordered else .ordered }

/-- The loop of `assemble` over `cloak_session_add_conn`; a session takes no descriptor `-1`. -/
def addConns (addOk : Nat → Bool) : List Nat → ClientConnector → ClientConnector × Bool
  | [], c => (c, true)
  | i :: is, c =>
    match c.conns[i]?.bind ConnectorConn.fd with
    | none => (c, false)
    | some s =>
      if addOk i then
        addConns addOk is
          { c with
            conns := c.conns.modify i fun conn => { conn with fd := none }
            io := c.io ++ [.sessionAdd s] }
      else (c, false)

/-- `assemble`. -/
def assemble (c : ClientConnector) (env : AssembleEnv) : ClientConnector :=
  if ¬c.keysAgree then c.fail .keyMismatch
  else if env.initOk = false ∨ ¬(sessionConfig c.config c.agreedKey).Accepted then c.fail .session
  else
    match addConns env.addOk (List.range c.conns.length)
      { c with
        sessionOwned := true
        io := c.io ++ [.sessionInit (sessionConfig c.config c.agreedKey)] } with
    | (c, false) => c.fail .session
    | (c, true) => { c with status := .done, error := .none, sessionOwned := false }.release

/-! ## Attempts -/

/-- `retry_or_fail`. -/
def retryOrFail (c : ClientConnector) (i : Nat) (err : ConnectorError) (env : AttemptEnv) :
    ClientConnector :=
  match c.conns[i]? with
  | none => c
  | some conn =>
    if c.maxAttempts ≤ conn.attempts then c.fail err
    else if env.timerOk then
      { c with
        conns := c.conns.set i
          { conn with
            retryTimer := some (connectorBackoffMs c.retryBaseMs conn.attempts env.jitter) } }
    else c.fail .internal

/-- `start_attempt`. -/
def startAttempt (c : ClientConnector) (i : Nat) (env : AttemptEnv) : ClientConnector :=
  match c.conns[i]? with
  | none => c
  | some conn =>
    let c : ClientConnector :=
      { c with totalAttempts := c.totalAttempts + 1, io := c.io ++ [.attempt i] }
    let conn := { conn with attempts := conn.attempts + 1 }
    if env.dialOk then { c with conns := c.conns.set i { conn with dialActive := true } }
    else { c with conns := c.conns.set i conn }.retryOrFail i .dial env

/-- The loop of `on_kickoff`. -/
def kickoffLoop (envs : Nat → AttemptEnv) : List Nat → ClientConnector → ClientConnector
  | [], c => c
  | i :: is, c =>
    if c.status = .pending then kickoffLoop envs is (c.startAttempt i (envs i)) else c

/-- `on_kickoff`. -/
def onKickoff (c : ClientConnector) (envs : Nat → AttemptEnv) (ownerDestroys : Bool) :
    ClientConnector :=
  (kickoffLoop envs (List.range c.conns.length) { c with kickoffTimer := false }).finish ownerDestroys

/-- `on_retry`. -/
def onRetry (c : ClientConnector) (i : Nat) (env : AttemptEnv) (ownerDestroys : Bool) :
    ClientConnector :=
  let c := { c with conns := c.conns.modify i fun conn => { conn with retryTimer := none } }
  (if c.status = .pending then c.startAttempt i env else c).finish ownerDestroys

/-- `close(conn->fd); conn->fd = -1`. -/
def closeFd (c : ClientConnector) (i : Nat) : ClientConnector :=
  { c with
    conns := c.conns.modify i fun conn => { conn with fd := none }
    io := c.io ++ c.conns[i]?.toList.flatMap closes }

/-- A failed handshake falls back from one browser to another. -/
def fallBack (transport : TransportMode) (conn : ConnectorConn) : ConnectorConn :=
  if transport = .direct ∧ conn.browser = .chrome then { conn with browser := .firefox } else conn

/-- `on_handshake_done`. -/
def onHandshakeDone (c : ClientConnector) (i : Nat) (outcome : HandshakeOutcome) (env : AttemptEnv)
    (assembly : AssembleEnv) (ownerDestroys : Bool) : ClientConnector :=
  let c := { c with conns := c.conns.modify i fun conn => { conn with hsActive := false } }
  if c.status ≠ .pending then c.connRelease i
  else
    match outcome with
    | .done key =>
      let c : ClientConnector :=
        { c with
          conns := c.conns.modify i fun conn => { conn with key := key, haveKey := true, done := true }
          completed := c.completed + 1
          io := c.io ++ [.keyed i key] }
      (if c.completed = c.conns.length then c.assemble assembly else c).finish ownerDestroys
    | .keyless =>
      ({ c with lastHandshakeError := .protocol }.closeFd i |>.retryOrFail i .handshake env).finish
        ownerDestroys
    | .failed err =>
      let c := { c with lastHandshakeError := err }.closeFd i
      ({ c with conns := c.conns.modify i (fallBack c.config.transport) }.retryOrFail i .handshake
        env).finish ownerDestroys

/-- The handshake of a connection, stamped with the time of the attempt. -/
def handshakeConfig (config : ConnectorConfig) (browser : ClientBrowser) (s : Nat) (now : Int) :
    ConnectorHandshake where
  socket := s
  browser := browser
  serverName := config.serverName
  serverPub := config.serverPub
  uid := config.uid
  proxyMethod := config.proxyMethod
  encryptionMethod := config.encryptionMethod
  sessionId := config.sessionId
  unordered := config.unordered
  nowUnix := now
  timeoutMs := config.handshakeTimeoutMs

/-- The answers of `cloak_client_handshake_init` and `cloak_client_handshake_start`. -/
structure HandshakeStart where
  init : Option HandshakeError
  start : Option HandshakeError

/-- `on_dial_done`: a socket came, or `fd < 0`. -/
def onDialDone (c : ClientConnector) (i : Nat) (ok : Bool) (now : Int) (hs : HandshakeStart)
    (env : AttemptEnv) (ownerDestroys : Bool) : ClientConnector :=
  let c := { c with conns := c.conns.modify i fun conn => { conn with dialActive := false } }
  if c.status ≠ .pending then
    if ok then
      { c with
        sockets := c.sockets + 1
        io := c.io ++ [.dialed i c.sockets, .closed c.sockets] }
    else c
  else if ok = false then (c.retryOrFail i .dial env).finish ownerDestroys
  else
    let s := c.sockets
    let c : ClientConnector :=
      { c with
        sockets := s + 1
        conns := c.conns.modify i fun conn => { conn with fd := some s }
        io := c.io ++ .dialed i s ::
          c.conns[i]?.toList.map fun conn => .handshake i (handshakeConfig c.config conn.browser s now) }
    match hs.init, hs.start with
    | some err, _ =>
      (({ c with lastHandshakeError := err }.closeFd i).fail .handshake).finish ownerDestroys
    | none, some err =>
      (({ c with lastHandshakeError := err }.closeFd i).retryOrFail i .handshake env).finish
        ownerDestroys
    | none, none =>
      { c with conns := c.conns.modify i fun conn => { conn with hsActive := true } }.finish
        ownerDestroys

/-! ## Construction -/

/-- The configurations `cloak_client_connector_init` refuses. -/
def badConfig (config : ConnectorConfig) : Prop :=
  config.numConn < 1 ∨ (connectorMaxConn : Int) < config.numConn ∨ config.remoteLen = 0
    ∨ config.transport ≠ .direct ∨ config.serverName.length = 0
    ∨ clientServerNameMax < config.serverName.length ∨ proxyMethodLen < config.proxyMethod.length
    ∨ config.maxAttempts < 0

instance (config : ConnectorConfig) : Decidable (badConfig config) :=
  inferInstanceAs (Decidable (_ ∨ _ ∨ _ ∨ _ ∨ _ ∨ _ ∨ _ ∨ _))

/-- A connection as `cloak_client_connector_init` leaves it. -/
def freshConn (browser : ClientBrowser) : ConnectorConn where
  retryTimer := none
  dialActive := false
  hsActive := false
  fd := none
  key := ⟨List.replicate 32 0, length_zeroKey⟩
  haveKey := false
  done := false
  attempts := 0
  browser := browser

/-- `cloak_client_connector_init`, on arguments that are not `NULL`. -/
def init (config : ConnectorConfig) (allocOk : Bool) : Except ConnectorError ClientConnector :=
  if badConfig config then .error .config
  else if allocOk = false then .error .internal
  else .ok
    { config
      maxAttempts :=
        if config.maxAttempts ≠ 0 then config.maxAttempts.toNat else connectorDefaultMaxAttempts
      retryBaseMs := if config.retryBaseMs ≠ 0 then config.retryBaseMs else connectorDefaultRetryBaseMs
      dialTimeoutMs :=
        if config.dialTimeoutMs ≠ 0 then config.dialTimeoutMs else connectorDefaultDialTimeoutMs
      conns := List.replicate config.numConn.toNat (freshConn config.browser)
      kickoffTimer := false
      status := .pending
      error := .none
      lastHandshakeError := .none
      completed := 0
      totalAttempts := 0
      sessionOwned := false
      notified := false
      started := false
      destroyed := false
      sockets := 0
      io := [] }

/-- `cloak_client_connector_start`, with whether the timer can be armed, and whether it succeeds. -/
def start (c : ClientConnector) (timerOk : Bool) : ClientConnector × Bool :=
  if c.status ≠ .pending ∨ c.destroyed ∨ c.started then (c, false)
  else if timerOk then ({ c with kickoffTimer := true, started := true }, true)
  else ({ c with status := .failed, error := .internal, notified := true }, false)

/-! ## Runs -/

/-- What can happen to a connector once it is started. -/
inductive Event where
  | kickoff (envs : Nat → AttemptEnv) (ownerDestroys : Bool)
  | retry (i : Nat) (env : AttemptEnv) (ownerDestroys : Bool)
  | dialDone (i : Nat) (ok : Bool) (now : Int) (hs : HandshakeStart) (env : AttemptEnv)
      (ownerDestroys : Bool)
  | handshakeDone (i : Nat) (outcome : HandshakeOutcome) (env : AttemptEnv) (assembly : AssembleEnv)
      (ownerDestroys : Bool)
  | destroy

/-- Something the connector waits for happens: a timer that is armed fires, a dial or a handshake that
    is in flight ends. The owner may destroy it once. -/
def Enabled (c : ClientConnector) : Event → Prop
  | .kickoff .. => c.kickoffTimer = true
  | .retry i .. => ∃ conn, c.conns[i]? = some conn ∧ conn.retryTimer.isSome = true
  | .dialDone i .. => ∃ conn, c.conns[i]? = some conn ∧ conn.dialActive = true
  | .handshakeDone i .. => ∃ conn, c.conns[i]? = some conn ∧ conn.hsActive = true
  | .destroy => c.destroyed = false

/-- One event. -/
def step (c : ClientConnector) : Event → ClientConnector
  | .kickoff envs d => c.onKickoff envs d
  | .retry i env d => c.onRetry i env d
  | .dialDone i ok now hs env d => c.onDialDone i ok now hs env d
  | .handshakeDone i outcome env assembly d => c.onHandshakeDone i outcome env assembly d
  | .destroy => c.destroy

end ClientConnector

end Cloak
