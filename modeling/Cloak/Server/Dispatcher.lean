import Cloak.Mux.WsFrame
import Cloak.Server.Registry
import Cloak.Server.ServerAuth
import Cloak.Server.WsHandshake

set_option autoImplicit false

/-! # The dispatcher (`dispatcher.c`)

A connection that has been accepted reads its first packet, and from there either is relayed to the
cover site or writes its reply and is handed to a session. The reply may take many turns of the
reactor. In between, `conn_handoff` and `conn_teardown` keep no pointer to the session but look it
up again by uid and session id.

The parsers of the first packet are not part of this file: an event carries what
`cloak_clienthello_parse` or `cloak_ws_handshake_parse` makes of the bytes. It also carries the
answers of the panel, the owner's callbacks and the allocator. `handOffs` and `closes` record what
was done with sessions, `session` and `sealedKey` which session and key a reply was composed for;
nothing here reads them. -/

namespace Cloak

open Lib

/-- `cloak_firstpacket_transport_t`, the two a parsed first packet has. -/
inductive Transport where
  | tls
  | webSocket
deriving DecidableEq, Repr

/-- A parsed first packet. -/
structure Hello where
  transport : Transport
  presentation : Presentation
  accept : List UInt8

/-- What reading ends with, until the next edge. `done none` is a packet its parser refuses. -/
inductive FirstPacketRead where
  | needMore
  | peerGone
  | error
  | done (hello : Option Hello)

/-- What an authentication asks of the rest of the server, and what it draws. -/
structure AuthEnv where
  panelOk : Bool
  userBypass : Bool
  capOk : Bool
  prepareOk : Bool
  allocOk : Bool
  timerOk : Bool
  sessionKey : {k : List UInt8 // k.length = 32}
  replyNonce : List UInt8
  pad4 : List UInt8
  certLen : Fin 7
  certBytes : Nat → UInt8

/-- What the reactor, the kernel and the session's allocations answer in one turn. -/
structure TurnEnv where
  dialOk : Bool
  deadlineOk : Bool
  modOk : Bool
  connOk : Bool
  kernel : List SendRes

/-- The parts of `cloak_dispatcher_config_t` and of the server behind it that are read here. -/
structure DispatcherConfig where
  privateKey : List UInt8
  isBypass : List UInt8 → Bool
  isAdmin : List UInt8 → Bool
  hasProxy : List UInt8 → Bool
  hasPanel : Bool
  maxPendingConns : Nat
  template : SessionConfig

/-- The `auth_` fields of a connection. -/
structure ConnAuth where
  created : Bool
  uid : List UInt8
  sessionId : Nat
  info : ClientInfo
  framing : Framing
  session : Nat
  sealedKey : List UInt8

/-- `cloak_dispatch_conn_t`. `auth` is `none` until `dispatcher_authenticate` has succeeded. -/
structure DispatchConn where
  deadline : Bool
  pending : Bool
  dialing : Bool
  relaying : Bool
  writingReply : Bool
  reply : List UInt8
  replySent : Nat
  auth : Option ConnAuth

/-- A socket that was attached to a session: the key in the reply that was written on it and the
    ordering it authenticated with, and those of the session. -/
structure HandOff where
  sealedKey : List UInt8
  asked : SessionOrdering
  sessionKey : List UInt8
  ordering : SessionOrdering
deriving DecidableEq

/-- A session closed by the teardown of a connection: the one it had created, and the one closed. -/
structure SessionClose where
  created : Nat
  closed : Nat
deriving DecidableEq

/-- `cloak_dispatcher_t`, with the replay cache and the registry of its server. -/
structure Dispatcher where
  conns : List (Nat × DispatchConn)
  nextConn : Nat
  pendingCount : Nat
  orderingMismatchRefusals : Nat
  replay : ReplayCache
  registry : Registry
  handOffs : List HandOff
  closes : List SessionClose

/-- What can happen. `readable` is a connection that reads its first packet, `writable` one that
    writes its reply. `close` and `closeAllForUid` are calls of the owner or the panel. -/
inductive DispatchEv where
  | accept (deadlineOk addFdOk : Bool)
  | readable (i : Nat) (read : FirstPacketRead) (auth : AuthEnv) (env : TurnEnv)
  | writable (i : Nat) (env : TurnEnv)
  | deadline (i : Nat)
  | dialDone (i : Nat) (dialed relayOk : Bool)
  | relayDone (i : Nat)
  | session (a : Nat) (ev : PoolEv) (timerOk : Bool)
  | sweep
  | close (uid : List UInt8) (sessionId : Nat)
  | closeAllForUid (uid : List UInt8)
  | destroy

/-- `cloak_aead_method_is_valid`, with the method. -/
def AeadMethod.ofByte? (b : UInt8) : Option AeadMethod :=
  if b = 0 then some .none
  else if b = 1 then some .aes256Gcm
  else if b = 2 then some .chacha20Poly1305
  else if b = 3 then some .aes128Gcm
  else Option.none

/-- The ordering a client asks for. -/
def ClientInfo.asked (info : ClientInfo) : SessionOrdering :=
  if info.unordered then .unordered else .ordered

/-! ## The reply -/

/-- Step 9 of `dispatcher_authenticate`. -/
def composeReply (evp : Evp) (hello : Hello) (sharedSecret sessionKey : List UInt8)
    (env : AuthEnv) : Option (List UInt8) :=
  match hello.transport with
  | .webSocket => do
    let r101 ← wsHandshakeCompose101 serverAuthReplyMaxBytes hello.accept
    let wsPayload ← serverAuthComposeWsReply evp sessionKey sharedSecret env.replyNonce
    let hdr ← wsFrameWriteHeader (serverAuthReplyMaxBytes - r101.length) .binary true none
      serverAuthWsReplyLen
    guard (r101.length + hdr.length + serverAuthWsReplyLen ≤ serverAuthReplyMaxBytes)
    return r101 ++ hdr ++ wsPayload
  | .tls =>
    serverAuthComposeReply evp sharedSecret sessionKey env.replyNonce
      (hello.presentation.sessionIdField.getD []) env.pad4
      ((List.range (serverAuthCertLens.getD env.certLen 0)).map env.certBytes)
      serverAuthReplyMaxBytes

/-- What the loop of `conn_continue_reply_write` ends with. -/
inductive WriteEnd where
  | drained
  | waits
  | failed

/-- The loop of `conn_continue_reply_write`, from the count already sent. An exhausted kernel script
    answers `EAGAIN`. -/
def writeReplyLoop (len : Nat) : List SendRes → (sent : Nat) → Nat × WriteEnd
  | [], sent => (sent, if sent < len then .waits else .drained)
  | r :: rs, sent =>
    if sent < len then
      match r with
      | .again => (sent, .waits)
      | .error => (sent, .failed)
      | .wrote n => if n = 0 then (sent, .failed) else writeReplyLoop len rs (min len (sent + n))
    else (sent, .drained)

namespace Dispatcher

/-! ## The life of a connection -/

/-- The connection behind a pointer that is not freed. -/
def conn? (d : Dispatcher) (i : Nat) : Option DispatchConn := d.conns.lookup i

def setConn (d : Dispatcher) (i : Nat) (c : DispatchConn) : Dispatcher :=
  { d with conns := d.conns.map fun ic => if ic.1 = i then (i, c) else ic }

/-- `conn_unlink` and `free`. -/
def unlink (d : Dispatcher) (i : Nat) (c : DispatchConn) : Dispatcher :=
  { d with
    conns := d.conns.filter (·.1 ≠ i)
    pendingCount := if c.pending then d.pendingCount - 1 else d.pendingCount }

/-- The part of `conn_teardown` that reaches beyond the connection: a session that this connection
    has created, and that is still empty, is closed. -/
def teardown (d : Dispatcher) (c : DispatchConn) : Dispatcher :=
  match c.auth with
  | none => d
  | some a =>
    if a.created then
      match d.registry.find a.uid a.sessionId with
      | none => d
      | some e =>
        if e.sesh.pool.conns.length = 0 then
          { d with
            registry := d.registry.close a.uid a.sessionId
            closes := d.closes ++ [⟨a.session, e.address⟩] }
        else d
    else d

/-- `conn_drop`. -/
def drop (d : Dispatcher) (i : Nat) (c : DispatchConn) : Dispatcher := (d.teardown c).unlink i c

/-- `conn_start_redirect`. -/
def startRedirect (d : Dispatcher) (i : Nat) (c : DispatchConn) (dialOk : Bool) : Dispatcher :=
  if dialOk then d.setConn i { c with deadline := false, dialing := true }
  else d.drop i { c with deadline := false }

/-! ## Authentication -/

section Authentication

variable (x : X25519) (evp : Evp) (cfg : DispatcherConfig)

/-- Step 6. -/
def authorised (uid : List UInt8) (env : AuthEnv) : Bool :=
  if cfg.hasPanel then env.panelOk else cfg.isBypass uid

/-- Step 6a. -/
def withAdmin (info : ClientInfo) : ClientInfo :=
  { info with isAdmin := cfg.isAdmin info.uid && info.sessionId = 0 }

/-- Step 8a. Without a panel there is no user to ask about. -/
def underCap (env : AuthEnv) : Bool := !cfg.hasPanel || env.userBypass || env.capOk

/-- The configuration of step 8b. -/
def sessionConfig (info : ClientInfo) (method : AeadMethod) (env : AuthEnv) : SessionConfig :=
  { cfg.template with
    obfuscator := ⟨method, env.sessionKey.val, env.sessionKey.property⟩
    ordering := info.asked }

/-- Step 8: the session of the pair, which must have the ordering asked for, or a new one. The
    result is the entry, the key for the reply, and whether the session is new. -/
def findOrCreate (d : Dispatcher) (info : ClientInfo) (method : AeadMethod) (env : AuthEnv) :
    Dispatcher × Option (RegistryEntry × List UInt8 × Bool) :=
  match d.registry.find info.uid info.sessionId with
  | some e =>
    if e.config.ordering ≠ info.asked then
      ({ d with orderingMismatchRefusals := d.orderingMismatchRefusals + 1 }, none)
    else (d, some (e, e.config.obfuscator.sessionKey, false))
  | none =>
    if !underCap cfg env || !env.prepareOk then (d, none)
    else
      match d.registry.getOrCreate info.uid info.sessionId (sessionConfig cfg info method env)
          env.allocOk env.timerOk with
      | (r, none) => ({ d with registry := r }, none)
      | (r, some (e, created)) => ({ d with registry := r }, some (e, env.sessionKey.val, created))

/-- The fields the hand-off needs. -/
def authFields (hello : Hello) (info : ClientInfo) (e : RegistryEntry) (sessionKey : List UInt8)
    (created : Bool) : ConnAuth :=
  { created := created
    uid := info.uid
    sessionId := info.sessionId
    info := info
    framing := if hello.transport = .webSocket then .wsServer else .tlsRecord
    session := e.address
    sealedKey := sessionKey }

/-- Step 9. -/
def finishAuth (d : Dispatcher) (hello : Hello) (info : ClientInfo) (sharedSecret : List UInt8)
    (e : RegistryEntry) (sessionKey : List UInt8) (created : Bool) (env : AuthEnv) :
    Dispatcher × Option (List UInt8 × ConnAuth) :=
  match composeReply evp hello sharedSecret sessionKey env with
  | none =>
    if created then ({ d with registry := d.registry.close info.uid info.sessionId }, none)
    else (d, none)
  | some reply =>
    (d, some (reply, authFields hello info e sessionKey created))

/-- `dispatcher_authenticate`, from step 3 on: the reply to write, or a refusal. -/
def authenticate (d : Dispatcher) (hello : Hello) (env : AuthEnv) :
    Dispatcher × Option (List UInt8 × ConnAuth) :=
  match handshake x evp cfg.privateKey d.replay hello.presentation with
  | (replay, none) => ({ d with replay := replay }, none)
  | (replay, some (info, sharedSecret)) =>
    match AeadMethod.ofByte? info.encryptionMethod with
    | none => ({ d with replay := replay }, none)
    | some method =>
      if !authorised cfg info.uid env then ({ d with replay := replay }, none)
      else if !(withAdmin cfg info).isAdmin && !cfg.hasProxy info.proxyMethod then
        ({ d with replay := replay }, none)
      else
        match findOrCreate cfg { d with replay := replay } (withAdmin cfg info) method env with
        | (d, none) => (d, none)
        | (d, some (e, sessionKey, created)) =>
          finishAuth evp d hello (withAdmin cfg info) sharedSecret e sessionKey created env

/-! ## The reply and the hand-off -/

/-- `conn_handoff`. -/
def handoff (d : Dispatcher) (i : Nat) (c : DispatchConn) (connOk : Bool) : Dispatcher :=
  match c.auth with
  | none => d
  | some a =>
    match d.registry.find a.uid a.sessionId with
    | none => d.drop i c
    | some e =>
      match e.sesh.addConnFramed a.framing connOk with
      | none => d.drop i c
      | some _ =>
        unlink { d with
          registry := d.registry.attach e.address a.framing connOk
          handOffs := d.handOffs ++
            [⟨a.sealedKey, a.info.asked, e.config.obfuscator.sessionKey, e.config.ordering⟩] } i c

/-- `conn_continue_reply_write`. -/
def continueReplyWrite (d : Dispatcher) (i : Nat) (c : DispatchConn) (env : TurnEnv) : Dispatcher :=
  match writeReplyLoop c.reply.length env.kernel c.replySent with
  | (sent, .drained) => d.handoff i { c with replySent := sent, writingReply := false } env.connOk
  | (sent, .waits) =>
    if c.writingReply || env.modOk then
      d.setConn i { c with replySent := sent, writingReply := true }
    else d.drop i { c with replySent := sent, writingReply := true }
  | (sent, .failed) => d.drop i { c with replySent := sent }

/-- `conn_on_firstpacket_done`. -/
def onFirstpacketDone (d : Dispatcher) (i : Nat) (c : DispatchConn) (hello : Option Hello)
    (auth : AuthEnv) (env : TurnEnv) : Dispatcher :=
  match hello with
  | none => d.startRedirect i { c with deadline := false } env.dialOk
  | some hello =>
    match d.authenticate x evp cfg hello auth with
    | (d, none) => d.startRedirect i { c with deadline := false } env.dialOk
    | (d, some (reply, a)) =>
      if env.deadlineOk then
        d.continueReplyWrite i
          { c with deadline := true, reply := reply, replySent := 0, auth := some a } env
      else
        d.drop i { c with deadline := false, reply := reply, replySent := 0, auth := some a }

/-! ## The reactor's and the owner's calls -/

/-- `cloak_dispatcher_init`. -/
def init (replay : ReplayCache) : Dispatcher := ⟨[], 0, 0, 0, replay, .init, [], []⟩

/-- `cloak_dispatcher_accept`. -/
def acceptConn (d : Dispatcher) (deadlineOk addFdOk : Bool) : Dispatcher :=
  if cfg.maxPendingConns ≤ d.pendingCount then d
  else
    let c : DispatchConn :=
      { deadline := deadlineOk, pending := true, dialing := false, relaying := false,
        writingReply := false, reply := [], replySent := 0, auth := none }
    let d := { d with
      conns := (d.nextConn, c) :: d.conns
      nextConn := d.nextConn + 1
      pendingCount := d.pendingCount + 1 }
    if deadlineOk && addFdOk then d else d.drop (d.nextConn - 1) c

/-- `on_readable` while the first packet is read. -/
def onReadable (d : Dispatcher) (i : Nat) (c : DispatchConn) (read : FirstPacketRead)
    (auth : AuthEnv) (env : TurnEnv) : Dispatcher :=
  match read with
  | .needMore => d
  | .peerGone => d.drop i c
  | .error => d.startRedirect i c env.dialOk
  | .done hello => d.onFirstpacketDone x evp cfg i c hello auth env

/-- `on_dial_done`. -/
def onDialDone (d : Dispatcher) (i : Nat) (c : DispatchConn) (dialed relayOk : Bool) : Dispatcher :=
  if !dialed then d.drop i { c with dialing := false }
  else if !relayOk then d.unlink i { c with dialing := false }
  else
    { d.setConn i { c with dialing := false, relaying := true, pending := false } with
      pendingCount := if c.pending then d.pendingCount - 1 else d.pendingCount }

/-- `cloak_dispatcher_destroy`. -/
def destroy (d : Dispatcher) : Dispatcher :=
  { d.conns.foldl (fun d ic => d.teardown ic.2) d with conns := [], pendingCount := 0 }

/-- One event. A callback of a connection comes only in the phase it is registered for, and only the
    dispatcher adds connections to the server's sessions. -/
def step (d : Dispatcher) : DispatchEv → Dispatcher
  | .accept deadlineOk addFdOk => d.acceptConn cfg deadlineOk addFdOk
  | .readable i read auth env =>
    match d.conn? i with
    | none => d
    | some c =>
      if c.dialing || c.relaying || c.writingReply then d
      else d.onReadable x evp cfg i c read auth env
  | .writable i env =>
    match d.conn? i with
    | none => d
    | some c => if c.writingReply then d.continueReplyWrite i c env else d
  | .deadline i =>
    match d.conn? i with
    | none => d
    | some c => if c.deadline then d.drop i { c with deadline := false } else d
  | .dialDone i dialed relayOk =>
    match d.conn? i with
    | none => d
    | some c => if c.dialing then d.onDialDone i c dialed relayOk else d
  | .relayDone i =>
    match d.conn? i with
    | none => d
    | some c => if c.relaying then d.unlink i { c with relaying := false } else d
  | .session _ (.addConn _) _ => d
  | .session a ev timerOk => { d with registry := d.registry.stepSession evp a ev timerOk }
  | .sweep => { d with registry := d.registry.sweepTimerCb }
  | .close uid sessionId => { d with registry := d.registry.close uid sessionId }
  | .closeAllForUid uid => { d with registry := d.registry.closeAllForUid uid }
  | .destroy => d.destroy

end Authentication

end Dispatcher

end Cloak
