import Cloak.Mux.Relay

set_option autoImplicit false

/-! # The proxy (`proxy.c`)

Every stream of every session gets a context: it dials the upstream, starts a relay between the two
and is torn down when the relay is done. `proxy_on_writable` tells the relays of a session that its
pool has room again, by a walk over the contexts that saves each `next` before it tells the relay.

A frame that a relay or a teardown sends may empty a connection's queue, and then the session calls
`proxy_on_writable` before the send returns. So the machine keeps the calls in progress (`calls`,
innermost first): a function that sends is cut there, `sentFrame` puts the new walk on top, and the
entry below it says what its caller still has to do. The reactor and the owner call only when no call
is in progress; `resume` is the next step of the innermost one.

Sessions and contexts are named by the order of their allocation, and `sess` and `heap` keep every
record ever allocated: a freed context's fields stay readable, with the null links and the clear
flags its teardown has left.

Two fields are not the program's. `torn` lists the contexts `proxy_stream_teardown` was called for,
in order. `touched` lists those a walk or a running pump came to, each with whether it was linked at
that moment.

What the pool, the valve, the sockets and the allocator answer is input. So is whether a frame that
is sent empties a queue; a write that does so several times is several turns of the pump. -/

namespace Cloak

/-- `CLOAK_PROXY_DEFAULT_MAX_RETRIES`. -/
def proxyDefaultMaxRetries : UInt32 := 400

/-- `CLOAK_PROXY_DEFAULT_MAX_STREAMS_PER_SESSION`. -/
def proxyDefaultMaxStreamsPerSession : UInt64 := 256

/-- `CLOAK_PROXY_MAX_STREAMS_TOTAL_FLOOR`. -/
def proxyMaxStreamsTotalFloor : UInt64 := 64

/-- `CLOAK_PROXY_MAX_STREAMS_TOTAL_CEILING`. -/
def proxyMaxStreamsTotalCeiling : UInt64 := 4096

/-- What `getrlimit` answers about descriptors. -/
inductive DescriptorLimit where
  | unknown
  | infinity
  | soft (n : UInt64)
deriving DecidableEq, Repr

/-- `proxy_derive_max_streams_total`. -/
def proxyDeriveMaxStreamsTotal : DescriptorLimit → UInt64
  | .unknown => proxyMaxStreamsTotalFloor
  | .infinity => proxyMaxStreamsTotalCeiling
  | .soft n =>
    if proxyMaxStreamsTotalCeiling ≤ n / 2 then proxyMaxStreamsTotalCeiling
    else if n / 2 ≤ proxyMaxStreamsTotalFloor then proxyMaxStreamsTotalFloor
    else n / 2

/-- `proxy_cap_low_water`. -/
def proxyCapLowWater (cap : UInt64) : UInt64 :=
  let h := if cap / 8 = 0 then 1 else cap / 8
  if cap ≤ h then 0 else cap - h

/-! ## State and inputs -/

/-- `cloak_proxy_stream_t`. `retired` is the session's mark on its stream. The relay is of either
    kind, and stays readable when it is done. -/
structure ProxyStream where
  ps : Nat
  stream : Option Stream
  retired : Bool
  dialing : Bool
  relay : Option Relay
  relaying : Bool
  retryTimer : Bool
  fdPending : Bool
  retries : UInt32
deriving Inhabited

/-- `cloak_proxy_session_t`. `closed` belongs to the session, and of the upstream's address only what
    it says about the relay is kept. -/
structure ProxySession where
  uid : List UInt8
  sessionId : UInt32
  upstream : RelayKind
  sesh : Bool
  closed : Bool
  streams : List Nat
  streamCount : UInt64
  capped : Bool

instance : Inhabited ProxySession := ⟨⟨[], 0, .stream, false, false, [], 0, false⟩⟩

/-- What a function that was called has still to do.
    `walk` is the loop of `proxy_on_writable`, with the `next` it has saved.
    `pump` is the loop of `pump_fd_to_stream` and the end of its caller.
    `ending` and `stopping` are a relay's teardown behind its closing frame, called by the relay
    itself and by `proxy_stream_teardown`; `closing` says whether the stream was still to be closed.
    `releasing` is the end of `proxy_stream_teardown`.
    `teardown` and `destroy` are the loops of `proxy_session_teardown` and `cloak_proxy_destroy`. -/
inductive ProxyCall where
  | walk (i : Nat) (next : Option Nat)
  | pump (p : Nat)
  | ending (p : Nat) (closing : Bool)
  | stopping (p : Nat) (closing : Bool)
  | releasing (p : Nat)
  | teardown (i : Nat)
  | destroy
deriving DecidableEq, Repr

/-- `cloak_proxy_t`. -/
structure Proxy where
  maxRetries : UInt32
  maxStreamsPerSession : UInt64
  maxStreamsTotal : UInt64
  sessions : List Nat
  streamCount : UInt64
  totalCapped : Bool
  sess : List ProxySession
  heap : List ProxyStream
  calls : List ProxyCall
  torn : List Nat
  touched : List (Nat × Bool)

/-- What a step of a relay meets, and whether the frame it sends empties a queue. -/
structure RelayInput where
  minConnFree : Nat
  valve : ValveReading
  timerOk : Bool
  fd : FdRead
  drains : Bool

/-- What the start of a relay meets: `accepted` is that the buffer and the reactor's watch were to be
    had, `ended` what the first `pump_stream_to_fd` returns, `timerOk` whether the timer for that end
    could be armed, `retryArmed` the same for the timer of another try. -/
structure RelayStart where
  minConnFree : Nat
  accepted : Bool
  ended : Bool
  timerOk : Bool
  retryArmed : Bool
  drains : Bool

namespace Proxy

/-- `cloak_proxy_init`. -/
def init (maxRetries : UInt32) (maxStreamsPerSession maxStreamsTotal : UInt64)
    (limit : DescriptorLimit) : Proxy where
  maxRetries := if maxRetries = 0 then proxyDefaultMaxRetries else maxRetries
  maxStreamsPerSession :=
    if maxStreamsPerSession = 0 then proxyDefaultMaxStreamsPerSession else maxStreamsPerSession
  maxStreamsTotal :=
    if maxStreamsTotal = 0 then proxyDeriveMaxStreamsTotal limit else maxStreamsTotal
  sessions := []
  streamCount := 0
  totalCapped := false
  sess := []
  heap := []
  calls := []
  torn := []
  touched := []

/-- The record of a context. -/
def streamAt (s : Proxy) (p : Nat) : ProxyStream := s.heap.getD p default

/-- The record of a session. -/
def sessAt (s : Proxy) (i : Nat) : ProxySession := s.sess.getD i default

/-- Stores into a context's record. -/
def update (s : Proxy) (p : Nat) (f : ProxyStream → ProxyStream) : Proxy :=
  { s with heap := s.heap.modify p f }

/-- Stores into a session's record. -/
def updateSess (s : Proxy) (i : Nat) (f : ProxySession → ProxySession) : Proxy :=
  { s with sess := s.sess.modify i f }

/-- One more call in progress. -/
def push (s : Proxy) (c : ProxyCall) : Proxy := { s with calls := c :: s.calls }

/-- The relay of a context while `relaying` is set. -/
def relayAt (s : Proxy) (p : Nat) : Option Relay :=
  if (s.streamAt p).relaying then (s.streamAt p).relay else none

/-- A walk or a pump comes to a context. -/
def touch (s : Proxy) (p : Nat) : Proxy :=
  { s with touched := s.touched ++ [(p, decide (p ∈ (s.sessAt (s.streamAt p).ps).streams))] }

/-! ## List bookkeeping -/

/-- `pst->next`. -/
def nextStream (s : Proxy) (p : Nat) : Option Nat :=
  ((s.sessAt (s.streamAt p).ps).streams.dropWhile (· != p)).tail.head?

/-- A session's part of `proxy_stream_link`, at the head. -/
def linkTo (p : Nat) (ps : ProxySession) : ProxySession :=
  { ps with streams := p :: ps.streams, streamCount := ps.streamCount + 1 }

/-- `proxy_stream_link`. -/
def streamLink (s : Proxy) (i p : Nat) : Proxy :=
  { s.updateSess i (linkTo p) with streamCount := s.streamCount + 1 }

/-- A session's part of `proxy_stream_unlink`. Of a context with neither neighbour it makes the head
    its null `next`: the list is empty then, whatever it held. -/
def unlinkFrom (cap : UInt64) (p : Nat) (ps : ProxySession) : ProxySession :=
  { ps with
    streams := if p ∈ ps.streams then ps.streams.erase p else []
    streamCount := ps.streamCount - 1
    capped := ps.capped && !decide (ps.streamCount - 1 ≤ proxyCapLowWater cap) }

/-- `proxy_stream_unlink`. -/
def streamUnlink (s : Proxy) (p : Nat) : Proxy :=
  { s.updateSess (s.streamAt p).ps (unlinkFrom s.maxStreamsPerSession p) with
    streamCount := s.streamCount - 1
    totalCapped :=
      s.totalCapped && !decide (s.streamCount - 1 ≤ proxyCapLowWater s.maxStreamsTotal) }

/-- `proxy_find_session`. -/
def findSession (s : Proxy) (uid : List UInt8) (sessionId : UInt32) : Option Nat :=
  s.sessions.find? fun i =>
    decide ((s.sessAt i).sessionId = sessionId) && decide ((s.sessAt i).uid = uid)

/-! ## Frames sent -/

/-- A frame of a session is sent. If it empties a queue, `proxy_on_writable` begins. -/
def sentFrame (s : Proxy) (i : Nat) (drains : Bool) : Proxy :=
  if drains then s.push (.walk i (s.sessAt i).streams.head?) else s

/-- `cloak_stream_send_closing`: the write side is finished before the frame goes out. -/
def sendClosing (s : Proxy) (p : Nat) (drains : Bool) : Proxy :=
  match (s.streamAt p).stream with
  | none => s
  | some stream =>
    if stream.writeClosed then s
    else
      (s.update p ({ · with stream := some { stream with writeClosed := true } })).sentFrame
        (s.streamAt p).ps drains

/-- `cloak_session_close_stream` by a relay's teardown, up to its frame. -/
def closeStream (s : Proxy) (p : Nat) (call : Bool → ProxyCall) (drains : Bool) : Proxy :=
  if (s.sessAt (s.streamAt p).ps).closed || (s.streamAt p).retired then s.push (call false)
  else (s.push (call true)).sendClosing p drains

/-- `session_retire_stream`, where the stream was still to be closed. -/
def retireStream (s : Proxy) (p : Nat) (closing : Bool) : Proxy :=
  if closing then s.update p ({ · with retired := true }) else s

/-- What a relay's own step leaves of it. If that is its end, the teardown goes on with the closing
    frame. -/
def setRelay (s : Proxy) (p : Nat) (r r' : Relay) (drains : Bool) : Proxy :=
  let s := s.update p ({ · with relay := some r' })
  if r'.done && !r.done then s.closeStream p (.ending p) drains else s

/-! ## Teardown -/

/-- `proxy_stream_teardown` behind the stop of the relay: `cloak_session_release_stream` up to its
    frame. -/
def releaseRest (s : Proxy) (p : Nat) (drains : Bool) : Proxy :=
  let s := (s.update p ({ · with fdPending := false })).push (.releasing p)
  if (s.sessAt (s.streamAt p).ps).sesh && !(s.streamAt p).retired then s.sendClosing p drains else s

/-- `proxy_stream_teardown` up to the stop of the relay: the call is on record, the timer and the
    dial are cancelled, and the relay's teardown has begun. -/
def beginTeardown (s : Proxy) (p : Nat) : Proxy :=
  { s with torn := s.torn ++ [p] }.update p fun pst =>
    { pst with
      retryTimer := false
      dialing := false
      relaying := false
      relay := if pst.relaying then pst.relay.map Relay.teardown else pst.relay }

/-- `proxy_stream_teardown`. -/
def streamTeardown (s : Proxy) (p : Nat) (drains : Bool) : Proxy :=
  if (s.relayAt p).any (!·.done) then (s.beginTeardown p).closeStream p (.stopping p) drains
  else (s.beginTeardown p).releaseRest p drains

/-- `proxy_stream_teardown` behind the release. -/
def endTeardown (s : Proxy) (p : Nat) : Proxy :=
  (s.update p ({ · with stream := none })).streamUnlink p

/-- `proxy_session_teardown`, up to its loop. -/
def sessionTeardown (s : Proxy) (i : Nat) : Proxy :=
  (s.updateSess i ({ · with capped := false })).push (.teardown i)

/-- `proxy_session_teardown` behind its loop. -/
def sessionUnlink (s : Proxy) (i : Nat) : Proxy :=
  { s.updateSess i ({ · with sesh := false }) with sessions := s.sessions.erase i }

/-! ## Streams -/

/-- `proxy_try_start_relay`. A start that fails because the timer of its immediate end could not be
    armed has torn the relay down itself, closing frame included. -/
def tryStartRelay (s : Proxy) (p : Nat) (st : RelayStart) : Proxy :=
  match (s.sessAt (s.streamAt p).ps).sesh, (s.streamAt p).stream, (s.streamAt p).fdPending with
  | true, some stream, true =>
    if st.minConnFree < streamRelayFrameCost stream then
      -- `CLOAK_STREAM_RELAY_ERR_POOL_FULL`, the one failure worth another try
      if s.maxRetries ≤ (s.streamAt p).retries then s.streamTeardown p st.drains
      else if st.retryArmed then
        s.update p fun pst => { pst with retries := pst.retries + 1, retryTimer := true }
      else
        (s.update p fun pst => { pst with retries := pst.retries + 1 }).streamTeardown p st.drains
    else if !st.accepted then s.streamTeardown p st.drains
    else
      match Relay.start (s.sessAt (s.streamAt p).ps).upstream stream st.minConnFree st.ended
          st.timerOk with
      | some r => s.update p ({ · with relay := some r, relaying := true, fdPending := false })
      | none =>
        (s.update p ({ · with
          relay := some ⟨(s.sessAt (s.streamAt p).ps).upstream, stream, false, false, false, true⟩
        })).closeStream p (.ending p) st.drains
  | _, _, _ => s.streamTeardown p st.drains

/-- `proxy_on_dial_done`. -/
def onDialDone (s : Proxy) (p : Nat) (connected : Bool) (st : RelayStart) : Proxy :=
  let s := s.update p ({ · with dialing := false })
  if connected then (s.update p ({ · with fdPending := true, retries := 0 })).tryStartRelay p st
  else s.streamTeardown p st.drains

/-- `proxy_on_retry_timer`. -/
def onRetryTimer (s : Proxy) (p : Nat) (st : RelayStart) : Proxy :=
  (s.update p ({ · with retryTimer := false })).tryStartRelay p st

/-- A context as `proxy_on_new_stream` fills it in. -/
def freshStream (i : Nat) (stream : Stream) (retired : Bool) : ProxyStream where
  ps := i
  stream := some stream
  retired := retired
  dialing := false
  relay := none
  relaying := false
  retryTimer := false
  fdPending := false
  retries := 0

/-- `proxy_on_new_stream`. `retired` is a stream its first frame has closed. -/
def onNewStream (s : Proxy) (i : Nat) (stream : Stream) (retired allocated dialed drains : Bool) :
    Proxy :=
  let s := s.updateSess i ({ · with sesh := true })
  if s.maxStreamsTotal ≤ s.streamCount then
    { s with totalCapped := true }.sentFrame i (!retired && drains)
  else if s.maxStreamsPerSession ≤ (s.sessAt i).streamCount then
    (s.updateSess i ({ · with capped := true })).sentFrame i (!retired && drains)
  else if !allocated then s.sentFrame i (!retired && drains)
  else
    let p := s.heap.length
    let s := { s with heap := s.heap ++ [freshStream i stream retired] }.streamLink i p
    if dialed then s.update p ({ · with dialing := true }) else s.streamTeardown p drains

/-- `proxy_on_stream_data`, where `p` names the context that has the stream. `ended` is what
    `pump_stream_to_fd` returns. -/
def onStreamData (s : Proxy) (i p : Nat) (ended drains : Bool) : Proxy :=
  if p ∈ (s.sessAt i).streams ∧ (s.streamAt p).stream.isSome then
    match s.relayAt p with
    | none => s
    | some r => s.setRelay p r (r.onStreamData ended) drains
  else s

/-! ## The loops -/

/-- A relay's step that may find it unpaused, and then goes on with the pump. -/
def stepAndPump (s : Proxy) (p : Nat) (r r' : Relay) (pumps drains : Bool) : Proxy :=
  let s := s.setRelay p r r' drains
  if pumps && (r.fdReadPaused && !r'.fdReadPaused) then s.push (.pump p) else s

/-- A turn of `proxy_on_writable`'s loop. A datagram relay that finds room goes on to read its
    socket at once, a stream relay leaves that to the reactor. -/
def visit (s : Proxy) (i p : Nat) (inp : RelayInput) : Proxy :=
  let s := (s.touch p).push (.walk i (s.nextStream p))
  match s.relayAt p with
  | none => s
  | some r =>
    s.stepAndPump p r (r.notifyWritable inp.minConnFree inp.valve inp.timerOk)
      (decide (r.kind = .dgram)) inp.drains

/-- A turn of `pump_fd_to_stream`, and what its callers do when it fails. On a freed relay it finds
    the socket closed and the relay done. -/
def pumpTurn (s : Proxy) (p : Nat) (inp : RelayInput) : Proxy :=
  match (s.streamAt p).relay with
  | none => s.touch p
  | some r =>
    if r.done then s.touch p
    else if (r.room inp.minConnFree inp.valve).1 && decide (inp.fd = .data) then
      ((s.touch p).push (.pump p)).sentFrame (s.streamAt p).ps inp.drains
    else
      (s.touch p).setRelay p r (r.pumpTurn inp.minConnFree inp.valve inp.timerOk inp.fd) inp.drains

/-- The next step of the innermost call. -/
def resume (s : Proxy) (inp : RelayInput) : Proxy :=
  match s.calls with
  | [] => s
  | .walk _ none :: cs => { s with calls := cs }
  | .walk i (some p) :: cs => { s with calls := cs }.visit i p inp
  | .pump p :: cs => { s with calls := cs }.pumpTurn p inp
  | .ending p closing :: cs =>
    -- the relay's `on_done`, or the failed start's caller
    (({ s with calls := cs }.retireStream p closing).update p
      ({ · with relaying := false })).streamTeardown p inp.drains
  | .stopping p closing :: cs =>
    ({ s with calls := cs }.retireStream p closing).releaseRest p inp.drains
  | .releasing p :: cs => { s with calls := cs }.endTeardown p
  | .teardown i :: cs =>
    match (s.sessAt i).streams with
    | [] => { s with calls := cs }.sessionUnlink i
    | p :: _ => s.streamTeardown p inp.drains
  | .destroy :: cs =>
    match s.sessions with
    | [] => { s with calls := cs }
    | i :: _ => s.sessionTeardown i

/-! ## Public entry points -/

/-- A session's context as `cloak_proxy_prepare_session` fills it in. -/
def freshSession (uid : List UInt8) (sessionId : UInt32) (upstream : RelayKind) : ProxySession where
  uid := uid
  sessionId := sessionId
  upstream := upstream
  sesh := false
  closed := false
  streams := []
  streamCount := 0
  capped := false

/-- `cloak_proxy_prepare_session`; there is no upstream for an unknown proxy method. -/
def prepareSession (s : Proxy) (uid : List UInt8) (sessionId : UInt32)
    (upstream : Option RelayKind) : Proxy :=
  match upstream with
  | none => s
  | some kind =>
    { s with
      sess := s.sess ++ [freshSession uid sessionId kind]
      sessions := s.sess.length :: s.sessions }

/-- `cloak_proxy_registry_broken` before its chain, and `cloak_proxy_session_aborted`. -/
def sessionGone (s : Proxy) (uid : List UInt8) (sessionId : UInt32) : Proxy :=
  match s.findSession uid sessionId with
  | none => s
  | some i => s.sessionTeardown i

end Proxy

/-! ## Runs -/

/-- What can happen to a proxy. A timer fires only while it is armed, a dial ends only while it is
    under way, and a relay's own events reach it only while it lives. `fdWritable` is the part of its
    descriptor's event that `ended` is about, `fdReadable` the part that pumps; the reactor reports
    an error or a hang-up as readable even while the relay is paused.

    The last four are not calls of the proxy's: the innermost call goes on, or something has happened
    to a session or a stream. -/
inductive ProxyEvent where
  | prepareSession (uid : List UInt8) (sessionId : UInt32) (upstream : Option RelayKind)
  | newStream (i : Nat) (stream : Stream) (retired allocated dialed drains : Bool)
  | dialDone (p : Nat) (connected : Bool) (st : RelayStart)
  | retryTimer (p : Nat) (st : RelayStart)
  | streamData (i p : Nat) (ended drains : Bool)
  | fdWritable (p : Nat) (ended drains : Bool)
  | fdReadable (p : Nat)
  | rateTimer (p : Nat) (inp : RelayInput)
  | finishTimer (p : Nat) (drains : Bool)
  | writable (i : Nat)
  | sessionGone (uid : List UInt8) (sessionId : UInt32)
  | destroy
  | resume (inp : RelayInput)
  | sessionClosed (i : Nat)
  | streamRetired (p : Nat)
  | writeFailed (p : Nat)

namespace Proxy

/-- A callback for the relay of a context. -/
def onRelay (s : Proxy) (p : Nat) (f : Relay → Proxy) : Proxy :=
  match s.relayAt p with
  | none => s
  | some r => if r.done then s else f r

/-- A call from the reactor or the owner. -/
def enter (s : Proxy) : ProxyEvent → Proxy
  | .prepareSession uid sessionId upstream => s.prepareSession uid sessionId upstream
  | .newStream i stream retired allocated dialed drains =>
    if i ∈ s.sessions then s.onNewStream i stream retired allocated dialed drains else s
  | .dialDone p connected st => if (s.streamAt p).dialing then s.onDialDone p connected st else s
  | .retryTimer p st => if (s.streamAt p).retryTimer then s.onRetryTimer p st else s
  | .streamData i p ended drains => s.onStreamData i p ended drains
  | .fdWritable p ended drains => s.onRelay p fun r => s.setRelay p r (r.onStreamData ended) drains
  | .fdReadable p => s.onRelay p fun r => if r.isFinishing then s else s.push (.pump p)
  | .rateTimer p inp =>
    s.onRelay p fun r =>
      s.stepAndPump p r (r.onRateTimer inp.minConnFree inp.valve inp.timerOk) true inp.drains
  | .finishTimer p drains => s.onRelay p fun r => s.setRelay p r r.onFinishTimer drains
  | .writable i => if i ∈ s.sessions then s.sentFrame i true else s
  | .sessionGone uid sessionId => s.sessionGone uid sessionId
  | .destroy => s.push .destroy
  | _ => s

/-- One event. -/
def step (s : Proxy) : ProxyEvent → Proxy
  | .resume inp => s.resume inp
  | .sessionClosed i => s.updateSess i ({ · with closed := true })
  | .streamRetired p => s.update p ({ · with retired := true })
  | .writeFailed p =>
    s.update p fun pst =>
      { pst with stream := pst.stream.map fun stream => { stream with writeClosed := true } }
  | ev => if s.calls = [] then s.enter ev else s

end Proxy

end Cloak
