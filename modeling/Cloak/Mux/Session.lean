import Cloak.Mux.Strmtab
import Cloak.Mux.Stream
import Cloak.Mux.Conn
import Cloak.Lib.Run

set_option autoImplicit false

/-! # Sessions (`session.c`)

A session routes inbound frames to streams by id, creates a stream for an id it has never seen,
hands out ids of its own, and is torn down in two deferred steps. The streams are heap objects the
owner holds pointers to: `heap` is indexed by pointer and an entry is `none` once freed.

Every frame leaves through `cloak_switchboard_send`, and before that call returns a connection may
break or drain and the owner's callbacks may call back into the session. So a call that waits for it
is a `PendingCall` on a stack, `sinkReturn` continues the innermost one, and any other event may come
in between. The callbacks of the session are the last thing their callers do: `callbacks` records
them, and what their callees do is whatever event comes next.

What the owner must not do is not a step here: use a pointer after freeing it, release a stream while
one of its calls is on the stack, destroy the session from inside a call. Timers fire from the
reactor's loop, so only with no call on the stack. -/

namespace Cloak

open Lib

/-- A `cloak_stream_t *`. -/
abbrev StreamHandle := Nat

/-- `cloak_session_stream_entry_t`. -/
structure StreamEntry where
  stream : Stream
  retired : Bool

/-- The fields of `cloak_session_config_t` that decide anything here. -/
structure SessionConfig where
  ordering : SessionOrdering
  obfuscator : Obfuscator
  maxOnWireSize : Nat
  streamRecvCapacity : Nat
  streamMaxPendingFrames : Nat
  connSendQueueCap : Nat

/-- The sizes `cloak_session_init` refuses. -/
def SessionConfig.badSizes (c : SessionConfig) : Prop :=
  c.maxOnWireSize ≤ frameHeaderLen + frameMaxExtraLen
    ∨ c.streamRecvCapacity = 0
    ∨ c.streamRecvCapacity < c.maxOnWireSize - frameHeaderLen
    ∨ c.connSendQueueCap = 0
    ∨ connMaxFrameLen < c.maxOnWireSize

instance (c : SessionConfig) : Decidable c.badSizes :=
  inferInstanceAs (Decidable (_ ∨ _ ∨ _ ∨ _ ∨ _))

/-- The configurations `cloak_session_init` accepts. -/
def SessionConfig.Accepted (c : SessionConfig) : Prop := c.ordering ≠ .invalid ∧ ¬ c.badSizes

instance (c : SessionConfig) : Decidable c.Accepted := inferInstanceAs (Decidable (_ ∧ ¬ _))

/-- A call that waits for `cloak_switchboard_send`; a write keeps the bytes after the frame in
    flight. -/
inductive PendingCall where
  | write (h : StreamHandle) (rest : List UInt8)
  | closeStream (h : StreamHandle)
  | releaseStream (h : StreamHandle)
  | close

/-- The stream a pending call will touch again. -/
def PendingCall.handle? : PendingCall → Option StreamHandle
  | write h _ => some h
  | closeStream h => some h
  | releaseStream h => some h
  | close => none

/-- What `teardown_timer_id` waits for. -/
inductive Teardown where
  | idle
  | deferred
  | sweep
deriving DecidableEq, Repr

/-- What the owner and its streams see of inbound traffic and of the end. -/
inductive SessionCallback where
  | fed (id : UInt32)
  | newStream (id : UInt32)
  | streamData (id : UInt32)
  | broken
deriving DecidableEq, Repr

/-- `cloak_session_t`, the streams it points to, and the record of a run: the calls in progress, the
    frames handed to the switchboard, the seals that failed, and the callbacks made. -/
structure Session where
  config : SessionConfig
  nextStreamId : UInt32
  activeStreamCount : Nat
  closed : Bool
  streams : Strmtab StreamHandle
  inactivityTimer : Bool
  teardownTimer : Teardown
  destroyed : Bool
  heap : List (Option StreamEntry)
  calls : List PendingCall
  sealed : List SealedFrame
  sealFailures : Nat
  opened : List UInt32
  callbacks : List SessionCallback

/-- Whether the allocations behind a new stream succeed: its entry, its buffers, the table. -/
structure StreamAllocs where
  entry : Bool
  buffers : Bool
  table : Bool

/-- What can happen to a session. -/
inductive SessionEv where
  | openStream (allocs : StreamAllocs)
  | write (h : StreamHandle) (bs : List UInt8) (draws : FrameDraws)
  | read (h : StreamHandle) (outCap : Nat)
  | closeStream (h : StreamHandle) (env : ClosingEnv)
  | releaseStream (h : StreamHandle) (env : ClosingEnv)
  | close (env : ClosingEnv)
  | envelope (bytes : List UInt8) (allocs : StreamAllocs) (feed : FeedAllocs)
  | sinkReturn (ok : Bool) (draws : FrameDraws)
  | poolBroken
  | inactivityTimer (env : ClosingEnv)
  | teardownTimer
  | destroy

namespace Session

/-- The capacity hint of the stream table. -/
def strmtabHint : Nat := 16

/-- `cloak_session_init`. -/
def init (config : SessionConfig) : Except Stream.InitError Session :=
  if config.ordering = .invalid then .error .invalidOrdering
  else if config.badSizes then .error .failed
  else .ok { config, nextStreamId := 1, activeStreamCount := 0, closed := false,
             streams := .init strmtabHint, inactivityTimer := true, teardownTimer := .idle,
             destroyed := false, heap := [], calls := [], sealed := [], sealFailures := 0,
             opened := [], callbacks := [] }

/-- The entry behind a pointer that is not freed. -/
def entry (s : Session) (h : StreamHandle) : Option StreamEntry := s.heap.getD h none

def setEntry (s : Session) (h : StreamHandle) (e : StreamEntry) : Session :=
  { s with heap := s.heap.set h (some e) }

def freeEntry (s : Session) (h : StreamHandle) : Session := { s with heap := s.heap.set h none }

def push (s : Session) (c : PendingCall) : Session := { s with calls := c :: s.calls }

def callback (s : Session) (c : SessionCallback) : Session :=
  { s with callbacks := s.callbacks ++ [c] }

/-! ## Retirement and teardown -/

/-- `session_retire_stream`. -/
def retireStream (s : Session) (h : StreamHandle) : Session :=
  match s.entry h with
  | none => s
  | some e =>
    if e.retired then s
    else
      { s.setEntry h { e with retired := true } with
        streams := s.streams.tombstone e.stream.id
        activeStreamCount := s.activeStreamCount - 1
        inactivityTimer :=
          if s.activeStreamCount - 1 = 0 ∧ s.closed = false then true else s.inactivityTimer }

/-- What `session_close_internal` does the first time. -/
def closeInternal (s : Session) : Session := { s with closed := true, inactivityTimer := false }

/-- `session_schedule_deferred_teardown`. -/
def scheduleTeardown (s : Session) : Session := { s with teardownTimer := .deferred }

/-- `session_passive_close`. -/
def passiveClose (s : Session) : Session :=
  if s.closed then s else s.closeInternal.scheduleTeardown

/-- `session_destroy_stream_iter_cb`. -/
def destroyStream (s : Session) (kh : UInt32 × StreamHandle) : Session :=
  { s.freeEntry kh.2 with
    streams := s.streams.tombstone kh.1
    activeStreamCount := s.activeStreamCount - 1 }

/-- `session_free_all_active_streams`. -/
def freeAllActiveStreams (s : Session) : Session := s.streams.actives.foldl destroyStream s

/-! ## Sending -/

/-- The random payload of the session-closing frame. -/
def closingPayload (c : SessionConfig) (env : ClosingEnv) : List UInt8 :=
  randomBytes env.pad
    (min (env.lenByte.toNat + 1) (min (c.maxOnWireSize - frameHeaderLen - frameMaxExtraLen) 256))

/-- The session-closing frame. -/
def closingFrame (c : SessionConfig) (env : ClosingEnv) : Frame :=
  ⟨0xffffffff, 0, closingSession, closingPayload c env⟩

/-- `session_send_closing_session_frame` up to the switchboard. -/
def sealClosing (evp : Evp) (c : SessionConfig) (env : ClosingEnv) : Option SealedFrame :=
  match Frame.obfuscate evp c.obfuscator (closingFrame c env) env.frame.draws
      (List.replicate (frameHeaderLen + 256 + frameMaxExtraLen) 0) 0 with
  | (_, none) => none
  | (buf, some n) => some ⟨closingFrame c env, buf.take n⟩

/-- `cloak_session_close`, up to the switchboard. -/
def close (evp : Evp) (s : Session) (env : ClosingEnv) : Session :=
  if s.closed then s
  else
    match sealClosing evp s.config env with
    | none => scheduleTeardown { s.closeInternal with sealFailures := s.sealFailures + 1 }
    | some f => push { s.closeInternal with sealed := s.sealed ++ [f] } .close

/-- The next frame of stream `h`, sealed and on its way to the switchboard, and whether there is
    one. -/
def sealNext (evp : Evp) (s : Session) (h : StreamHandle) (e : StreamEntry) (closing : UInt8)
    (payload : List UInt8) (draws : FrameDraws) : Session × Bool :=
  match e.stream.sealFrame evp closing payload draws with
  | (st, none) =>
    ({ s.setEntry h { e with stream := st.closeWrite } with sealFailures := s.sealFailures + 1 },
      false)
  | (st, some f) =>
    ({ s.setEntry h { e with stream := if closing = closingNothing then st else st.closeWrite } with
        sealed := s.sealed ++ [f] },
      true)

/-- One turn of the loop of `cloak_stream_write`, on the bytes not yet sent. -/
def writeNext (evp : Evp) (s : Session) (h : StreamHandle) (rest : List UInt8)
    (draws : FrameDraws) : Session :=
  match s.entry h with
  | none => s
  | some e =>
    if rest.length = 0 then s
    else
      match s.sealNext evp h e closingNothing (rest.take e.stream.maxPayloadPerFrame) draws with
      | (s', false) => s'
      | (s', true) => s'.push (.write h (rest.drop e.stream.maxPayloadPerFrame))

/-- `cloak_stream_write`, up to the first frame. -/
def writeStream (evp : Evp) (s : Session) (h : StreamHandle) (bs : List UInt8)
    (draws : FrameDraws) : Session :=
  match s.entry h with
  | none => s
  | some e =>
    if e.stream.writeClosed then s
    else if e.stream.isOrdered = false ∧ e.stream.maxPayloadPerFrame < bs.length then s
    else s.writeNext evp h bs draws

/-- `cloak_stream_send_closing` on stream `h`, up to the switchboard. -/
def sendClosing (evp : Evp) (s : Session) (h : StreamHandle) (e : StreamEntry) (env : ClosingEnv) :
    Session × Bool :=
  if e.stream.writeClosed then (s, false)
  else s.sealNext evp h e closingStream (e.stream.closingPayload env) env.frame.draws

/-- `cloak_session_close_stream`. -/
def closeStream (evp : Evp) (s : Session) (h : StreamHandle) (env : ClosingEnv) : Session :=
  match s.entry h with
  | none => s
  | some e =>
    if s.closed ∨ e.retired then s
    else
      match s.sendClosing evp h e env with
      | (s', false) => s'.retireStream h
      | (s', true) => s'.push (.closeStream h)

/-- `cloak_session_release_stream`. -/
def releaseStream (evp : Evp) (s : Session) (h : StreamHandle) (env : ClosingEnv) : Session :=
  match s.entry h with
  | none => s
  | some e =>
    if e.retired then s.freeEntry h
    else
      match s.sendClosing evp h e env with
      | (s', false) => (s'.retireStream h).freeEntry h
      | (s', true) => s'.push (.releaseStream h)

/-- The end of a write whose frame the switchboard refused. -/
def failWrite (s : Session) (h : StreamHandle) : Session :=
  match s.entry h with
  | none => s
  | some e => s.setEntry h { e with stream := e.stream.closeWrite }

/-- The rest of a call once the switchboard has answered. -/
def resume (evp : Evp) (s : Session) (ok : Bool) (draws : FrameDraws) : PendingCall → Session
  | .write h rest => if ok then s.writeNext evp h rest draws else s.failWrite h
  | .closeStream h => s.retireStream h
  | .releaseStream h => (s.retireStream h).freeEntry h
  | .close => s.scheduleTeardown

/-! ## Streams coming and going -/

/-- A new stream under `id`: `cloak_stream_init` and `cloak_strmtab_insert_active`. -/
def createStream (s : Session) (id : UInt32) (allocs : StreamAllocs) :
    Session × Option StreamHandle :=
  if allocs.entry = false then (s, none)
  else
    match Stream.init id s.config.obfuscator s.config.maxOnWireSize s.config.streamRecvCapacity
        s.config.streamMaxPendingFrames s.config.ordering with
    | .error _ => (s, none)
    | .ok st =>
      if allocs.buffers = false then (s, none)
      else
        match s.streams.insertActive id s.heap.length allocs.table with
        | (t, false) => ({ s with streams := t }, none)
        | (t, true) =>
          ({ s with
              streams := t
              heap := s.heap ++ [some ⟨st, false⟩]
              activeStreamCount := s.activeStreamCount + 1 },
            some s.heap.length)

/-- `cloak_session_open_stream`. -/
def openStream (s : Session) (allocs : StreamAllocs) : Session :=
  if s.closed then s
  else
    match createStream { s with nextStreamId := s.nextStreamId + 1 } s.nextStreamId allocs with
    | (s', none) => s'
    | (s', some _) => { s' with opened := s'.opened ++ [s.nextStreamId] }

/-- Route a frame into stream `h`, and retire the stream on a closing frame or a violation. -/
def feed (s : Session) (h : StreamHandle) (frame : Frame) (allocs : FeedAllocs) : Session :=
  match s.entry h with
  | none => s
  | some e =>
    let s' := (s.setEntry h { e with stream := (e.stream.feedFrame frame allocs).1 }).callback
      (.fed frame.streamId)
    if (e.stream.feedFrame frame allocs).2 = .ok then s' else s'.retireStream h

/-- `session_on_envelope`. -/
def onEnvelope (evp : Evp) (s : Session) (bytes : List UInt8) (allocs : StreamAllocs)
    (feedAllocs : FeedAllocs) : Session :=
  if s.closed then s
  else
    match Frame.deobfuscate evp s.config.obfuscator bytes with
    | none => s
    | some frame =>
      if frame.closing = closingSession then s.passiveClose
      else
        match s.streams.lookup frame.streamId with
        | some .tombstone => s
        | some (.active h) => (s.feed h frame feedAllocs).callback (.streamData frame.streamId)
        | none =>
          match s.createStream frame.streamId allocs with
          | (s', none) => s'
          | (s', some h) => (s'.feed h frame feedAllocs).callback (.newStream frame.streamId)

/-- `cloak_stream_read`. -/
def readStream (s : Session) (h : StreamHandle) (outCap : Nat) : Session :=
  match s.entry h with
  | none => s
  | some e => s.setEntry h { e with stream := (e.stream.read outCap).1 }

/-! ## Timers -/

/-- `session_check_timeout`. -/
def checkTimeout (evp : Evp) (s : Session) (env : ClosingEnv) : Session :=
  if s.activeStreamCount = 0 ∧ s.closed = false then s.close evp env else s

/-- `session_deferred_teardown_cb`, then `session_teardown_sweep_cb`. -/
def teardown (s : Session) : Session :=
  match s.teardownTimer with
  | .idle => s
  | .deferred => callback { s with teardownTimer := .sweep } .broken
  | .sweep => freeAllActiveStreams { s with teardownTimer := .idle }

/-- `cloak_session_destroy`. -/
def destroy (s : Session) : Session :=
  { freeAllActiveStreams { s.closeInternal with teardownTimer := .idle } with destroyed := true }

/-- Whether a call on `h` is in progress. -/
def inCall (s : Session) (h : StreamHandle) : Bool :=
  s.calls.any fun c => c.handle? == some h

/-- One event. -/
def step (evp : Evp) (s : Session) (ev : SessionEv) : Session :=
  if s.destroyed then s
  else
    match ev with
    | .openStream allocs => s.openStream allocs
    | .write h bs draws => s.writeStream evp h bs draws
    | .read h outCap => s.readStream h outCap
    | .closeStream h env => s.closeStream evp h env
    | .releaseStream h env => if s.inCall h then s else s.releaseStream evp h env
    | .close env => s.close evp env
    | .envelope bytes allocs feedAllocs => s.onEnvelope evp bytes allocs feedAllocs
    | .sinkReturn ok draws =>
      match s.calls with
      | [] => s
      | c :: cs => resume evp { s with calls := cs } ok draws c
    | .poolBroken => s.passiveClose
    | .inactivityTimer env =>
      if s.calls = [] ∧ s.inactivityTimer then
        checkTimeout evp { s with inactivityTimer := false } env
      else s
    | .teardownTimer => if s.calls = [] then s.teardown else s
    | .destroy => if s.calls = [] then s.destroy else s

end Session

end Cloak
