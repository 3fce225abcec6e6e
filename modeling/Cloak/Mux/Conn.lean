import Cloak.Common.ByteQueue
import Cloak.Mux.WsFrame

set_option autoImplicit false

/-! # Connections (`conn.c`)

One socket of a session's pool: a send queue drained into the socket as far as it accepts, a receive
accumulator cut into envelopes, and the interest mask registered with the reactor. Three framings
share it: TLS application-data records, and WebSocket messages as a client or as a server.

The socket, the token bucket and the mask keys are inputs: `ConnWorld` is a connection together with
the answers the kernel will give to `send`, the mask keys that will be drawn, and a record of what
has left it (bytes taken by the socket, envelopes handed up, drain notifications). The envelope
callback is `OnEnvelope`: its callee may send on the connection and may break it, and never touches
the receive side. `on_drained` and `on_closed` are the last thing their callers do, so what their
callees do is whatever happens next; the record says that they fired. -/

namespace Cloak

open Lib

/-- `CLOAK_CONN_RECORD_HEADER_LEN`. -/
def connRecordHeaderLen : Nat := 5

/-- `CLOAK_CONN_MAX_FRAME_LEN`. -/
def connMaxFrameLen : Nat := 16640

/-- `CONN_WS_MASK_CHUNK`. -/
def connWsMaskChunk : Nat := 1022

/-- The size of the stack buffer that drains and reads go through. -/
def connIoChunk : Nat := 4096

/-- `cloak_conn_framing_t`, without the value no constructed connection has. -/
inductive Framing where
  | tlsRecord
  | wsClient
  | wsServer
deriving DecidableEq, Repr

/-- A WebSocket mask key. -/
abbrev MaskKey := {k : List UInt8 // k.length = 4}

/-- What the kernel answers to one `send`: how much it took, `EAGAIN`, or an error. -/
inductive SendRes where
  | wrote (n : Nat)
  | again
  | error
deriving DecidableEq, Repr

/-- What the kernel answers to one `read`. -/
inductive KRead where
  | data (bs : List UInt8)
  | again
  | eof
  | error
deriving DecidableEq, Repr

/-- The interest mask registered with the reactor. -/
structure Interest where
  readable : Bool
  writable : Bool
deriving DecidableEq, Repr

/-- `cloak_conn_t`. `wsMsg` is the part of the message in `recv_scratch`; `rxResumeTimer` says
    whether the timer is pending. -/
structure Conn where
  framing : Framing
  maxFrameLen : Nat
  recvAcc : ByteQueue
  sendQ : ByteQueue
  wsMsg : List UInt8
  wsMsgActive : Bool
  broken : Bool
  wantWritable : Bool
  readPaused : Bool
  rxResumeTimer : Bool
  interest : Interest
deriving DecidableEq

/-- `conn_ws_envelope_len`. -/
def connWsEnvelopeLen (payloadLen : Nat) (masked : Bool) : Nat :=
  2 + (if wsFrameMaxControlPayload < payloadLen then 2 else 0) + (if masked then 4 else 0)
    + payloadLen

/-- The bytes one frame takes on the wire in each direction. -/
def Framing.envelopeLen (fr : Framing) (n : Nat) : Nat :=
  match fr with
  | .tlsRecord => connRecordHeaderLen + n
  | .wsClient => connWsEnvelopeLen n true
  | .wsServer => connWsEnvelopeLen n false

def Framing.recvEnvelopeLen (fr : Framing) (n : Nat) : Nat :=
  match fr with
  | .tlsRecord => connRecordHeaderLen + n
  | .wsClient => connWsEnvelopeLen n false
  | .wsServer => connWsEnvelopeLen n true

namespace Conn

/-- `cloak_conn_envelope_len`. -/
def envelopeLen (c : Conn) (frameLen : Nat) : Nat := c.framing.envelopeLen frameLen

/-- `cloak_conn_init_cfg`, for one of the three framings. -/
def init (framing : Framing) (maxFrameLen sendQueueCap : Nat) : Option Conn :=
  if maxFrameLen = 0 ∨ connMaxFrameLen < maxFrameLen ∨ sendQueueCap = 0 then none
  else
    match ByteQueue.init (2 * framing.recvEnvelopeLen maxFrameLen), ByteQueue.init sendQueueCap with
    | some recvAcc, some sendQ =>
      some { framing, maxFrameLen, recvAcc, sendQ, wsMsg := [], wsMsgActive := false,
             broken := false, wantWritable := false, readPaused := false, rxResumeTimer := false,
             interest := ⟨true, false⟩ }
    | _, _ => none

/-- `conn_desired_interest`. -/
def desiredInterest (c : Conn) : Interest := ⟨!c.readPaused, c.wantWritable⟩

/-- `conn_sync_interest`. -/
def syncInterest (c : Conn) : Conn :=
  if c.desiredInterest = c.interest then c else { c with interest := c.desiredInterest }

/-- `conn_set_want_writable`. -/
def setWantWritable (c : Conn) (want : Bool) : Conn :=
  if c.wantWritable = want then c else syncInterest { c with wantWritable := want }

/-- `conn_mark_broken`. -/
def markBroken (c : Conn) : Conn := { c with broken := true }

end Conn

/-- A connection and its surroundings. -/
structure ConnWorld where
  conn : Conn
  kernel : List SendRes
  keys : List MaskKey
  socket : List UInt8
  delivered : List (List UInt8)
  drained : Nat

/-- What the envelope callback's callee must leave alone. -/
structure ConnWorld.SameRecv (w w' : ConnWorld) : Prop where
  framing : w'.conn.framing = w.conn.framing
  maxFrameLen : w'.conn.maxFrameLen = w.conn.maxFrameLen
  recvAcc : w'.conn.recvAcc = w.conn.recvAcc
  wsMsg : w'.conn.wsMsg = w.conn.wsMsg
  wsMsgActive : w'.conn.wsMsgActive = w.conn.wsMsgActive
  delivered : w'.delivered = w.delivered

/-- `on_envelope`. -/
structure OnEnvelope where
  call : ConnWorld → List UInt8 → ConnWorld
  sameRecv : ∀ (w : ConnWorld) (msg : List UInt8), w.SameRecv (call w msg)

namespace ConnWorld

def markBroken (w : ConnWorld) : ConnWorld := { w with conn := w.conn.markBroken }

/-! ## Sending -/

/-- The loop of `conn_try_drain_send`. An exhausted kernel script answers `EAGAIN`. -/
def drainLoop (wasBackpressured : Bool) : (fuel : Nat) → ConnWorld → ConnWorld
  | 0, w => w
  | fuel + 1, w =>
    if w.conn.sendQ.len = 0 then
      { w with
        conn := w.conn.setWantWritable false
        drained := if wasBackpressured then w.drained + 1 else w.drained }
    else
      match w.kernel with
      | [] => { w with conn := w.conn.setWantWritable true }
      | .again :: ks => { w with conn := w.conn.setWantWritable true, kernel := ks }
      | .error :: ks => { w with conn := w.conn.markBroken, kernel := ks }
      | .wrote k :: ks =>
        if k < min w.conn.sendQ.len connIoChunk then
          { w with
            conn := Conn.setWantWritable { w.conn with sendQ := (w.conn.sendQ.read k).2 } true
            kernel := ks
            socket := w.socket ++ (w.conn.sendQ.peek connIoChunk).take k }
        else
          drainLoop wasBackpressured fuel
            { w with
              conn := { w.conn with sendQ := (w.conn.sendQ.read connIoChunk).2 }
              kernel := ks
              socket := w.socket ++ w.conn.sendQ.peek connIoChunk }

/-- `conn_try_drain_send`. Every full chunk shortens the queue, so its length is fuel enough. -/
def tryDrainSend (w : ConnWorld) : ConnWorld :=
  drainLoop w.conn.wantWritable (w.conn.sendQ.len + 1) w

/-- The masked copy loop of `conn_ws_enqueue_frame`: a chunk at a time, the mask position running
    on. -/
def enqueueMasked (key : List UInt8) : (fuel : Nat) → ByteQueue → (pos : Nat) → List UInt8 → ByteQueue
  | 0, q, _, _ => q
  | fuel + 1, q, pos, payload =>
    if payload.length = 0 then q
    else
      enqueueMasked key fuel (q.write (wsFrameMask key pos (payload.take connWsMaskChunk))).1
        ((pos + (payload.take connWsMaskChunk).length) % 4) (payload.drop connWsMaskChunk)

/-- The key a frame is masked with, drawn on a client connection only. -/
def drawKey (w : ConnWorld) : Option (List UInt8) :=
  if w.conn.framing = .wsClient then some (w.keys.headD ⟨[0, 0, 0, 0], rfl⟩).val else none

def dropKey (w : ConnWorld) : ConnWorld :=
  if w.conn.framing = .wsClient then { w with keys := w.keys.tail } else w

/-- `conn_ws_enqueue_frame`, with whether the frame was enqueued. -/
def wsEnqueueFrame (w : ConnWorld) (op : WsOpcode) (payload : List UInt8) : ConnWorld × Bool :=
  match wsFrameWriteHeader wsFrameMaxHeaderLen op true w.drawKey payload.length with
  | none => (w.dropKey.markBroken, false)
  | some hdr =>
    if w.conn.sendQ.freeSpace < hdr.length + payload.length then (w.dropKey.markBroken, false)
    else
      ({ w.dropKey with
          conn := { w.dropKey.conn with
            sendQ :=
              match w.drawKey with
              | none => ((w.conn.sendQ.write hdr).1.write payload).1
              | some key => enqueueMasked key payload.length (w.conn.sendQ.write hdr).1 0 payload } },
        true)

/-- The record header `cloak_conn_send` writes. -/
def tlsHeader (frameLen : Nat) : List UInt8 := [0x17, 0x03, 0x03] ++ beBytes 2 frameLen

/-- `cloak_conn_send`, with whether it returns `0`. -/
def send (w : ConnWorld) (frame : List UInt8) : ConnWorld × Bool :=
  if w.conn.broken then (w, false)
  else if w.conn.maxFrameLen < frame.length then (w.markBroken, false)
  else if w.conn.framing ≠ .tlsRecord then
    match w.wsEnqueueFrame .binary frame with
    | (w', false) => (w', false)
    | (w', true) => (w'.tryDrainSend, !w'.tryDrainSend.conn.broken)
  else if w.conn.envelopeLen w.conn.maxFrameLen < connRecordHeaderLen + frame.length then
    (w.markBroken, false)
  else if w.conn.sendQ.freeSpace < connRecordHeaderLen + frame.length then (w.markBroken, false)
  else
    let w' : ConnWorld :=
      { w with conn := { w.conn with
          sendQ := ((w.conn.sendQ.write (tlsHeader frame.length)).1.write frame).1 } }
    (w'.tryDrainSend, !w'.tryDrainSend.conn.broken)

/-! ## Receiving -/

/-- Hand one frame up; the dispatch loop goes on unless the callee broke the connection. -/
def handUp (cb : OnEnvelope) (w : ConnWorld) (frame : List UInt8) : ConnWorld × Bool :=
  (cb.call { w with delivered := w.delivered ++ [frame] } frame,
    !(cb.call { w with delivered := w.delivered ++ [frame] } frame).conn.broken)

/-- One turn of `conn_tls_extract_and_dispatch`, with whether the loop goes on. -/
def tlsDispatchOnce (cb : OnEnvelope) (w : ConnWorld) : ConnWorld × Bool :=
  if (w.conn.recvAcc.peek connRecordHeaderLen).length < connRecordHeaderLen then (w, false)
  else
    let frameLen := beNat (slice (w.conn.recvAcc.peek connRecordHeaderLen) 3 2)
    if w.conn.maxFrameLen < frameLen then (w.markBroken, false)
    else if w.conn.recvAcc.len < connRecordHeaderLen + frameLen then (w, false)
    else
      handUp cb
        { w with conn := { w.conn with
            recvAcc := (w.conn.recvAcc.read (connRecordHeaderLen + frameLen)).2 } }
        ((w.conn.recvAcc.read (connRecordHeaderLen + frameLen)).1.drop connRecordHeaderLen)

/-- `conn_ws_take_payload`: the payload, unmasked, and the connection without the frame. -/
def wsTakePayload (w : ConnWorld) (h : WsFrameHeader) : List UInt8 × ConnWorld :=
  let payload := ((w.conn.recvAcc.read h.headerLen).2.read h.payloadLen).1
  (if h.masked then wsFrameMask h.maskKey 0 payload else payload,
    { w with conn := { w.conn with
        recvAcc := ((w.conn.recvAcc.read h.headerLen).2.read h.payloadLen).2 } })

/-- A whole control frame: answer a ping, ignore a pong, echo a close and break. -/
def wsControl (w : ConnWorld) (h : WsFrameHeader) : ConnWorld × Bool :=
  let (ctl, w) := w.wsTakePayload h
  if h.opcode = .ping then
    match w.wsEnqueueFrame .pong ctl with
    | (w', false) => (w', false)
    | (w', true) => (w'.tryDrainSend, !w'.tryDrainSend.conn.broken)
  else if h.opcode = .pong then (w, true)
  else
    let w' := (w.wsEnqueueFrame .close ctl).1
    (ConnWorld.markBroken (if w'.conn.broken then w' else w'.tryDrainSend), false)

/-- A whole data frame: check it against the message in progress, extend the message, and hand it
    up at its last fragment. -/
def wsData (cb : OnEnvelope) (w : ConnWorld) (h : WsFrameHeader) : ConnWorld × Bool :=
  if (h.opcode == .continuation) != w.conn.wsMsgActive then (w.markBroken, false)
  else if w.conn.maxFrameLen - w.conn.wsMsg.length < h.payloadLen then (w.markBroken, false)
  else
    let (payload, w) := w.wsTakePayload h
    let msg := w.conn.wsMsg ++ payload
    if h.fin = false then
      ({ w with conn := { w.conn with wsMsg := msg, wsMsgActive := true } }, true)
    else handUp cb { w with conn := { w.conn with wsMsg := [], wsMsgActive := false } } msg

/-- One turn of `conn_ws_extract_and_dispatch`, with whether the loop goes on. -/
def wsDispatchOnce (cb : OnEnvelope) (w : ConnWorld) : ConnWorld × Bool :=
  match wsFrameParseHeader (w.conn.recvAcc.peek wsFrameMaxHeaderLen) with
  | .incomplete => (w, false)
  | .malformed => (w.markBroken, false)
  | .ok h =>
    if h.masked ≠ (w.conn.framing == .wsServer) then (w.markBroken, false)
    else if w.conn.maxFrameLen < h.payloadLen then (w.markBroken, false)
    else if w.conn.recvAcc.len < h.headerLen + h.payloadLen then (w, false)
    else if h.opcode.isControl then w.wsControl h
    else wsData cb w h

/-- One turn of either dispatch loop. -/
def dispatchOnce (cb : OnEnvelope) (w : ConnWorld) : ConnWorld × Bool :=
  if w.conn.framing = .tlsRecord then tlsDispatchOnce cb w else wsDispatchOnce cb w

/-- `conn_extract_and_dispatch`. -/
def dispatchLoop (cb : OnEnvelope) : (fuel : Nat) → ConnWorld → ConnWorld
  | 0, w => w
  | fuel + 1, w =>
    match dispatchOnce cb w with
    | (w', false) => w'
    | (w', true) => dispatchLoop cb fuel w'

/-- Every turn that goes on takes a whole frame out, so the accumulated length is fuel enough. -/
def extractAndDispatch (cb : OnEnvelope) (w : ConnWorld) : ConnWorld :=
  dispatchLoop cb (w.conn.recvAcc.len + 1) w

/-- What one turn of the read loop meets: the bytes the token bucket grants, whether the resume
    timer can be armed when it grants none, and the kernel's answer. -/
structure ReadTurn where
  allowed : Nat
  timerOk : Bool
  res : KRead

/-- `conn_pause_read_for_rate`. -/
def pauseReadForRate (w : ConnWorld) (timerOk : Bool) : ConnWorld :=
  if w.conn.rxResumeTimer = false ∧ timerOk = false then w.markBroken
  else { w with
    conn := Conn.syncInterest { w.conn with rxResumeTimer := true, readPaused := true } }

/-- The most one `read` asks for. -/
def readWant (w : ConnWorld) (allowed : Nat) : Nat :=
  min (min w.conn.recvAcc.freeSpace connIoChunk) allowed

/-- Bytes from the socket: into the accumulator, then out as envelopes. -/
def recvBytes (cb : OnEnvelope) (w : ConnWorld) (bs : List UInt8) : ConnWorld :=
  extractAndDispatch cb
    { w with conn := { w.conn with recvAcc := (w.conn.recvAcc.write bs).1 } }

/-- `conn_handle_readable`. An exhausted script answers `EAGAIN`. -/
def handleReadable (cb : OnEnvelope) : List ReadTurn → ConnWorld → ConnWorld
  | [], w => w
  | t :: ts, w =>
    if w.conn.recvAcc.freeSpace = 0 then w
    else if t.allowed = 0 then w.pauseReadForRate t.timerOk
    else
      match t.res with
      | .again => w
      | .error => w.markBroken
      | .eof => w.markBroken
      | .data bs =>
        if (bs.take (w.readWant t.allowed)).length = 0 then w.markBroken
        else
          let w' := recvBytes cb w (bs.take (w.readWant t.allowed))
          if w'.conn.broken then w' else handleReadable cb ts w'

/-- `conn_rx_resume_cb`. -/
def rxResume (cb : OnEnvelope) (w : ConnWorld) (turns : List ReadTurn) : ConnWorld :=
  let w := { w with conn := { w.conn with rxResumeTimer := false } }
  if w.conn.broken then w
  else handleReadable cb turns
    { w with conn := Conn.syncInterest { w.conn with readPaused := false } }

/-- `conn_reactor_cb`. -/
def reactorCb (cb : OnEnvelope) (w : ConnWorld) (events : Interest) (turns : List ReadTurn) : ConnWorld :=
  if w.conn.broken then w
  else
    let w' := if events.readable then handleReadable cb turns w else w
    if w'.conn.broken then w'
    else if events.writable then w'.tryDrainSend else w'

end ConnWorld

end Cloak
