import Cloak.Common.Crypto
import Cloak.Common.PlainRelay
import Cloak.Lib.BigEndian
import Cloak.Lib.PieceReader
import Cloak.Lib.Slice

set_option autoImplicit false

/-! # The client's handshake (`client_transport.c`)

The client writes its ClientHello, then reads a reply of three records, of which only the first is
looked at: the session key is sealed in the first 112 bytes of its body. What comes after the reply
belongs to the session, so the reader never asks the kernel for more than the rest of the header or
body in flight.

The handshake is a reactor client; the kernel's answers come with the event, one for each call, and
a loop that runs out of them was told `EAGAIN`. What the peer sends is the list `incoming`, of which
each `recv` takes a piece off the front, and `taken` records what was read. `reports` records the
calls of `on_done`. -/

namespace Cloak

open Lib

/-- `cloak_client_handshake_state_t`. -/
inductive HandshakeState where
  | writeHello
  | readRecordHeader
  | readRecordBody
  | done
  | failed
deriving DecidableEq, Repr

/-- `cloak_client_handshake_status_t`. -/
inductive HandshakeStatus where
  | pending
  | done
  | failed
deriving DecidableEq, Repr

/-- `cloak_client_handshake_error_t`. -/
inductive HandshakeError where
  | none
  | config
  | build
  | io
  | eof
  | protocol
  | auth
  | timeout
deriving DecidableEq, Repr

/-- `CLOAK_AEAD_KEY_LEN`. -/
def aeadKeyLen : Nat := 32

/-- `CLOAK_CLIENT_HANDSHAKE_REPLY_RECORDS`. -/
def handshakeReplyRecords : Nat := 3

/-- `CLOAK_CLIENT_HANDSHAKE_SERVERHELLO_PREFIX`. -/
def serverHelloPrefixLen : Nat := 112

/-- `CLOAK_CLIENT_HANDSHAKE_MAX_RECORD_BODY`. -/
def handshakeMaxRecordBody : Nat := 16640

/-- `CLOAK_CLIENT_HANDSHAKE_MAX_REPLY_BYTES`. -/
def handshakeMaxReplyBytes : Nat := handshakeReplyRecords * (5 + handshakeMaxRecordBody)

/-- `cloak_client_handshake_t`. `header` and `sh` hold the bytes up to `header_len` and `sh_len`. -/
structure ClientHandshake where
  fdRegistered : Bool
  fdInterest : RelayInterest
  state : HandshakeState
  status : HandshakeStatus
  error : HandshakeError
  hello : List UInt8
  helloSent : Nat
  sharedSecret : List UInt8
  recordIndex : Nat
  header : List UInt8
  bodyLen : Nat
  bodyTotal : Nat
  replyBytes : Nat
  sh : List UInt8
  sessionKey : List UInt8
  deadlineArmed : Bool
  notified : Bool
  reports : List HandshakeStatus
deriving DecidableEq, Repr

namespace ClientHandshake

/-- `release_reactor`. -/
def releaseReactor (h : ClientHandshake) : ClientHandshake :=
  { h with
    fdRegistered := false
    fdInterest := if h.fdRegistered then .none else h.fdInterest
    deadlineArmed := false }

/-- `fail`. -/
def fail (h : ClientHandshake) (err : HandshakeError) : ClientHandshake :=
  if h.status ≠ .pending then h
  else { h with status := .failed, state := .failed, error := err }.releaseReactor

/-- `complete`. -/
def complete (h : ClientHandshake) : ClientHandshake :=
  if h.status ≠ .pending then h
  else { h with status := .done, state := .done, error := .none }.releaseReactor

/-- `finish`. -/
def finish (h : ClientHandshake) : ClientHandshake :=
  if h.status = .pending ∨ h.notified then h
  else { h with notified := true, reports := h.reports ++ [h.status] }

/-- `set_interest`, with the reactor's answer. -/
def setInterest (h : ClientHandshake) (want : RelayInterest) (modOk : Bool) : ClientHandshake :=
  if ¬h.fdRegistered ∨ h.fdInterest = want then h
  else if modOk then { h with fdInterest := want }
  else h.fail .io

/-! ## The reader -/

/-- `recover_session_key`. -/
def recoverSessionKey (evp : Evp) (h : ClientHandshake) : Option (List UInt8) := do
  guard (serverHelloPrefixLen ≤ h.sh.length)
  let key ← aeadOpen evp .aes256Gcm h.sharedSecret (slice h.sh 6 aeadNonceLen) []
    (slice h.sh 18 20 ++ slice h.sh 84 28)
  guard (key.length = aeadKeyLen)
  return key

/-- The end of `record_complete`: the next record, unless this was the last. -/
def nextRecord (h : ClientHandshake) : ClientHandshake :=
  if h.recordIndex = handshakeReplyRecords then h.complete
  else { h with header := [], bodyLen := 0, bodyTotal := 0, state := .readRecordHeader }

/-- `record_complete`. -/
def recordComplete (evp : Evp) (h : ClientHandshake) : ClientHandshake :=
  if h.recordIndex = 0 then
    match recoverSessionKey evp h with
    | none => { h with recordIndex := 1 }.fail .auth
    | some key => { h with recordIndex := 1, sessionKey := key }.nextRecord
  else { h with recordIndex := h.recordIndex + 1 }.nextRecord

/-- `bytes_wanted`. -/
def bytesWanted (h : ClientHandshake) : Nat :=
  match h.state with
  | .readRecordHeader => 5 - h.header.length
  | .readRecordBody => h.bodyTotal - h.bodyLen
  | _ => 0

/-- What the loop of `feed` does with a complete header. -/
def headerComplete (evp : Evp) (h : ClientHandshake) : ClientHandshake :=
  if handshakeMaxRecordBody < beNat (slice h.header 3 2) then
    { h with bodyTotal := beNat (slice h.header 3 2) }.fail .protocol
  else if h.recordIndex = 0 ∧
      (h.header.getD 0 0 ≠ 0x16 ∨ beNat (slice h.header 3 2) < serverHelloPrefixLen) then
    { h with bodyTotal := beNat (slice h.header 3 2) }.fail .protocol
  else if handshakeMaxReplyBytes < h.replyBytes + beNat (slice h.header 3 2) then
    { h with bodyTotal := beNat (slice h.header 3 2) }.fail .protocol
  else if beNat (slice h.header 3 2) = 0 then
    { h with bodyTotal := 0, bodyLen := 0, state := .readRecordBody }.recordComplete evp
  else
    { h with bodyTotal := beNat (slice h.header 3 2), bodyLen := 0, state := .readRecordBody }

/-- The prefix of the ServerHello after the body bytes `bs`. -/
def keepPrefix (h : ClientHandshake) (bs : List UInt8) : List UInt8 :=
  if h.recordIndex = 0 ∧ h.sh.length < serverHelloPrefixLen then
    h.sh ++ bs.take (serverHelloPrefixLen - h.sh.length)
  else h.sh

/-- The header bytes `bs` of a turn of the loop of `feed`. -/
def takeHeader (h : ClientHandshake) (bs : List UInt8) : ClientHandshake :=
  { h with header := h.header ++ bs, replyBytes := h.replyBytes + bs.length }

/-- The body bytes `bs` of a turn of the loop of `feed`. -/
def takeBody (h : ClientHandshake) (bs : List UInt8) : ClientHandshake :=
  { h with
    sh := h.keepPrefix bs
    bodyLen := h.bodyLen + bs.length
    replyBytes := h.replyBytes + bs.length }

/-- A turn of the loop of `feed`, with the bytes it takes: at most `bytes_wanted`. -/
def feedPiece (evp : Evp) (h : ClientHandshake) (bs : List UInt8) : ClientHandshake :=
  match h.state with
  | .readRecordHeader =>
    if (h.takeHeader bs).header.length < 5 then h.takeHeader bs
    else (h.takeHeader bs).headerComplete evp
  | .readRecordBody =>
    if (h.takeBody bs).bodyLen = (h.takeBody bs).bodyTotal then (h.takeBody bs).recordComplete evp
    else h.takeBody bs
  | _ => h

/-- What the loop of `feed` takes at most; it runs while the handshake is pending. -/
def feedWant (h : ClientHandshake) : Nat := if h.status = .pending then h.bytesWanted else 0

/-- The loop of `feed`. -/
def feedFrom (evp : Evp) : (fuel : Nat) → ClientHandshake → List UInt8 → ClientHandshake
  | 0, h, _ => h
  | _ + 1, h, [] => h
  | fuel + 1, h, b :: data =>
    if h.feedWant = 0 then h
    else
      feedFrom evp fuel (h.feedPiece evp ((b :: data).take h.feedWant))
        ((b :: data).drop h.feedWant)

/-- `feed`. Every turn takes a byte, so the length of `data` is fuel enough. -/
def feed (evp : Evp) (h : ClientHandshake) (data : List UInt8) : ClientHandshake :=
  feedFrom evp data.length h data

/-- `do_write`, with the reactor's answer to `set_interest`. -/
def doWrite (modOk : Bool) : List SendAnswer → ClientHandshake → ClientHandshake
  | [], h =>
    if h.helloSent < h.hello.length then h
    else { h with state := .readRecordHeader }.setInterest ⟨true, false⟩ modOk
  | answer :: answers, h =>
    if h.helloSent < h.hello.length then
      match answer with
      | .took n =>
        if min n (h.hello.length - h.helloSent) = 0 then h
        else doWrite modOk answers
          { h with helloSent := h.helloSent + min n (h.hello.length - h.helloSent) }
      | .intr => doWrite modOk answers h
      | .again => h
      | .failed => h.fail .io
    else { h with state := .readRecordHeader }.setInterest ⟨true, false⟩ modOk

/-- The end of `cloak_client_handshake_init`, once the ClientHello is built. -/
def init (sharedSecret hello : List UInt8) : ClientHandshake where
  fdRegistered := false
  fdInterest := .none
  state := .writeHello
  status := .pending
  error := .none
  hello := hello
  helloSent := 0
  sharedSecret := sharedSecret
  recordIndex := 0
  header := []
  bodyLen := 0
  bodyTotal := 0
  replyBytes := 0
  sh := []
  sessionKey := []
  deadlineArmed := false
  notified := false
  reports := []

/-- `cloak_client_handshake_start`, with the reactor's answers; `false` is its `-1`. -/
def start (h : ClientHandshake) (addOk timerOk : Bool) : ClientHandshake × Bool :=
  if h.status ≠ .pending ∨ h.state ≠ .writeHello ∨ h.fdRegistered then (h, false)
  else if addOk ∧ timerOk then
    ({ h with fdRegistered := true, fdInterest := ⟨false, true⟩, deadlineArmed := true }, true)
  else ({ h with status := .failed, state := .failed, error := .io, notified := true }, false)

/-- `cloak_client_handshake_destroy`. -/
def destroy (h : ClientHandshake) : ClientHandshake :=
  if h.status = .pending then
    { h.releaseReactor with notified := true, status := .failed, state := .failed }
  else { h.releaseReactor with notified := true }

/-- `cloak_client_handshake_session_key`. -/
def doneSessionKey (h : ClientHandshake) : Option (List UInt8) :=
  if h.status = .done then some h.sessionKey else none

end ClientHandshake

/-! ## The connection -/

/-- The kernel's answer to a `recv`: `data n` is as many bytes as are asked for, but at most `n + 1`,
    or 0 if the peer has sent all it ever does. -/
inductive RecvAnswer where
  | data (n : Nat)
  | intr
  | again
  | failed
deriving DecidableEq, Repr

/-- A handshake and its connection. -/
structure HandshakeConn where
  hs : ClientHandshake
  incoming : List UInt8
  taken : List UInt8
deriving DecidableEq, Repr

/-- What can happen to a handshake, with the kernel's and the reactor's answers. -/
inductive HandshakeEvent where
  | ready (sends : List SendAnswer) (modOk : Bool) (recvs : List RecvAnswer)
  | deadline
  | destroy
deriving DecidableEq, Repr

namespace HandshakeConn

/-- The bytes one `recv` of `do_read` gives. -/
def received (c : HandshakeConn) (n : Nat) : List UInt8 :=
  c.incoming.take (min (min c.hs.bytesWanted 1024) (n + 1))

/-- The bytes `bs` of one `recv`, fed. -/
def feedBytes (evp : Evp) (c : HandshakeConn) (bs : List UInt8) : HandshakeConn where
  hs := c.hs.feed evp bs
  incoming := c.incoming.drop bs.length
  taken := c.taken ++ bs

/-- `do_read`. -/
def doRead (evp : Evp) : List RecvAnswer → HandshakeConn → HandshakeConn
  | [], c => c
  | answer :: answers, c =>
    if c.hs.status = .pending ∧ c.hs.bytesWanted ≠ 0 then
      match answer with
      | .data n =>
        if c.received n = [] then { c with hs := c.hs.fail .eof }
        else doRead evp answers (c.feedBytes evp (c.received n))
      | .intr => doRead evp answers c
      | .again => c
      | .failed => { c with hs := c.hs.fail .io }
    else c

/-- The write half of `on_event`. -/
def writeHalf (c : HandshakeConn) (sends : List SendAnswer) (modOk : Bool) : HandshakeConn :=
  if c.hs.state = .writeHello then { c with hs := c.hs.doWrite modOk sends } else c

/-- The read half of `on_event`. -/
def readHalf (evp : Evp) (c : HandshakeConn) (recvs : List RecvAnswer) : HandshakeConn :=
  if c.hs.status = .pending ∧ (c.hs.state = .readRecordHeader ∨ c.hs.state = .readRecordBody) then
    c.doRead evp recvs
  else c

/-- `finish`, as the last statement of an entry point. -/
def finish (c : HandshakeConn) : HandshakeConn := { c with hs := c.hs.finish }

/-- `on_event`. -/
def onEvent (evp : Evp) (c : HandshakeConn) (sends : List SendAnswer) (modOk : Bool)
    (recvs : List RecvAnswer) : HandshakeConn :=
  if c.hs.status = .pending then ((c.writeHalf sends modOk).readHalf evp recvs).finish else c

/-- `on_deadline`. -/
def onDeadline (c : HandshakeConn) : HandshakeConn :=
  { c with hs := ({ c.hs with deadlineArmed := false }.fail .timeout) }.finish

/-- An event. The reactor calls a handler only while it holds the registration or the timer. -/
def step (evp : Evp) (c : HandshakeConn) : HandshakeEvent → HandshakeConn
  | .ready sends modOk recvs => if c.hs.fdRegistered then c.onEvent evp sends modOk recvs else c
  | .deadline => if c.hs.deadlineArmed then c.onDeadline else c
  | .destroy => { c with hs := c.hs.destroy }

/-- A started handshake whose peer is going to send `incoming`. -/
def opened (sharedSecret hello incoming : List UInt8) : HandshakeConn where
  hs := ((ClientHandshake.init sharedSecret hello).start true true).1
  incoming := incoming
  taken := []

end HandshakeConn

end Cloak
