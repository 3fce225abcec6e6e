import Cloak.Common.PlainRelay
import Cloak.Mux.OrderedDelivery
import Cloak.Mux.Relay

set_option autoImplicit false

/-! # The stream relay and its bytes (`stream_relay.c`)

The relay between a stream and a descriptor, with the bytes it moves. What the stream has for the
descriptor waits in three places: frames ahead of their turn in the stream's heap, bytes in the
stream's ring, and bytes in the relay's own queue `to_fd`. Room in one of them is made by emptying
the next, so `pump_stream_to_fd` fills and drains until neither moves anything.

As in `PlainRelay`, the kernel's answers come with the event, a loop that runs out of answers was
told `EAGAIN`, and the relay keeps a record `io` that no operation reads. `byStream` is not the
program's either: it says that the relay is over because a pump found the stream at its end. -/

namespace Cloak

open Lib

/-- The ways bytes pass a relay: read from the stream, taken by the descriptor, read from the
    descriptor, and sent by the stream in a frame. -/
inductive Transfer where
  | got
  | sent
  | read
  | frame
deriving DecidableEq, Repr

/-- One entry of the record of a relay. -/
structure StreamRelayIo where
  via : Transfer
  bytes : List UInt8
deriving DecidableEq, Repr

/-- `cloak_stream_relay_t`, with the stream it points to. `rateTimer` and `finishTimer` say whether
    those timers are armed, `interest` is what the descriptor is registered for. -/
structure StreamRelay where
  stream : Stream
  toFd : ByteQueue
  fdReadPaused : Bool
  streamEnded : Bool
  interest : RelayInterest
  rateTimer : Bool
  finishTimer : Bool
  done : Bool
  byStream : Bool
  io : List StreamRelayIo

/-- The session and the clock as a question about reading finds them, and whether a timer can be
    armed. -/
structure RelayNotice where
  minConnFree : Nat
  valve : ValveReading
  timerOk : Bool

/-- A turn of the loop that reads the descriptor: the budget's inputs, the kernel's answer, what the
    frames of the write meet, and the notifications that arrive from inside that write. -/
structure StreamRelayTurn where
  room : RelayNotice
  answer : ReadAnswer
  frames : Nat → FrameEnv
  notices : List RelayNotice

/-- How `pump_stream_to_fd` ends: `0`, or `-1` for a broken descriptor, or `-1` for the end. -/
inductive StreamPump where
  | goOn
  | broken
  | ended
deriving DecidableEq, Repr

/-- What `try_drain_to_fd` did: the relay, the answers it did not need, the bytes, and whether the
    descriptor is still good. -/
structure Drainage where
  relay : StreamRelay
  answers : List SendAnswer
  sent : Nat
  ok : Bool

namespace StreamRelay

/-- `stream_relay_is_finishing`. -/
def isFinishing (sr : StreamRelay) : Bool := sr.done || sr.finishTimer

/-- `desired_interest`. -/
def desiredInterest (sr : StreamRelay) : RelayInterest where
  readable := !sr.fdReadPaused && !sr.streamEnded
  writable := decide (0 < sr.toFd.len)

/-- `sync_interest`. A relay without its descriptor is done. -/
def syncInterest (sr : StreamRelay) : StreamRelay :=
  if sr.done then sr
  else if sr.desiredInterest = .none ∧ sr.interest = .none then sr
  else { sr with interest := sr.desiredInterest }

/-! ## From the stream to the descriptor -/

/-- The bytes of one read from the stream go into `to_fd`. -/
def takeIn (sr : StreamRelay) (stream : Stream) (bs : List UInt8) : StreamRelay :=
  { sr with stream := stream, toFd := (sr.toFd.write bs).1, io := sr.io ++ [⟨.got, bs⟩] }

/-- The loop of `try_fill_from_stream`, with the number of bytes. Every turn that goes on fills a
    byte of the room at least. -/
def fillLoop : (fuel : Nat) → StreamRelay → StreamRelay × Nat
  | 0, sr => (sr, 0)
  | fuel + 1, sr =>
    if sr.toFd.freeSpace = 0 then (sr, 0)
    else
      match sr.stream.read (min sr.toFd.freeSpace streamRelayChunk) with
      | (_, .shortBuffer) => (if sr.toFd.len = 0 then { sr with streamEnded := true } else sr, 0)
      | (_, .eof) => ({ sr with streamEnded := true }, 0)
      | (stream, .bytes []) => ({ sr with stream := stream }, 0)
      | (stream, .bytes bs) =>
        ((fillLoop fuel (sr.takeIn stream bs)).1, bs.length + (fillLoop fuel (sr.takeIn stream bs)).2)

/-- `try_fill_from_stream`. -/
def tryFillFromStream (sr : StreamRelay) : StreamRelay × Nat :=
  if sr.streamEnded then (sr, 0) else fillLoop (sr.toFd.freeSpace + 1) sr

/-- The bytes of one `send` leave `to_fd`. -/
def sendOut (sr : StreamRelay) (n : Nat) : StreamRelay :=
  { sr with toFd := (sr.toFd.read n).2, io := sr.io ++ [⟨.sent, (sr.toFd.read n).1⟩] }

/-- `try_drain_to_fd`. -/
def tryDrainToFd : List SendAnswer → StreamRelay → Drainage
  | [], sr => ⟨sr, [], 0, true⟩
  | answer :: answers, sr =>
    if sr.toFd.peek streamRelayChunk = [] then ⟨sr, answer :: answers, 0, true⟩
    else
      match answer with
      | .took n =>
        if min n (sr.toFd.peek streamRelayChunk).length = 0 then ⟨sr, answers, 0, false⟩
        else
          let d := tryDrainToFd answers (sr.sendOut (min n (sr.toFd.peek streamRelayChunk).length))
          { d with sent := min n (sr.toFd.peek streamRelayChunk).length + d.sent }
      | .intr => tryDrainToFd answers sr
      | .again => ⟨sr, answers, 0, true⟩
      | .failed => ⟨sr, answers, 0, false⟩

/-- The loop of `pump_stream_to_fd` and the test behind it. -/
def pumpLoop : (fuel : Nat) → List SendAnswer → StreamRelay → StreamRelay × StreamPump
  | 0, _, sr => (sr, .goOn)
  | fuel + 1, answers, sr =>
    let filled := sr.tryFillFromStream
    let drained := tryDrainToFd answers filled.1
    if drained.ok = false then (drained.relay, .broken)
    else if 0 < filled.2 ∨ 0 < drained.sent then pumpLoop fuel drained.answers drained.relay
    else if drained.relay.streamEnded ∧ drained.relay.toFd.len = 0 then (drained.relay, .ended)
    else (drained.relay, .goOn)

/-- `pump_stream_to_fd`. A turn that goes on uses an answer, but for the last one. -/
def pumpStreamToFd (sr : StreamRelay) (answers : List SendAnswer) : StreamRelay × StreamPump :=
  pumpLoop (answers.length + 2) answers sr

/-! ## From the descriptor to the stream -/

/-- `stream_relay_teardown`. The queue is not looked at after it. -/
def teardown (sr : StreamRelay) : StreamRelay :=
  if sr.done then sr else { sr with done := true, finishTimer := false, rateTimer := false }

/-- The relay is over because of what a pump found. -/
def endWith (sr : StreamRelay) (found : StreamPump) : StreamRelay :=
  { sr with byStream := found = .ended }

/-- `stream_relay_arm_rate_timer`: whether a timer is pending now. -/
def armRateTimer (sr : StreamRelay) (timerOk : Bool) : StreamRelay × Bool :=
  if sr.rateTimer then (sr, true) else ({ sr with rateTimer := timerOk }, timerOk)

/-- `cloak_stream_relay_notify_writable`. -/
def notifyWritable (sr : StreamRelay) (n : RelayNotice) : StreamRelay :=
  if sr.isFinishing ∨ sr.fdReadPaused = false then sr
  else if (streamRelayFdReadBudget n.minConnFree sr.stream n.valve).1 = 0 then
    if 0 < (streamRelayFdReadBudget n.minConnFree sr.stream n.valve).2 then
      match sr.armRateTimer n.timerOk with
      | (sr, true) => sr
      | (sr, false) => sr.teardown
    else sr
  else { sr with fdReadPaused := false }.syncInterest

/-- The bytes of one `read`. -/
def readIn (sr : StreamRelay) (bs : List UInt8) : StreamRelay :=
  { sr with io := sr.io ++ [⟨.read, bs⟩] }

/-- They go to the stream, with whether it took them. -/
def writeStream (evp : Evp) (sr : StreamRelay) (bs : List UInt8) (t : StreamRelayTurn) :
    StreamRelay × Bool :=
  let w := sr.stream.write evp bs t.frames
  (t.notices.foldl notifyWritable
    { sr with
      stream := w.1
      io := sr.io ++ w.2.1.map (⟨.frame, ·.frame.payload⟩) }, w.2.2 = .ok)

/-- `pump_fd_to_stream`; `false` is its `-1`. A relay that a notification has ended finds its
    descriptor closed. -/
def pumpFdToStream (evp : Evp) : List StreamRelayTurn → StreamRelay → StreamRelay × Bool
  | [], sr => (sr, true)
  | t :: ts, sr =>
    if (streamRelayFdReadBudget t.room.minConnFree sr.stream t.room.valve).1 = 0 then
      if 0 < (streamRelayFdReadBudget t.room.minConnFree sr.stream t.room.valve).2 then
        match sr.armRateTimer t.room.timerOk with
        | (sr, true) => ({ sr with fdReadPaused := true }, true)
        | (sr, false) => (sr, false)
      else ({ sr with fdReadPaused := true }, true)
    else if sr.done then (sr, false)
    else
      match t.answer with
      | .data bs =>
        let bs := bs.take (streamRelayFdReadBudget t.room.minConnFree sr.stream t.room.valve).1
        if bs = [] then (sr, false)
        else
          match (sr.readIn bs).writeStream evp bs t with
          | (sr, true) => pumpFdToStream evp ts sr
          | (sr, false) => (sr, false)
      | .intr => pumpFdToStream evp ts sr
      | .again => (sr, true)
      | .failed => (sr, false)

/-! ## Entry points -/

/-- The part of a callback that reads the descriptor, the best-effort pump of its failure, and the
    `sync_interest` it ends with. -/
def readFd (evp : Evp) (sr : StreamRelay) (turns : List StreamRelayTurn)
    (lastAnswers : List SendAnswer) : StreamRelay :=
  match pumpFdToStream evp turns sr with
  | (sr, true) => sr.syncInterest
  | (sr, false) => if sr.done then sr else (sr.pumpStreamToFd lastAnswers).1.teardown

/-- `stream_relay_on_event`. -/
def onEvent (evp : Evp) (sr : StreamRelay) (events : RelayInterest) (answers : List SendAnswer)
    (turns : List StreamRelayTurn) (lastAnswers : List SendAnswer) : StreamRelay :=
  if sr.isFinishing then sr
  else
    match if events.writable then sr.pumpStreamToFd answers else (sr, .goOn) with
    | (sr, .goOn) => if events.readable then sr.readFd evp turns lastAnswers else sr.syncInterest
    | (sr, found) => (sr.endWith found).teardown

/-- `stream_relay_on_rate_timer`. -/
def onRateTimer (evp : Evp) (sr : StreamRelay) (n : RelayNotice) (turns : List StreamRelayTurn)
    (lastAnswers : List SendAnswer) : StreamRelay :=
  let sr := { sr with rateTimer := false }
  if sr.isFinishing ∨ sr.fdReadPaused = false then sr
  else if (streamRelayFdReadBudget n.minConnFree sr.stream n.valve).1 = 0 then
    if 0 < (streamRelayFdReadBudget n.minConnFree sr.stream n.valve).2 then
      match sr.armRateTimer n.timerOk with
      | (sr, true) => sr
      | (sr, false) => sr.teardown
    else sr
  else { sr with fdReadPaused := false }.syncInterest.readFd evp turns lastAnswers

/-- `cloak_stream_relay_notify_stream_data`. -/
def notifyStreamData (sr : StreamRelay) (answers : List SendAnswer) : StreamRelay :=
  if sr.isFinishing then sr
  else
    match sr.pumpStreamToFd answers with
    | (sr, .goOn) => sr.syncInterest
    | (sr, found) => (sr.endWith found).teardown

/-- A relay as `cloak_stream_relay_start` fills it in. -/
def opened (stream : Stream) (toFd : ByteQueue) : StreamRelay where
  stream := stream
  toFd := toFd
  fdReadPaused := false
  streamEnded := false
  interest := ⟨true, false⟩
  rateTimer := false
  finishTimer := false
  done := false
  byStream := false
  io := []

/-- `cloak_stream_relay_start`, on a descriptor the reactor accepts if `addOk`; `none` where it
    fails. -/
def start (stream : Stream) (bufCap minConnFree : Nat) (addOk : Bool) (answers : List SendAnswer)
    (timerOk : Bool) : Option StreamRelay :=
  if minConnFree < streamRelayFrameCost stream then none
  else
    match ByteQueue.init bufCap with
    | none => none
    | some toFd =>
      if addOk = false then none
      else
        match (opened stream toFd).pumpStreamToFd answers with
        | (sr, .goOn) => some sr.syncInterest
        | (sr, found) => if timerOk then some { sr.endWith found with finishTimer := true } else none

/-! ## Runs -/

/-- What can happen to a relay. A frame for its stream is followed by the session's notification. -/
inductive Event where
  | frame (f : Frame) (allocs : FeedAllocs) (answers : List SendAnswer)
  | ready (events : RelayInterest) (answers : List SendAnswer) (turns : List StreamRelayTurn)
      (lastAnswers : List SendAnswer)
  | rateTimer (n : RelayNotice) (turns : List StreamRelayTurn) (lastAnswers : List SendAnswer)
  | writable (n : RelayNotice)
  | finishTimer
  | stop

/-- One event. -/
def step (evp : Evp) (sr : StreamRelay) : Event → StreamRelay
  | .frame f allocs answers =>
    { sr with stream := (sr.stream.feedFrame f allocs).1 }.notifyStreamData answers
  | .ready events answers turns lastAnswers => sr.onEvent evp events answers turns lastAnswers
  | .rateTimer n turns lastAnswers =>
    if sr.rateTimer then sr.onRateTimer evp n turns lastAnswers else sr
  | .writable n => sr.notifyWritable n
  | .finishTimer => if sr.finishTimer then { sr with finishTimer := false }.teardown else sr
  | .stop => sr.teardown

end StreamRelay

end Cloak
