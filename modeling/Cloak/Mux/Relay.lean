import Cloak.Mux.Stream
import Cloak.Mux.Switchboard
import Cloak.Mux.Valve

set_option autoImplicit false

/-! # Relays (`stream_relay.c`, `dgram_relay.c`)

A relay moves bytes between a local descriptor and a stream. Writing to the stream cannot be refused
for want of room, so a relay reads its descriptor only while the pool can take what the bytes turn
into: a stream relay asks how many bytes it may read, a datagram relay whether one whole frame fits.
Either answer can be "none" for two reasons. The pool is full, and its draining will be reported; or
the user's token bucket is empty, and only a timer will end the pause.

Both kinds keep the same flags and treat the two answers alike, so they share one record here, and
`room` is the question in the form both use it. The loop that reads the descriptor is cut at its
turns (`pumpTurn`), because each write of a turn may call back into the relay. -/

namespace Cloak

/-- `STREAM_RELAY_CHUNK`. -/
def streamRelayChunk : Nat := 16384

/-- `cloak_stream_relay_frame_cost`. -/
def streamRelayFrameCost (stream : Stream) : Nat :=
  connRecordHeaderLen + stream.maxPayloadPerFrame + frameHeaderLen + frameMaxExtraLen

/-- The session's valve as a relay finds it, and the clock at each of its two questions. -/
structure ValveReading where
  valve : Option Valve
  takeNow : Nat
  delayNow : Nat

/-- The bytes the pool allows `stream_relay_fd_read_budget`, before the valve is asked. -/
def streamRelayPoolBudget (minConnFree : Nat) (stream : Stream) : Nat :=
  if stream.isOrdered = false then
    min (min (minConnFree / streamRelayFrameCost stream * stream.maxPayloadPerFrame) streamRelayChunk)
      stream.maxPayloadPerFrame
  else min (minConnFree / streamRelayFrameCost stream * stream.maxPayloadPerFrame) streamRelayChunk

/-- `stream_relay_fd_read_budget`: the bytes, and the delay when the valve is why there are none. -/
def streamRelayFdReadBudget (minConnFree : Nat) (stream : Stream) (r : ValveReading) : Nat × Nat :=
  if minConnFree / streamRelayFrameCost stream = 0 then (0, 0)
  else if Valve.takeTx r.valve r.takeNow (streamRelayPoolBudget minConnFree stream) ≤ 0 then
    (0, Valve.txResumeDelayMs r.valve r.delayNow)
  else ((Valve.takeTx r.valve r.takeNow (streamRelayPoolBudget minConnFree stream)).toNat, 0)

/-- `dgram_relay_can_accept_frame`: whether, and the delay when the valve is why not. The pending
    buffer of a live relay has the stream's payload limit as its size. -/
def dgramRelayCanAcceptFrame (minConnFree : Nat) (stream : Stream) (r : ValveReading) : Bool × Nat :=
  if minConnFree < streamRelayFrameCost stream then (false, 0)
  else if Valve.takeTx r.valve r.takeNow stream.maxPayloadPerFrame ≤ 0 then
    (false, Valve.txResumeDelayMs r.valve r.delayNow)
  else (true, 0)

theorem streamRelayFrameCost_pos (stream : Stream) : 0 < streamRelayFrameCost stream := by
  unfold streamRelayFrameCost
  have := stream.maxPayload_pos
  omega

theorem streamRelayPoolBudget_pos {minConnFree : Nat} {stream : Stream}
    (h : minConnFree / streamRelayFrameCost stream ≠ 0) : 0 < streamRelayPoolBudget minConnFree stream := by
  have hpay := stream.maxPayload_pos
  have hmul : 0 < minConnFree / streamRelayFrameCost stream * stream.maxPayloadPerFrame :=
    Nat.mul_pos (Nat.pos_of_ne_zero h) hpay
  have hchunk : streamRelayChunk = 16384 := rfl
  unfold streamRelayPoolBudget
  split <;> omega

/-- The budget never exceeds the payload of the frames that fit. -/
theorem streamRelayFdReadBudget_le (minConnFree : Nat) (stream : Stream) (r : ValveReading) :
    (streamRelayFdReadBudget minConnFree stream r).1
      ≤ minConnFree / streamRelayFrameCost stream * stream.maxPayloadPerFrame := by
  have hpool : streamRelayPoolBudget minConnFree stream
      ≤ minConnFree / streamRelayFrameCost stream * stream.maxPayloadPerFrame := by
    unfold streamRelayPoolBudget
    split <;> omega
  have htake := Valve.takeTx_le r.valve r.takeNow (streamRelayPoolBudget minConnFree stream)
  unfold streamRelayFdReadBudget
  split
  · exact Nat.zero_le _
  · split
    · exact Nat.zero_le _
    · dsimp only
      omega

/-! ## The flags of a relay -/

inductive RelayKind where
  | stream
  | dgram
deriving DecidableEq, Repr

/-- The control state of `cloak_stream_relay_t` and `cloak_dgram_relay_t`. Of the stream only its
    mode and its payload limit are read. -/
structure Relay where
  kind : RelayKind
  stream : Stream
  fdReadPaused : Bool
  rateTimer : Bool
  finishTimer : Bool
  done : Bool

/-- What the descriptor gives in a turn of the pump. `failed` is its end, an error, or bytes the
    stream does not take. -/
inductive FdRead where
  | data
  | again
  | failed
deriving DecidableEq, Repr

namespace Relay

/-- `stream_relay_is_finishing`, `dgram_relay_is_finishing`. -/
def isFinishing (r : Relay) : Bool := r.done || r.finishTimer

/-- Whether the relay may read now, and the delay when the valve is why not. -/
def room (r : Relay) (minConnFree : Nat) (v : ValveReading) : Bool × Nat :=
  match r.kind with
  | .stream =>
    ((streamRelayFdReadBudget minConnFree r.stream v).1 != 0,
      (streamRelayFdReadBudget minConnFree r.stream v).2)
  | .dgram => dgramRelayCanAcceptFrame minConnFree r.stream v

/-- `stream_relay_arm_rate_timer`, `dgram_relay_arm_rate_timer`: whether a timer is pending now. -/
def armRateTimer (r : Relay) (timerOk : Bool) : Relay × Bool :=
  if r.rateTimer then (r, true) else ({ r with rateTimer := timerOk }, timerOk)

/-- `stream_relay_teardown`, `dgram_relay_teardown`. -/
def teardown (r : Relay) : Relay :=
  if r.done then r else { r with done := true, finishTimer := false, rateTimer := false }

/-- No room: arm the timer if the valve is the reason, and finish if that fails. -/
def pauseOrFinish (r : Relay) (delay : Nat) (timerOk : Bool) : Relay :=
  if 0 < delay then
    match r.armRateTimer timerOk with
    | (r', true) => { r' with fdReadPaused := true }
    | (r', false) => r'.teardown
  else { r with fdReadPaused := true }

/-- One turn of `pump_fd_to_stream`, with the teardown its callers do when it fails. -/
def pumpTurn (r : Relay) (minConnFree : Nat) (v : ValveReading) (timerOk : Bool) (fd : FdRead) :
    Relay :=
  if r.isFinishing then r
  else if (r.room minConnFree v).1 = false then
    r.pauseOrFinish (r.room minConnFree v).2 timerOk
  else if fd = .failed then r.teardown
  else r

/-- `cloak_stream_relay_notify_writable`, `cloak_dgram_relay_notify_writable`, up to the pump that
    the latter goes on with. -/
def notifyWritable (r : Relay) (minConnFree : Nat) (v : ValveReading) (timerOk : Bool) : Relay :=
  if r.isFinishing ∨ r.fdReadPaused = false then r
  else if (r.room minConnFree v).1 = false then
    r.pauseOrFinish (r.room minConnFree v).2 timerOk
  else { r with fdReadPaused := false }

/-- `stream_relay_on_rate_timer`, `dgram_relay_on_rate_timer`, up to the pump they go on with: from
    here on they do what a drain does. -/
def onRateTimer (r : Relay) (minConnFree : Nat) (v : ValveReading) (timerOk : Bool) : Relay :=
  if r.rateTimer then notifyWritable { r with rateTimer := false } minConnFree v timerOk else r

/-- `stream_relay_on_finish_timer`, `dgram_relay_on_finish_timer`. -/
def onFinishTimer (r : Relay) : Relay :=
  if r.finishTimer then teardown { r with finishTimer := false } else r

/-- `cloak_stream_relay_notify_stream_data`, `cloak_dgram_relay_notify_stream_data`, and the part of
    the descriptor's events that writes to it: `ended` is what `pump_stream_to_fd` returns. -/
def onStreamData (r : Relay) (ended : Bool) : Relay :=
  if r.isFinishing then r else if ended then r.teardown else r

/-- `cloak_stream_relay_start`, `cloak_dgram_relay_start`; `ended` is what the first
    `pump_stream_to_fd` returns. -/
def start (kind : RelayKind) (stream : Stream) (minConnFree : Nat) (ended timerOk : Bool) :
    Option Relay :=
  if minConnFree < streamRelayFrameCost stream then none
  else if ended then
    if timerOk then some ⟨kind, stream, false, false, true, false⟩ else none
  else some ⟨kind, stream, false, false, false, false⟩

/-- The two reasons for no room. A pool that is the reason has a connection that could not take one
    frame; a valve that is the reason gives a delay. -/
theorem room_eq_false {r : Relay} {minConnFree : Nat} {v : ValveReading}
    (h : (r.room minConnFree v).1 = false) :
    minConnFree < streamRelayFrameCost r.stream ∨ 0 < (r.room minConnFree v).2 := by
  have hpay := r.stream.maxPayload_pos
  unfold room at h ⊢
  split at h
  · unfold streamRelayFdReadBudget at h ⊢
    split at h
    · next hfull =>
      refine Or.inl ?_
      rcases Nat.div_eq_zero_iff.mp hfull with h0 | hlt
      · exact absurd h0 (Nat.pos_iff_ne_zero.mp (streamRelayFrameCost_pos _))
      · exact hlt
    · next hroom =>
      rw [if_neg hroom]
      have hpos := streamRelayPoolBudget_pos hroom
      split at h
      · next hrefused =>
        rw [if_pos hrefused]
        exact Or.inr (Valve.one_le_txResumeDelayMs _ _ _ (by omega) hrefused)
      · simp only [bne_eq_false_iff_eq] at h
        omega
  · unfold dgramRelayCanAcceptFrame at h ⊢
    split at h
    · next hlt => exact Or.inl hlt
    · next hroom =>
      rw [if_neg hroom]
      split at h
      · next hrefused =>
        rw [if_pos hrefused]
        exact Or.inr (Valve.one_le_txResumeDelayMs _ _ _ (by omega) hrefused)
      · cases h

end Relay

end Cloak
