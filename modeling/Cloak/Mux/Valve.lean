import Mathlib.Tactic.Common

set_option autoImplicit false

/-! # Token buckets (`valve.c`)

A user's valve holds one bucket of tokens for each direction, refilled by the clock. The data path
asks how many bytes it may move and, when the answer is none, how long to wait. The two questions
read the clock separately, so the readings are separate inputs here, and nothing relates them.

Tokens are milli-bytes and time is milliseconds, so a millisecond at `rate` bytes a second adds
exactly `rate` tokens. The arithmetic is C's: division truncates towards zero. -/

namespace Cloak

/-- `VALVE_MILLI`. -/
def valveMilli : Int := 1000

/-- `VALVE_FULL_AFTER_MS`. -/
def valveFullAfterMs : Nat := 2000

/-- `cloak_valve_bucket_t`. -/
structure Bucket where
  rate : Int
  capacity : Int
  tokens : Int
  lastRefill : Nat
deriving DecidableEq, Repr

namespace Bucket

/-- `bucket_refill`. -/
def refill (b : Bucket) (now : Nat) : Bucket :=
  if now ≤ b.lastRefill then { b with lastRefill := now }
  else if valveFullAfterMs ≤ now - b.lastRefill then
    { b with tokens := b.capacity, lastRefill := now }
  else
    { b with
      tokens := min (b.tokens + b.rate * ((now - b.lastRefill : Nat) : Int)) b.capacity
      lastRefill := now }

/-- `bucket_available`. -/
def available (b : Bucket) (now : Nat) : Int :=
  if ((b.refill now).tokens).tdiv valveMilli < 0 then 0
  else ((b.refill now).tokens).tdiv valveMilli

/-- `bucket_take`. -/
def take (b : Bucket) (now : Nat) (want : Int) : Int :=
  if b.available now < want then b.available now else want

/-- `bucket_delay_ms`. -/
def delayMs (b : Bucket) (now : Nat) : Nat :=
  if valveMilli - (b.refill now).tokens ≤ 0 then 1
  else if (valveMilli - (b.refill now).tokens + b.rate - 1).tdiv b.rate < 1 then 1
  else ((valveMilli - (b.refill now).tokens + b.rate - 1).tdiv b.rate).toNat

theorem take_le (b : Bucket) (now : Nat) (want : Int) : b.take now want ≤ want := by
  unfold take
  split <;> omega

/-- The floor: a bucket is always worth waiting for. -/
theorem one_le_delayMs (b : Bucket) (now : Nat) : 1 ≤ b.delayMs now := by
  unfold delayMs
  split
  · exact Nat.le_refl 1
  · split
    · exact Nat.le_refl 1
    · omega

end Bucket

/-- The part of `cloak_valve_t` that paces sending. -/
structure Valve where
  txBucket : Bucket
deriving DecidableEq, Repr

namespace Valve

/-- `cloak_valve_take_tx`; `none` is the null valve of an unmetered session. -/
def takeTx (v : Option Valve) (now : Nat) (want : Int) : Int :=
  match v with
  | none => want
  | some v => if v.txBucket.rate = 0 ∨ want ≤ 0 then want else v.txBucket.take now want

/-- `cloak_valve_tx_resume_delay_ms`. -/
def txResumeDelayMs (v : Option Valve) (now : Nat) : Nat :=
  match v with
  | none => 0
  | some v => if v.txBucket.rate = 0 then 0 else v.txBucket.delayMs now

theorem takeTx_le (v : Option Valve) (now : Nat) (want : Int) : takeTx v now want ≤ want := by
  unfold takeTx
  split
  · exact Int.le_refl want
  · split
    · exact Int.le_refl want
    · exact Bucket.take_le _ _ _

/-- A refusal always comes with a delay, whatever the clock says at the second question: only a
    limited direction refuses, and there the delay has its floor. -/
theorem one_le_txResumeDelayMs (v : Option Valve) (now now' : Nat) {want : Int} (hwant : 0 < want)
    (h : takeTx v now want ≤ 0) : 1 ≤ txResumeDelayMs v now' := by
  unfold takeTx at h
  split at h
  · omega
  · next v =>
    split at h
    · omega
    · next hlimited =>
      have hrate : v.txBucket.rate ≠ 0 := fun h0 => hlimited (Or.inl h0)
      simp only [txResumeDelayMs, if_neg hrate]
      exact Bucket.one_le_delayMs _ _

end Valve

end Cloak
