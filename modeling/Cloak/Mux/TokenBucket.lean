import Cloak.Lib.CheckedInt
import Cloak.Lib.Run
import Cloak.Mux.Valve
import Mathlib.Tactic.Linarith

set_option autoImplicit false

/-! # The arithmetic of the token buckets (`valve.c`)

The bucket functions as the code computes them, in checked 64-bit arithmetic, beside their exact
results. On a bucket whose tokens lie between a second of debt and a second of credit nothing
overflows, and the bucket stays there.

Everything about time rests on `refill_eq`: a refill adds `rate` for each millisecond and stops at the
capacity. That the code calls a bucket full after two seconds without looking at it is no exception,
because two seconds are what it takes from the floor of the debt to the brim. So two refills in a row
are one (`refill_refill`), and a question in between changes no later answer. -/

namespace Cloak

open Lib

/-- `CLOAK_VALVE_MAX_RATE`. -/
def valveMaxRate : Int := 2 ^ 40

namespace Bucket

/-- `bucket_refill`, checked. -/
def refillChecked (b : Bucket) (now : Nat) : Option Bucket :=
  if now ≤ b.lastRefill then some { b with lastRefill := now }
  else if valveFullAfterMs ≤ now - b.lastRefill then
    some { b with tokens := b.capacity, lastRefill := now }
  else do
    let earned ← i64Mul b.rate ((now - b.lastRefill : Nat) : Int)
    let tokens ← i64Add b.tokens earned
    some { b with tokens := if b.capacity < tokens then b.capacity else tokens, lastRefill := now }

/-- `bucket_available`, checked. -/
def availableChecked (b : Bucket) (now : Nat) : Option (Bucket × Int) := do
  let b ← b.refillChecked now
  let avail ← i64Div b.tokens valveMilli
  some (b, if avail < 0 then 0 else avail)

/-- `bucket_take`, checked. -/
def takeChecked (b : Bucket) (now : Nat) (want : Int) : Option (Bucket × Int) := do
  let (b, avail) ← b.availableChecked now
  some (b, if avail < want then avail else want)

/-- `bucket_spend`, checked. -/
def spendChecked (b : Bucket) (n : Int) : Option Bucket :=
  if n ≤ 0 then some b
  else do
    let most ← i64Div i64Max valveMilli
    let cost ← i64Mul (if most < n then most else n) valveMilli
    let floor ← i64Neg b.capacity
    let bound ← i64Add floor cost
    if b.tokens < bound then some { b with tokens := floor }
    else do
      let tokens ← i64Sub b.tokens cost
      some { b with tokens := tokens }

/-- `bucket_delay_ms`, checked. -/
def delayMsChecked (b : Bucket) (now : Nat) : Option (Bucket × Nat) := do
  let b ← b.refillChecked now
  let need ← i64Sub valveMilli b.tokens
  if need ≤ 0 then some (b, 1)
  else do
    let sum ← i64Add need b.rate
    let sum ← i64Sub sum 1
    let ms ← i64Div sum b.rate
    some (b, if ms < 1 then 1 else ms.toNat)

/-- The rate a bucket holds when it is told `rate`. -/
def clampRate (rate : Int) : Int :=
  if rate < 0 then 0 else if valveMaxRate < rate then valveMaxRate else rate

/-- `bucket_set_rate`, checked. -/
def setRateChecked (b : Bucket) (rate : Int) (now : Nat) : Option Bucket := do
  let capacity ← i64Mul (clampRate rate) valveMilli
  some { b with rate := clampRate rate, capacity := capacity, tokens := capacity, lastRefill := now }

/-! ## The exact results -/

/-- The most a single charge can cost is `INT64_MAX` with whole bytes. -/
def spendCost (n : Int) : Int := min n (i64Max.tdiv valveMilli) * valveMilli

/-- `bucket_spend`. -/
def spend (b : Bucket) (n : Int) : Bucket :=
  if n ≤ 0 then b
  else if b.tokens < -b.capacity + spendCost n then { b with tokens := -b.capacity }
  else { b with tokens := b.tokens - spendCost n }

/-- `bucket_set_rate`. -/
def setRate (rate : Int) (now : Nat) : Bucket :=
  { rate := clampRate rate, capacity := clampRate rate * valveMilli,
    tokens := clampRate rate * valveMilli, lastRefill := now }

/-- A bucket of one second's worth, at most that much in debt. -/
structure Sane (b : Bucket) : Prop where
  rate_nonneg : 0 ≤ b.rate
  rate_le : b.rate ≤ valveMaxRate
  capacity_eq : b.capacity = b.rate * valveMilli
  floor_le : -b.capacity ≤ b.tokens
  tokens_le : b.tokens ≤ b.capacity

variable {b : Bucket} {now t t' : Nat} {n want : Int}

theorem Sane.capacity_le (h : b.Sane) : 0 ≤ b.capacity ∧ b.capacity ≤ 1099511627776000 := by
  have hrate := h.rate_le
  have hnonneg := h.rate_nonneg
  rw [h.capacity_eq]
  simp only [valveMaxRate, valveMilli] at *
  omega

/-- What accrues in less than two seconds. -/
theorem Sane.earned_le (h : b.Sane) {elapsed : Nat} (helapsed : elapsed ≤ valveFullAfterMs) :
    0 ≤ b.rate * elapsed ∧ b.rate * elapsed ≤ 2 * b.capacity := by
  have hnonneg := h.rate_nonneg
  have hle := Int.mul_le_mul_of_nonneg_left (Int.ofNat_le.mpr helapsed) hnonneg
  refine ⟨Int.mul_nonneg hnonneg (Int.natCast_nonneg _), hle.trans (Int.le_of_eq ?_)⟩
  rw [h.capacity_eq, valveMilli]
  simp only [valveFullAfterMs, Nat.cast_ofNat]
  omega

/-- A refill adds the rate for each millisecond and stops at the brim. -/
theorem Sane.refill_eq (h : b.Sane) (now : Nat) :
    b.refill now =
      { b with
        tokens := min b.capacity (b.tokens + b.rate * ((now - b.lastRefill : Nat) : Int))
        lastRefill := now } := by
  have htokens := h.tokens_le
  have hfloor := h.floor_le
  unfold refill
  split
  · next hback =>
    rw [Nat.sub_eq_zero_of_le hback, Nat.cast_zero, Int.mul_zero, Int.add_zero, min_eq_right htokens]
  · split
    · next hfull =>
      -- two seconds of accrual cover the deepest debt and the whole capacity
      have hmost := Int.mul_le_mul_of_nonneg_left (Int.ofNat_le.mpr hfull) h.rate_nonneg
      have htwo : b.rate * (valveFullAfterMs : Nat) = 2 * b.capacity := by
        rw [h.capacity_eq]
        simp only [valveFullAfterMs, valveMilli, Nat.cast_ofNat]
        omega
      rw [min_eq_left (by omega)]
    · rw [min_comm]

theorem Sane.refill (h : b.Sane) (now : Nat) : (b.refill now).Sane := by
  have hearned := Int.mul_nonneg h.rate_nonneg (Int.natCast_nonneg (now - b.lastRefill))
  have hcap := h.capacity_le
  have hfloor := h.floor_le
  rw [h.refill_eq]
  exact ⟨h.rate_nonneg, h.rate_le, h.capacity_eq, le_min (by simp only; omega) (by simp only; omega),
    min_le_left _ _⟩

@[simp] theorem rate_refill (b : Bucket) (now : Nat) : (b.refill now).rate = b.rate := by
  unfold refill
  split
  · rfl
  · split <;> rfl

@[simp] theorem capacity_refill (b : Bucket) (now : Nat) : (b.refill now).capacity = b.capacity := by
  unfold refill
  split
  · rfl
  · split <;> rfl

@[simp] theorem lastRefill_refill (b : Bucket) (now : Nat) : (b.refill now).lastRefill = now := by
  unfold refill
  split
  · rfl
  · split <;> rfl

/-- A refill on the way is not seen afterwards. -/
theorem Sane.refill_refill (h : b.Sane) (hlast : b.lastRefill ≤ t) (ht : t ≤ t') :
    (b.refill t).refill t' = b.refill t' := by
  have hsum : b.rate * ((t' - b.lastRefill : Nat) : Int)
      = b.rate * ((t - b.lastRefill : Nat) : Int) + b.rate * ((t' - t : Nat) : Int) := by
    rw [← Int.mul_add]
    congr 1
    omega
  have hearned := Int.mul_nonneg h.rate_nonneg (Int.natCast_nonneg (t' - t))
  rw [(h.refill t).refill_eq, h.refill_eq t, h.refill_eq t', hsum]
  simp only [Bucket.mk.injEq, true_and, and_true]
  omega

theorem Sane.refillChecked (h : b.Sane) (now : Nat) :
    b.refillChecked now = some (b.refill now) := by
  have hcap := h.capacity_le
  have hfloor := h.floor_le
  have htokens := h.tokens_le
  unfold Bucket.refillChecked Bucket.refill
  split
  · rfl
  · split
    · rfl
    · next hshort =>
      have hearned := h.earned_le (Nat.le_of_not_le hshort)
      rw [i64Mul_eq (fits64_iff.mpr (by omega))]
      simp only [Option.bind_eq_bind, Option.bind_some]
      rw [i64Add_eq (fits64_iff.mpr (by omega))]
      simp only [Option.bind_some, Option.some.injEq, Bucket.mk.injEq, true_and, and_true]
      split
      · next hover => rw [min_eq_right (Int.le_of_lt hover)]
      · next hunder => rw [min_eq_left (Int.not_lt.mp hunder)]

theorem Sane.availableChecked (h : b.Sane) (now : Nat) :
    b.availableChecked now = some (b.refill now, b.available now) := by
  have hr := h.refill now
  have hcap := hr.capacity_le
  have hfloor := hr.floor_le
  have htokens := hr.tokens_le
  rw [Bucket.availableChecked, h.refillChecked]
  simp only [Option.bind_eq_bind, Option.bind_some]
  rw [i64Div_eq (fits64_iff.mpr (by omega)) (by decide)]
  rfl

theorem Sane.takeChecked (h : b.Sane) (now : Nat) (want : Int) :
    b.takeChecked now want = some (b.refill now, b.take now want) := by
  rw [Bucket.takeChecked, h.availableChecked]
  rfl

theorem spendCost_bounds (hn : 0 < n) : 0 < spendCost n ∧ spendCost n ≤ 9223372036854775000 := by
  have hmost : i64Max.tdiv valveMilli = 9223372036854775 := by decide
  rw [spendCost, hmost, valveMilli]
  omega

theorem spendCost_eq (n : Int) :
    (if i64Max.tdiv valveMilli < n then i64Max.tdiv valveMilli else n) * valveMilli = spendCost n := by
  rw [spendCost]
  congr 1
  omega

theorem Sane.spend (h : b.Sane) (n : Int) : (b.spend n).Sane := by
  have hcap := h.capacity_le
  have htokens := h.tokens_le
  unfold Bucket.spend
  split
  · exact h
  · next hpos =>
    have hcost := spendCost_bounds (Int.not_le.mp hpos)
    split
    · exact ⟨h.rate_nonneg, h.rate_le, h.capacity_eq, Int.le_refl _, by simp only; omega⟩
    · exact ⟨h.rate_nonneg, h.rate_le, h.capacity_eq, by simp only; omega, by simp only; omega⟩

theorem Sane.spendChecked (h : b.Sane) (n : Int) : b.spendChecked n = some (b.spend n) := by
  have hcap := h.capacity_le
  have hfloor := h.floor_le
  have htokens := h.tokens_le
  unfold Bucket.spendChecked Bucket.spend
  split
  · rfl
  · next hpos =>
    have hcost := spendCost_bounds (Int.not_le.mp hpos)
    have hmul := spendCost_eq n
    rw [i64Div_eq (fits64_iff.mpr (by decide)) (by decide)]
    simp only [Option.bind_eq_bind, Option.bind_some]
    rw [i64Mul_eq (by rw [hmul]; exact fits64_iff.mpr (by omega)), hmul]
    simp only [Option.bind_some]
    rw [i64Neg_eq (fits64_iff.mpr (by omega))]
    simp only [Option.bind_some]
    rw [i64Add_eq (fits64_iff.mpr (by omega))]
    simp only [Option.bind_some]
    split
    · rfl
    · rw [i64Sub_eq (fits64_iff.mpr (by omega))]
      rfl

theorem Sane.delayMsChecked (h : b.Sane) (hrate : 0 < b.rate) (now : Nat) :
    b.delayMsChecked now = some (b.refill now, b.delayMs now) := by
  have hr := h.refill now
  have hcap := hr.capacity_le
  have hfloor := hr.floor_le
  have htokens := hr.tokens_le
  have hmax : b.rate ≤ 1099511627776 := h.rate_le
  have hmilli : valveMilli = 1000 := rfl
  rw [Bucket.delayMsChecked, h.refillChecked]
  simp only [Option.bind_eq_bind, Option.bind_some]
  rw [i64Sub_eq (fits64_iff.mpr (by omega))]
  simp only [Option.bind_some]
  unfold Bucket.delayMs
  split
  · rfl
  · rw [rate_refill, i64Add_eq (fits64_iff.mpr (by omega))]
    simp only [Option.bind_some]
    rw [i64Sub_eq (fits64_iff.mpr (by omega))]
    simp only [Option.bind_some]
    rw [i64Div_eq (fits64_iff.mpr (by omega)) hrate]
    rfl

theorem clampRate_bounds (rate : Int) : 0 ≤ clampRate rate ∧ clampRate rate ≤ 1099511627776 := by
  have hmax : valveMaxRate = 1099511627776 := rfl
  unfold clampRate
  split
  · omega
  · split <;> omega

theorem sane_setRate (rate : Int) (now : Nat) : (setRate rate now).Sane := by
  have hrate := clampRate_bounds rate
  refine ⟨hrate.1, hrate.2, rfl, ?_, Int.le_refl _⟩
  simp only [setRate, valveMilli]
  omega

theorem setRateChecked_eq (b : Bucket) (rate : Int) (now : Nat) :
    b.setRateChecked rate now = some (setRate rate now) := by
  have hrate := clampRate_bounds rate
  rw [setRateChecked, i64Mul_eq (fits64_iff.mpr (by rw [valveMilli]; omega))]
  rfl

/-! ## Waiting for a byte -/

/-- A byte is granted exactly if there is one. -/
theorem take_one (b : Bucket) (now : Nat) :
    b.take now 1 = if valveMilli ≤ (b.refill now).tokens then 1 else 0 := by
  unfold take available
  generalize (b.refill now).tokens = tokens
  have hmilli : valveMilli = 1000 := rfl
  by_cases hbyte : valveMilli ≤ tokens
  · have hone : 1 ≤ tokens.tdiv valveMilli := by
      rw [Int.tdiv_eq_ediv_of_nonneg (by omega), hmilli]
      omega
    rw [if_pos hbyte, if_neg (show ¬ tokens.tdiv valveMilli < 0 by omega),
      if_neg (show ¬ tokens.tdiv valveMilli < 1 by omega)]
  · have hnone : tokens.tdiv valveMilli ≤ 0 := by
      rcases Int.le_total 0 tokens with hpos | hneg
      · rw [Int.tdiv_eq_zero_of_lt hpos (Int.not_le.mp hbyte)]
      · have hdebt := Int.tdiv_nonneg (Int.neg_nonneg.mpr hneg) (by decide : (0 : Int) ≤ valveMilli)
        rw [Int.neg_tdiv] at hdebt
        omega
    rw [if_neg hbyte]
    split
    · exact if_pos Int.zero_lt_one
    · rw [if_pos (by omega)]
      omega

/-- The delay is the time until a whole byte is due, and never nothing. -/
theorem Sane.delayMs_le_iff (h : b.Sane) (hrate : 0 < b.rate) (now : Nat) {d : Nat} (hd : 1 ≤ d) :
    b.delayMs now ≤ d ↔ valveMilli ≤ (b.refill now).tokens + b.rate * d := by
  have hearned := Int.mul_le_mul_of_nonneg_left (Int.ofNat_le.mpr hd) h.rate_nonneg
  rw [Nat.cast_one, Int.mul_one] at hearned
  unfold delayMs
  generalize (b.refill now).tokens = tokens
  split
  · omega
  · next hneed =>
    rw [Int.tdiv_eq_ediv_of_nonneg (by omega)]
    have hdiv := Int.ediv_lt_iff_lt_mul (a := valveMilli - tokens + b.rate - 1) (b := d + 1) hrate
    rw [Int.add_mul, Int.one_mul, Int.mul_comm (d : Int)] at hdiv
    split
    · omega
    · omega

/-- What a take of one byte meets `d` milliseconds after the delay was computed. -/
theorem Sane.take_after (h : b.Sane) (hrate : 0 < b.rate) (now d : Nat) :
    (b.refill now).take (now + d) 1 =
      if valveMilli ≤ (b.refill now).tokens + b.rate * d then 1 else 0 := by
  have hr := h.refill now
  have hmost := Int.mul_le_mul_of_nonneg_left hrate (by decide : (0 : Int) ≤ valveMilli)
  have hcap : valveMilli ≤ (b.refill now).capacity := by
    rw [hr.capacity_eq, rate_refill]
    simp only [valveMilli] at *
    omega
  rw [take_one, hr.refill_eq, lastRefill_refill, Nat.add_sub_cancel_left, rate_refill]
  congr 1
  simp only [le_min_iff, hcap, true_and]

/-- One second out of debt, and the time a byte takes. -/
theorem Sane.delayMs_le (h : b.Sane) (hrate : 0 < b.rate) (now : Nat) :
    (b.delayMs now : Int) ≤ valveMilli + (valveMilli + b.rate - 1) / b.rate := by
  have hr := h.refill now
  have hfloor := hr.floor_le
  have hceil : valveMilli ≤ b.rate * ((valveMilli + b.rate - 1) / b.rate) := by
    have hmod := Int.emod_lt_of_pos (valveMilli + b.rate - 1) hrate
    have hdiv := Int.mul_ediv_add_emod (valveMilli + b.rate - 1) b.rate
    omega
  have hpos : 0 ≤ (valveMilli + b.rate - 1) / b.rate :=
    Int.ediv_nonneg (by simp only [valveMilli]; omega) (Int.le_of_lt hrate)
  obtain ⟨k, hk⟩ := Int.eq_ofNat_of_zero_le hpos
  rw [hk] at hceil ⊢
  have hbound := (h.delayMs_le_iff hrate now (d := 1000 + k) (by omega)).mpr ?_
  · simp only [valveMilli]
    omega
  · rw [hr.capacity_eq, rate_refill] at hfloor
    rw [Nat.cast_add, Int.mul_add]
    simp only [valveMilli, Nat.cast_ofNat] at *
    omega

end Bucket

end Cloak
