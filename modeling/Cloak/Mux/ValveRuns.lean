import Cloak.Mux.TokenBucket

set_option autoImplicit false

/-! # Runs of a valve (`valve.c`)

A user's valve under any sequence of calls with any readings of its clock. The functions are the code's,
in checked arithmetic, with the twins for the two directions written once. `step` is what a call comes to
when nothing overflows, and nothing does (`Sane.call`).

The traffic bound is a budget: from one take to another the bucket has what it held and what accrued, and
every byte added is paid for from that as long as the floor forgives nothing (`budget_run`). The delay is
exact because calls that only ask leave no trace in what later calls answer (`refill_quiet`). -/

namespace Cloak

open Lib

/-- The two directions a valve meters. -/
inductive ValveDir where
  | rx
  | tx
deriving DecidableEq, Repr

/-- `cloak_valve_t`; the readings of its clock are inputs of the calls. -/
structure MeteredValve where
  rx : Int
  tx : Int
  rxBucket : Bucket
  txBucket : Bucket
deriving DecidableEq, Repr

/-- A call on a valve, with the reading of the clock it would take. -/
inductive ValveCall where
  | setClock (now : Nat)
  | setRates (rxRate txRate : Int) (now : Nat)
  | take (dir : ValveDir) (want : Int) (now : Nat)
  | add (dir : ValveDir) (n : Int)
  | delay (dir : ValveDir) (now : Nat)
  | nullify
deriving DecidableEq, Repr

namespace MeteredValve

/-- A zeroed valve. -/
def zeroed : MeteredValve := ⟨0, 0, ⟨0, 0, 0, 0⟩, ⟨0, 0, 0, 0⟩⟩

def bucket (v : MeteredValve) : ValveDir → Bucket
  | .rx => v.rxBucket
  | .tx => v.txBucket

def setBucket (v : MeteredValve) (b : Bucket) : ValveDir → MeteredValve
  | .rx => { v with rxBucket := b }
  | .tx => { v with txBucket := b }

def count (v : MeteredValve) (n : Int) : ValveDir → MeteredValve
  | .rx => { v with rx := v.rx + n }
  | .tx => { v with tx := v.tx + n }

/-! ## The functions of the code -/

/-- `cloak_valve_add_rx` and `cloak_valve_add_tx`. -/
def add (v : MeteredValve) (dir : ValveDir) (n : Int) : Option MeteredValve :=
  if (v.bucket dir).rate ≠ 0 then do
    let b ← (v.bucket dir).spendChecked n
    some ((v.count n dir).setBucket b dir)
  else some (v.count n dir)

def addRx (v : MeteredValve) (n : Int) : Option MeteredValve := v.add .rx n

def addTx (v : MeteredValve) (n : Int) : Option MeteredValve := v.add .tx n

/-- `cloak_valve_take_rx` and `cloak_valve_take_tx`. -/
def take (v : MeteredValve) (dir : ValveDir) (want : Int) (now : Nat) : Option (MeteredValve × Int) :=
  if (v.bucket dir).rate = 0 ∨ want ≤ 0 then some (v, want)
  else do
    let (b, n) ← (v.bucket dir).takeChecked now want
    some (v.setBucket b dir, n)

def takeRx (v : MeteredValve) (want : Int) (now : Nat) : Option (MeteredValve × Int) :=
  v.take .rx want now

def takeTx (v : MeteredValve) (want : Int) (now : Nat) : Option (MeteredValve × Int) :=
  v.take .tx want now

/-- `cloak_valve_rx_resume_delay_ms` and `cloak_valve_tx_resume_delay_ms`. -/
def resumeDelayMs (v : MeteredValve) (dir : ValveDir) (now : Nat) : Option (MeteredValve × Nat) :=
  if (v.bucket dir).rate = 0 then some (v, 0)
  else do
    let (b, ms) ← (v.bucket dir).delayMsChecked now
    some (v.setBucket b dir, ms)

def rxResumeDelayMs (v : MeteredValve) (now : Nat) : Option (MeteredValve × Nat) :=
  v.resumeDelayMs .rx now

def txResumeDelayMs (v : MeteredValve) (now : Nat) : Option (MeteredValve × Nat) :=
  v.resumeDelayMs .tx now

/-- `cloak_valve_set_rates`. -/
def setRates (v : MeteredValve) (rxRate txRate : Int) (now : Nat) : Option MeteredValve := do
  let rx ← v.rxBucket.setRateChecked rxRate now
  let tx ← v.txBucket.setRateChecked txRate now
  some { v with rxBucket := rx, txBucket := tx }

/-- `cloak_valve_set_clock`, with the first reading of the new clock. -/
def setClock (v : MeteredValve) (now : Nat) : MeteredValve :=
  { v with
    rxBucket := { v.rxBucket with lastRefill := now }
    txBucket := { v.txBucket with lastRefill := now } }

/-- `cloak_valve_nullify`: the counters, and the valve without them. -/
def nullify (v : MeteredValve) : MeteredValve × Int × Int := ({ v with rx := 0, tx := 0 }, v.rx, v.tx)

/-- A call by its name. -/
def call (v : MeteredValve) : ValveCall → Option MeteredValve
  | .setClock now => some (v.setClock now)
  | .setRates rxRate txRate now => v.setRates rxRate txRate now
  | .take dir want now => (v.take dir want now).map Prod.fst
  | .add dir n => v.add dir n
  | .delay dir now => (v.resumeDelayMs dir now).map Prod.fst
  | .nullify => some v.nullify.1

/-! ## Without overflow -/

/-- The valve behind a take. -/
def taken (v : MeteredValve) (dir : ValveDir) (want : Int) (now : Nat) : MeteredValve :=
  if (v.bucket dir).rate = 0 ∨ want ≤ 0 then v else v.setBucket ((v.bucket dir).refill now) dir

/-- What a take grants. -/
def granted (v : MeteredValve) (dir : ValveDir) (want : Int) (now : Nat) : Int :=
  if (v.bucket dir).rate = 0 ∨ want ≤ 0 then want else (v.bucket dir).take now want

/-- What a call comes to. -/
def step (v : MeteredValve) : ValveCall → MeteredValve
  | .setClock now => v.setClock now
  | .setRates rxRate txRate now =>
    { v with rxBucket := .setRate rxRate now, txBucket := .setRate txRate now }
  | .take dir want now => v.taken dir want now
  | .add dir n =>
    if (v.bucket dir).rate ≠ 0 then (v.count n dir).setBucket ((v.bucket dir).spend n) dir
    else v.count n dir
  | .delay dir now =>
    if (v.bucket dir).rate = 0 then v else v.setBucket ((v.bucket dir).refill now) dir
  | .nullify => v.nullify.1

variable {v : MeteredValve} {dir : ValveDir}

@[simp] theorem bucket_setBucket (v : MeteredValve) (b : Bucket) (dir dir' : ValveDir) :
    (v.setBucket b dir).bucket dir' = if dir' = dir then b else v.bucket dir' := by
  cases dir <;> cases dir' <;> rfl

@[simp] theorem bucket_count (v : MeteredValve) (n : Int) (dir dir' : ValveDir) :
    (v.count n dir).bucket dir' = v.bucket dir' := by
  cases dir <;> cases dir' <;> rfl

@[simp] theorem bucket_setClock (v : MeteredValve) (now : Nat) (dir : ValveDir) :
    (v.setClock now).bucket dir = { v.bucket dir with lastRefill := now } := by
  cases dir <;> rfl

/-- Both buckets are. -/
def Sane (v : MeteredValve) : Prop := ∀ dir, (v.bucket dir).Sane

theorem sane_zeroed : zeroed.Sane := by
  have hempty : Bucket.Sane ⟨0, 0, 0, 0⟩ :=
    ⟨Int.le_refl 0, by decide, rfl, Int.le_refl 0, Int.le_refl 0⟩
  intro dir
  cases dir <;> exact hempty

theorem Sane.setBucket (h : v.Sane) {b : Bucket} (hb : b.Sane) (dir : ValveDir) :
    (v.setBucket b dir).Sane := by
  intro dir'
  rw [bucket_setBucket]
  split
  · exact hb
  · exact h dir'

theorem Sane.count (h : v.Sane) (n : Int) (dir : ValveDir) : (v.count n dir).Sane := by
  intro dir'
  rw [bucket_count]
  exact h dir'

theorem Sane.rate_pos (h : v.Sane) (hlimited : (v.bucket dir).rate ≠ 0) : 0 < (v.bucket dir).rate := by
  have hnonneg := (h dir).rate_nonneg
  omega

theorem Sane.step (h : v.Sane) (c : ValveCall) : (v.step c).Sane := by
  cases c with
  | setClock now =>
    intro dir
    rw [MeteredValve.step, bucket_setClock]
    exact ⟨(h dir).rate_nonneg, (h dir).rate_le, (h dir).capacity_eq, (h dir).floor_le,
      (h dir).tokens_le⟩
  | setRates rxRate txRate now =>
    intro dir
    cases dir
    · exact Bucket.sane_setRate rxRate now
    · exact Bucket.sane_setRate txRate now
  | take dir want now =>
    simp only [MeteredValve.step, taken]
    split
    · exact h
    · exact h.setBucket ((h dir).refill now) dir
  | add dir n =>
    simp only [MeteredValve.step]
    split
    · exact (h.count n dir).setBucket ((h dir).spend n) dir
    · exact h.count n dir
  | delay dir now =>
    simp only [MeteredValve.step]
    split
    · exact h
    · exact h.setBucket ((h dir).refill now) dir
  | nullify => exact fun dir => by cases dir <;> [exact h .rx; exact h .tx]

theorem Sane.take (h : v.Sane) (dir : ValveDir) (want : Int) (now : Nat) :
    v.take dir want now = some (v.step (.take dir want now), v.granted dir want now) := by
  simp only [MeteredValve.take, MeteredValve.step, taken, granted]
  split
  · rfl
  · rw [(h dir).takeChecked]
    rfl

theorem Sane.resumeDelayMs (h : v.Sane) (hlimited : (v.bucket dir).rate ≠ 0) (now : Nat) :
    v.resumeDelayMs dir now = some (v.step (.delay dir now), (v.bucket dir).delayMs now) := by
  simp only [MeteredValve.resumeDelayMs, MeteredValve.step, if_neg hlimited]
  rw [(h dir).delayMsChecked (h.rate_pos hlimited)]
  rfl

/-- Nothing overflows. -/
theorem Sane.call (h : v.Sane) (c : ValveCall) : v.call c = some (v.step c) := by
  cases c with
  | setClock now => rfl
  | setRates rxRate txRate now =>
    simp only [MeteredValve.call, setRates, Bucket.setRateChecked_eq, Option.bind_eq_bind,
      Option.bind_some]
    rfl
  | take dir want now =>
    rw [MeteredValve.call, h.take]
    rfl
  | add dir n =>
    simp only [MeteredValve.call, add, MeteredValve.step]
    split
    · rw [(h dir).spendChecked]
      rfl
    · rfl
  | delay dir now =>
    by_cases hlimited : (v.bucket dir).rate = 0
    · simp only [MeteredValve.call, MeteredValve.resumeDelayMs, MeteredValve.step, if_pos hlimited]
      rfl
    · rw [MeteredValve.call, h.resumeDelayMs hlimited]
      rfl
  | nullify => rfl

theorem sane_run (cs : List ValveCall) : (run step zeroed cs).Sane :=
  run_invariant sane_zeroed (fun _ c h => h.step c) cs

/-- The calls one after another, in the code's arithmetic. -/
theorem Sane.calls (h : v.Sane) (cs : List ValveCall) :
    cs.foldlM MeteredValve.call v = some (run MeteredValve.step v cs) := by
  induction cs generalizing v with
  | nil => rfl
  | cons c cs ih =>
    rw [List.foldlM_cons, h.call c]
    exact ih (h.step c)

end MeteredValve

/-! ## Two takes and what is added in between -/

namespace ValveCall

/-- The reading a call takes of the clock. -/
def reading : ValveCall → Option Nat
  | .setClock now => some now
  | .setRates _ _ now => some now
  | .take _ _ now => some now
  | .add _ _ => none
  | .delay _ now => some now
  | .nullify => none

/-- A call of the data path or of the accounting: the rates and the clock stay. -/
def IsFlow : ValveCall → Prop
  | .setClock _ => False
  | .setRates _ _ _ => False
  | _ => True

/-- The bytes a call adds in a direction. -/
def added (dir : ValveDir) : ValveCall → Int
  | .add dir' n => if dir' = dir then n else 0
  | _ => 0

end ValveCall

namespace Bucket

/-- From `b` to `b'` no more than `n` bytes were paid for from what was held and what accrued. -/
structure Paid (b b' : Bucket) (n : Int) : Prop where
  rate : b'.rate = b.rate
  last : b.lastRefill ≤ b'.lastRefill
  budget : b'.tokens + valveMilli * n
    ≤ b.tokens + b.rate * ((b'.lastRefill : Int) - (b.lastRefill : Int))

variable {b b' b'' : Bucket} {n m : Int}

theorem Paid.refl (b : Bucket) (hn : n ≤ 0) : Paid b b n :=
  ⟨rfl, Nat.le_refl _, by rw [Int.sub_self, Int.mul_zero, valveMilli]; omega⟩

theorem Paid.trans (h : Paid b b' n) (h' : Paid b' b'' m) : Paid b b'' (n + m) := by
  refine ⟨h'.rate.trans h.rate, Nat.le_trans h.last h'.last, ?_⟩
  have hfirst := h.budget
  have hsecond := h'.budget
  have hsplit : b.rate * ((b''.lastRefill : Int) - (b.lastRefill : Int))
      = b.rate * ((b'.lastRefill : Int) - (b.lastRefill : Int))
        + b.rate * ((b''.lastRefill : Int) - (b'.lastRefill : Int)) := by
    rw [← Int.mul_add]
    congr 1
    omega
  rw [h.rate] at hsecond
  rw [hsplit, Int.mul_add]
  omega

theorem Sane.paid_refill (h : b.Sane) {now : Nat} (hlast : b.lastRefill ≤ now) :
    Paid b (b.refill now) 0 := by
  refine ⟨rate_refill _ _, by rw [lastRefill_refill]; exact hlast, ?_⟩
  rw [lastRefill_refill, h.refill_eq, Int.mul_zero, Int.add_zero, ← Int.natCast_sub hlast]
  exact min_le_right _ _

@[simp] theorem lastRefill_spend (b : Bucket) (n : Int) : (b.spend n).lastRefill = b.lastRefill := by
  unfold spend
  split
  · rfl
  · split <;> rfl

/-- The charge is more than the debt may take. -/
def FloorHit (b : Bucket) (n : Int) : Prop := 0 < n ∧ b.tokens < -b.capacity + spendCost n

theorem Sane.paid_spend (h : b.Sane) (hfloor : ¬ b.FloorHit n) : Paid b (b.spend n) n := by
  unfold Bucket.spend
  split
  · next hn => exact .refl b hn
  · next hpos =>
    have hmiss : ¬ b.tokens < -b.capacity + spendCost n :=
      fun hhit => hfloor ⟨Int.not_le.mp hpos, hhit⟩
    have hcap := h.capacity_le
    have htokens := h.tokens_le
    -- a cost cut short would hit the floor
    have hcost : spendCost n = n * valveMilli := by
      have hmost : i64Max.tdiv valveMilli = 9223372036854775 := by decide
      have hmilli : valveMilli = 1000 := rfl
      rw [spendCost, hmost, hmilli] at hmiss ⊢
      omega
    rw [if_neg hmiss]
    refine ⟨rfl, Nat.le_refl _, ?_⟩
    simp only [Int.sub_self, Int.mul_zero, Int.add_zero, hcost]
    rw [Int.mul_comm]
    omega

end Bucket

namespace MeteredValve

variable {v : MeteredValve} {dir : ValveDir}

/-- The call charges a direction more than its debt may take. -/
def FloorHit (dir : ValveDir) (v : MeteredValve) : ValveCall → Prop
  | .add dir' n => dir' = dir ∧ (v.bucket dir).FloorHit n
  | _ => False

/-- What one call does to a limited bucket: nothing, a refill or a charge. -/
theorem step_cases (v : MeteredValve) (hlimited : (v.bucket dir).rate ≠ 0) {c : ValveCall}
    (hflow : c.IsFlow) :
    ((v.step c).bucket dir = v.bucket dir ∧ c.added dir = 0)
      ∨ (∃ t, c.reading = some t ∧ (v.step c).bucket dir = (v.bucket dir).refill t ∧ c.added dir = 0)
      ∨ ∃ n, c = .add dir n ∧ (v.step c).bucket dir = (v.bucket dir).spend n ∧ c.added dir = n := by
  cases c with
  | setClock now => exact hflow.elim
  | setRates rxRate txRate now => exact hflow.elim
  | take dir' want now =>
    simp only [step, taken, ValveCall.added, and_true]
    split
    · exact .inl rfl
    · rw [bucket_setBucket]
      split
      · next hdir => exact .inr (.inl ⟨now, rfl, by rw [hdir]⟩)
      · exact .inl rfl
  | add dir' n =>
    simp only [step, ValveCall.added]
    by_cases hdir : dir' = dir
    · subst hdir
      rw [if_pos hlimited, bucket_setBucket, if_pos rfl, if_pos rfl]
      exact .inr (.inr ⟨n, rfl, rfl, rfl⟩)
    · refine .inl ⟨?_, if_neg hdir⟩
      split
      · rw [bucket_setBucket, if_neg (Ne.symm hdir), bucket_count]
      · rw [bucket_count]
  | delay dir' now =>
    simp only [step, ValveCall.added, and_true]
    split
    · exact .inl rfl
    · rw [bucket_setBucket]
      split
      · next hdir => exact .inr (.inl ⟨now, rfl, by rw [hdir]⟩)
      · exact .inl rfl
  | nullify => exact .inl ⟨by cases dir <;> rfl, rfl⟩

/-- The readings from the last refill on, up to `now`, do not go back. -/
def ClockRuns (dir : ValveDir) (v : MeteredValve) (cs : List ValveCall) (now : Nat) : Prop :=
  ((v.bucket dir).lastRefill :: cs.filterMap ValveCall.reading ++ [now]).Pairwise (· ≤ ·)

theorem ClockRuns.reading {c : ValveCall} {cs : List ValveCall} {now t : Nat}
    (h : ClockRuns dir v (c :: cs) now) (ht : c.reading = some t) :
    (v.bucket dir).lastRefill ≤ t ∧ t ≤ now := by
  rw [ClockRuns, List.filterMap_cons_some ht] at h
  exact ⟨(List.pairwise_cons.mp h).1 t (by simp),
    (List.pairwise_cons.mp (List.pairwise_cons.mp h).2).1 now (by simp)⟩

theorem ClockRuns.step {c : ValveCall} {cs : List ValveCall} {now : Nat}
    (h : ClockRuns dir v (c :: cs) now) (hlimited : (v.bucket dir).rate ≠ 0) (hflow : c.IsFlow) :
    ClockRuns dir (v.step c) cs now := by
  have hskip : ClockRuns dir v cs now :=
    h.sublist ((((List.sublist_cons_self c cs).filterMap _).append (List.Sublist.refl _)).cons_cons _)
  unfold ClockRuns at *
  rcases v.step_cases hlimited hflow with ⟨heq, -⟩ | ⟨t, hread, heq, -⟩ | ⟨n, -, heq, -⟩
  · rw [heq]
    exact hskip
  · rw [List.filterMap_cons_some hread] at h
    rw [heq, Bucket.lastRefill_refill]
    exact (List.pairwise_cons.mp h).2
  · rw [heq, Bucket.lastRefill_spend]
    exact hskip

/-- Calls that leave the rates and the clock alone spend what was held and what accrues, and no more. -/
theorem Sane.paid_run (h : v.Sane) (hlimited : (v.bucket dir).rate ≠ 0) {cs : List ValveCall}
    (hflow : ∀ c ∈ cs, c.IsFlow) {now : Nat} (hclock : ClockRuns dir v cs now)
    (hfloor : Obeys MeteredValve.step (fun v c => ¬ v.FloorHit dir c) v cs) :
    (v.bucket dir).Paid ((run MeteredValve.step v cs).bucket dir) (cs.map (ValveCall.added dir)).sum
      ∧ ((run MeteredValve.step v cs).bucket dir).lastRefill ≤ now := by
  induction cs generalizing v with
  | nil => exact ⟨.refl _ (Int.le_refl 0), (List.pairwise_pair.mp hclock)⟩
  | cons c cs ih =>
    rw [List.forall_mem_cons] at hflow
    have hpaid : (v.bucket dir).Paid ((v.step c).bucket dir) (c.added dir) := by
      rcases v.step_cases hlimited hflow.1 with ⟨heq, hn⟩ | ⟨t, hread, heq, hn⟩ | ⟨n, rfl, heq, hn⟩
      · rw [heq, hn]
        exact .refl _ (Int.le_refl 0)
      · rw [heq, hn]
        exact (h dir).paid_refill (hclock.reading hread).1
      · rw [heq, hn]
        exact (h dir).paid_spend fun hhit => hfloor.1 ⟨rfl, hhit⟩
    have hlimited' : ((v.step c).bucket dir).rate ≠ 0 := by rwa [hpaid.rate]
    obtain ⟨hrest, hbound⟩ :=
      ih (h.step c) hlimited' hflow.2 (hclock.step hlimited hflow.1) hfloor.2
    exact ⟨hpaid.trans hrest, hbound⟩

/-- A call that adds nothing in a direction. -/
def Silent (dir : ValveDir) (c : ValveCall) : Prop := c.IsFlow ∧ ∀ n, c ≠ .add dir n

/-- What is only asked leaves no trace. -/
theorem Sane.refill_silent (h : v.Sane) (hlimited : (v.bucket dir).rate ≠ 0) {cs : List ValveCall}
    (hsilent : ∀ c ∈ cs, Silent dir c) {now : Nat} (hclock : ClockRuns dir v cs now) :
    ((run MeteredValve.step v cs).bucket dir).refill now = (v.bucket dir).refill now := by
  induction cs generalizing v with
  | nil => rfl
  | cons c cs ih =>
    rw [List.forall_mem_cons] at hsilent
    have hstep : ((v.step c).bucket dir).refill now = (v.bucket dir).refill now
        ∧ ((v.step c).bucket dir).rate = (v.bucket dir).rate := by
      rcases v.step_cases hlimited hsilent.1.1 with ⟨heq, -⟩ | ⟨t, hread, heq, -⟩ | ⟨n, hc, -⟩
      · rw [heq]
        exact ⟨rfl, rfl⟩
      · rw [heq]
        exact ⟨(h dir).refill_refill (hclock.reading hread).1 (hclock.reading hread).2,
          Bucket.rate_refill _ t⟩
      · exact absurd hc (hsilent.1.2 n)
    exact (ih (h.step c) (by rwa [hstep.2]) hsilent.2 (hclock.step hlimited hsilent.1.1)).trans hstep.1

/-! ## The two results -/

/-- What holds of a valve's buckets. -/
structure Conforms (v : MeteredValve) : Prop where
  capacity : ∀ dir, (v.bucket dir).capacity = (v.bucket dir).rate * valveMilli
  within : ∀ dir, -(v.bucket dir).capacity ≤ (v.bucket dir).tokens
    ∧ (v.bucket dir).tokens ≤ (v.bucket dir).capacity
  /-- A refill is exact. -/
  refill : ∀ dir now, (v.bucket dir).refillChecked now = some
    { v.bucket dir with
      tokens := min (v.bucket dir).capacity ((v.bucket dir).tokens
        + (v.bucket dir).rate * ((now - (v.bucket dir).lastRefill : Nat) : Int))
      lastRefill := now }
  /-- Between two takes of a limited direction of which the first asks for something and the second is
      granted something, a second's worth and what accrues is all that can be added. -/
  traffic : ∀ dir want₁ t₁ between want₂ t₂, (v.bucket dir).rate ≠ 0 → 0 < want₁ →
    (∀ c ∈ between, c.IsFlow) →
    (t₁ :: between.filterMap ValveCall.reading ++ [t₂]).Pairwise (· ≤ ·) →
    Obeys step (fun v c => ¬ v.FloorHit dir c) (v.step (.take dir want₁ t₁)) between →
    ∀ v' n, (run step v (.take dir want₁ t₁ :: between)).take dir want₂ t₂ = some (v', n) → 1 ≤ n →
    (between.map (ValveCall.added dir)).sum
      ≤ (v.bucket dir).rate + (v.bucket dir).rate * ((t₂ : Int) - (t₁ : Int)) / 1000

/-- A take that reads the clock. -/
theorem bucket_taken {want : Int} (hlimited : (v.bucket dir).rate ≠ 0) (hwant : 0 < want) (now : Nat) :
    (v.step (.take dir want now)).bucket dir = (v.bucket dir).refill now := by
  rw [step, taken, if_neg (by omega), bucket_setBucket, if_pos rfl]

theorem Sane.traffic (h : v.Sane) {want₁ want₂ : Int} {t₁ t₂ : Nat} {between : List ValveCall}
    (hlimited : (v.bucket dir).rate ≠ 0) (hwant : 0 < want₁) (hflow : ∀ c ∈ between, c.IsFlow)
    (hclock : (t₁ :: between.filterMap ValveCall.reading ++ [t₂]).Pairwise (· ≤ ·))
    (hfloor : Obeys MeteredValve.step (fun v c => ¬ v.FloorHit dir c) (v.step (.take dir want₁ t₁))
      between) {v' : MeteredValve} {n : Int}
    (htake : (run MeteredValve.step v (.take dir want₁ t₁ :: between)).take dir want₂ t₂
      = some (v', n)) (hn : 1 ≤ n) :
    (between.map (ValveCall.added dir)).sum
      ≤ (v.bucket dir).rate + (v.bucket dir).rate * ((t₂ : Int) - (t₁ : Int)) / 1000 := by
  have hsane := h.step (.take dir want₁ t₁)
  have hstart := bucket_taken hlimited hwant t₁
  have hrate : ((v.step (.take dir want₁ t₁)).bucket dir).rate = (v.bucket dir).rate := by
    rw [hstart, Bucket.rate_refill]
  obtain ⟨hpaid, hlast⟩ := hsane.paid_run (by rwa [hrate]) hflow
    (by rwa [ClockRuns, hstart, Bucket.lastRefill_refill]) hfloor
  have hend : (run MeteredValve.step (v.step (.take dir want₁ t₁)) between).Sane :=
    run_invariant hsane (fun _ c hv => hv.step c) between
  change (run MeteredValve.step (v.step (.take dir want₁ t₁)) between).take _ _ _ = _ at htake
  rw [hend.take] at htake
  obtain ⟨-, rfl⟩ := Prod.mk.inj (Option.some.inj htake)
  generalize run MeteredValve.step (v.step (.take dir want₁ t₁)) between = w at hpaid hlast hend hn
  -- what is granted is there
  have hbyte : valveMilli ≤ ((w.bucket dir).refill t₂).tokens := by
    have hone := Bucket.take_one (w.bucket dir) t₂
    rw [granted] at hn
    split at hn
    · next hfree =>
      rw [hpaid.rate, hrate] at hfree
      omega
    · by_contra hno
      rw [if_neg hno] at hone
      unfold Bucket.take at hone hn
      split at hone <;> split at hn <;> omega
  have hall := (hpaid.trans ((hend dir).paid_refill hlast)).budget
  have hfull := (h dir).refill t₁ |>.tokens_le
  have hcap := (h dir).refill t₁ |>.capacity_eq
  rw [Bucket.lastRefill_refill, hstart, Bucket.rate_refill, Bucket.lastRefill_refill] at hall
  rw [Bucket.rate_refill] at hcap
  simp only [valveMilli] at hbyte hall hcap
  omega

theorem Sane.conforms (h : v.Sane) : v.Conforms where
  capacity dir := (h dir).capacity_eq
  within dir := ⟨(h dir).floor_le, (h dir).tokens_le⟩
  refill dir now := by rw [(h dir).refillChecked, (h dir).refill_eq]
  traffic _ _ _ _ _ _ hlimited hwant hflow hclock hfloor _ _ htake hn :=
    h.traffic hlimited hwant hflow hclock hfloor htake hn

/-- Every run of a valve is free of overflow, and its buckets conform. -/
theorem buckets_conform (cs : List ValveCall) :
    cs.foldlM call zeroed = some (run step zeroed cs) ∧ (run step zeroed cs).Conforms :=
  ⟨sane_zeroed.calls cs, (sane_run cs).conforms⟩

/-- A take of nothing reads no clock, so what accrued before it is still to come. -/
theorem take_of_nothing : ∃ v v' between, v = run step zeroed [.setRates 0 2 0] ∧
    between = [.add .tx 3] ∧
    Obeys step (fun v c => ¬ v.FloorHit .tx c) (v.step (.take .tx 0 1000)) between ∧
    (run step v (.take .tx 0 1000 :: between)).take .tx 1 1000 = some (v', 1) ∧
    ¬ (between.map (ValveCall.added .tx)).sum
      ≤ (v.bucket .tx).rate + (v.bucket .tx).rate * ((1000 : Int) - (1000 : Int)) / 1000 := by
  refine ⟨_, _, _, rfl, rfl, ⟨?_, trivial⟩, rfl, by decide⟩
  rintro ⟨-, -, hhit⟩
  exact absurd hhit (by decide)

/-- What the delay of a limited direction says. -/
structure DelayExact (v : MeteredValve) (dir : ValveDir) (now : Nat) (v' : MeteredValve) (ms : Nat) :
    Prop where
  pos : 1 ≤ ms
  bounded : (ms : Int) ≤ 1000 + (1000 + (v.bucket dir).rate - 1) / (v.bucket dir).rate
  /-- When it is over a byte is granted. -/
  enough : ∀ asked : List ValveCall, (∀ c ∈ asked, Silent dir c) →
    (now :: asked.filterMap ValveCall.reading ++ [now + ms]).Pairwise (· ≤ ·) →
    ∃ v'', (run step v' asked).take dir 1 (now + ms) = some (v'', 1)
  /-- If a byte was not there, none is before. -/
  least : (v'.bucket dir).tokens < valveMilli → ∀ d, d < ms →
    ∀ asked : List ValveCall, (∀ c ∈ asked, Silent dir c) →
    (now :: asked.filterMap ValveCall.reading ++ [now + d]).Pairwise (· ≤ ·) →
    ∃ v'', (run step v' asked).take dir 1 (now + d) = some (v'', 0)

/-- A take of a byte some time behind the question for the delay. -/
theorem Sane.take_silent (h : v.Sane) (hlimited : (v.bucket dir).rate ≠ 0) (now d : Nat)
    {asked : List ValveCall} (hsilent : ∀ c ∈ asked, Silent dir c)
    (hclock : (now :: asked.filterMap ValveCall.reading ++ [now + d]).Pairwise (· ≤ ·)) :
    ∃ v'', (run MeteredValve.step (v.step (.delay dir now)) asked).take dir 1 (now + d)
      = some (v'', if valveMilli ≤ ((v.bucket dir).refill now).tokens + (v.bucket dir).rate * d
        then 1 else 0) := by
  have hstart : (v.step (.delay dir now)).bucket dir = (v.bucket dir).refill now := by
    rw [MeteredValve.step, if_neg hlimited, bucket_setBucket, if_pos rfl]
  have hquiet := (h.step (.delay dir now)).refill_silent
    (by rwa [hstart, Bucket.rate_refill]) hsilent
    (by rwa [ClockRuns, hstart, Bucket.lastRefill_refill])
  have hend : (run MeteredValve.step (v.step (.delay dir now)) asked).Sane :=
    run_invariant (h.step (.delay dir now)) (fun _ c hv => hv.step c) asked
  rw [hstart] at hquiet
  generalize run MeteredValve.step (v.step (.delay dir now)) asked = w at hquiet hend
  have hrate : (w.bucket dir).rate = (v.bucket dir).rate := by
    rw [← Bucket.rate_refill (w.bucket dir) (now + d), hquiet, Bucket.rate_refill,
      Bucket.rate_refill]
  refine ⟨_, (hend.take dir 1 (now + d)).trans (congrArg some (Prod.ext rfl ?_))⟩
  have hafter := (h dir).take_after (h.rate_pos hlimited) now d
  rw [Bucket.take_one] at hafter
  rw [granted, hrate, if_neg (by omega), Bucket.take_one, hquiet, hafter]

theorem Sane.delay_exact (h : v.Sane) (hlimited : (v.bucket dir).rate ≠ 0) (now : Nat) :
    v.DelayExact dir now (v.step (.delay dir now)) ((v.bucket dir).delayMs now) := by
  have hrate := h.rate_pos hlimited
  have hpos := (v.bucket dir).one_le_delayMs now
  refine ⟨hpos, (h dir).delayMs_le hrate now, fun asked hsilent hclock => ?_,
    fun hshort d hd asked hsilent hclock => ?_⟩
  · obtain ⟨v'', htake⟩ := h.take_silent hlimited now _ hsilent hclock
    rw [if_pos (((h dir).delayMs_le_iff hrate now hpos).mp (Nat.le_refl _))] at htake
    exact ⟨v'', htake⟩
  · obtain ⟨v'', htake⟩ := h.take_silent hlimited now d hsilent hclock
    rw [MeteredValve.step, if_neg hlimited, bucket_setBucket, if_pos rfl] at hshort
    refine ⟨v'', htake.trans ?_⟩
    rw [if_neg]
    rcases Nat.eq_zero_or_pos d with rfl | hpos
    · rw [Nat.cast_zero, Int.mul_zero, Int.add_zero]
      exact Int.not_le.mpr hshort
    · rw [← (h dir).delayMs_le_iff hrate now hpos]
      exact Nat.not_le.mpr hd

/-- In every state a valve can reach, the delay of a limited direction is exact. -/
theorem resume_delay_exact (cs : List ValveCall) (dir : ValveDir) (now : Nat)
    (hlimited : 1 ≤ ((run step zeroed cs).bucket dir).rate) :
    ∃ v' ms, (run step zeroed cs).resumeDelayMs dir now = some (v', ms)
      ∧ (run step zeroed cs).DelayExact dir now v' ms := by
  have hrate : ((run step zeroed cs).bucket dir).rate ≠ 0 := by omega
  exact ⟨_, _, (sane_run cs).resumeDelayMs hrate now, (sane_run cs).delay_exact hrate now⟩

/-- A direction of one byte a second with all its debt: the longest wait there is. -/
theorem resume_delay_exact_debt : ∃ v' ms,
    (run step zeroed [.setRates 0 1 0, .add .tx 2]).resumeDelayMs .tx 0 = some (v', ms)
      ∧ (run step zeroed [.setRates 0 1 0, .add .tx 2]).DelayExact .tx 0 v' ms :=
  resume_delay_exact [.setRates 0 1 0, .add .tx 2] .tx 0 (by decide)

example : (run step zeroed [.setRates 0 1 0, .add .tx 2]).resumeDelayMs .tx 0
    = some (⟨0, 2, ⟨0, 0, 0, 0⟩, ⟨1, 1000, -1000, 0⟩⟩, 2000) := by decide

end MeteredValve

end Cloak
