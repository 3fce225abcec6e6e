import Mathlib.Data.List.Basic

set_option autoImplicit false

/-! # Cutting a stream into pieces

A receiver that keeps the items it cannot use yet: at each turn it looks at what it holds and waits
for more, stops for good, or takes a piece off the front, moves to a new state and gives something
out. What makes its answer independent of how the stream arrives is that a decision stays the same
when more items follow (`Cutter.stable`).

`Cutter.run` turns the receiver over a list until it waits or stops. One turn of a run is
`run_wait`, `run_stop` or `run_take`, and `run_cases` is the induction along the turns. -/

namespace Cloak.Lib

universe u v w

variable {α : Type u} {σ : Type v} {ο : Type w}

/-- What a turn decides: wait, stop with a last output, or take the first `n` items. -/
inductive Cut (σ : Type v) (ο : Type w) where
  | wait
  | stop (out : List ο)
  | take (n : Nat) (st : σ) (out : List ο)

/-- A receiver. A piece is never empty and is there when it is taken. -/
structure Cutter (α : Type u) (σ : Type v) (ο : Type w) where
  cut : σ → List α → Cut σ ο
  take_le : ∀ {s xs n s' out}, cut s xs = .take n s' out → 0 < n ∧ n ≤ xs.length
  stable : ∀ {s xs} ys, cut s xs ≠ .wait → cut s (xs ++ ys) = cut s xs

/-- Where a run comes to: its state, the items it holds, what it gave out, whether it stopped. -/
structure CutRun (α : Type u) (σ : Type v) (ο : Type w) where
  st : σ
  rest : List α
  out : List ο
  stopped : Bool

/-- A run with an output in front. -/
def CutRun.after (r : CutRun α σ ο) (out : List ο) : CutRun α σ ο := { r with out := out ++ r.out }

@[simp] theorem CutRun.out_after (r : CutRun α σ ο) (out : List ο) : (r.after out).out = out ++ r.out :=
  rfl

@[simp] theorem CutRun.after_after (r : CutRun α σ ο) (out out' : List ο) :
    (r.after out).after out' = r.after (out' ++ out) := by
  simp [CutRun.after]

namespace Cutter

variable (c : Cutter α σ ο)

def turns : (fuel : Nat) → σ → List α → CutRun α σ ο
  | 0, s, xs => ⟨s, xs, [], false⟩
  | fuel + 1, s, xs =>
    match c.cut s xs with
    | .wait => ⟨s, xs, [], false⟩
    | .stop out => ⟨s, xs, out, true⟩
    | .take n s' out => (turns fuel s' (xs.drop n)).after out

/-- Turn until waiting or stopped. Every piece shortens the list, so its length is fuel enough. -/
def run (s : σ) (xs : List α) : CutRun α σ ο := c.turns (xs.length + 1) s xs

/-- More fuel than items changes nothing. -/
theorem turns_eq_run (fuel : Nat) (s : σ) (xs : List α) (h : xs.length < fuel) :
    c.turns fuel s xs = c.run s xs := by
  -- both sides make the same turn; behind a piece the fuel left is still above the length
  induction fuel using Nat.strongRecOn generalizing s xs with
  | _ fuel ih =>
    cases fuel with
    | zero => omega
    | succ fuel =>
      rw [run, turns, turns]
      split
      · rfl
      · rfl
      · next n s' out heq =>
        obtain ⟨hpos, hle⟩ := c.take_le heq
        have hshort : (xs.drop n).length < fuel := by
          rw [List.length_drop]
          omega
        rw [ih fuel (by omega) s' (xs.drop n) hshort]
        by_cases hfuel : xs.length = fuel
        · rw [hfuel, ih fuel (by omega) s' (xs.drop n) hshort]
        · rw [ih xs.length (by omega) s' (xs.drop n) (by rw [List.length_drop]; omega)]

variable {c} {s s' : σ} {xs : List α} {out : List ο} {n : Nat}

theorem run_wait (h : c.cut s xs = .wait) : c.run s xs = ⟨s, xs, [], false⟩ := by
  rw [run, turns, h]

theorem run_stop (h : c.cut s xs = .stop out) : c.run s xs = ⟨s, xs, out, true⟩ := by
  rw [run, turns, h]

theorem run_take (h : c.cut s xs = .take n s' out) :
    c.run s xs = (c.run s' (xs.drop n)).after out := by
  obtain ⟨hpos, hle⟩ := c.take_le h
  rw [run, turns, h]
  dsimp only
  rw [turns_eq_run c _ _ _ (by rw [List.length_drop]; omega)]

/-- Induction along the turns of a run. -/
theorem run_cases {P : σ → List α → Prop} (hwait : ∀ s xs, c.cut s xs = .wait → P s xs)
    (hstop : ∀ s xs out, c.cut s xs = .stop out → P s xs)
    (htake : ∀ s xs n s' out, c.cut s xs = .take n s' out → P s' (xs.drop n) → P s xs)
    (s : σ) (xs : List α) : P s xs := by
  induction hlen : xs.length using Nat.strongRecOn generalizing s xs with
  | _ k ih =>
    cases hcut : c.cut s xs with
    | wait => exact hwait s xs hcut
    | stop out => exact hstop s xs out hcut
    | take n s' out =>
      obtain ⟨hpos, hle⟩ := c.take_le hcut
      refine htake s xs n s' out hcut (ih _ ?_ s' (xs.drop n) rfl)
      rw [List.length_drop]
      omega

end Cutter

end Cloak.Lib
