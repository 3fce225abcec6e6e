import Mathlib.Data.Set.Card
import Mathlib.Data.Finset.Image
import Mathlib.Data.UInt

set_option autoImplicit false

/-! # Rejection sampling

A sampler takes draws until one is accepted. `drawUntil` is that loop over a given sequence of draws with
a bound on its turns: it ends at the first accepted draw, and only runs out when none of the draws within
the bound is accepted.

Words below the largest multiple of `n` leave every remainder equally often (`ncard_mod_eq`), which is why
a sampler that rejects the others and reduces is uniform. -/

namespace Cloak.Lib

universe u

variable {α : Type u}

/-- The first accepted draw from draw `i` on, and the number of the draw behind it. -/
def drawUntil (accept : α → Bool) (draw : Nat → α) : (fuel i : Nat) → Option (α × Nat)
  | 0, _ => none
  | fuel + 1, i => if accept (draw i) then some (draw i, i + 1) else drawUntil accept draw fuel (i + 1)

theorem drawUntil_eq_none_iff (accept : α → Bool) (draw : Nat → α) (fuel i : Nat) :
    drawUntil accept draw fuel i = none ↔ ∀ j < fuel, accept (draw (i + j)) = false := by
  induction fuel generalizing i with
  | zero => simp [drawUntil]
  | succ fuel ih =>
    unfold drawUntil
    cases hacc : accept (draw i) with
    | true =>
      rw [if_pos rfl]
      constructor
      · intro hnone
        cases hnone
      · intro hall
        have hfirst := hall 0 (Nat.succ_pos fuel)
        rw [Nat.add_zero, hacc] at hfirst
        cases hfirst
    | false =>
      rw [if_neg Bool.false_ne_true, ih]
      constructor
      · intro hall j hj
        cases j with
        | zero => exact hacc
        | succ j =>
          have hnext := hall j (by omega)
          rwa [Nat.add_right_comm, Nat.add_assoc] at hnext
      · intro hall j hj
        have hnext := hall (j + 1) (by omega)
        rwa [← Nat.add_assoc, Nat.add_right_comm] at hnext

/-! ## Remainders of words -/

/-- The words below a bound. -/
theorem ncard_lt (m : Nat) (hm : m ≤ 2 ^ 32) : {v : UInt32 | v.toNat < m}.ncard = m := by
  have hset : {v : UInt32 | v.toNat < m} = ↑((Finset.range m).image UInt32.ofNat) := by
    ext v
    simp only [Set.mem_ofPred_eq, Finset.coe_image, Set.mem_image, Finset.mem_coe, Finset.mem_range]
    constructor
    · intro hv
      exact ⟨v.toNat, hv, UInt32.ofNat_toNat⟩
    · rintro ⟨x, hx, rfl⟩
      rw [UInt32.toNat_ofNat', Nat.mod_eq_of_lt (by omega)]
      exact hx
  rw [hset, Set.ncard_coe_finset, Finset.card_image_of_injOn, Finset.card_range]
  intro x hx y hy hxy
  rw [Finset.mem_coe, Finset.mem_range] at hx hy
  have heq := congrArg UInt32.toNat hxy
  rwa [UInt32.toNat_ofNat', UInt32.toNat_ofNat', Nat.mod_eq_of_lt (by omega),
    Nat.mod_eq_of_lt (by omega)] at heq

/-- The words below `n * q` leave each remainder by `n` exactly `q` times. -/
theorem ncard_mod_eq {n q k : Nat} (hk : k < n) (hq : n * q ≤ 2 ^ 32) :
    {v : UInt32 | v.toNat < n * q ∧ v.toNat % n = k}.ncard = q := by
  have hlt : ∀ i < q, n * i + k < n * q := by
    intro i hi
    have hmul : n * (i + 1) ≤ n * q := Nat.mul_le_mul_left n hi
    rw [Nat.mul_add] at hmul
    omega
  have hset : {v : UInt32 | v.toNat < n * q ∧ v.toNat % n = k}
      = ↑((Finset.range q).image fun i => UInt32.ofNat (n * i + k)) := by
    ext v
    simp only [Set.mem_ofPred_eq, Finset.coe_image, Set.mem_image, Finset.mem_coe, Finset.mem_range]
    constructor
    · rintro ⟨hv, hmod⟩
      refine ⟨v.toNat / n, Nat.div_lt_of_lt_mul hv, ?_⟩
      rw [← hmod, Nat.div_add_mod, UInt32.ofNat_toNat]
    · rintro ⟨i, hi, rfl⟩
      have hi := hlt i hi
      rw [UInt32.toNat_ofNat', Nat.mod_eq_of_lt (by omega)]
      exact ⟨hi, by rw [Nat.mul_add_mod, Nat.mod_eq_of_lt hk]⟩
  rw [hset, Set.ncard_coe_finset, Finset.card_image_of_injOn, Finset.card_range]
  intro x hx y hy hxy
  rw [Finset.mem_coe, Finset.mem_range] at hx hy
  have hx := hlt x hx
  have hy := hlt y hy
  have heq := congrArg UInt32.toNat hxy
  dsimp only at heq
  rw [UInt32.toNat_ofNat', UInt32.toNat_ofNat', Nat.mod_eq_of_lt (by omega),
    Nat.mod_eq_of_lt (by omega)] at heq
  exact Nat.eq_of_mul_eq_mul_left (Nat.zero_lt_of_lt hk) (Nat.add_right_cancel heq)

end Cloak.Lib
