import Mathlib

set_option autoImplicit false

/-! # Checked 64-bit arithmetic

C's `int64_t` operations on exact integers. An operation whose exact result leaves the range is
undefined there and `none` here, so a computation that returns something has not overflowed, and what it
returns is exact. Division truncates towards zero. -/

namespace Cloak.Lib

/-- `INT64_MIN`. -/
def i64Min : Int := -2 ^ 63

/-- `INT64_MAX`. -/
def i64Max : Int := 2 ^ 63 - 1

/-- The value is one of `int64_t`. -/
def Fits64 (x : Int) : Prop := i64Min ≤ x ∧ x ≤ i64Max

instance (x : Int) : Decidable (Fits64 x) := inferInstanceAs (Decidable (_ ∧ _))

def checked64 (x : Int) : Option Int := if Fits64 x then some x else none

def i64Add (a b : Int) : Option Int := checked64 (a + b)

def i64Sub (a b : Int) : Option Int := checked64 (a - b)

def i64Mul (a b : Int) : Option Int := checked64 (a * b)

def i64Neg (a : Int) : Option Int := checked64 (-a)

/-- Division by zero is undefined as well. -/
def i64Div (a b : Int) : Option Int := if b = 0 then none else checked64 (a.tdiv b)

theorem fits64_iff {x : Int} : Fits64 x ↔ -9223372036854775808 ≤ x ∧ x ≤ 9223372036854775807 :=
  Iff.rfl

theorem checked64_eq {x : Int} (h : Fits64 x) : checked64 x = some x := if_pos h

theorem i64Add_eq {a b : Int} (h : Fits64 (a + b)) : i64Add a b = some (a + b) := checked64_eq h

theorem i64Sub_eq {a b : Int} (h : Fits64 (a - b)) : i64Sub a b = some (a - b) := checked64_eq h

theorem i64Mul_eq {a b : Int} (h : Fits64 (a * b)) : i64Mul a b = some (a * b) := checked64_eq h

theorem i64Neg_eq {a : Int} (h : Fits64 (-a)) : i64Neg a = some (-a) := checked64_eq h

/-- An `int64_t`. -/
abbrev I64 := { x : Int // Fits64 x }

theorem fits64_zero : Fits64 0 := by decide

/-- `INT64_MIN` as an `int64_t`. -/
def I64.min : I64 := ⟨i64Min, by decide⟩

def I64.add (a b : I64) : Option I64 :=
  if h : Fits64 (a.val + b.val) then some ⟨a.val + b.val, h⟩ else none

def I64.sub (a b : I64) : Option I64 :=
  if h : Fits64 (a.val - b.val) then some ⟨a.val - b.val, h⟩ else none

theorem I64.add_eq {a b : I64} (h : Fits64 (a.val + b.val)) : I64.add a b = some ⟨a.val + b.val, h⟩ :=
  dif_pos h

theorem I64.sub_eq {a b : I64} (h : Fits64 (a.val - b.val)) : I64.sub a b = some ⟨a.val - b.val, h⟩ :=
  dif_pos h

/-- Only `INT64_MIN / -1` leaves the range. -/
theorem i64Div_eq {a b : Int} (ha : Fits64 a) (hb : 0 < b) : i64Div a b = some (a.tdiv b) := by
  rw [i64Div, if_neg (Int.ne_of_gt hb)]
  refine checked64_eq ?_
  rw [fits64_iff] at ha ⊢
  rcases Int.le_total 0 a with h | h
  · have hle := Int.tdiv_le_self b h
    have hnonneg := Int.tdiv_nonneg h (Int.le_of_lt hb)
    omega
  · have hle := Int.tdiv_le_self b (Int.neg_nonneg.mpr h)
    have hnonneg := Int.tdiv_nonneg (Int.neg_nonneg.mpr h) (Int.le_of_lt hb)
    rw [Int.neg_tdiv] at hle hnonneg
    omega

end Cloak.Lib
