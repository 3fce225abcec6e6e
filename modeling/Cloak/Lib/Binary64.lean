import Mathlib.Data.Nat.Log
import Mathlib.Tactic.Linarith
import Mathlib.Tactic.Ring

set_option autoImplicit false

/-! # Doubles

A finite double is an integer multiple of `2 ^ -1074`, and it is that integer here. A ratio is rounded to the
nearest double, to the even one of two that are as near. The integers below `2 ^ 53` are doubles
(`ofInt_eq`), and every other integer is at least `2 ^ 53` as a double too (`le_ofInt`). The two zeros, which
no comparison and no conversion to an integer tells apart, are one. -/

namespace Cloak.Lib

/-- The least positive double is `2 ^ -lowBits`. -/
@[irreducible] def lowBits : Nat := 1074

/-- The integer is a finite double times `2 ^ lowBits`. -/
def IsScaled (x : Int) : Prop :=
  x.natAbs < 2 ^ (1024 + lowBits) ∧ ∃ m e, m < 2 ^ 53 ∧ x.natAbs = m * 2 ^ e

inductive Binary64 where
  | finite (scaled : { x : Int // IsScaled x })
  | inf (neg : Bool)
  | nan

/-- `n / d` rounded to the nearest integer, to the even one from the middle. -/
def roundHalfEven (n d : Nat) : Nat :=
  let m := n / d
  let r := n % d
  if 2 * r < d then m else if d < 2 * r then m + 1 else m + m % 2

theorem le_roundHalfEven (n d : Nat) : n / d ≤ roundHalfEven n d := by
  simp only [roundHalfEven]
  split
  · exact Nat.le_refl _
  · split
    · exact Nat.le_succ _
    · exact Nat.le_add_right _ _

theorem roundHalfEven_le (n d : Nat) : roundHalfEven n d ≤ n / d + 1 := by
  have hmod : n / d % 2 < 2 := Nat.mod_lt _ (by decide)
  simp only [roundHalfEven]
  split
  · exact Nat.le_succ _
  · split
    · exact Nat.le_refl _
    · omega

/-- A whole ratio is not rounded. -/
theorem roundHalfEven_of_eq_mul {n m d : Nat} (hd : 0 < d) (h : n = m * d) : roundHalfEven n d = m := by
  simp [roundHalfEven, h, Nat.mul_div_cancel m hd, hd]

/-- The exponent of the unit in the last place of a double of integer part `t`, all times `2 ^ lowBits`. -/
def ulpExponent (t : Nat) : Nat := Nat.log2 t - 52

/-- `p / q` as a double times `2 ^ lowBits`, before it is compared with the greatest one. -/
def roundRatio (p q : Nat) : Nat :=
  let n := p * 2 ^ lowBits
  let u := ulpExponent (n / q)
  roundHalfEven n (q * 2 ^ u) * 2 ^ u

/-- The significand has at most 53 bits before it is rounded. -/
theorem significand_lt (p q : Nat) :
    p * 2 ^ lowBits / (q * 2 ^ ulpExponent (p * 2 ^ lowBits / q)) < 2 ^ 53 := by
  rw [← Nat.div_div_eq_div_mul, Nat.div_lt_iff_lt_mul (Nat.two_pow_pos _), ← Nat.pow_add]
  refine Nat.lt_of_lt_of_le Nat.lt_log2_self (Nat.pow_le_pow_right (by decide) ?_)
  rw [ulpExponent]
  omega

theorem isScaled_roundRatio {x : Int} {p q : Nat} (hx : x.natAbs = roundRatio p q)
    (h : roundRatio p q < 2 ^ (1024 + lowBits)) : IsScaled x := by
  refine ⟨hx ▸ h, ?_⟩
  have hlt := significand_lt p q
  have hle := roundHalfEven_le (p * 2 ^ lowBits) (q * 2 ^ ulpExponent (p * 2 ^ lowBits / q))
  rw [hx, roundRatio]
  by_cases htop : roundHalfEven (p * 2 ^ lowBits) (q * 2 ^ ulpExponent (p * 2 ^ lowBits / q)) < 2 ^ 53
  · exact ⟨_, _, htop, rfl⟩
  · -- rounded up to the next power of two, whose significand is the least one of 53 bits
    have heq : roundHalfEven (p * 2 ^ lowBits) (q * 2 ^ ulpExponent (p * 2 ^ lowBits / q)) = 2 ^ 52 * 2 := by
      omega
    refine ⟨2 ^ 52, ulpExponent (p * 2 ^ lowBits / q) + 1, by decide, ?_⟩
    rw [heq, Nat.mul_assoc, ← Nat.pow_succ']

/-- Rounding does not go below a power of two. -/
theorem two_pow_le_roundRatio {p q j : Nat} (hq : 0 < q) (hj : 52 ≤ j) (h : 2 ^ j * q ≤ p * 2 ^ lowBits) :
    2 ^ j ≤ roundRatio p q := by
  have hint : 2 ^ j ≤ p * 2 ^ lowBits / q := (Nat.le_div_iff_mul_le hq).mpr h
  have hne : p * 2 ^ lowBits / q ≠ 0 := fun hzero =>
    absurd (hzero ▸ hint) (Nat.not_le.mpr (Nat.two_pow_pos j))
  have hlog : j ≤ Nat.log2 (p * 2 ^ lowBits / q) := (Nat.le_log2 hne).mpr hint
  have hexp : 52 + ulpExponent (p * 2 ^ lowBits / q) = Nat.log2 (p * 2 ^ lowBits / q) := by
    rw [ulpExponent]
    omega
  have hsig : 2 ^ 52 ≤ p * 2 ^ lowBits / (q * 2 ^ ulpExponent (p * 2 ^ lowBits / q)) := by
    rw [← Nat.div_div_eq_div_mul, Nat.le_div_iff_mul_le (Nat.two_pow_pos _), ← Nat.pow_add, hexp]
    exact Nat.log2_self_le hne
  calc 2 ^ j ≤ 2 ^ (52 + ulpExponent (p * 2 ^ lowBits / q)) :=
        Nat.pow_le_pow_right (by decide) (hexp ▸ hlog)
    _ = 2 ^ 52 * 2 ^ ulpExponent (p * 2 ^ lowBits / q) := Nat.pow_add _ _ _
    _ ≤ roundRatio p q := Nat.mul_le_mul_right _ (Nat.le_trans hsig (le_roundHalfEven _ _))

/-- An integer of 53 bits is not rounded. -/
theorem roundRatio_of_lt {k : Nat} (h : k < 2 ^ 53) : roundRatio k 1 = k * 2 ^ lowBits := by
  have hexp : ulpExponent (k * 2 ^ lowBits) ≤ lowBits := by
    by_cases hzero : k * 2 ^ lowBits = 0
    · rw [hzero]
      exact Nat.zero_le _
    · have hlt : k * 2 ^ lowBits < 2 ^ (53 + lowBits) := by
        rw [Nat.pow_add]
        exact Nat.mul_lt_mul_of_pos_right h (Nat.two_pow_pos _)
      have hlog := (Nat.log2_lt hzero).mpr hlt
      rw [ulpExponent]
      omega
  have hsplit : k * 2 ^ lowBits
      = k * 2 ^ (lowBits - ulpExponent (k * 2 ^ lowBits)) * 2 ^ ulpExponent (k * 2 ^ lowBits) := by
    rw [Nat.mul_assoc, ← Nat.pow_add, Nat.sub_add_cancel hexp]
  simp only [roundRatio, Nat.div_one, Nat.one_mul]
  rw [roundHalfEven_of_eq_mul (Nat.two_pow_pos _) hsplit, ← hsplit]

namespace Binary64

/-- The magnitude with its sign. -/
def signed (neg : Bool) (mag : Nat) : Int := if neg then -(mag : Int) else mag

theorem natAbs_signed (neg : Bool) (mag : Nat) : (signed neg mag).natAbs = mag := by
  cases neg
  · rfl
  · exact Int.natAbs_neg _

/-- The double nearest to `p / q`, or to `-(p / q)`. -/
def ofRatio (neg : Bool) (p q : Nat) : Binary64 :=
  if h : roundRatio p q < 2 ^ (1024 + lowBits) then
    finite ⟨signed neg (roundRatio p q), isScaled_roundRatio (natAbs_signed neg _) h⟩
  else inf neg

/-- The conversion of an integer to `double`. -/
def ofInt (k : Int) : Binary64 := ofRatio (k < 0) k.natAbs 1

/-- `<=`, which is false of a NaN. -/
def le : Binary64 → Binary64 → Bool
  | nan, _ => false
  | _, nan => false
  | inf true, _ => true
  | _, inf false => true
  | inf false, _ => false
  | _, inf true => false
  | finite x, finite y => decide (x.val ≤ y.val)

/-- The sign turned round. -/
def neg : Binary64 → Binary64
  | finite x => finite ⟨-x.val, by simpa only [IsScaled, Int.natAbs_neg] using x.property⟩
  | inf s => inf !s
  | nan => nan

/-- `==`, which is false of a NaN. -/
def eq (x y : Binary64) : Bool := x.le y && y.le x

/-- The double is no further from zero than the integer. -/
def within (d : Binary64) (m : Int) : Bool := (ofInt m).neg.le d && d.le (ofInt m)

/-- The integer the conversion to an integer type truncates to. There is none behind an infinity or a NaN. -/
def trunc : Binary64 → Option Int
  | finite x => some (x.val.tdiv (2 ^ lowBits))
  | _ => none

theorem natAbs_mul_unit (k : Int) : (k * 2 ^ lowBits).natAbs = k.natAbs * 2 ^ lowBits := by
  rw [Int.natAbs_mul, Int.natAbs_pow]
  rfl

theorem isScaled_of_lt {k : Int} (h : k.natAbs < 2 ^ 53) : IsScaled (k * 2 ^ lowBits) := by
  refine ⟨?_, k.natAbs, lowBits, h, natAbs_mul_unit k⟩
  rw [natAbs_mul_unit]
  calc k.natAbs * 2 ^ lowBits < 2 ^ 53 * 2 ^ lowBits := Nat.mul_lt_mul_of_pos_right h (Nat.two_pow_pos _)
    _ = 2 ^ (53 + lowBits) := (Nat.pow_add 2 53 lowBits).symm
    _ ≤ 2 ^ (1024 + lowBits) := Nat.pow_le_pow_right (by decide) (by omega)

theorem signed_natAbs (k : Int) (c : Nat) : signed (k < 0) (k.natAbs * c) = k * c := by
  rw [signed]
  by_cases hneg : k < 0
  · rw [if_pos (decide_eq_true hneg), Nat.cast_mul, Int.ofNat_natAbs_of_nonpos hneg.le]
    ring
  · rw [if_neg (by simpa using hneg), Nat.cast_mul, Int.natAbs_of_nonneg (Int.not_lt.mp hneg)]

/-- An integer below `2 ^ 53` is a double. -/
theorem ofInt_eq {k : Int} (h : k.natAbs < 2 ^ 53) :
    ofInt k = finite ⟨k * 2 ^ lowBits, isScaled_of_lt h⟩ := by
  have hround := roundRatio_of_lt h
  have hlt : roundRatio k.natAbs 1 < 2 ^ (1024 + lowBits) := by
    have hscaled := (isScaled_of_lt h).1
    rwa [natAbs_mul_unit, ← hround] at hscaled
  rw [ofInt, ofRatio, dif_pos hlt]
  congr 2
  rw [hround, signed_natAbs]
  norm_cast

/-- Another integer is not below `2 ^ 53` as a double. -/
theorem le_ofInt {k : Int} (h : 2 ^ 53 ≤ k.natAbs) :
    (∃ neg, ofInt k = inf neg) ∨ ∃ x, ofInt k = finite x ∧ 2 ^ 53 * 2 ^ lowBits ≤ x.val.natAbs := by
  have hround : 2 ^ (53 + lowBits) ≤ roundRatio k.natAbs 1 := by
    refine two_pow_le_roundRatio (by decide) (by omega) ?_
    rw [Nat.mul_one, Nat.pow_add]
    exact Nat.mul_le_mul_right _ h
  rw [ofInt, ofRatio]
  split
  · refine .inr ⟨_, rfl, ?_⟩
    rw [natAbs_signed, ← Nat.pow_add]
    exact hround
  · exact .inl ⟨_, rfl⟩

/-! ## Doubles below `2 ^ 53` -/

theorem unit_pos : (0 : Int) < 2 ^ lowBits := Int.pow_pos (by decide)

theorem neg_ofInt {k : Int} (h : k.natAbs < 2 ^ 53) : (ofInt k).neg = ofInt (-k) := by
  have hneg : (-k).natAbs < 2 ^ 53 := by rwa [Int.natAbs_neg]
  rw [ofInt_eq h, ofInt_eq hneg]
  simp [neg]

/-- Below the bound `within` is a comparison of integers. -/
theorem within_ofInt {k m : Int} (hm : m.natAbs < 2 ^ 53) :
    (ofInt k).within m = decide (-m ≤ k ∧ k ≤ m) := by
  rw [within, neg_ofInt hm]
  have hneg : (-m).natAbs < 2 ^ 53 := by rwa [Int.natAbs_neg]
  rw [ofInt_eq hm, ofInt_eq hneg]
  by_cases hk : k.natAbs < 2 ^ 53
  · rw [ofInt_eq hk]
    simp only [le, Int.mul_le_mul_right unit_pos, Bool.decide_and]
  · have hout : ¬ (-m ≤ k ∧ k ≤ m) := by omega
    rw [decide_eq_false hout]
    rcases le_ofInt (Nat.not_lt.mp hk) with ⟨neg, hinf⟩ | ⟨x, hfin, hx⟩
    · rw [hinf]
      cases neg
      · exact Bool.and_false _
      · exact Bool.false_and _
    · rw [hfin]
      simp only [le]
      rw [← Bool.decide_and, decide_eq_false_iff_not]
      rintro ⟨hlow, hhigh⟩
      rw [Int.neg_mul] at hlow
      have hle : x.val.natAbs ≤ (m * 2 ^ lowBits).natAbs := by omega
      rw [natAbs_mul_unit] at hle
      have hlt : m.natAbs * 2 ^ lowBits < 2 ^ 53 * 2 ^ lowBits :=
        Nat.mul_lt_mul_of_pos_right hm (Nat.two_pow_pos _)
      omega

/-- A double between two integers below the bound can be converted. -/
theorem trunc_of_within {d : Binary64} {m : Int} (hm : m.natAbs < 2 ^ 53) (h : d.within m = true) :
    ∃ v, d.trunc = some v ∧ -m ≤ v ∧ v ≤ m := by
  rw [within, neg_ofInt hm] at h
  have hneg : (-m).natAbs < 2 ^ 53 := by rwa [Int.natAbs_neg]
  rw [ofInt_eq hm, ofInt_eq hneg, Bool.and_eq_true] at h
  cases d with
  | nan => exact absurd h.2 (by simp [le])
  | inf neg =>
    cases neg
    · exact absurd h.2 (by simp [le])
    · exact absurd h.1 (by simp [le])
  | finite x =>
    simp only [le, decide_eq_true_eq] at h
    have hlow := Int.tdiv_le_tdiv unit_pos h.1
    have hhigh := Int.tdiv_le_tdiv unit_pos h.2
    rw [Int.mul_tdiv_cancel _ unit_pos.ne'] at hlow hhigh
    exact ⟨_, rfl, hlow, hhigh⟩

theorem trunc_ofInt {k : Int} (h : k.natAbs < 2 ^ 53) : (ofInt k).trunc = some k := by
  rw [ofInt_eq h]
  simp only [trunc, Int.mul_tdiv_cancel k unit_pos.ne']

theorem eq_ofInt {k : Int} (h : k.natAbs < 2 ^ 53) : (ofInt k).eq (ofInt k) = true := by
  rw [ofInt_eq h]
  simp [eq, le]

end Binary64

end Cloak.Lib
