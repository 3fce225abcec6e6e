import Cloak.Lib.Binary64
import Mathlib.Data.List.TakeWhile
import Mathlib.Data.Nat.Digits.Lemmas

set_option autoImplicit false

/-! # Decimal texts

`printf` of an integer, and `strtod` as far as it reads a decimal number: a sign, digits around a point and an
exponent, each as long as it goes. The nearest double is what it returns. Of the text of an integer
it reads everything, and the double is the one the integer converts to (`strtod_intText`). -/

namespace Cloak.Lib

/-! ## Writing -/

def digitChar (d : Nat) : UInt8 := 0x30 + UInt8.ofNat d

/-- `%llu`. -/
def natText (n : Nat) : List UInt8 :=
  if n = 0 then [0x30] else ((Nat.digits 10 n).map digitChar).reverse

/-- `%lld`. -/
def intText (k : Int) : List UInt8 := if k < 0 then 0x2d :: natText k.natAbs else natText k.natAbs

/-! ## Reading -/

/-- `isdigit`. -/
def isDigit (c : UInt8) : Bool := 0x30 ≤ c && c ≤ 0x39

def decimalValue (ds : List UInt8) : Nat := ds.foldl (fun v c => v * 10 + (c.toNat - 0x30)) 0

/-- A sign, and whether it is a minus. -/
def scanSign : List UInt8 → Bool × List UInt8
  | [] => (false, [])
  | c :: s => if c = 0x2d then (true, s) else if c = 0x2b then (false, s) else (false, c :: s)

/-- The digits behind a point. -/
def scanFraction : List UInt8 → List UInt8 × List UInt8
  | [] => ([], [])
  | c :: s => if c = 0x2e then s.span isDigit else ([], c :: s)

/-- The exponent. An `e` that no digit follows is not part of the number. -/
def scanExponent : List UInt8 → Int × List UInt8
  | [] => (0, [])
  | c :: s =>
    if c = 0x65 ∨ c = 0x45 then
      let (neg, t) := scanSign s
      let (ds, rest) := t.span isDigit
      if ds = [] then (0, c :: s) else (Binary64.signed neg (decimalValue ds), rest)
    else (0, c :: s)

/-- `n * 10 ^ e` with its sign. -/
def ofDecimal (neg : Bool) (n : Nat) (e : Int) : Binary64 :=
  if 0 ≤ e then Binary64.ofRatio neg (n * 10 ^ e.toNat) 1 else Binary64.ofRatio neg n (10 ^ (-e).toNat)

/-- `strtod` on a text of digits, signs, points and `e`s: the double, and how many characters it was read
from. -/
def strtod (s : List UInt8) : Binary64 × Nat :=
  let (neg, t) := scanSign s
  let (whole, t) := t.span isDigit
  let (fraction, t) := scanFraction t
  if whole = [] ∧ fraction = [] then (Binary64.ofInt 0, 0)
  else
    let (e, rest) := scanExponent t
    (ofDecimal neg (decimalValue (whole ++ fraction)) (e - fraction.length), s.length - rest.length)

/-! ## The text of an integer -/

theorem digitChar_toNat {d : Nat} (h : d < 10) : (digitChar d).toNat = 0x30 + d := by
  rw [digitChar, UInt8.toNat_add, UInt8.toNat_ofNat']
  simp only [UInt8.reduceToNat]
  omega

theorem isDigit_digitChar {d : Nat} (h : d < 10) : isDigit (digitChar d) = true := by
  have hval := digitChar_toNat h
  simp only [isDigit, Bool.and_eq_true, decide_eq_true_eq, UInt8.le_iff_toNat_le, hval, UInt8.reduceToNat]
  omega

theorem natText_digits (n : Nat) : ∀ c ∈ natText n, isDigit c = true := by
  intro c hc
  rw [natText] at hc
  split at hc
  · rw [List.mem_singleton] at hc
    subst hc
    decide
  · rw [List.mem_reverse, List.mem_map] at hc
    obtain ⟨d, hd, rfl⟩ := hc
    exact isDigit_digitChar (Nat.digits_lt_base (by decide) hd)

theorem natText_ne_nil (n : Nat) : natText n ≠ [] := by
  rw [natText]
  split
  · exact List.cons_ne_nil _ _
  · rename_i hn
    simpa using Nat.digits_ne_nil_iff_ne_zero.mpr hn

/-- The digits of a number are read back. -/
theorem decimalValue_natText (n : Nat) : decimalValue (natText n) = n := by
  rw [natText]
  split
  · rename_i hn
    subst hn
    rfl
  · rw [decimalValue, List.foldl_reverse, List.foldr_map]
    have hdigits : ∀ d ∈ Nat.digits 10 n, d < 10 := fun d hd => Nat.digits_lt_base (by decide) hd
    conv_rhs => rw [← Nat.ofDigits_digits 10 n, Nat.ofDigits_eq_foldr]
    generalize Nat.digits 10 n = ds at hdigits
    induction ds with
    | nil => rfl
    | cons d ds ih =>
      have hd := digitChar_toNat (hdigits d List.mem_cons_self)
      rw [List.foldr_cons, List.foldr_cons, ih fun x hx => hdigits x (List.mem_cons_of_mem d hx), hd]
      simp only [Nat.cast_id]
      omega

theorem length_natText_le {n k : Nat} (hk : 0 < k) (h : n < 10 ^ k) : (natText n).length ≤ k := by
  rw [natText]
  split
  · exact hk
  · rw [List.length_reverse, List.length_map]
    exact (Nat.digits_length_le_iff (by decide) n).mpr h

theorem span_of_all {s : List UInt8} (h : ∀ c ∈ s, isDigit c = true) : s.span isDigit = (s, []) := by
  rw [List.span_eq_takeWhile_dropWhile, List.takeWhile_eq_self_iff.mpr h, List.dropWhile_eq_nil_iff.mpr h]

/-- Digits behind a sign that has been read. -/
theorem scanSign_natText (n : Nat) : scanSign (natText n) = (false, natText n) := by
  rcases hs : natText n with _ | ⟨c, s⟩
  · exact absurd hs (natText_ne_nil n)
  · have hc : isDigit c = true := natText_digits n c (hs ▸ List.mem_cons_self)
    rw [scanSign, if_neg (by rintro rfl; exact absurd hc (by decide)),
      if_neg (by rintro rfl; exact absurd hc (by decide))]

theorem ofDecimal_zero (neg : Bool) (n : Nat) : ofDecimal neg n 0 = Binary64.ofRatio neg n 1 := by
  simp [ofDecimal]

theorem strtod_intText (k : Int) : strtod (intText k) = (Binary64.ofInt k, (intText k).length) := by
  have hread : ∀ (neg : Bool) (s : List UInt8), scanSign s = (neg, natText k.natAbs) →
      strtod s = (Binary64.ofRatio neg k.natAbs 1, s.length) := by
    intro neg s hs
    simp only [strtod, hs, span_of_all (natText_digits _), scanFraction, scanExponent, natText_ne_nil,
      false_and, if_false, List.append_nil, decimalValue_natText, List.length_nil, Nat.cast_zero, sub_zero,
      Nat.sub_zero]
    rw [ofDecimal_zero]
  rw [intText, Binary64.ofInt]
  split
  · rename_i hneg
    rw [decide_eq_true hneg]
    exact hread true _ rfl
  · rename_i hneg
    rw [decide_eq_false hneg]
    exact hread false _ (scanSign_natText _)

end Cloak.Lib
