import Mathlib

set_option autoImplicit false

/-! # Big-endian integers

The base-256 numerals a wire format stores its lengths and counters in, most significant byte
first. `beBytes n v` keeps the low `n` bytes of `v`, `beNat` reads a numeral back; a value that fits
in `n` bytes survives the round trip, and so does every numeral. -/

namespace Cloak.Lib

/-- The low `n` bytes of `v`, most significant first. -/
def beBytes : Nat → Nat → List UInt8
  | 0, _ => []
  | n + 1, v => beBytes n (v / 256) ++ [UInt8.ofNat v]

/-- The number a big-endian numeral stands for. -/
def beNat (bs : List UInt8) : Nat :=
  bs.foldl (fun v b => v * 256 + b.toNat) 0

@[simp] theorem length_beBytes (n v : Nat) : (beBytes n v).length = n := by
  induction n generalizing v with
  | zero => rfl
  | succ n ih => simp only [beBytes, List.length_append, ih, List.length_cons, List.length_nil]

theorem beNat_append_singleton (bs : List UInt8) (b : UInt8) :
    beNat (bs ++ [b]) = beNat bs * 256 + b.toNat := by
  simp only [beNat, List.foldl_append, List.foldl_cons, List.foldl_nil]

theorem beNat_beBytes (n v : Nat) (h : v < 256 ^ n) : beNat (beBytes n v) = v := by
  induction n generalizing v with
  | zero =>
    have hv : v = 0 := by simpa using h
    subst hv
    rfl
  | succ n ih =>
    have hdiv : v / 256 < 256 ^ n := by
      rw [Nat.div_lt_iff_lt_mul (by decide)]
      rwa [Nat.pow_succ] at h
    rw [beBytes, beNat_append_singleton, ih _ hdiv, UInt8.toNat_ofNat']
    omega

theorem beBytes_beNat (bs : List UInt8) : beBytes bs.length (beNat bs) = bs := by
  induction bs using List.reverseRecOn with
  | nil => rfl
  | append_singleton bs b ih =>
    have hb := b.toNat_lt
    have hhigh : (beNat bs * 256 + b.toNat) / 256 = beNat bs := by omega
    have hlow : UInt8.ofNat (beNat bs * 256 + b.toNat) = b := by
      apply UInt8.toNat_inj.mp
      rw [UInt8.toNat_ofNat']
      omega
    rw [List.length_append, List.length_singleton, beBytes, beNat_append_singleton, hhigh, hlow, ih]

/-- A numeral of `n` bytes is below `256 ^ n`. -/
theorem beNat_lt (bs : List UInt8) : beNat bs < 256 ^ bs.length := by
  induction bs using List.reverseRecOn with
  | nil => decide
  | append_singleton bs b ih =>
    rw [beNat_append_singleton, List.length_append, List.length_singleton, Nat.pow_succ]
    have hb := b.toNat_lt
    omega

end Cloak.Lib
