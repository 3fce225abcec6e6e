import Mathlib

set_option autoImplicit false

/-! # Numbers as bits, bits as octets

`bits w v` is the `w` low bits of `v`, most significant first, and `octets` cuts bits into bytes, leaving
out what does not fill one. Encodings that regroup the bits of their input are stated with both. -/

namespace Cloak.Lib

/-- The `w` low bits of `v`, most significant first. -/
def bits : (w v : Nat) → List Bool
  | 0, _ => []
  | w + 1, v => bits w (v / 2) ++ [decide (v % 2 = 1)]

/-- The number that bits stand for. -/
def ofBits (bs : List Bool) : Nat := bs.foldl (fun v b => 2 * v + b.toNat) 0

/-- The whole bytes at the front of the bits. -/
def octets : List Bool → List UInt8
  | b7 :: b6 :: b5 :: b4 :: b3 :: b2 :: b1 :: b0 :: rest =>
    UInt8.ofNat (ofBits [b7, b6, b5, b4, b3, b2, b1, b0]) :: octets rest
  | _ => []

@[simp] theorem length_bits (w v : Nat) : (bits w v).length = w := by
  induction w generalizing v with
  | zero => rfl
  | succ w ih => rw [bits, List.length_append, ih, List.length_singleton]

theorem bits_append (m n v : Nat) : bits (m + n) v = bits m (v / 2 ^ n) ++ bits n v := by
  induction n generalizing v with
  | zero => rw [Nat.pow_zero, Nat.div_one, bits, List.append_nil, Nat.add_zero]
  | succ n ih => rw [← Nat.add_assoc, bits, ih, bits, List.append_assoc, Nat.div_div_eq_div_mul, Nat.pow_succ']

/-- Higher bits do not matter. -/
theorem bits_mod (w v : Nat) : bits w (v % 2 ^ w) = bits w v := by
  induction w generalizing v with
  | zero => rfl
  | succ w ih =>
    have hhalf : v % 2 ^ (w + 1) / 2 = v / 2 % 2 ^ w := by
      rw [Nat.pow_succ', Nat.mod_mul_right_div_self]
    have hlow : v % 2 ^ (w + 1) % 2 = v % 2 := Nat.mod_mod_of_dvd v ⟨2 ^ w, Nat.pow_succ'⟩
    rw [bits, bits, hhalf, ih, hlow]

theorem ofBits_bits (w v : Nat) : ofBits (bits w v) = v % 2 ^ w := by
  induction w generalizing v with
  | zero => rw [Nat.pow_zero, Nat.mod_one]; rfl
  | succ w ih =>
    have ih := ih (v / 2)
    unfold ofBits at ih ⊢
    rw [bits, List.foldl_append, ih, Nat.pow_succ', Nat.mod_mul, List.foldl_cons, List.foldl_nil]
    have htwo := Nat.mod_two_eq_zero_or_one v
    rcases htwo with h0 | h1
    · simp [h0]
    · simp [h1, Nat.add_comm]

theorem octets_cons (b7 b6 b5 b4 b3 b2 b1 b0 : Bool) (rest : List Bool) :
    octets (b7 :: b6 :: b5 :: b4 :: b3 :: b2 :: b1 :: b0 :: rest) =
      UInt8.ofNat (ofBits [b7, b6, b5, b4, b3, b2, b1, b0]) :: octets rest := rfl

/-- Bits are short of a byte, or a byte and what follows it. -/
theorem short_or_byte (bs : List Bool) : bs.length < 8 ∧ octets bs = [] ∨
    ∃ b7 b6 b5 b4 b3 b2 b1 b0 rest, bs = b7 :: b6 :: b5 :: b4 :: b3 :: b2 :: b1 :: b0 :: rest := by
  obtain _ | ⟨b7, _ | ⟨b6, _ | ⟨b5, _ | ⟨b4, _ | ⟨b3, _ | ⟨b2, _ | ⟨b1, _ | ⟨b0, rest⟩⟩⟩⟩⟩⟩⟩⟩ := bs
  case cons.cons.cons.cons.cons.cons.cons.cons => exact .inr ⟨b7, b6, b5, b4, b3, b2, b1, b0, rest, rfl⟩
  all_goals exact .inl ⟨Nat.lt_of_sub_eq_succ rfl, rfl⟩

/-- What does not fill a byte is left out. -/
theorem octets_of_lt {bs : List Bool} (h : bs.length < 8) : octets bs = [] := by
  obtain ⟨-, hshort⟩ | ⟨b7, b6, b5, b4, b3, b2, b1, b0, rest, rfl⟩ := short_or_byte bs
  · exact hshort
  · simp only [List.length_cons] at h
    omega

@[simp] theorem octets_bits (v : Nat) (rest : List Bool) :
    octets (bits 8 v ++ rest) = UInt8.ofNat v :: octets rest := by
  have hval := ofBits_bits 8 v
  have hlen := length_bits 8 v
  have hbyte : UInt8.ofNat (v % 2 ^ 8) = UInt8.ofNat v := by
    rw [← UInt8.toNat_inj, UInt8.toNat_ofNat', UInt8.toNat_ofNat', Nat.mod_mod]
  obtain ⟨hlt, -⟩ | ⟨b7, b6, b5, b4, b3, b2, b1, b0, more, hbits⟩ := short_or_byte (bits 8 v)
  · omega
  · obtain rfl : more = [] := by
      rw [hbits] at hlen
      exact List.length_eq_zero_iff.mp (by simpa using hlen)
    rw [hbits] at hval
    rw [hbits, ← hbyte, ← hval]
    exact octets_cons b7 b6 b5 b4 b3 b2 b1 b0 rest

theorem octets_append {bs : List Bool} (h : bs.length % 8 = 0) (more : List Bool) :
    octets (bs ++ more) = octets bs ++ octets more := by
  induction hn : bs.length using Nat.strong_induction_on generalizing bs with
  | _ n ih =>
    obtain ⟨hlt, hshort⟩ | ⟨b7, b6, b5, b4, b3, b2, b1, b0, rest, rfl⟩ := short_or_byte bs
    · obtain rfl : bs = [] := List.length_eq_zero_iff.mp (by omega)
      rfl
    · simp only [List.length_cons] at h hn
      have hrest : octets (rest ++ more) = octets rest ++ octets more :=
        ih rest.length (by omega) (by omega) rfl
      simp only [List.cons_append, octets_cons, hrest]

/-! ## Six bits regrouped to eight -/

theorem bits_congr {w v v' : Nat} (h : v % 2 ^ w = v' % 2 ^ w) : bits w v = bits w v' := by
  rw [← bits_mod w v, h, bits_mod]

/-- Four sextets are three bytes. -/
theorem octets_four_sextets (v : Nat) (rest : List Bool) :
    octets (bits 6 (v / 2 ^ 18) ++ (bits 6 (v / 2 ^ 12) ++ (bits 6 (v / 2 ^ 6) ++ (bits 6 v ++ rest))))
      = UInt8.ofNat (v / 2 ^ 16) :: UInt8.ofNat (v / 2 ^ 8) :: UInt8.ofNat v :: octets rest := by
  have hsix : bits 24 v = bits 6 (v / 2 ^ 18) ++ (bits 6 (v / 2 ^ 12) ++ (bits 6 (v / 2 ^ 6) ++ bits 6 v)) := by
    rw [bits_append 6 18 v, bits_append 6 12 v, bits_append 6 6 v]
  have height : bits 24 v = bits 8 (v / 2 ^ 16) ++ (bits 8 (v / 2 ^ 8) ++ bits 8 v) := by
    rw [bits_append 8 16 v, bits_append 8 8 v]
  have hgroup := congrArg (· ++ rest) (hsix.symm.trans height)
  simp only [List.append_assoc] at hgroup
  rw [hgroup, octets_bits, octets_bits, octets_bits]

/-- Three sextets are two bytes, and two bits over. -/
theorem octets_three_sextets (v : Nat) :
    octets (bits 6 (v / 2 ^ 12) ++ (bits 6 (v / 2 ^ 6) ++ bits 6 v))
      = [UInt8.ofNat (v / 2 ^ 10), UInt8.ofNat (v / 2 ^ 2)] := by
  have hsix : bits 18 v = bits 6 (v / 2 ^ 12) ++ (bits 6 (v / 2 ^ 6) ++ bits 6 v) := by
    rw [bits_append 6 12 v, bits_append 6 6 v]
  have height : bits 18 v = bits 8 (v / 2 ^ 10) ++ (bits 8 (v / 2 ^ 2) ++ bits 2 v) := by
    rw [bits_append 8 10 v, bits_append 8 2 v]
  rw [← hsix, height, octets_bits, octets_bits, octets_of_lt (by rw [length_bits]; decide)]

/-- Two sextets are one byte, and four bits over. -/
theorem octets_two_sextets (v : Nat) :
    octets (bits 6 (v / 2 ^ 6) ++ bits 6 v) = [UInt8.ofNat (v / 2 ^ 4)] := by
  have hsplit : bits 6 (v / 2 ^ 6) ++ bits 6 v = bits 8 (v / 2 ^ 4) ++ bits 4 v := by
    rw [← bits_append 6 6 v, ← bits_append 8 4 v]
  rw [hsplit, octets_bits, octets_of_lt (by rw [length_bits]; decide)]

end Cloak.Lib
