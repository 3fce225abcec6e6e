import Mathlib.Tactic.Ring

set_option autoImplicit false

/-! # SipHash-`c`-`d`

The keyed hash as its definition has it. The message is padded with zeros to one byte short of a multiple
of eight, and that byte is its length modulo 256; the padded message is read as little-endian words. Each
word goes through `c` rounds, and `d` rounds come last. -/

namespace Cloak.Lib

/-- The number a little-endian numeral stands for. -/
def leNat : List UInt8 → Nat
  | [] => 0
  | b :: bs => b.toNat + 256 * leNat bs

/-- A numeral of `n` bytes is below `256 ^ n`. -/
theorem leNat_lt (bs : List UInt8) : leNat bs < 256 ^ bs.length := by
  induction bs with
  | nil => decide
  | cons b bs ih =>
    have hb := b.toNat_lt
    rw [leNat, List.length_cons, Nat.pow_succ]
    omega

theorem leNat_append (as bs : List UInt8) :
    leNat (as ++ bs) = leNat as + 256 ^ as.length * leNat bs := by
  induction as with
  | nil => simp [leNat]
  | cons a as ih =>
    rw [List.cons_append, leNat, leNat, ih, List.length_cons, Nat.pow_succ]
    ring

@[simp] theorem leNat_replicate_zero (n : Nat) : leNat (List.replicate n 0) = 0 := by
  induction n with
  | zero => rfl
  | succ n ih => simp [List.replicate_succ, leNat, ih]

/-- A little-endian word. -/
def leWord (bs : List UInt8) : UInt64 := UInt64.ofNat (leNat bs)

theorem toNat_leWord {bs : List UInt8} (h : bs.length ≤ 8) : (leWord bs).toNat = leNat bs := by
  have hlt := leNat_lt bs
  have hpow : 256 ^ bs.length ≤ 256 ^ 8 := Nat.pow_le_pow_right (by decide) h
  rw [leWord, UInt64.toNat_ofNat', Nat.mod_eq_of_lt (by omega)]

namespace SipHash

/-- Rotation to the left by `n` bits. -/
def rotl (x : UInt64) (n : Nat) : UInt64 := ⟨x.toBitVec.rotateLeft n⟩

/-- The internal state. -/
@[ext] structure State where
  v0 : UInt64
  v1 : UInt64
  v2 : UInt64
  v3 : UInt64
deriving DecidableEq, Repr

/-- One addition, rotation and exclusive or on two words. -/
def arx (x y : UInt64) (n : Nat) : UInt64 × UInt64 := (x + y, rotl y n ^^^ (x + y))

/-- The SipRound: two layers of two `arx` each, and the rotations by half a word between and behind
them. -/
def State.round (s : State) : State :=
  let (v0, v1) := arx s.v0 s.v1 13
  let (v2, v3) := arx s.v2 s.v3 16
  let v0 := rotl v0 32
  let (v2, v1) := arx v2 v1 17
  let (v0, v3) := arx v0 v3 21
  ⟨v0, v1, rotl v2 32, v3⟩

/-- The `c` rounds of one message word. -/
def State.compress (c : Nat) (s : State) (m : UInt64) : State :=
  let s := Nat.repeat State.round c { s with v3 := s.v3 ^^^ m }
  { s with v0 := s.v0 ^^^ m }

/-- The state under a key of two words. -/
def State.init (k0 k1 : UInt64) : State where
  v0 := k0 ^^^ 0x736f6d6570736575
  v1 := k1 ^^^ 0x646f72616e646f6d
  v2 := k0 ^^^ 0x6c7967656e657261
  v3 := k1 ^^^ 0x7465646279746573

/-- The last `d` rounds. -/
def State.finish (d : Nat) (s : State) : UInt64 :=
  let s := Nat.repeat State.round d { s with v2 := s.v2 ^^^ 0xff }
  s.v0 ^^^ s.v1 ^^^ s.v2 ^^^ s.v3

/-- The message with its padding: zeros, and the length modulo 256 as the last byte. -/
def pad (msg : List UInt8) : List UInt8 :=
  msg ++ List.replicate (7 - msg.length % 8) 0 ++ [UInt8.ofNat msg.length]

/-- The little-endian words of a padded message. -/
def words (bs : List UInt8) : List UInt64 :=
  (List.range (bs.length / 8)).map fun i => leWord ((bs.drop (8 * i)).take 8)

/-- SipHash-`c`-`d` of `msg` under the key `k` of sixteen bytes. -/
def sipHash (c d : Nat) (k msg : List UInt8) : UInt64 :=
  ((words (pad msg)).foldl (State.compress c) (.init (leWord (k.take 8)) (leWord (k.drop 8)))).finish d

theorem length_pad (msg : List UInt8) : (pad msg).length = 8 * (msg.length / 8 + 1) := by
  simp only [pad, List.length_append, List.length_replicate, List.length_singleton]
  omega

/-- The words of a padded message: those of its full blocks, and one of what is left, with the length in
the highest byte. -/
theorem words_pad (msg : List UInt8) :
    words (pad msg)
      = (List.range (msg.length / 8)).map (fun i => leWord ((msg.drop (8 * i)).take 8))
        ++ [leWord (msg.drop (8 * (msg.length / 8)) ++ List.replicate (7 - msg.length % 8) 0
            ++ [UInt8.ofNat msg.length])] := by
  have hle : 8 * (msg.length / 8) ≤ msg.length := by omega
  rw [words, length_pad, Nat.mul_div_cancel_left _ (by decide), List.range_succ, List.map_append,
    List.map_singleton]
  congr 1
  · apply List.map_congr_left
    intro i hi
    rw [List.mem_range] at hi
    -- a full block lies before the padding
    rw [pad, List.append_assoc, List.drop_append_of_le_length (by omega),
      List.take_append_of_le_length (by rw [List.length_drop]; omega)]
  · rw [pad, List.append_assoc, List.drop_append_of_le_length hle, List.append_assoc,
      List.take_of_length_le]
    simp only [List.length_append, List.length_drop, List.length_replicate, List.length_singleton]
    omega

end SipHash

end Cloak.Lib
