set_option autoImplicit false

/-! # Random draws (`random.c`)

`cloak_random_bytes` fills a buffer with what the generator gives, which is an input of the model.
`cloak_random_below` draws 32-bit words until one lies below the largest multiple of `n` and
reduces that one modulo `n`. The draw it stops at is an input of the model, so everything proved
over it holds for every outcome of the generator. -/

namespace Cloak

/-- `cloak_random_below n`, with `v` the draw its loop stops at. -/
def randomBelow (n v : UInt32) : UInt32 :=
  if n ≤ 1 then 0 else v % n

theorem randomBelow_lt (n v : UInt32) (hn : 0 < n.toNat) : (randomBelow n v).toNat < n.toNat := by
  unfold randomBelow
  split
  · exact hn
  · rw [UInt32.toNat_mod]
    exact Nat.mod_lt _ hn

/-- `cloak_random_bytes`: the first `n` bytes drawn. -/
def randomBytes (filler : Nat → UInt8) (n : Nat) : List UInt8 := (List.range n).map filler

@[simp] theorem length_randomBytes (filler : Nat → UInt8) (n : Nat) :
    (randomBytes filler n).length = n := by
  simp [randomBytes]

end Cloak
