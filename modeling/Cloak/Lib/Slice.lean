import Mathlib.Data.List.Basic
import Mathlib.Data.List.TakeDrop

set_option autoImplicit false

/-! # Slices and patches of a fixed buffer

A C buffer is modelled as the list of its cells. `slice` reads a run of cells (`memcpy` out of the
buffer), `patch` overwrites one (`memcpy` into it). A patch that stays inside the buffer keeps its
length, so offsets computed against the buffer stay meaningful after any number of them.

Purely `List` combinatorics, generic over the cell type. -/

namespace Cloak.Lib

universe u

variable {α : Type u}

/-- The `n` cells of `buf` that start at `off`. -/
def slice (buf : List α) (off n : Nat) : List α :=
  (buf.drop off).take n

/-- `buf` with the cells that start at `off` overwritten by `src`. -/
def patch (buf : List α) (off : Nat) (src : List α) : List α :=
  buf.take off ++ src ++ buf.drop (off + src.length)

theorem length_slice (buf : List α) (off n : Nat) (h : off + n ≤ buf.length) :
    (slice buf off n).length = n := by
  simp only [slice, List.length_take, List.length_drop]
  omega

theorem length_patch (buf : List α) (off : Nat) (src : List α)
    (h : off + src.length ≤ buf.length) : (patch buf off src).length = buf.length := by
  simp only [patch, List.length_append, List.length_take, List.length_drop]
  omega

theorem getElem?_slice (buf : List α) (off n i : Nat) :
    (slice buf off n)[i]? = if i < n then buf[off + i]? else none := by
  simp only [slice, List.getElem?_take, List.getElem?_drop]

theorem getElem?_patch (buf : List α) (off : Nat) (src : List α) (j : Nat)
    (h : off ≤ buf.length) :
    (patch buf off src)[j]?
      = if off ≤ j ∧ j < off + src.length then src[j - off]? else buf[j]? := by
  have htake : (buf.take off).length = off := by simp [h]
  by_cases hlt : j < off
  · rw [patch, List.append_assoc, List.getElem?_append_left (by omega), List.getElem?_take,
      if_pos hlt, if_neg (by omega)]
  · by_cases hmid : j < off + src.length
    · rw [patch, List.append_assoc, List.getElem?_append_right (by omega), htake,
        List.getElem?_append_left (by omega), if_pos ⟨by omega, hmid⟩]
    · rw [patch, List.getElem?_append_right (by simp [h]; omega), List.getElem?_drop,
        if_neg (by omega)]
      congr 1
      simp only [List.length_append, htake]
      omega

/-- Reading back exactly what was just written. -/
theorem slice_patch_self (buf : List α) (off : Nat) (src : List α) (h : off ≤ buf.length) :
    slice (patch buf off src) off src.length = src := by
  have htake : (buf.take off).length = off := by simp [h]
  rw [slice, patch, List.append_assoc, List.drop_append_of_le_length (by omega),
    List.drop_of_length_le (by omega), List.nil_append,
    List.take_append_of_le_length (Nat.le_refl _), List.take_length]

/-- A read that does not meet the written cells sees the old buffer. -/
theorem slice_patch_of_disjoint (buf : List α) (off : Nat) (src : List α) (o n : Nat)
    (h : off ≤ buf.length) (hd : o + n ≤ off ∨ off + src.length ≤ o) :
    slice (patch buf off src) o n = slice buf o n := by
  apply List.ext_getElem?
  intro i
  rw [getElem?_slice, getElem?_slice]
  by_cases hi : i < n
  · rw [if_pos hi, if_pos hi, getElem?_patch _ _ _ _ h, if_neg (by omega)]
  · rw [if_neg hi, if_neg hi]

/-- A read inside the written cells sees the source of the write. -/
theorem slice_patch_of_subset (buf : List α) (off : Nat) (src : List α) (o n : Nat)
    (h : off ≤ buf.length) (hlo : off ≤ o) (hhi : o + n ≤ off + src.length) :
    slice (patch buf off src) o n = slice src (o - off) n := by
  apply List.ext_getElem?
  intro i
  rw [getElem?_slice, getElem?_slice]
  by_cases hi : i < n
  · rw [if_pos hi, if_pos hi, getElem?_patch _ _ _ _ h, if_pos ⟨by omega, by omega⟩]
    congr 1
    omega
  · rw [if_neg hi, if_neg hi]

/-- Cutting the buffer behind a slice does not change it. -/
theorem slice_take (buf : List α) (m o n : Nat) (h : o + n ≤ m) :
    slice (buf.take m) o n = slice buf o n := by
  rw [slice, slice, List.drop_take, List.take_take, Nat.min_eq_left (by omega)]

/-- Overwriting the front of a buffer. -/
theorem patch_zero (buf src : List α) : patch buf 0 src = src ++ buf.drop src.length := by
  simp [patch]

/-- Overwriting from the end of a front part on. -/
theorem patch_append_length (xs buf src : List α) :
    patch (xs ++ buf) xs.length src = xs ++ (src ++ buf.drop src.length) := by
  rw [patch, List.take_left, List.append_assoc, ← List.drop_drop, List.drop_left]

/-- The slice of an append that is its middle part. -/
theorem slice_append_middle {xs ys : List α} (zs : List α) {off n : Nat} (hxs : xs.length = off)
    (hys : ys.length = n) : slice (xs ++ (ys ++ zs)) off n = ys := by
  rw [slice, List.drop_left' hxs, List.take_left' hys]

end Cloak.Lib
