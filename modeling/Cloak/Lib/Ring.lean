import Cloak.Lib.Slice

set_option autoImplicit false

/-! # Ring buffers

A ring is a buffer `data` read from an offset `off` onwards and continued at cell 0 past its end.
`ringPut` and `ringPeek` are the two copies every ring makes, each split at the wrap point the way
the C code splits its `memcpy`s. Cell `i` of a peek is cell `(off + i) % cap` of the buffer
(`getElem?_ringPeek`), and from that single index law follow the two facts a queue needs: a put at
the tail appends to what a peek from the head shows (`ringPeek_ringPut`), and advancing the head
drops from the front of it (`ringPeek_advance`). -/

namespace Cloak.Lib

universe u

variable {α : Type u}

/-- Copy `n` cells out of the ring, starting at `off` and wrapping once. -/
def ringPeek (data : List α) (off n : Nat) : List α :=
  if n ≤ data.length - off then slice data off n
  else slice data off (data.length - off) ++ slice data 0 (n - (data.length - off))

/-- Copy `src` into the ring, starting at `off` and wrapping once. -/
def ringPut (data : List α) (off : Nat) (src : List α) : List α :=
  if src.length ≤ data.length - off then patch data off src
  else patch (patch data off (src.take (data.length - off))) 0 (src.drop (data.length - off))

theorem length_ringPut (data : List α) (off : Nat) (src : List α) (hoff : off < data.length)
    (hsrc : src.length ≤ data.length) : (ringPut data off src).length = data.length := by
  unfold ringPut
  split
  · exact length_patch _ _ _ (by omega)
  · have hpatch : (patch data off (src.take (data.length - off))).length = data.length :=
      length_patch _ _ _ (by simp only [List.length_take]; omega)
    rw [length_patch _ _ _ (by simp only [hpatch, List.length_drop]; omega), hpatch]

theorem length_ringPeek (data : List α) (off n : Nat) (hoff : off < data.length)
    (hn : n ≤ data.length) : (ringPeek data off n).length = n := by
  unfold ringPeek
  split
  · exact length_slice _ _ _ (by omega)
  · rw [List.length_append, length_slice _ _ _ (by omega), length_slice _ _ _ (by omega)]
    omega

/-- One reduction modulo the capacity is a single conditional subtraction. -/
theorem ring_index (cap off i : Nat) (hoff : off < cap) (hi : i < cap) :
    (off + i) % cap = if off + i < cap then off + i else off + i - cap := by
  split
  · next h => exact Nat.mod_eq_of_lt h
  · next h => rw [Nat.mod_eq_sub_mod (by omega), Nat.mod_eq_of_lt (by omega)]

theorem getElem?_ringPeek (data : List α) (off n i : Nat) (hoff : off < data.length)
    (hn : n ≤ data.length) :
    (ringPeek data off n)[i]? = if i < n then data[(off + i) % data.length]? else none := by
  by_cases hi : i < n
  · rw [if_pos hi, ring_index _ _ _ hoff (by omega), ringPeek]
    by_cases hn' : n ≤ data.length - off
    · rw [if_pos hn', getElem?_slice, if_pos hi, if_pos (by omega)]
    · rw [if_neg hn']
      have hlen : (slice data off (data.length - off)).length = data.length - off :=
        length_slice _ _ _ (by omega)
      by_cases hfirst : i < data.length - off
      · rw [List.getElem?_append_left (by omega), getElem?_slice, if_pos hfirst,
          if_pos (by omega)]
      · rw [List.getElem?_append_right (by omega), hlen, getElem?_slice, if_pos (by omega),
          if_neg (by omega)]
        congr 1
        omega
  · rw [if_neg hi]
    apply List.getElem?_eq_none
    rw [length_ringPeek _ _ _ hoff hn]
    omega

/-- Cell `off + i` (wrapped) of a ring after a put: the `i`-th new cell, or the old one. -/
theorem getElem?_ringPut (data : List α) (off : Nat) (src : List α) (i : Nat)
    (hoff : off < data.length) (hsrc : src.length ≤ data.length) (hi : i < data.length) :
    (ringPut data off src)[(off + i) % data.length]?
      = if i < src.length then src[i]? else data[(off + i) % data.length]? := by
  rw [ring_index _ _ _ hoff hi, ringPut]
  by_cases hfit : src.length ≤ data.length - off
  · rw [if_pos hfit, getElem?_patch _ _ _ _ (by omega)]
    by_cases hlt : off + i < data.length
    · rw [if_pos hlt]
      by_cases his : i < src.length
      · rw [if_pos ⟨by omega, by omega⟩, if_pos his]
        congr 1
        omega
      · rw [if_neg (by omega), if_neg his]
    · rw [if_neg hlt, if_neg (by omega), if_neg (by omega)]
  · have htake : (src.take (data.length - off)).length = data.length - off := by
      simp only [List.length_take]; omega
    have hpatch : (patch data off (src.take (data.length - off))).length = data.length :=
      length_patch _ _ _ (by omega)
    rw [if_neg hfit, getElem?_patch _ _ _ _ (by omega), getElem?_patch _ _ _ _ (by omega), htake]
    simp only [List.length_drop, List.getElem?_drop, List.getElem?_take]
    by_cases hlt : off + i < data.length
    · rw [if_pos hlt, if_neg (by omega), if_pos ⟨by omega, by omega⟩, if_pos (by omega),
        if_pos (by omega)]
      congr 1
      omega
    · rw [if_neg hlt]
      by_cases his : i < src.length
      · rw [if_pos ⟨by omega, by omega⟩, if_pos his]
        congr 1
        omega
      · rw [if_neg (by omega), if_neg (by omega), if_neg his]

/-- A put at the tail appends to what a peek from the head shows. -/
theorem ringPeek_ringPut (data : List α) (head len : Nat) (src : List α)
    (hhead : head < data.length) (hfit : len + src.length ≤ data.length) :
    ringPeek (ringPut data ((head + len) % data.length) src) head (len + src.length)
      = ringPeek data head len ++ src := by
  have hcap : 0 < data.length := by omega
  have htail : (head + len) % data.length < data.length := Nat.mod_lt _ hcap
  have hput := length_ringPut data _ src htail (by omega)
  have hpeek := length_ringPeek data head len hhead (by omega)
  apply List.ext_getElem?
  intro i
  rw [getElem?_ringPeek _ _ _ _ (by omega) (by omega), hput]
  by_cases hold : i < len
  · -- an old cell: it lies a whole lap less `len - i` cells past the tail
    rw [if_pos (by omega), List.getElem?_append_left (by omega),
      getElem?_ringPeek _ _ _ _ hhead (by omega), if_pos hold]
    have hidx : (head + i) % data.length
        = ((head + len) % data.length + (data.length - len + i)) % data.length := by
      rw [Nat.mod_add_mod, show head + len + (data.length - len + i) = head + i + data.length by
        omega, Nat.add_mod_right]
    rw [hidx, getElem?_ringPut _ _ _ _ htail (by omega) (by omega), if_neg (by omega)]
  · by_cases hnew : i < len + src.length
    · rw [if_pos hnew, List.getElem?_append_right (by omega), hpeek]
      have hidx : (head + i) % data.length
          = ((head + len) % data.length + (i - len)) % data.length := by
        rw [Nat.mod_add_mod, show head + len + (i - len) = head + i by omega]
      rw [hidx, getElem?_ringPut _ _ _ _ htail (by omega) (by omega), if_pos (by omega)]
    · rw [if_neg hnew, List.getElem?_append_right (by omega), hpeek]
      exact (List.getElem?_eq_none (by omega)).symm

/-- A shorter peek shows the first cells of a longer one. -/
theorem ringPeek_take (data : List α) (head len n : Nat) (hhead : head < data.length)
    (hlen : len ≤ data.length) (hn : n ≤ len) :
    ringPeek data head n = (ringPeek data head len).take n := by
  apply List.ext_getElem?
  intro i
  rw [List.getElem?_take, getElem?_ringPeek _ _ _ _ hhead (by omega),
    getElem?_ringPeek _ _ _ _ hhead hlen]
  by_cases hi : i < n
  · rw [if_pos hi, if_pos hi, if_pos (by omega)]
  · rw [if_neg hi, if_neg hi]

/-- Advancing the head drops the cells it passes over. -/
theorem ringPeek_advance (data : List α) (head len n : Nat) (hhead : head < data.length)
    (hlen : len ≤ data.length) (hn : n ≤ len) :
    ringPeek data ((head + n) % data.length) (len - n) = (ringPeek data head len).drop n := by
  have hcap : 0 < data.length := by omega
  apply List.ext_getElem?
  intro i
  rw [List.getElem?_drop, getElem?_ringPeek _ _ _ _ (Nat.mod_lt _ hcap) (by omega),
    getElem?_ringPeek _ _ _ _ hhead hlen]
  by_cases hi : i < len - n
  · rw [if_pos hi, if_pos (by omega), Nat.mod_add_mod, Nat.add_assoc]
  · rw [if_neg hi, if_neg (by omega)]

end Cloak.Lib
