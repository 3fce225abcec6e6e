import Cloak.Lib.Ring

set_option autoImplicit false

/-! # The byte queue (`bytequeue.c`)

A bounded FIFO of bytes in a ring of fixed capacity, with a one-way `closed` flag. The structure
carries the two facts every access needs (the head is a cell of the ring, the live length fits), so
no operation can leave the ring.

`ByteQueue.contents` reads the queue as the list of bytes it holds, oldest first. Every operation is
specified on it: a write appends or does nothing (`contents_write`), a read takes from the front
(`read_fst`, `contents_read`), a peek reads without taking (`peek_eq`). Nothing downstream unfolds
an operation. -/

namespace Cloak

open Lib

/-- `cloak_bytequeue_t`. The capacity is the length of `data`. -/
structure ByteQueue where
  data : List UInt8
  head : Nat
  len : Nat
  closed : Bool
  head_lt : head < data.length
  len_le : len ≤ data.length
deriving DecidableEq

namespace ByteQueue

def cap (q : ByteQueue) : Nat := q.data.length

/-- `cloak_bytequeue_init`; the cells of a fresh ring are never read before they are written. -/
def init (cap : Nat) : Option ByteQueue :=
  if h : 0 < cap then
    some { data := List.replicate cap 0, head := 0, len := 0, closed := false,
           head_lt := by simpa using h, len_le := Nat.zero_le _ }
  else none

/-- `cloak_bytequeue_write`: all of `bs` or nothing. -/
def write (q : ByteQueue) (bs : List UInt8) : ByteQueue × Nat :=
  if bs.length = 0 then (q, 0)
  else if h : q.closed = true ∨ q.cap - q.len < bs.length then (q, 0)
  else
    have hfit : bs.length ≤ q.data.length - q.len := Nat.not_lt.mp fun hc => h (Or.inr hc)
    have hlen := q.len_le
    have htail : (q.head + q.len) % q.data.length < q.data.length :=
      Nat.mod_lt _ (Nat.zero_lt_of_lt q.head_lt)
    have hput := length_ringPut q.data ((q.head + q.len) % q.data.length) bs htail
      (Nat.le_trans hfit (Nat.sub_le _ _))
    ({ q with
        data := ringPut q.data ((q.head + q.len) % q.data.length) bs
        len := q.len + bs.length
        head_lt := by rw [hput]; exact q.head_lt
        len_le := by rw [hput]; omega }, bs.length)

/-- The bytes a read or a peek of at most `n` copies out. -/
def peek (q : ByteQueue) (n : Nat) : List UInt8 :=
  if min n q.len = 0 then [] else ringPeek q.data q.head (min n q.len)

/-- `cloak_bytequeue_read`: the bytes copied out and the queue without them. -/
def read (q : ByteQueue) (n : Nat) : List UInt8 × ByteQueue :=
  if min n q.len = 0 then ([], q)
  else
    (ringPeek q.data q.head (min n q.len),
      { q with
        head := (q.head + min n q.len) % q.data.length
        len := q.len - min n q.len
        head_lt := Nat.mod_lt _ (Nat.zero_lt_of_lt q.head_lt)
        len_le := Nat.le_trans (Nat.sub_le _ _) q.len_le })

/-- `cloak_bytequeue_close`. -/
def close (q : ByteQueue) : ByteQueue := { q with closed := true }

/-- `cloak_bytequeue_free_space`. -/
def freeSpace (q : ByteQueue) : Nat := q.cap - q.len

/-- `cloak_bytequeue_is_eof`. -/
def isEof (q : ByteQueue) : Bool := q.closed && q.len == 0

/-! ## The queue as the bytes it holds -/

/-- The bytes in the queue, oldest first. -/
def contents (q : ByteQueue) : List UInt8 := ringPeek q.data q.head q.len

@[simp] theorem length_contents (q : ByteQueue) : q.contents.length = q.len :=
  length_ringPeek _ _ _ q.head_lt q.len_le

theorem len_le_cap (q : ByteQueue) : q.len ≤ q.cap := q.len_le

theorem cap_pos (q : ByteQueue) : 0 < q.cap := Nat.zero_lt_of_lt q.head_lt

theorem contents_eq_nil_iff (q : ByteQueue) : q.contents = [] ↔ q.len = 0 := by
  rw [← List.length_eq_zero_iff, length_contents]

theorem init_spec {cap : Nat} {q : ByteQueue} (h : init cap = some q) :
    q.contents = [] ∧ q.closed = false ∧ q.cap = cap := by
  unfold init at h
  split at h
  · obtain rfl := Option.some.inj h
    refine ⟨?_, rfl, ?_⟩
    · rw [contents_eq_nil_iff]
    · simp [ByteQueue.cap]
  · cases h

theorem init_isSome {cap : Nat} (h : 0 < cap) : ∃ q, init cap = some q := by
  unfold init
  rw [dif_pos h]
  exact ⟨_, rfl⟩

/-- A write that fits an open queue appends. -/
theorem contents_write (q : ByteQueue) (bs : List UInt8) (hopen : q.closed = false)
    (hfit : bs.length ≤ q.freeSpace) : (q.write bs).1.contents = q.contents ++ bs := by
  unfold write
  split
  · next h => rw [List.length_eq_zero_iff.mp h, List.append_nil]
  · split
    · next h =>
      exfalso
      obtain h | h := h
      · rw [hopen] at h
        cases h
      · exact absurd hfit (Nat.not_le.mpr h)
    · unfold freeSpace cap at hfit
      have hlen := q.len_le
      exact ringPeek_ringPut q.data q.head q.len bs q.head_lt (by omega)

theorem len_write (q : ByteQueue) (bs : List UInt8) (hopen : q.closed = false)
    (hfit : bs.length ≤ q.freeSpace) : (q.write bs).1.len = q.len + bs.length := by
  rw [← length_contents, contents_write q bs hopen hfit, List.length_append, length_contents]

@[simp] theorem closed_write (q : ByteQueue) (bs : List UInt8) :
    (q.write bs).1.closed = q.closed := by
  unfold write
  split
  · rfl
  · split <;> rfl

@[simp] theorem cap_write (q : ByteQueue) (bs : List UInt8) : (q.write bs).1.cap = q.cap := by
  unfold write
  split
  · rfl
  · split
    · rfl
    · next h =>
      have hfit : bs.length ≤ q.data.length - q.len := Nat.not_lt.mp fun hc => h (Or.inr hc)
      exact length_ringPut _ _ _ (Nat.mod_lt _ (Nat.zero_lt_of_lt q.head_lt))
        (Nat.le_trans hfit (Nat.sub_le _ _))

theorem peek_eq (q : ByteQueue) (n : Nat) : q.peek n = q.contents.take n := by
  unfold peek
  split
  · next h =>
    have hlen := q.length_contents
    rw [eq_comm, ← List.length_eq_zero_iff, List.length_take, hlen, h]
  · rw [ringPeek_take q.data q.head q.len _ q.head_lt q.len_le (Nat.min_le_right _ _)]
    change q.contents.take (min n q.len) = _
    rw [← length_contents, ← List.take_eq_take_min]

theorem read_fst (q : ByteQueue) (n : Nat) : (q.read n).1 = q.contents.take n := by
  rw [← peek_eq]
  unfold read peek
  split <;> rfl

theorem contents_read (q : ByteQueue) (n : Nat) :
    (q.read n).2.contents = q.contents.drop n := by
  have hlen := q.length_contents
  unfold read
  split
  · next h =>
    change q.contents = _
    by_cases hn : n = 0
    · rw [hn, List.drop_zero]
    · have hq : q.contents = [] := by rw [contents_eq_nil_iff]; omega
      rw [hq, List.drop_nil]
  · change ringPeek q.data ((q.head + min n q.len) % q.data.length) (q.len - min n q.len) = _
    rw [ringPeek_advance q.data q.head q.len _ q.head_lt q.len_le (Nat.min_le_right _ _)]
    change q.contents.drop (min n q.len) = _
    by_cases hn : n ≤ q.len
    · rw [Nat.min_eq_left hn]
    · rw [Nat.min_eq_right (by omega), List.drop_of_length_le (by omega),
        List.drop_of_length_le (by omega)]

theorem len_read (q : ByteQueue) (n : Nat) : (q.read n).2.len = q.len - n := by
  rw [← length_contents, contents_read, List.length_drop, length_contents]

@[simp] theorem closed_read (q : ByteQueue) (n : Nat) : (q.read n).2.closed = q.closed := by
  unfold read
  split <;> rfl

@[simp] theorem cap_read (q : ByteQueue) (n : Nat) : (q.read n).2.cap = q.cap := by
  unfold read
  split <;> rfl

/-- Two reads in a row are one. -/
theorem read_read (q : ByteQueue) (m n : Nat) (h : m + n ≤ q.len) :
    ((q.read m).2.read n).2 = (q.read (m + n)).2 := by
  by_cases hm : m = 0
  · have hzero : (q.read 0).2 = q := by rw [read, if_pos (Nat.zero_min _)]
    rw [hm, hzero, Nat.zero_add]
  · have hmin : min m q.len = m := Nat.min_eq_left (by omega)
    have hsum : min (m + n) q.len = m + n := Nat.min_eq_left h
    have hrest : min n (q.len - m) = n := Nat.min_eq_left (by omega)
    by_cases hn : n = 0
    · have hzero : ((q.read m).2.read 0).2 = (q.read m).2 := by rw [read, if_pos (Nat.zero_min _)]
      rw [hn, hzero, Nat.add_zero]
    · simp only [read, hmin, hsum, hrest, if_neg hm, if_neg hn, if_neg (show m + n ≠ 0 by omega),
        Nat.mod_add_mod, Nat.add_assoc, Nat.sub_sub]

@[simp] theorem contents_close (q : ByteQueue) : q.close.contents = q.contents := rfl

@[simp] theorem closed_close (q : ByteQueue) : q.close.closed = true := rfl

@[simp] theorem cap_close (q : ByteQueue) : q.close.cap = q.cap := rfl

@[simp] theorem len_close (q : ByteQueue) : q.close.len = q.len := rfl

theorem isEof_iff (q : ByteQueue) : q.isEof = true ↔ q.closed = true ∧ q.contents = [] := by
  rw [contents_eq_nil_iff, isEof, Bool.and_eq_true, beq_iff_eq]

end ByteQueue

end Cloak
