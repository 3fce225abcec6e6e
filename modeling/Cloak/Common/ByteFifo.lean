import Cloak.Lib.Refine
import Cloak.Common.ByteQueue

set_option autoImplicit false

/-! # The byte queue is a list of bytes (`bytequeue.c`)

`ByteFifo` is what the ring is for: at most `cap` bytes in a list and a one-way flag. Every call on the
ring answers as the same call on the list does, and leaves the ring with the bytes of the list in it
(`ByteQueue.simulates`). The sums of the code are of two numbers up to the capacity, and `malloc` gives
no buffer of half the address space, so none of them wraps and they are sums of naturals here. -/

namespace Cloak

open Lib

/-- The calls of `bytequeue.c` on a queue that has been set up. -/
inductive ByteQueueCall where
  | write (data : List UInt8)
  | read (len : Nat)
  | peek (len : Nat)
  | close

/-- What a call gives back: the count a write returns, or the bytes that are copied out. -/
inductive ByteQueueAnswer where
  | wrote (n : Nat)
  | copied (out : List UInt8)
  | done
deriving DecidableEq, Repr

/-- One call on the ring. -/
def ByteQueue.call (q : ByteQueue) : ByteQueueCall → ByteQueue × ByteQueueAnswer
  | .write data => ((q.write data).1, .wrote (q.write data).2)
  | .read len => ((q.read len).2, .copied (q.read len).1)
  | .peek len => (q, .copied (q.peek len))
  | .close => (q.close, .done)

/-! ## The list -/

/-- A list of at most `cap` bytes that can be closed. -/
structure ByteFifo where
  cap : Nat
  bytes : List UInt8
  closed : Bool
  length_le : bytes.length ≤ cap

namespace ByteFifo

/-- Nothing has been written. -/
def empty (cap : Nat) : ByteFifo := ⟨cap, [], false, Nat.zero_le _⟩

/-- All of `data` goes behind the list, or none of it. -/
def write (f : ByteFifo) (data : List UInt8) : ByteFifo × Nat :=
  if h : f.closed = false ∧ f.bytes.length + data.length ≤ f.cap then
    ({ f with bytes := f.bytes ++ data, length_le := by simpa using h.2 }, data.length)
  else (f, 0)

/-- The first `min len (length of the list)` bytes leave the list. -/
def read (f : ByteFifo) (len : Nat) : ByteFifo × List UInt8 :=
  ({ f with
      bytes := f.bytes.drop (min len f.bytes.length)
      length_le := by
        have hle := f.length_le
        rw [List.length_drop]
        omega },
    f.bytes.take (min len f.bytes.length))

/-- One call on the list. -/
def call (f : ByteFifo) : ByteQueueCall → ByteFifo × ByteQueueAnswer
  | .write data => ((f.write data).1, .wrote (f.write data).2)
  | .read len => ((f.read len).1, .copied (f.read len).2)
  | .peek len => (f, .copied (f.bytes.take (min len f.bytes.length)))
  | .close => ({ f with closed := true }, .done)

@[simp] theorem cap_call (f : ByteFifo) (c : ByteQueueCall) : (f.call c).1.cap = f.cap := by
  cases c with
  | write data =>
    simp only [call, write]
    split <;> rfl
  | read len => rfl
  | peek len => rfl
  | close => rfl

theorem cap_trace (f : ByteFifo) (cs : List ByteQueueCall) : (trace call f cs).1.cap = f.cap := by
  rw [trace_fst]
  exact run_invariant (P := fun g : ByteFifo => g.cap = f.cap) rfl
    (fun g c hg => (g.cap_call c).trans hg) cs

end ByteFifo

/-! ## The ring holds the list -/

namespace ByteQueue

/-- The bytes of the ring, its capacity and its flag are those of the list. -/
structure Models (q : ByteQueue) (f : ByteFifo) : Prop where
  contents : q.contents = f.bytes
  cap : q.cap = f.cap
  closed : q.closed = f.closed

variable {q : ByteQueue} {f : ByteFifo}

theorem Models.len (h : q.Models f) : q.len = f.bytes.length := by
  rw [← h.contents, length_contents]

/-- The ring takes what the list takes. -/
theorem Models.fits_iff (h : q.Models f) (data : List UInt8) :
    data.length ≤ q.freeSpace ↔ f.bytes.length + data.length ≤ f.cap := by
  have hle := f.length_le
  rw [freeSpace, h.cap, h.len]
  omega

/-- A write that does not fit, or comes after the close, does nothing. -/
theorem write_refused (q : ByteQueue) (data : List UInt8)
    (h : ¬ (q.closed = false ∧ data.length ≤ q.freeSpace)) : q.write data = (q, 0) := by
  unfold write
  split
  · rfl
  · split
    · rfl
    · next hne hok =>
      rw [freeSpace] at h
      exact absurd ⟨by simpa using fun hc => hok (.inl hc), by
        by_contra hlt
        exact hok (.inr (by omega))⟩ h

/-- What a write that goes through returns. -/
theorem write_snd (q : ByteQueue) (data : List UInt8) (hopen : q.closed = false)
    (hfit : data.length ≤ q.freeSpace) : (q.write data).2 = data.length := by
  unfold write
  split
  · next hzero => exact hzero.symm
  · split
    · next hbad =>
      rw [freeSpace] at hfit
      rcases hbad with hc | hlt
      · rw [hopen] at hc
        cases hc
      · omega
    · rfl

theorem Models.write (h : q.Models f) (data : List UInt8) :
    (q.write data).2 = (f.write data).2 ∧ (q.write data).1.Models (f.write data).1 := by
  unfold ByteFifo.write
  split
  · next hok =>
    have hopen : q.closed = false := h.closed.trans hok.1
    have hfit : data.length ≤ q.freeSpace := (h.fits_iff data).mpr hok.2
    refine ⟨q.write_snd data hopen hfit, ?_, ?_, ?_⟩
    · rw [q.contents_write data hopen hfit, h.contents]
    · rw [cap_write, h.cap]
    · rw [closed_write, h.closed]
  · next hno =>
    have hno' : ¬ (q.closed = false ∧ data.length ≤ q.freeSpace) := by
      rw [h.closed, h.fits_iff data]
      exact hno
    rw [q.write_refused data hno']
    exact ⟨rfl, h⟩

theorem Models.peek (h : q.Models f) (n : Nat) :
    q.peek n = f.bytes.take (min n f.bytes.length) := by
  rw [peek_eq, h.contents, ← List.take_eq_take_min]

theorem Models.read (h : q.Models f) (n : Nat) :
    (q.read n).1 = (f.read n).2 ∧ (q.read n).2.Models (f.read n).1 := by
  refine ⟨?_, ?_, ?_, ?_⟩
  · rw [read_fst, ← peek_eq]
    exact h.peek n
  · rw [contents_read, h.contents]
    exact (List.drop_eq_drop_min ..)
  · rw [cap_read, h.cap]
    rfl
  · rw [closed_read, h.closed]
    rfl

theorem simulates : Simulates Models call (stepRel ByteFifo.call) := by
  intro q f c h
  refine ⟨(f.call c).1, ?_, ?_⟩
  · -- the answers
    cases c with
    | write data => simp [stepRel, ByteFifo.call, call, h.write data]
    | read n => simp [stepRel, ByteFifo.call, call, h.read n]
    | peek n => simp [stepRel, ByteFifo.call, call, h.peek n]
    | close => rfl
  · cases c with
    | write data => exact (h.write data).2
    | read n => exact (h.read n).2
    | peek n => exact h
    | close => exact ⟨h.contents, h.cap, rfl⟩

theorem models_init {cap : Nat} (h : init cap = some q) : q.Models (.empty cap) := by
  obtain ⟨hcontents, hclosed, hcap⟩ := init_spec h
  exact ⟨hcontents, hcap, hclosed⟩

/-- Over every run of calls the ring answers as the list does and holds the list, and what is in it
    and what is free make up the capacity. -/
theorem byte_ring_refines {cap : Nat} (h : init cap = some q) (calls : List ByteQueueCall) :
    (trace call q calls).2 = (trace ByteFifo.call (.empty cap) calls).2 ∧
      (trace call q calls).1.contents = (trace ByteFifo.call (.empty cap) calls).1.bytes ∧
      (trace call q calls).1.len = (trace call q calls).1.contents.length ∧
      (trace call q calls).1.contents.length ≤ cap ∧
      (trace call q calls).1.len + (trace call q calls).1.freeSpace = cap ∧
      ((trace call q calls).1.isEof = true ↔
        (trace ByteFifo.call (.empty cap) calls).1.closed = true ∧
          (trace ByteFifo.call (.empty cap) calls).1.bytes = []) := by
  obtain ⟨hanswers, hmodels⟩ := simulates.trace_eq (models_init h) calls
  have hcap : (trace call q calls).1.cap = cap := hmodels.cap.trans (ByteFifo.cap_trace ..)
  have hlen := (trace call q calls).1.len_le_cap
  refine ⟨hanswers, hmodels.contents, (length_contents _).symm, ?_, ?_, ?_⟩
  · rw [length_contents]
    omega
  · rw [freeSpace]
    omega
  · rw [isEof_iff, hmodels.closed, hmodels.contents]

/-- A second write that goes round the end of a ring of four cells. -/
theorem byte_ring_refines_wrapped : ∃ q, init 4 = some q ∧
    (trace call q [.write [1, 2, 3], .read 2, .write [4, 5, 6], .write [7], .peek 9]).2 =
      [.wrote 3, .copied [1, 2], .wrote 3, .wrote 0, .copied [3, 4, 5, 6]] := by
  obtain ⟨q, hinit⟩ : ∃ q, init 4 = some q := ⟨_, rfl⟩
  refine ⟨q, hinit, ?_⟩
  rw [(byte_ring_refines hinit _).1]
  decide

end ByteQueue

end Cloak
