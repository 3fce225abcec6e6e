import Mathlib
import Cloak.Lib.Ring
import Cloak.Lib.BigEndian

set_option autoImplicit false

/-! # The message queue (`msgqueue.c`)

A ring of whole messages, each stored behind a 4-byte big-endian length. The structure carries what
keeps every copy inside the ring.

`Holds` reads the ring as the list of messages in it, oldest first: a write that is accepted appends
one (`Holds.write`), a read takes the first (`Holds.read_msg`) or nothing (`Holds.read_short`). -/

namespace Cloak

open Lib

/-- `CLOAK_MSGQUEUE_LEN_PREFIX`. -/
def msgQueueLenPrefix : Nat := 4

/-- `cloak_msgqueue_t`. The capacity is the length of `data`. -/
structure MsgQueue where
  data : List UInt8
  head : Nat
  len : Nat
  payloadBytes : Nat
  count : Nat
  closed : Bool
  prefix_lt : msgQueueLenPrefix < data.length
  head_lt : head < data.length
  len_le : len ≤ data.length

instance : DecidableEq MsgQueue := fun q r =>
  decidable_of_iff (q.data = r.data ∧ q.head = r.head ∧ q.len = r.len ∧ q.payloadBytes = r.payloadBytes
    ∧ q.count = r.count ∧ q.closed = r.closed) (by cases q; cases r; simp)

/-- What `cloak_msgqueue_write` answers. -/
inductive MsgQueueWrite where
  | ok
  | full
  | tooLarge
  | closed
deriving DecidableEq, Repr

/-- What `cloak_msgqueue_read` answers: `CLOAK_MSGQUEUE_EMPTY`, `_SHORT_BUFFER` or a message. -/
inductive MsgQueueRead where
  | empty
  | shortBuffer
  | msg (bs : List UInt8)
deriving DecidableEq, Repr

namespace MsgQueue

def cap (q : MsgQueue) : Nat := q.data.length

theorem zero_le_length (cap : Nat) : 0 ≤ (List.replicate cap (0 : UInt8)).length := Nat.zero_le _

/-- `cloak_msgqueue_init`. -/
def init (cap : Nat) : Option MsgQueue :=
  if h : msgQueueLenPrefix < cap then
    some { data := List.replicate cap 0, head := 0, len := 0, payloadBytes := 0, count := 0,
           closed := false, prefix_lt := by simpa using h,
           head_lt := by simpa using Nat.zero_lt_of_lt h, len_le := zero_le_length cap }
  else none

/-- The ring after a prefix and a message are put at the tail. -/
def putMsg (q : MsgQueue) (msg : List UInt8) : List UInt8 :=
  ringPut (ringPut q.data ((q.head + q.len) % q.cap) (beBytes msgQueueLenPrefix msg.length))
    (((q.head + q.len) % q.cap + msgQueueLenPrefix) % q.cap) msg

theorem length_putMsg (q : MsgQueue) (msg : List UInt8) (h : msg.length ≤ q.cap) :
    (q.putMsg msg).length = q.data.length := by
  have hcap : 0 < q.data.length := Nat.zero_lt_of_lt q.head_lt
  have hfirst := length_ringPut q.data ((q.head + q.len) % q.data.length)
    (beBytes msgQueueLenPrefix msg.length) (Nat.mod_lt _ hcap)
    (by rw [length_beBytes]; exact Nat.le_of_lt q.prefix_lt)
  rw [putMsg, cap, length_ringPut _ _ _ (by rw [hfirst]; exact Nat.mod_lt _ hcap)
    (by rw [hfirst]; exact h), hfirst]

/-- `cloak_msgqueue_write`. -/
def write (q : MsgQueue) (msg : List UInt8) : MsgQueue × MsgQueueWrite :=
  if q.closed then (q, .closed)
  else if q.cap - msgQueueLenPrefix < msg.length ∨ 0xffffffff < msg.length then (q, .tooLarge)
  else if h : q.cap - q.len < msg.length + msgQueueLenPrefix then (q, .full)
  else
    have hfit : msg.length + msgQueueLenPrefix ≤ q.data.length - q.len := Nat.not_lt.mp h
    have hput : (q.putMsg msg).length = q.data.length := q.length_putMsg msg (by
      unfold cap
      omega)
    ({ q with
        data := q.putMsg msg
        len := q.len + msgQueueLenPrefix + msg.length
        payloadBytes := q.payloadBytes + msg.length
        count := q.count + 1
        prefix_lt := by rw [hput]; exact q.prefix_lt
        head_lt := by rw [hput]; exact q.head_lt
        len_le := by
          have hlen := q.len_le
          rw [hput]
          omega }, .ok)

/-- `cloak_msgqueue_peek_len`: the length of the first message, if there is one. -/
def peekLen (q : MsgQueue) : Option Nat :=
  if q.count = 0 then none
  else some (beNat (ringPeek q.data q.head msgQueueLenPrefix))

/-- `cloak_msgqueue_read`: nothing is taken unless the whole message fits `outCap`. -/
def read (q : MsgQueue) (outCap : Nat) : MsgQueueRead × MsgQueue :=
  match q.peekLen with
  | none => (.empty, q)
  | some n =>
    if outCap < n then (.shortBuffer, q)
    else
      (.msg (ringPeek q.data ((q.head + msgQueueLenPrefix) % q.cap) n),
        { q with
          head := (q.head + msgQueueLenPrefix + n) % q.data.length
          len := q.len - (msgQueueLenPrefix + n)
          payloadBytes := q.payloadBytes - n
          count := q.count - 1
          head_lt := Nat.mod_lt _ (Nat.zero_lt_of_lt q.head_lt)
          len_le := Nat.le_trans (Nat.sub_le _ _) q.len_le })

/-- `cloak_msgqueue_close`. -/
def close (q : MsgQueue) : MsgQueue := { q with closed := true }

/-- `cloak_msgqueue_is_eof`. -/
def isEof (q : MsgQueue) : Bool := q.closed && q.count == 0

/-! ## Capacity -/

theorem init_isSome {cap : Nat} (h : msgQueueLenPrefix < cap) :
    ∃ q, init cap = some q ∧ q.cap = cap := by
  unfold init
  rw [dif_pos h]
  exact ⟨_, rfl, by simp [MsgQueue.cap]⟩

@[simp] theorem cap_write (q : MsgQueue) (msg : List UInt8) : (q.write msg).1.cap = q.cap := by
  unfold write
  split
  · rfl
  · split
    · rfl
    · split
      · rfl
      · next h =>
        apply q.length_putMsg
        unfold cap at h ⊢
        omega

@[simp] theorem cap_read (q : MsgQueue) (outCap : Nat) : (q.read outCap).2.cap = q.cap := by
  unfold read
  split
  · rfl
  · split <;> rfl

@[simp] theorem cap_close (q : MsgQueue) : q.close.cap = q.cap := rfl

/-- A message is too large only against the whole ring, never against what is queued. -/
theorem write_ne_tooLarge (q : MsgQueue) (msg : List UInt8)
    (hcap : msg.length + msgQueueLenPrefix ≤ q.cap) (hrange : msg.length ≤ 0xffffffff) :
    (q.write msg).2 ≠ .tooLarge := by
  unfold write
  split
  · exact fun h => by cases h
  · rw [if_neg (by omega)]
    split <;> exact fun h => by cases h

/-! ## The queue as the messages it holds -/

/-- A message as it lies in the ring. -/
def record (msg : List UInt8) : List UInt8 := beBytes msgQueueLenPrefix msg.length ++ msg

@[simp] theorem length_record (msg : List UInt8) :
    (record msg).length = msgQueueLenPrefix + msg.length := by
  simp [record]

/-- The queue holds the messages `ms`, oldest first. -/
structure Holds (q : MsgQueue) (ms : List (List UInt8)) : Prop where
  cells : ringPeek q.data q.head q.len = ms.flatMap record
  count : q.count = ms.length
  payloadBytes : q.payloadBytes = (ms.map List.length).sum
  range : ∀ m ∈ ms, m.length < 256 ^ msgQueueLenPrefix

variable {q : MsgQueue} {m : List UInt8} {ms : List (List UInt8)} {n : Nat}

theorem holds_init {cap : Nat} (h : init cap = some q) : q.Holds [] := by
  unfold init at h
  split at h
  · obtain rfl := Option.some.inj h
    refine ⟨List.eq_nil_of_length_eq_zero ?_, rfl, rfl, nofun⟩
    exact length_ringPeek _ _ _ (by simp; omega) (Nat.zero_le _)
  · cases h

/-- The cells in use are the records, whole. -/
theorem Holds.len (hq : q.Holds ms) : q.len = (ms.flatMap record).length := by
  rw [← hq.cells, length_ringPeek _ _ _ q.head_lt q.len_le]

theorem Holds.close (hq : q.Holds ms) : q.close.Holds ms :=
  ⟨hq.cells, hq.count, hq.payloadBytes, hq.range⟩

theorem Holds.isEof_iff (hq : q.Holds ms) : q.isEof = true ↔ q.closed = true ∧ ms = [] := by
  rw [isEof, Bool.and_eq_true, beq_iff_eq, hq.count, List.length_eq_zero_iff]

/-- When a message is accepted. -/
theorem write_ok_iff (q : MsgQueue) (msg : List UInt8) :
    (q.write msg).2 = .ok ↔ q.closed = false ∧ msg.length ≤ 0xffffffff
      ∧ msg.length + msgQueueLenPrefix ≤ q.cap - q.len := by
  have hcap := q.prefix_lt
  unfold write
  split
  · next h => simp [h]
  · next hopen =>
    split
    · next h =>
      simp only [reduceCtorEq, false_iff]
      unfold cap at *
      omega
    · split
      · next h => simp [h]
      · next hlarge hfull =>
        simp only [true_iff]
        exact ⟨by simpa using hopen, by omega, by omega⟩

/-- A refused message leaves the queue as it was. -/
theorem write_refused {msg : List UInt8} (h : (q.write msg).2 ≠ .ok) : (q.write msg).1 = q := by
  unfold write at h ⊢
  split
  · rfl
  · split
    · rfl
    · split
      · rfl
      · next hopen hlarge hfull =>
        rw [if_neg hopen, if_neg hlarge, dif_neg hfull] at h
        exact absurd rfl h

@[simp] theorem closed_write (q : MsgQueue) (msg : List UInt8) :
    (q.write msg).1.closed = q.closed := by
  unfold write
  split
  · rfl
  · split
    · rfl
    · split <;> rfl

/-- The two puts of a write append a record to what a peek from the head shows. -/
theorem ringPeek_putMsg (q : MsgQueue) (msg : List UInt8)
    (hfit : q.len + (msgQueueLenPrefix + msg.length) ≤ q.data.length) :
    ringPeek (q.putMsg msg) q.head (q.len + msgQueueLenPrefix + msg.length)
      = ringPeek q.data q.head q.len ++ record msg := by
  have hcap : 0 < q.data.length := Nat.zero_lt_of_lt q.head_lt
  have hput : (ringPut q.data ((q.head + q.len) % q.data.length)
      (beBytes msgQueueLenPrefix msg.length)).length = q.data.length :=
    length_ringPut _ _ _ (Nat.mod_lt _ hcap) (by rw [length_beBytes]; omega)
  have htail : ((q.head + q.len) % q.cap + msgQueueLenPrefix) % q.cap
      = (q.head + (q.len + msgQueueLenPrefix)) % q.data.length := by
    rw [cap, Nat.mod_add_mod, Nat.add_assoc]
  have hfirst := ringPeek_ringPut q.data q.head q.len (beBytes msgQueueLenPrefix msg.length)
    q.head_lt (by rw [length_beBytes]; omega)
  have hsecond := ringPeek_ringPut _ q.head (q.len + msgQueueLenPrefix) msg
    (by rw [hput]; exact q.head_lt) (by rw [hput]; omega)
  rw [hput] at hsecond
  rw [length_beBytes] at hfirst
  rw [putMsg, htail, record, ← List.append_assoc, ← hfirst]
  exact hsecond

theorem Holds.write {msg : List UInt8} (hq : q.Holds ms) (hok : (q.write msg).2 = .ok) :
    (q.write msg).1.Holds (ms ++ [msg]) := by
  obtain ⟨hopen, hrange, hfit⟩ := (q.write_ok_iff msg).mp hok
  have hcap := q.prefix_lt
  have hlen := q.len_le
  unfold cap at hfit
  unfold MsgQueue.write
  rw [if_neg (by simp [hopen]), if_neg (by unfold cap; omega), dif_neg (by unfold cap; omega)]
  refine ⟨?_, ?_, ?_, ?_⟩
  · rw [q.ringPeek_putMsg msg (by omega), hq.cells, List.flatMap_append, List.flatMap_singleton]
  · rw [List.length_append, ← hq.count]
    rfl
  · rw [List.map_append, List.sum_append, ← hq.payloadBytes]
    rfl
  · intro m hm
    obtain hm | hm := List.mem_append.mp hm
    · exact hq.range m hm
    · rw [List.mem_singleton.mp hm]
      simp only [msgQueueLenPrefix]
      omega

theorem Holds.read_nil (hq : q.Holds []) (n : Nat) : q.read n = (.empty, q) := by
  have hcount : q.count = 0 := hq.count
  rw [read, peekLen, if_pos hcount]

/-- The first cells are the first record. -/
theorem Holds.ringPeek_head (hq : q.Holds (m :: ms)) :
    ringPeek q.data q.head msgQueueLenPrefix = beBytes msgQueueLenPrefix m.length
      ∧ ringPeek q.data ((q.head + msgQueueLenPrefix) % q.data.length) m.length = m
      ∧ ringPeek q.data ((q.head + msgQueueLenPrefix + m.length) % q.data.length)
        (q.len - (msgQueueLenPrefix + m.length)) = ms.flatMap record
      ∧ msgQueueLenPrefix + m.length ≤ q.len := by
  have hlen : q.len = msgQueueLenPrefix + m.length + (ms.flatMap record).length := by
    rw [hq.len, List.flatMap_cons, List.length_append, length_record]
  have hcells : ringPeek q.data q.head q.len
      = beBytes msgQueueLenPrefix m.length ++ (m ++ ms.flatMap record) := by
    rw [hq.cells, List.flatMap_cons, record, List.append_assoc]
  have hrest := ringPeek_advance q.data q.head q.len msgQueueLenPrefix q.head_lt q.len_le (by omega)
  have hall := ringPeek_advance q.data q.head q.len (msgQueueLenPrefix + m.length) q.head_lt q.len_le
    (by omega)
  refine ⟨?_, ?_, ?_, by omega⟩
  · rw [ringPeek_take _ _ q.len _ q.head_lt q.len_le (by omega), hcells,
      List.take_left' (length_beBytes _ _)]
  · rw [hcells, List.drop_left' (length_beBytes _ _)] at hrest
    rw [ringPeek_take _ _ (q.len - msgQueueLenPrefix) _
      (Nat.mod_lt _ (Nat.zero_lt_of_lt q.head_lt)) (by have := q.len_le; omega) (by omega), hrest,
      List.take_left' rfl]
  · rw [Nat.add_assoc, hall, hcells, ← List.append_assoc, List.drop_left' (by simp)]

theorem Holds.peekLen (hq : q.Holds (m :: ms)) : q.peekLen = some m.length := by
  have hcount : q.count ≠ 0 := by rw [hq.count]; exact Nat.succ_ne_zero _
  rw [MsgQueue.peekLen, if_neg hcount, hq.ringPeek_head.1,
    beNat_beBytes _ _ (hq.range m List.mem_cons_self)]

theorem Holds.read_short (hq : q.Holds (m :: ms)) (h : n < m.length) :
    q.read n = (.shortBuffer, q) := by
  rw [read, hq.peekLen]
  exact if_pos h

theorem Holds.read_msg (hq : q.Holds (m :: ms)) (h : m.length ≤ n) :
    (q.read n).1 = .msg m ∧ (q.read n).2.Holds ms := by
  obtain ⟨_, hmsg, hrest, _⟩ := hq.ringPeek_head
  rw [read, hq.peekLen]
  simp only
  rw [if_neg (by omega)]
  refine ⟨by rw [cap, hmsg], hrest, ?_, ?_, fun m' hm => hq.range m' (List.mem_cons_of_mem _ hm)⟩
  · exact congrArg (· - 1) hq.count
  · have hbytes := hq.payloadBytes
    rw [List.map_cons, List.sum_cons] at hbytes
    simp only
    omega

@[simp] theorem closed_read (q : MsgQueue) (n : Nat) : (q.read n).2.closed = q.closed := by
  unfold read
  split
  · rfl
  · split <;> rfl

end MsgQueue

end Cloak
