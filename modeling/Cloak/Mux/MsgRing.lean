import Mathlib
import Cloak.Lib.Refine
import Cloak.Lib.Words
import Cloak.Mux.MsgQueue

set_option autoImplicit false

/-! # The message ring is a list of messages (`msgqueue.c`)

Three levels of one queue. `MsgRing` is the C structure with its `size_t` fields: every sum and difference
of the code is one of machine words, and a length may be any word. `MsgQueue` is the same ring in natural
numbers, with what keeps its copies inside. `MsgFifo` is the list of messages a queue is for, each with
its length and four bytes charged to the capacity.

`MsgRing.Agrees` says that the words of a ring are the numbers of a queue. Each call keeps it and answers
alike, since no sum of an admitted call wraps: the code compares a length with what is left of the ring
before it adds to it. Together with `MsgQueue.Holds` this makes the ring answer every run of calls as the
list does (`message_ring_refines`). -/

namespace Cloak

open Lib

/-- What `malloc` gives for `cap` bytes, if it gives anything: no object is past `PTRDIFF_MAX`. -/
structure MallocBlock (cap : UInt64) where
  cells : List UInt8
  length_eq : cells.length = cap.toNat
  lt_max : cap.toNat < 2 ^ 63

/-- `cloak_msgqueue_t`. -/
structure MsgRing where
  data : List UInt8
  cap : UInt64
  head : UInt64
  len : UInt64
  count : UInt64
  payloadBytes : UInt64
  closed : Bool
deriving DecidableEq

namespace MsgRing

/-- `CLOAK_MSGQUEUE_LEN_PREFIX` as a `size_t`. -/
def lenPrefix : UInt64 := 4

/-- `ring_peek`: the `n` bytes copied to `dst`. -/
def peekAt (q : MsgRing) (off n : UInt64) : List UInt8 :=
  let first := q.cap - off
  if n ≤ first then slice q.data off.toNat n.toNat
  else slice q.data off.toNat first.toNat ++ slice q.data 0 (n - first).toNat

/-- `ring_put`, of the first `n` bytes at `src`. -/
def putAt (q : MsgRing) (off : UInt64) (src : List UInt8) (n : UInt64) : MsgRing :=
  let first := q.cap - off
  let data :=
    if n ≤ first then patch q.data off.toNat (src.take n.toNat)
    else
      patch (patch q.data off.toNat (src.take first.toNat)) 0 (slice src first.toNat (n - first).toNat)
  { q with data := data }

/-- `cloak_msgqueue_init`, with the block `malloc` gives. -/
def init (cap : UInt64) (block : Option (MallocBlock cap)) : Option MsgRing :=
  if cap ≤ lenPrefix then none
  else block.map fun b => ⟨b.cells, cap, 0, 0, 0, 0, false⟩

/-- The `len` bytes at a pointer. -/
def bytesAt (msg : Nat → UInt8) (len : UInt64) : List UInt8 := (List.range len.toNat).map msg

/-- The four bytes put in front of a message. -/
def prefixOf (len : UInt64) : List UInt8 :=
  [(len >>> 24).toUInt8, (len >>> 16).toUInt8, (len >>> 8).toUInt8, len.toUInt8]

/-- The prefix and the message are put at the tail. -/
def putMsg (q : MsgRing) (msg : Nat → UInt8) (len : UInt64) : MsgRing :=
  let tail := (q.head + q.len) % q.cap
  let q' := q.putAt tail (prefixOf len) lenPrefix
  if 0 < len then q'.putAt ((tail + lenPrefix) % q.cap) (bytesAt msg len) len else q'

/-- `cloak_msgqueue_write`. The bytes at `msg` are not looked at before the message is admitted. -/
def write (q : MsgRing) (msg : Nat → UInt8) (len : UInt64) : MsgRing × MsgQueueWrite :=
  if q.closed then (q, .closed)
  else if q.cap - lenPrefix < len ∨ 0xffffffff < len then (q, .tooLarge)
  else if q.cap - q.len < len + lenPrefix then (q, .full)
  else
    ({ q.putMsg msg len with
        len := q.len + (lenPrefix + len)
        payloadBytes := q.payloadBytes + len
        count := q.count + 1 }, .ok)

/-- `cloak_msgqueue_peek_len`. -/
def peekLen (q : MsgRing) : Option UInt64 :=
  if q.count = 0 then none
  else
    let p := q.peekAt q.head lenPrefix
    some (((p.getD 0 0).toUInt64 <<< 24) ||| ((p.getD 1 0).toUInt64 <<< 16)
      ||| ((p.getD 2 0).toUInt64 <<< 8) ||| (p.getD 3 0).toUInt64)

/-- `cloak_msgqueue_read`. -/
def read (q : MsgRing) (outCap : UInt64) : MsgQueueRead × MsgRing :=
  match q.peekLen with
  | none => (.empty, q)
  | some dataLen =>
    if outCap < dataLen then (.shortBuffer, q)
    else
      (.msg (if 0 < dataLen then q.peekAt ((q.head + lenPrefix) % q.cap) dataLen else []),
        { q with
          head := (q.head + lenPrefix + dataLen) % q.cap
          len := q.len - (lenPrefix + dataLen)
          payloadBytes := q.payloadBytes - dataLen
          count := q.count - 1 })

/-- `cloak_msgqueue_close`. -/
def close (q : MsgRing) : MsgRing := { q with closed := true }

/-- `cloak_msgqueue_is_eof`. -/
def isEof (q : MsgRing) : Bool := q.closed && q.count == 0

/-! ## Words and numbers -/

/-- The words of the ring are the numbers of the queue, and small enough to be added. -/
structure Agrees (r : MsgRing) (q : MsgQueue) : Prop where
  data : r.data = q.data
  cap : r.cap.toNat = q.data.length
  cap_lt : q.data.length < 2 ^ 63
  head : r.head.toNat = q.head
  len : r.len.toNat = q.len
  count : r.count.toNat = q.count
  payloadBytes : r.payloadBytes.toNat = q.payloadBytes
  closed : r.closed = q.closed

variable {r : MsgRing} {q : MsgQueue} {off n : UInt64}

theorem peekAt_eq (r : MsgRing) (hcap : r.cap.toNat = r.data.length)
    (hoff : off.toNat < r.data.length) :
    r.peekAt off n = ringPeek r.data off.toNat n.toNat := by
  have hfirst : (r.cap - off).toNat = r.data.length - off.toNat := by
    rw [toNat_sub_size (by omega), hcap]
  unfold peekAt ringPeek
  simp only [UInt64.le_iff_toNat_le, hfirst]
  split
  · rfl
  · next h => rw [toNat_sub_size (by omega), hfirst]

theorem putAt_eq (r : MsgRing) (src : List UInt8) (hcap : r.cap.toNat = r.data.length)
    (hoff : off.toNat < r.data.length) (hn : n.toNat = src.length) :
    r.putAt off src n = { r with data := ringPut r.data off.toNat src } := by
  have hfirst : (r.cap - off).toNat = r.data.length - off.toNat := by
    rw [toNat_sub_size (by omega), hcap]
  unfold putAt ringPut
  simp only [UInt64.le_iff_toNat_le, hfirst, hn]
  congr 1
  split
  · rw [List.take_length]
  · next h =>
    have hrest : (n - (r.cap - off)).toNat = (src.drop (r.data.length - off.toNat)).length := by
      rw [toNat_sub_size (by omega), hfirst, hn, List.length_drop]
    rw [hrest, slice, List.take_length]

/-! ## Each call keeps the agreement -/

/-- What the records of some messages take up. -/
theorem length_records (ms : List (List UInt8)) :
    (ms.flatMap MsgQueue.record).length = 4 * ms.length + (ms.map List.length).sum := by
  induction ms with
  | nil => rfl
  | cons m ms ih =>
    rw [List.flatMap_cons, List.length_append, MsgQueue.length_record, ih, List.length_cons,
      List.map_cons, List.sum_cons, msgQueueLenPrefix]
    omega

/-- The numbers of a queue that holds messages are up to its length. -/
theorem holds_sum {ms : List (List UInt8)} (hq : q.Holds ms) : 4 * q.count + q.payloadBytes = q.len := by
  rw [hq.len, hq.count, hq.payloadBytes, length_records]

@[simp] theorem length_bytesAt (msg : Nat → UInt8) (len : UInt64) :
    (bytesAt msg len).length = len.toNat := by
  simp [bytesAt]

theorem prefixOf_eq (len : UInt64) : prefixOf len = beBytes msgQueueLenPrefix len.toNat :=
  beBytes_size len

/-- The admission tests are those of the queue: nothing they add or subtract wraps. -/
theorem Agrees.tests (h : r.Agrees q) (len : UInt64) :
    (r.cap - lenPrefix < len ∨ 0xffffffff < len ↔
      q.cap - msgQueueLenPrefix < len.toNat ∨ 0xffffffff < len.toNat) ∧
    (¬ (r.cap - lenPrefix < len ∨ 0xffffffff < len) →
      (r.cap - r.len < len + lenPrefix ↔ q.cap - q.len < len.toNat + msgQueueLenPrefix)) := by
  have hstarts : lenPrefix.toNat = 4 := rfl
  have hcap := h.cap
  have hlarge : 4 < q.data.length := q.prefix_lt
  have hmax := h.cap_lt
  have hlen := h.len
  have hle := q.len_le
  have hroom : (r.cap - lenPrefix).toNat = q.data.length - 4 := by
    rw [toNat_sub_size (by omega), hcap, hstarts]
  have hfree : (r.cap - r.len).toNat = q.data.length - q.len := by
    rw [toNat_sub_size (by omega), hcap, hlen]
  have hrange : (0xffffffff : UInt64).toNat = 0xffffffff := rfl
  unfold MsgQueue.cap
  simp only [UInt64.lt_iff_toNat_lt, hroom, hfree, hrange, msgQueueLenPrefix, true_and]
  intro hok
  rw [toNat_add_size (by omega), hstarts]

theorem ringPut_nil (data : List UInt8) (off : Nat) : ringPut data off [] = data := by
  simp [ringPut, patch]

/-- Where the bytes of an admitted message go. -/
theorem Agrees.putMsg (h : r.Agrees q) (msg : Nat → UInt8) {len : UInt64}
    (hfit : q.len + (4 + len.toNat) ≤ q.data.length) :
    r.putMsg msg len = { r with data := q.putMsg (bytesAt msg len) } := by
  have hcap := h.cap
  have hmax := h.cap_lt
  have hhead := q.head_lt
  have hpos : 0 < q.data.length := by omega
  have htail : ((r.head + r.len) % r.cap).toNat = (q.head + q.len) % q.data.length := by
    rw [UInt64.toNat_mod, hcap, toNat_add_size (by rw [h.head, h.len]; omega), h.head, h.len]
  have htaillt := Nat.mod_lt (q.head + q.len) hpos
  have hnext : (((r.head + r.len) % r.cap + lenPrefix) % r.cap).toNat
      = ((q.head + q.len) % q.data.length + 4) % q.data.length := by
    rw [UInt64.toNat_mod, hcap, toNat_add_size (by rw [htail, show lenPrefix.toNat = 4 from rfl]; omega),
      htail]
    rfl
  have hput : (ringPut q.data ((q.head + q.len) % q.data.length) (beBytes 4 len.toNat)).length
      = q.data.length := length_ringPut _ _ _ htaillt (by rw [length_beBytes]; omega)
  unfold MsgRing.putMsg
  dsimp only
  rw [putAt_eq r (prefixOf len) (by rw [h.data, hcap]) (by rw [h.data, htail]; exact htaillt) rfl,
    h.data, htail, prefixOf_eq, MsgQueue.putMsg, MsgQueue.cap, length_bytesAt, msgQueueLenPrefix]
  split
  · rw [putAt_eq _ _ (by rw [hcap, hput]) (by rw [hnext, hput]; exact Nat.mod_lt _ hpos)
      (length_bytesAt msg len).symm, hnext]
  · next hzero =>
    have hnil : bytesAt msg len = [] := by
      rw [← List.length_eq_zero_iff, length_bytesAt]
      rw [UInt64.lt_iff_toNat_lt] at hzero
      exact Nat.eq_zero_of_not_pos hzero
    rw [hnil, ringPut_nil]

theorem Agrees.write (h : r.Agrees q) {ms : List (List UInt8)} (hq : q.Holds ms) (msg : Nat → UInt8)
    (len : UInt64) : (r.write msg len).2 = (q.write (bytesAt msg len)).2 ∧
      (r.write msg len).1.Agrees (q.write (bytesAt msg len)).1 := by
  obtain ⟨hlarge, hfull⟩ := h.tests len
  rw [← length_bytesAt msg len] at hlarge hfull
  have hbytes := length_bytesAt msg len
  have hsum := holds_sum hq
  have hlen := q.len_le
  have hcap := h.cap
  have hmax := h.cap_lt
  unfold MsgRing.write MsgQueue.write
  rw [h.closed]
  split
  · exact ⟨rfl, h⟩
  · by_cases hbig : r.cap - lenPrefix < len ∨ 0xffffffff < len
    · rw [if_pos hbig, if_pos (hlarge.mp hbig)]
      exact ⟨rfl, h⟩
    · have hfull := hfull hbig
      rw [if_neg hbig, if_neg (mt hlarge.mpr hbig)]
      by_cases hno : r.cap - r.len < len + lenPrefix
      · rw [if_pos hno, dif_pos (hfull.mp hno)]
        exact ⟨rfl, h⟩
      · -- the message is admitted, so what it adds stays inside the ring
        have hfit : q.len + (4 + len.toNat) ≤ q.data.length := by
          have := mt hfull.mpr hno
          unfold MsgQueue.cap msgQueueLenPrefix at this
          omega
        have hadd : (lenPrefix + len).toNat = 4 + len.toNat := by
          rw [toNat_add_size (by rw [show lenPrefix.toNat = 4 from rfl]; omega)]
          rfl
        rw [if_neg hno, dif_neg (mt hfull.mpr hno), h.putMsg msg hfit]
        have hlength : (q.putMsg (bytesAt msg len)).length = q.data.length :=
          q.length_putMsg _ (by rw [length_bytesAt, MsgQueue.cap]; omega)
        refine ⟨rfl, rfl, ?_, ?_, h.head, ?_, ?_, ?_, h.closed⟩
        · rw [hlength]
          exact hcap
        · rw [hlength]
          exact hmax
        · change (r.len + (lenPrefix + len)).toNat = q.len + msgQueueLenPrefix + (bytesAt msg len).length
          rw [hbytes, toNat_add_size (by rw [h.len, hadd]; omega), h.len, hadd, msgQueueLenPrefix, Nat.add_assoc]
        · change (r.count + 1).toNat = q.count + 1
          rw [toNat_add_size (by rw [h.count, show (1 : UInt64).toNat = 1 from rfl]; omega), h.count]
          rfl
        · change (r.payloadBytes + len).toNat = q.payloadBytes + (bytesAt msg len).length
          rw [hbytes, toNat_add_size (by rw [h.payloadBytes]; omega), h.payloadBytes]

theorem Agrees.peekLen (h : r.Agrees q) : r.peekLen.map UInt64.toNat = q.peekLen := by
  have hstarts : lenPrefix.toNat = 4 := rfl
  have hlarge : 4 < q.data.length := q.prefix_lt
  have hzero : r.count = 0 ↔ q.count = 0 := by
    rw [← UInt64.toNat_inj, h.count]
    rfl
  unfold MsgRing.peekLen MsgQueue.peekLen
  by_cases hc : q.count = 0
  · rw [if_pos (hzero.mpr hc), if_pos hc]
    rfl
  · rw [if_neg (mt hzero.mp hc), if_neg hc, Option.map_some]
    have hlen : (ringPeek q.data q.head msgQueueLenPrefix).length = 4 :=
      length_ringPeek _ _ _ q.head_lt (Nat.le_of_lt hlarge)
    rw [peekAt_eq r (by rw [h.data, h.cap]) (by rw [h.data, h.head]; exact q.head_lt), h.data, h.head,
      hstarts]
    rw [msgQueueLenPrefix] at hlen ⊢
    obtain ⟨a, b, c, d, heq⟩ := List.length_eq_four.mp hlen
    rw [heq]
    exact congrArg some (toNat_be32_size a b c d)

/-- The first message is inside the ring, so nothing a read adds wraps. -/
theorem Agrees.read_msg (h : r.Agrees q) {m : List UInt8} {ms : List (List UInt8)}
    (hq : q.Holds (m :: ms)) {n : UInt64} (hn : n.toNat = m.length) (outCap : UInt64)
    (hpeek : r.peekLen = some n) (hfits : ¬ outCap < n) :
    (r.read outCap).1 = (q.read outCap.toNat).1 ∧ (r.read outCap).2.Agrees (q.read outCap.toNat).2 := by
  have hcap := h.cap
  have hmax := h.cap_lt
  have hhead := q.head_lt
  have hle := q.len_le
  have hstarts : lenPrefix.toNat = 4 := rfl
  have hrecord : 4 + m.length ≤ q.len := hq.ringPeek_head.2.2.2
  have hsum := holds_sum hq
  have hcount : q.count = ms.length + 1 := hq.count
  have hpayload : m.length ≤ q.payloadBytes := by
    rw [hq.payloadBytes, List.map_cons, List.sum_cons]
    exact Nat.le_add_right ..
  have hnext : ((r.head + lenPrefix) % r.cap).toNat = (q.head + 4) % q.data.length := by
    rw [UInt64.toNat_mod, hcap, toNat_add_size (by rw [h.head, hstarts]; omega), h.head, hstarts]
  have hnextlt := Nat.mod_lt (q.head + 4) (Nat.zero_lt_of_lt hhead)
  have hadd : (lenPrefix + n).toNat = 4 + m.length := by
    rw [toNat_add_size (by rw [hstarts]; omega), hstarts, hn]
  have hout : ¬ outCap.toNat < m.length := by
    rw [UInt64.lt_iff_toNat_lt, hn] at hfits
    exact hfits
  have hmsg : (if 0 < n then r.peekAt ((r.head + lenPrefix) % r.cap) n else [])
      = ringPeek q.data ((q.head + 4) % q.data.length) m.length := by
    split
    · rw [peekAt_eq r (by rw [h.data, hcap]) (by rw [hnext, h.data]; exact hnextlt), h.data, hnext, hn]
    · next hzero =>
      have hnil : m.length = 0 := by
        rw [UInt64.lt_iff_toNat_lt, hn] at hzero
        exact Nat.eq_zero_of_not_pos hzero
      rw [hnil, eq_comm, ← List.length_eq_zero_iff]
      exact length_ringPeek _ _ _ hnextlt (Nat.zero_le _)
  rw [MsgRing.read, MsgQueue.read, hpeek, hq.peekLen]
  dsimp only
  rw [if_neg hfits, if_neg hout, hmsg]
  refine ⟨rfl, h.data, hcap, hmax, ?_, ?_, ?_, ?_, h.closed⟩
  · change ((r.head + lenPrefix + n) % r.cap).toNat = (q.head + msgQueueLenPrefix + m.length) % _
    have hfirst : (r.head + lenPrefix).toNat = q.head + 4 := by
      rw [toNat_add_size (by rw [h.head, hstarts]; omega), h.head, hstarts]
    rw [UInt64.toNat_mod, hcap, toNat_add_size (by rw [hfirst]; omega), hfirst, hn]
    rfl
  · change (r.len - (lenPrefix + n)).toNat = q.len - (msgQueueLenPrefix + m.length)
    rw [toNat_sub_size (by rw [hadd, h.len]; exact hrecord), hadd, h.len]
    rfl
  · change (r.count - 1).toNat = q.count - 1
    rw [toNat_sub_size (by rw [h.count, hcount]; exact Nat.succ_le_succ (Nat.zero_le _)), h.count]
    rfl
  · change (r.payloadBytes - n).toNat = q.payloadBytes - m.length
    rw [toNat_sub_size (by rw [hn, h.payloadBytes]; exact hpayload), h.payloadBytes, hn]

theorem Agrees.read (h : r.Agrees q) {ms : List (List UInt8)} (hq : q.Holds ms) (outCap : UInt64) :
    (r.read outCap).1 = (q.read outCap.toNat).1 ∧ (r.read outCap).2.Agrees (q.read outCap.toNat).2 := by
  have hpeek := h.peekLen
  cases ms with
  | nil =>
    rw [hq.read_nil]
    have hnone : q.peekLen = none := if_pos hq.count
    rw [hnone, Option.map_eq_none_iff] at hpeek
    rw [MsgRing.read, hpeek]
    exact ⟨rfl, h⟩
  | cons m ms =>
    rw [hq.peekLen] at hpeek
    obtain ⟨n, hn, hnm⟩ := Option.map_eq_some_iff.mp hpeek
    by_cases hshort : outCap < n
    · rw [hq.read_short (n := outCap.toNat) (by rw [← hnm]; exact UInt64.lt_iff_toNat_lt.mp hshort),
        MsgRing.read, hn]
      dsimp only
      rw [if_pos hshort]
      exact ⟨rfl, h⟩
    · exact h.read_msg hq hnm outCap hn hshort

theorem Agrees.close (h : r.Agrees q) : r.close.Agrees q.close :=
  ⟨h.data, h.cap, h.cap_lt, h.head, h.len, h.count, h.payloadBytes, rfl⟩

end MsgRing

/-! ## The list of messages -/

/-- What the messages of a list are charged: each its length and its prefix. -/
def msgsCost (ms : List (List UInt8)) : Nat := (ms.map fun m => m.length + msgQueueLenPrefix).sum

@[simp] theorem msgsCost_nil : msgsCost [] = 0 := rfl

@[simp] theorem msgsCost_cons (m : List UInt8) (ms : List (List UInt8)) :
    msgsCost (m :: ms) = m.length + msgQueueLenPrefix + msgsCost ms := by
  simp [msgsCost]

@[simp] theorem msgsCost_append (ms ms' : List (List UInt8)) :
    msgsCost (ms ++ ms') = msgsCost ms + msgsCost ms' := by
  simp [msgsCost]

/-- A list of messages whose cost the capacity bounds, and a one-way flag. -/
structure MsgFifo where
  cap : Nat
  msgs : List (List UInt8)
  closed : Bool
  cost_le : msgsCost msgs ≤ cap

/-- The calls of `msgqueue.c` on a queue that has been set up. -/
inductive MsgQueueCall where
  | write (msg : Nat → UInt8) (len : UInt64)
  | peekLen
  | read (outCap : UInt64)
  | close

/-- What a call gives back. -/
inductive MsgQueueAnswer where
  | wrote (res : MsgQueueWrite)
  | peeked (len : Option Nat)
  | took (res : MsgQueueRead)
  | done
deriving DecidableEq, Repr

namespace MsgFifo

/-- Nothing has been written. -/
def empty (cap : Nat) : MsgFifo := ⟨cap, [], false, Nat.zero_le _⟩

/-- A message goes behind the others if it ever can, and can now. -/
def write (f : MsgFifo) (m : List UInt8) : MsgFifo × MsgQueueWrite :=
  if f.closed then (f, .closed)
  else if f.cap < m.length + msgQueueLenPrefix ∨ 0xffffffff < m.length then (f, .tooLarge)
  else if h : f.cap < msgsCost f.msgs + (m.length + msgQueueLenPrefix) then (f, .full)
  else ({ f with msgs := f.msgs ++ [m], cost_le := by simpa using h }, .ok)

/-- The first message leaves the list if the buffer holds it. -/
def read (f : MsgFifo) (outCap : Nat) : MsgFifo × MsgQueueRead :=
  match h : f.msgs with
  | [] => (f, .empty)
  | m :: ms =>
    if outCap < m.length then (f, .shortBuffer)
    else
      ({ f with
          msgs := ms
          cost_le := by
            have hle := f.cost_le
            rw [h, msgsCost_cons] at hle
            omega }, .msg m)

/-- One call on the list. -/
def call (f : MsgFifo) : MsgQueueCall → MsgFifo × MsgQueueAnswer
  | .write msg len => ((f.write (MsgRing.bytesAt msg len)).1, .wrote (f.write (MsgRing.bytesAt msg len)).2)
  | .peekLen => (f, .peeked (f.msgs.head?.map List.length))
  | .read outCap => ((f.read outCap.toNat).1, .took (f.read outCap.toNat).2)
  | .close => ({ f with closed := true }, .done)

@[simp] theorem cap_call (f : MsgFifo) (c : MsgQueueCall) : (f.call c).1.cap = f.cap := by
  cases c with
  | write msg len =>
    simp only [call, write]
    repeat' split
    all_goals rfl
  | peekLen => rfl
  | read outCap =>
    simp only [call, read]
    repeat' split
    all_goals rfl
  | close => rfl

theorem cap_trace (f : MsgFifo) (cs : List MsgQueueCall) : (trace call f cs).1.cap = f.cap := by
  rw [trace_fst]
  exact run_invariant (P := fun g : MsgFifo => g.cap = f.cap) rfl
    (fun g c hg => (g.cap_call c).trans hg) cs

end MsgFifo

/-! ## The ring holds the list -/

namespace MsgRing

/-- One call on the ring. -/
def call (r : MsgRing) : MsgQueueCall → MsgRing × MsgQueueAnswer
  | .write msg len => ((r.write msg len).1, .wrote (r.write msg len).2)
  | .peekLen => (r, .peeked (r.peekLen.map UInt64.toNat))
  | .read outCap => ((r.read outCap).2, .took (r.read outCap).1)
  | .close => (r.close, .done)

/-- The words of the ring are those of a queue that holds the messages of the list. -/
def Models (r : MsgRing) (f : MsgFifo) : Prop :=
  ∃ q : MsgQueue, r.Agrees q ∧ q.Holds f.msgs ∧ q.cap = f.cap ∧ q.closed = f.closed

variable {r : MsgRing} {q : MsgQueue} {f : MsgFifo}

theorem len_eq_cost {ms : List (List UInt8)} (hq : q.Holds ms) : q.len = msgsCost ms := by
  rw [hq.len, length_records]
  clear hq
  induction ms with
  | nil => rfl
  | cons m ms ih =>
    rw [msgsCost_cons, ← ih, List.length_cons, List.map_cons, List.sum_cons, msgQueueLenPrefix]
    omega

/-- The queue admits a message when the list does, and says the same otherwise. -/
theorem write_eq (hq : q.Holds f.msgs) (hcap : q.cap = f.cap) (hclosed : q.closed = f.closed)
    (m : List UInt8) : (q.write m).2 = (f.write m).2 ∧ (q.write m).1.Holds (f.write m).1.msgs ∧
      (q.write m).1.closed = (f.write m).1.closed := by
  have hstarts : msgQueueLenPrefix < q.cap := q.prefix_lt
  have hlen := len_eq_cost hq
  have hle : q.len ≤ q.cap := q.len_le
  by_cases hok : (q.write m).2 = .ok
  · obtain ⟨hopen, hrange, hfit⟩ := (q.write_ok_iff m).mp hok
    have hwrite : f.write m = ({ f with msgs := f.msgs ++ [m], cost_le := by simp; omega }, .ok) := by
      rw [MsgFifo.write, if_neg (by simp [← hclosed, hopen]), if_neg (by omega), dif_neg (by omega)]
    rw [hwrite, hok]
    exact ⟨rfl, hq.write hok, (q.closed_write m).trans hclosed⟩
  · rw [q.write_refused hok]
    -- the three refusals, in the order of the code
    unfold MsgQueue.write at hok ⊢
    unfold MsgFifo.write
    rw [hclosed] at hok ⊢
    split
    · exact ⟨rfl, hq, rfl⟩
    · next hopen =>
      rw [if_neg hopen] at hok
      by_cases hlarge : q.cap - msgQueueLenPrefix < m.length ∨ 0xffffffff < m.length
      · rw [if_pos hlarge, if_pos (by omega)]
        exact ⟨rfl, hq, rfl⟩
      · rw [if_neg hlarge] at hok
        rw [if_neg hlarge, if_neg (by omega)]
        by_cases hfull : q.cap - q.len < m.length + msgQueueLenPrefix
        · rw [dif_pos hfull, dif_pos (by omega)]
          exact ⟨rfl, hq, rfl⟩
        · rw [dif_neg hfull] at hok
          exact absurd rfl hok

theorem read_eq (hq : q.Holds f.msgs) (n : Nat) :
    (q.read n).1 = (f.read n).2 ∧ (q.read n).2.Holds (f.read n).1.msgs ∧
      (f.read n).1.closed = f.closed := by
  unfold MsgFifo.read
  split
  · next hnil =>
    rw [hnil] at hq
    rw [hq.read_nil]
    exact ⟨rfl, hnil ▸ hq, rfl⟩
  · next m ms hcons =>
    rw [hcons] at hq
    by_cases hshort : n < m.length
    · rw [if_pos hshort, hq.read_short hshort]
      exact ⟨rfl, hcons ▸ hq, rfl⟩
    · obtain ⟨hmsg, hrest⟩ := hq.read_msg (Nat.not_lt.mp hshort)
      rw [if_neg hshort]
      exact ⟨hmsg, hrest, rfl⟩

theorem head?_eq (hq : q.Holds f.msgs) : q.peekLen = f.msgs.head?.map List.length := by
  cases hms : f.msgs with
  | nil =>
    rw [hms] at hq
    exact if_pos hq.count
  | cons m ms =>
    rw [hms] at hq
    exact hq.peekLen

theorem simulates_fifo : Simulates Models call (stepRel MsgFifo.call) := by
  intro r f c ⟨q, hagrees, hholds, hcap, hclosed⟩
  refine ⟨(f.call c).1, ?_, ?_⟩
  · -- the answers
    cases c with
    | write msg len =>
      obtain ⟨hanswer, -⟩ := hagrees.write hholds msg len
      obtain ⟨hlist, -⟩ := write_eq hholds hcap hclosed (bytesAt msg len)
      simp [stepRel, call, MsgFifo.call, hanswer, hlist]
    | peekLen => simp [stepRel, call, MsgFifo.call, hagrees.peekLen, head?_eq hholds]
    | read outCap =>
      obtain ⟨hanswer, -⟩ := hagrees.read hholds outCap
      obtain ⟨hlist, -⟩ := read_eq hholds outCap.toNat
      simp [stepRel, call, MsgFifo.call, hanswer, hlist]
    | close => rfl
  · cases c with
    | write msg len =>
      obtain ⟨-, hnext⟩ := hagrees.write hholds msg len
      obtain ⟨-, hheld, hflag⟩ := write_eq hholds hcap hclosed (bytesAt msg len)
      exact ⟨_, hnext, hheld, by rw [MsgQueue.cap_write, hcap, MsgFifo.cap_call], hflag⟩
    | peekLen => exact ⟨q, hagrees, hholds, hcap, hclosed⟩
    | read outCap =>
      obtain ⟨-, hnext⟩ := hagrees.read hholds outCap
      obtain ⟨-, hheld, hflag⟩ := read_eq hholds outCap.toNat
      exact ⟨_, hnext, hheld, by rw [MsgQueue.cap_read, hcap, MsgFifo.cap_call],
        (q.closed_read _).trans (hclosed.trans hflag.symm)⟩
    | close => exact ⟨q.close, hagrees.close, hholds.close, hcap, rfl⟩

theorem init_eq_some {cap : UInt64} {block : Option (MallocBlock cap)} (h : init cap block = some r) :
    r.Models (.empty cap.toNat) := by
  unfold init at h
  split at h
  · cases h
  · next hcap =>
    obtain ⟨b, -, rfl⟩ := Option.map_eq_some_iff.mp h
    have hlt : msgQueueLenPrefix < b.cells.length := by
      rw [b.length_eq]
      rw [UInt64.le_iff_toNat_le] at hcap
      exact Nat.not_le.mp hcap
    refine ⟨⟨b.cells, 0, 0, 0, 0, false, hlt, Nat.zero_lt_of_lt hlt, Nat.zero_le _⟩, ?_, ?_, ?_, rfl⟩
    · exact ⟨rfl, b.length_eq.symm, by rw [b.length_eq]; exact b.lt_max, rfl, rfl, rfl, rfl, rfl⟩
    · refine ⟨?_, rfl, rfl, nofun⟩
      exact List.eq_nil_of_length_eq_zero (length_ringPeek _ _ _ (Nat.zero_lt_of_lt hlt) (Nat.zero_le _))
    · exact b.length_eq

/-- What the three counters of a ring say of the messages in it. -/
theorem Models.counters (h : r.Models f) : r.count.toNat = f.msgs.length ∧
    r.payloadBytes.toNat = (f.msgs.map List.length).sum ∧ r.len.toNat = msgsCost f.msgs ∧
      (r.isEof = true ↔ f.closed = true ∧ f.msgs = []) := by
  obtain ⟨q, hagrees, hholds, -, hclosed⟩ := h
  have hcount := hagrees.count.trans hholds.count
  refine ⟨hcount, hagrees.payloadBytes.trans hholds.payloadBytes, hagrees.len.trans (len_eq_cost hholds), ?_⟩
  rw [isEof, Bool.and_eq_true, beq_iff_eq, hagrees.closed, hclosed, ← UInt64.toNat_inj, hcount]
  exact and_congr_right fun _ => List.length_eq_zero_iff

/-- A message that is refused leaves every cell and every field. -/
theorem write_refused (r : MsgRing) (msg : Nat → UInt8) (len : UInt64) (h : (r.write msg len).2 ≠ .ok) :
    (r.write msg len).1 = r := by
  unfold write at h ⊢
  split
  · rfl
  · next hopen =>
    rw [if_neg hopen] at h
    split
    · rfl
    · next hsmall =>
      rw [if_neg hsmall] at h
      split
      · rfl
      · next hroom =>
        rw [if_neg hroom] at h
        exact absurd rfl h

/-- So does a read that gives no message. -/
theorem read_refused (r : MsgRing) (outCap : UInt64) (h : ∀ m, (r.read outCap).1 ≠ .msg m) :
    (r.read outCap).2 = r := by
  unfold read at h ⊢
  split
  · rfl
  · next n hn =>
    rw [hn] at h
    dsimp only at h
    split
    · rfl
    · next hfits =>
      rw [if_neg hfits] at h
      exact absurd rfl (h _)

/-- A ring is set up unless its capacity is no more than a prefix or there is no memory. Over every run
    of calls with lengths up to the largest word it answers as the list of messages does, the list costs no
    more than the capacity, the three counters are those of the list, and a write that is refused or a read
    without a message changes nothing. -/
theorem message_ring_refines (cap : UInt64) (block : Option (MallocBlock cap)) :
    (init cap block = none ↔ cap ≤ lenPrefix ∨ block = none) ∧
      ∀ r ∈ init cap block, ∀ calls : List MsgQueueCall,
        let r' := (trace call r calls).1
        let f' := (trace MsgFifo.call (.empty cap.toNat) calls).1
        (trace call r calls).2 = (trace MsgFifo.call (.empty cap.toNat) calls).2 ∧
          msgsCost f'.msgs ≤ cap.toNat ∧ r'.len.toNat = msgsCost f'.msgs ∧
          r'.count.toNat = f'.msgs.length ∧
          r'.payloadBytes.toNat = (f'.msgs.map List.length).sum ∧
          (r'.isEof = true ↔ f'.closed = true ∧ f'.msgs = []) ∧
          (∀ msg len, (r'.write msg len).2 ≠ .ok → (r'.write msg len).1 = r') ∧
          ∀ outCap, (∀ m, (r'.read outCap).1 ≠ .msg m) → (r'.read outCap).2 = r' := by
  constructor
  · unfold init
    split
    · next hsmall => simp [hsmall]
    · next hlarge => simp [hlarge]
  · intro r hr calls
    obtain ⟨hanswers, hmodels⟩ := simulates_fifo.trace_eq (init_eq_some hr) calls
    obtain ⟨hcount, hpayload, hlen, heof⟩ := hmodels.counters
    have hcap := MsgFifo.cap_trace (.empty cap.toNat) calls
    refine ⟨hanswers, ?_, hlen, hcount, hpayload, heof, write_refused _, read_refused _⟩
    exact Nat.le_trans (MsgFifo.cost_le _) (Nat.le_of_eq hcap)

/-- A ring of eleven cells: the second message goes round its end. -/
theorem message_ring_refines_wrapped :
    ∃ r, init 11 (some ⟨List.replicate 11 0, rfl, by decide⟩) = some r ∧
      (trace call r [.write (fun i => UInt8.ofNat i) 3, .read 2, .read 3,
        .write (fun i => UInt8.ofNat (i + 5)) 6, .write (fun _ => 9) 0, .peekLen, .read 7]).2 =
        [.wrote .ok, .took .shortBuffer, .took (.msg [0, 1, 2]), .wrote .ok, .wrote .full,
          .peeked (some 6), .took (.msg [5, 6, 7, 8, 9, 10])] := by
  refine ⟨_, rfl, ?_⟩
  rw [((message_ring_refines 11 (some ⟨List.replicate 11 0, rfl, by decide⟩)).2 _ rfl _).1]
  decide

/-- A length next to the largest word does not wrap into one that fits. -/
example : (write ⟨List.replicate 11 0, 11, 0, 0, 0, 0, false⟩ (fun _ => 9) 0xfffffffffffffffe).2 = .tooLarge :=
  by decide

end MsgRing

end Cloak
