import Cloak.Lib.HoleHeap
import Mathlib.Data.List.Basic
import Mathlib.Data.List.Nodup
import Mathlib.Data.Nat.Bitwise

set_option autoImplicit false

/-! # The reactor's timers

`reactor.c` keeps its pending timers in a binary heap by deadline and names each by the slot it
occupies: a slot knows where its timer sits in the heap, and how many timers it had before. The
arrays are memory, functions of the index, with their counts and capacities beside them. A timer's
callback and userdata are one value of `κ`. -/

namespace Cloak

universe u

variable {κ : Type u}

def TIMER_SLOT_BITS : Nat := 20

/-- `TIMER_SLOT_MASK`, and the most slots a reactor has. -/
def TIMER_MAX_SLOTS : Nat := 2 ^ TIMER_SLOT_BITS - 1

def TIMER_GEN_MAX : Nat := 2 ^ (64 - TIMER_SLOT_BITS) - 1

def CLOAK_TIMER_INVALID : Nat := 0

/-- `struct timer_entry`. -/
structure TimerEntry (κ : Type u) where
  deadlineMs : Nat
  id : Nat
  slot : Nat
  cb : κ

/-- `struct timer_slot`. -/
structure TimerSlot where
  heapPos : Nat
  gen : Nat
  nextFree : Option Nat
  inUse : Bool

/-- The timer part of `struct cloak_reactor`; `TIMER_NO_SLOT` is `none`. -/
structure Reactor (κ : Type u) where
  stopped : Bool
  timers : Nat → TimerEntry κ
  timerCount : Nat
  timerCap : Nat
  slots : Nat → TimerSlot
  slotsCount : Nat
  slotsCap : Nat
  freeSlot : Option Nat

namespace Reactor

/-- `cloak_reactor_create`. -/
def create [Inhabited κ] : Reactor κ where
  stopped := false
  timers := fun _ => ⟨0, 0, 0, default⟩
  timerCount := 0
  timerCap := 0
  slots := fun _ => ⟨0, 0, none, false⟩
  slotsCount := 0
  slotsCap := 0
  freeSlot := none

/-- `timer_place`. -/
def timerPlace (r : Reactor κ) (i : Nat) (e : TimerEntry κ) : Reactor κ :=
  { r with
    timers := Function.update r.timers i e
    slots := Function.update r.slots e.slot { r.slots e.slot with heapPos := i } }

/-- The loop of `heap_sift_up`: the hole is at `i` and `e` is in hand. `i` as fuel is enough. -/
def siftUpLoop : (fuel : Nat) → Reactor κ → Nat → TimerEntry κ → (moves : Nat) → Reactor κ × Nat
  | 0, r, i, e, moves => (r.timerPlace i e, moves)
  | fuel + 1, r, i, e, moves =>
    if 0 < i then
      if (r.timers ((i - 1) / 2)).deadlineMs ≤ e.deadlineMs then (r.timerPlace i e, moves)
      else siftUpLoop fuel (r.timerPlace i (r.timers ((i - 1) / 2))) ((i - 1) / 2) e (moves + 1)
    else (r.timerPlace i e, moves)

/-- `heap_sift_up`. -/
def heapSiftUp (r : Reactor κ) (i : Nat) : Reactor κ × Nat := siftUpLoop i r i (r.timers i) 0

/-- The child that `heap_sift_down` compares with, the left one if both are due together. -/
def smallestChild (r : Reactor κ) (i : Nat) : Nat :=
  if 2 * i + 2 < r.timerCount ∧
      (r.timers (2 * i + 2)).deadlineMs < (r.timers (2 * i + 1)).deadlineMs then 2 * i + 2
  else 2 * i + 1

/-- The loop of `heap_sift_down`. `timerCount - i` as fuel is enough. -/
def siftDownLoop : (fuel : Nat) → Reactor κ → Nat → TimerEntry κ → (moves : Nat) → Reactor κ × Nat
  | 0, r, i, e, moves => (r.timerPlace i e, moves)
  | fuel + 1, r, i, e, moves =>
    if r.timerCount ≤ 2 * i + 1 then (r.timerPlace i e, moves)
    else if e.deadlineMs ≤ (r.timers (r.smallestChild i)).deadlineMs then (r.timerPlace i e, moves)
    else
      siftDownLoop fuel (r.timerPlace i (r.timers (r.smallestChild i))) (r.smallestChild i) e
        (moves + 1)

/-- `heap_sift_down`. -/
def heapSiftDown (r : Reactor κ) (i : Nat) : Reactor κ × Nat :=
  siftDownLoop (r.timerCount - i) r i (r.timers i) 0

/-- `heap_remove_at`. -/
def heapRemoveAt (r : Reactor κ) (pos : Nat) : Reactor κ :=
  let last := r.timerCount - 1
  let r := { r with timerCount := last }
  if pos = last then r
  else
    let (r, moves) := (r.timerPlace pos (r.timers last)).heapSiftDown pos
    if moves = 0 then (r.heapSiftUp pos).1 else r

/-- `timer_slot_alloc`; `mem` is whether `realloc` has memory for more slots. -/
def timerSlotAlloc (r : Reactor κ) (mem : Bool) : Option (Reactor κ × Nat) :=
  match r.freeSlot with
  | some s =>
    some ({ r with
      freeSlot := (r.slots s).nextFree
      slots := Function.update r.slots s { r.slots s with inUse := true, nextFree := none } }, s)
  | none =>
    if TIMER_MAX_SLOTS ≤ r.slotsCount then none
    else if r.slotsCount = r.slotsCap ∧ mem = false then none
    else
      let s := r.slotsCount
      some ({ r with
        slotsCap := if r.slotsCount = r.slotsCap then
          min (if r.slotsCap = 0 then 8 else r.slotsCap * 2) TIMER_MAX_SLOTS else r.slotsCap
        slotsCount := r.slotsCount + 1
        slots := Function.update r.slots s ⟨0, 0, none, true⟩ }, s)

/-- `timer_slot_free`. A slot that is out of generations is not put back on the free list. -/
def timerSlotFree (r : Reactor κ) (s : Nat) : Reactor κ :=
  if (r.slots s).gen < TIMER_GEN_MAX then
    { r with
      slots := Function.update r.slots s
        { r.slots s with inUse := false, gen := (r.slots s).gen + 1, nextFree := r.freeSlot }
      freeSlot := some s }
  else { r with slots := Function.update r.slots s { r.slots s with inUse := false } }

/-- `timer_heap_ensure_capacity`; `mem` is whether `realloc` has memory for more entries. -/
def timerHeapEnsureCapacity (r : Reactor κ) (mem : Bool) : Option (Reactor κ) :=
  if r.timerCount < r.timerCap then some r
  else if mem = false then none
  else some { r with timerCap := if r.timerCap = 0 then 8 else r.timerCap * 2 }

/-- The handle of the timer in slot `s`. -/
def handle (gen s : Nat) : Nat := gen <<< TIMER_SLOT_BITS ||| (s + 1)

/-- `cloak_reactor_add_timer` at the clock reading `now`. -/
def addTimer (r : Reactor κ) (now delayMs : Nat) (cb : Option κ) (heapMem slotMem : Bool) :
    Reactor κ × Nat :=
  match cb with
  | none => (r, CLOAK_TIMER_INVALID)
  | some cb =>
    match r.timerHeapEnsureCapacity heapMem with
    | none => (r, CLOAK_TIMER_INVALID)
    | some r =>
      match r.timerSlotAlloc slotMem with
      | none => (r, CLOAK_TIMER_INVALID)
      | some (r, slot) =>
        let e : TimerEntry κ :=
          { deadlineMs := (now + delayMs) % 2 ^ 64
            id := handle (r.slots slot).gen slot
            slot := slot
            cb := cb }
        let idx := r.timerCount
        (({ r with timerCount := idx + 1 }.timerPlace idx e).heapSiftUp idx |>.1, e.id)

/-- The slot whose timer a handle names. -/
def lookup (r : Reactor κ) (id : Nat) : Option Nat :=
  let low := id % 2 ^ TIMER_SLOT_BITS
  if id = CLOAK_TIMER_INVALID ∨ low = 0 then none
  else
    let slot := low - 1
    if r.slotsCount ≤ slot then none
    else if (r.slots slot).inUse = false ∨ (r.slots slot).gen ≠ id >>> TIMER_SLOT_BITS then none
    else some slot

/-- Where each slot believes its timer is. -/
def heapPos (r : Reactor κ) (s : Nat) : Nat := (r.slots s).heapPos

/-- The timer of slot `s` leaves the heap and then its slot. -/
def remove (r : Reactor κ) (s : Nat) : Reactor κ :=
  (r.heapRemoveAt (r.heapPos s)).timerSlotFree s

/-- `cloak_reactor_cancel_timer`, less the counting of its steps. -/
def cancelTimer (r : Reactor κ) (id : Nat) : Reactor κ :=
  match r.lookup id with
  | none => r
  | some slot => r.remove slot

/-- The timer that `process_expired_timers` takes next, where `now` is the reading it began with. -/
def expired (r : Reactor κ) (now : Nat) : Option (TimerEntry κ) :=
  if 0 < r.timerCount ∧ r.stopped = false then
    if now < (r.timers 0).deadlineMs then none else some (r.timers 0)
  else none

/-- What `process_expired_timers` does before it calls back. -/
def fireTop (r : Reactor κ) : Reactor κ := (r.heapRemoveAt 0).timerSlotFree (r.timers 0).slot

/-! ## The heap -/

/-- Only the heap's cells and the slots' records of them may differ. -/
structure Rearranged (r r' : Reactor κ) : Prop where
  stopped : r'.stopped = r.stopped
  timerCount : r'.timerCount = r.timerCount
  timerCap : r'.timerCap = r.timerCap
  slotsCount : r'.slotsCount = r.slotsCount
  slotsCap : r'.slotsCap = r.slotsCap
  freeSlot : r'.freeSlot = r.freeSlot
  gen : ∀ s, (r'.slots s).gen = (r.slots s).gen
  nextFree : ∀ s, (r'.slots s).nextFree = (r.slots s).nextFree
  inUse : ∀ s, (r'.slots s).inUse = (r.slots s).inUse

@[refl] theorem Rearranged.refl (r : Reactor κ) : Rearranged r r :=
  ⟨rfl, rfl, rfl, rfl, rfl, rfl, fun _ => rfl, fun _ => rfl, fun _ => rfl⟩

@[trans] theorem Rearranged.trans {r r' r'' : Reactor κ} (h : Rearranged r r')
    (h' : Rearranged r' r'') : Rearranged r r'' where
  stopped := h'.stopped.trans h.stopped
  timerCount := h'.timerCount.trans h.timerCount
  timerCap := h'.timerCap.trans h.timerCap
  slotsCount := h'.slotsCount.trans h.slotsCount
  slotsCap := h'.slotsCap.trans h.slotsCap
  freeSlot := h'.freeSlot.trans h.freeSlot
  gen s := (h'.gen s).trans (h.gen s)
  nextFree s := (h'.nextFree s).trans (h.nextFree s)
  inUse s := (h'.inUse s).trans (h.inUse s)

@[simp] theorem timerPlace_timers (r : Reactor κ) (i : Nat) (e : TimerEntry κ) :
    (r.timerPlace i e).timers = Function.update r.timers i e := rfl

@[simp] theorem timerPlace_timerCount (r : Reactor κ) (i : Nat) (e : TimerEntry κ) :
    (r.timerPlace i e).timerCount = r.timerCount := rfl

@[simp] theorem timerPlace_heapPos (r : Reactor κ) (i : Nat) (e : TimerEntry κ) :
    (r.timerPlace i e).heapPos = Function.update r.heapPos e.slot i := by
  funext s
  by_cases hs : s = e.slot
  · subst hs
    simp [heapPos, timerPlace]
  · simp [heapPos, timerPlace, hs]

theorem timerPlace_rearranged (r : Reactor κ) (i : Nat) (e : TimerEntry κ) :
    Rearranged r (r.timerPlace i e) := by
  have hslot : ∀ s, (r.timerPlace i e).slots s = { r.slots s with heapPos := (r.timerPlace i e).heapPos s } := by
    intro s
    by_cases hs : s = e.slot
    · subst hs
      simp [heapPos, timerPlace]
    · simp [heapPos, timerPlace, hs]
  refine ⟨rfl, rfl, rfl, rfl, rfl, rfl, ?_, ?_, ?_⟩ <;> intro s <;> rw [hslot]

theorem siftUpLoop_rearranged (fuel : Nat) (r : Reactor κ) (i : Nat) (e : TimerEntry κ)
    (moves : Nat) : Rearranged r (siftUpLoop fuel r i e moves).1 := by
  induction fuel generalizing r i moves with
  | zero => exact r.timerPlace_rearranged i e
  | succ fuel ih =>
    unfold siftUpLoop
    split
    · split
      · exact r.timerPlace_rearranged i e
      · exact (r.timerPlace_rearranged i _).trans (ih _ _ _)
    · exact r.timerPlace_rearranged i e

theorem siftDownLoop_rearranged (fuel : Nat) (r : Reactor κ) (i : Nat) (e : TimerEntry κ)
    (moves : Nat) : Rearranged r (siftDownLoop fuel r i e moves).1 := by
  induction fuel generalizing r i moves with
  | zero => exact r.timerPlace_rearranged i e
  | succ fuel ih =>
    unfold siftDownLoop
    split
    · exact r.timerPlace_rearranged i e
    · split
      · exact r.timerPlace_rearranged i e
      · exact (r.timerPlace_rearranged i _).trans (ih _ _ _)

/-- The heap is ordered by deadline. -/
def HeapOrdered (r : Reactor κ) : Prop :=
  Lib.CellsOrdered TimerEntry.deadlineMs r.timers r.timerCount

/-- The heap holds the timers `m`, by slot, and each of these slots knows where. -/
def Holds (r : Reactor κ) (m : Nat → Option (TimerEntry κ)) : Prop :=
  Lib.Filed TimerEntry.slot r.timers r.timerCount r.heapPos m

/-- `Holds` while `e` is lifted out of the cell `i`. -/
def HoldsBut (r : Reactor κ) (m : Nat → Option (TimerEntry κ)) (i : Nat) (e : TimerEntry κ) : Prop :=
  Lib.FiledHole TimerEntry.slot r.timers r.timerCount r.heapPos m i e

variable {r : Reactor κ} {m : Nat → Option (TimerEntry κ)} {i : Nat} {e : TimerEntry κ}

theorem HoldsBut.place (h : r.HoldsBut m i e) : (r.timerPlace i e).Holds m := by
  have hfin := h.finish
  rwa [← timerPlace_heapPos, ← timerPlace_timers, ← timerPlace_timerCount r i e] at hfin

theorem HoldsBut.move {c : Nat} (h : r.HoldsBut m i e) (hc : c < r.timerCount) (hne : c ≠ i) :
    (r.timerPlace i (r.timers c)).HoldsBut m c e := by
  have hmove := Lib.FiledHole.move h hc hne
  rwa [← timerPlace_heapPos, ← timerPlace_timers, ← timerPlace_timerCount r i (r.timers c)] at hmove

/-- The smallest child is a child and no child is smaller. -/
theorem smallestChild_spec (r : Reactor κ) (i : Nat) (hleft : 2 * i + 1 < r.timerCount) :
    (0 < r.smallestChild i ∧ r.smallestChild i < r.timerCount ∧ (r.smallestChild i - 1) / 2 = i) ∧
      ∀ k, 0 < k → k < r.timerCount → (k - 1) / 2 = i →
        (r.timers (r.smallestChild i)).deadlineMs ≤ (r.timers k).deadlineMs := by
  unfold smallestChild
  split
  · rename_i hright
    refine ⟨by omega, fun k hk0 hk hki => ?_⟩
    obtain rfl | rfl : k = 2 * i + 1 ∨ k = 2 * i + 2 := by omega
    · exact le_of_lt hright.2
    · exact le_rfl
  · rename_i hright
    refine ⟨by omega, fun k hk0 hk hki => ?_⟩
    obtain rfl | rfl : k = 2 * i + 1 ∨ k = 2 * i + 2 := by omega
    · exact le_rfl
    · exact not_lt.mp fun hlt => hright ⟨hk, hlt⟩

theorem siftUpLoop_holds (fuel : Nat) (moves : Nat) (h : r.HoldsBut m i e) :
    (siftUpLoop fuel r i e moves).1.Holds m := by
  induction fuel generalizing r i moves with
  | zero => exact h.place
  | succ fuel ih =>
    unfold siftUpLoop
    have hi := h.lt
    split
    · split
      · exact h.place
      · exact ih _ (h.move (by omega) (by omega))
    · exact h.place

theorem siftDownLoop_holds (fuel : Nat) (moves : Nat) (h : r.HoldsBut m i e) :
    (siftDownLoop fuel r i e moves).1.Holds m := by
  induction fuel generalizing r i moves with
  | zero => exact h.place
  | succ fuel ih =>
    unfold siftDownLoop
    split
    · exact h.place
    · split
      · exact h.place
      · rename_i hleft _
        obtain ⟨⟨hc0, hc, hparent⟩, _⟩ := r.smallestChild_spec i (by omega)
        exact ih _ (h.move hc (by omega))

theorem siftUpLoop_ordered (fuel : Nat) (moves : Nat) (hfuel : i ≤ fuel) (hi : i < r.timerCount)
    (h : Lib.UpHole TimerEntry.deadlineMs r.timers r.timerCount i e) :
    (siftUpLoop fuel r i e moves).1.HeapOrdered := by
  induction fuel generalizing r i moves with
  | zero => exact h.finish fun hi0 => by omega
  | succ fuel ih =>
    unfold siftUpLoop
    split
    · rename_i hi0
      split
      · rename_i hle
        exact h.finish fun _ => hle
      · rename_i hlt
        have hup := h.move hi0 hi (not_le.mp hlt)
        have hlt' : (i - 1) / 2 < (r.timerPlace i (r.timers ((i - 1) / 2))).timerCount := by
          rw [timerPlace_timerCount]
          omega
        exact ih _ (by omega) hlt' hup
    · rename_i hi0
      exact h.finish fun hi0' => absurd hi0' hi0

theorem siftDownLoop_ordered (fuel : Nat) (moves : Nat) (hfuel : r.timerCount ≤ i + fuel)
    (h : Lib.DownHole TimerEntry.deadlineMs r.timers r.timerCount i e) :
    (siftDownLoop fuel r i e moves).1.HeapOrdered := by
  induction fuel generalizing r i moves with
  | zero => exact h.finish fun k _ hk hki => by omega
  | succ fuel ih =>
    unfold siftDownLoop
    split
    · exact h.finish fun k hk0 hk hki => by omega
    · rename_i hleft
      obtain ⟨⟨hc0, hc, hparent⟩, hmin⟩ := r.smallestChild_spec i (by omega)
      split
      · rename_i hle
        exact h.finish fun k hk0 hk hki => hle.trans (hmin k hk0 hk hki)
      · rename_i hlt
        refine ih _ ?_ (h.move hc0 hc hparent (not_le.mp hlt) hmin)
        rw [timerPlace_timerCount]
        omega

/-- Sifting down leaves an entry that no child is due before. -/
theorem siftDownLoop_stays (fuel : Nat) (r : Reactor κ) (i : Nat) (e : TimerEntry κ) (moves : Nat)
    (h : ∀ k, 0 < k → k < r.timerCount → (k - 1) / 2 = i → e.deadlineMs ≤ (r.timers k).deadlineMs) :
    siftDownLoop fuel r i e moves = (r.timerPlace i e, moves) := by
  cases fuel with
  | zero => rfl
  | succ fuel =>
    unfold siftDownLoop
    split
    · rfl
    · rename_i hleft
      obtain ⟨⟨hc0, hc, hparent⟩, _⟩ := r.smallestChild_spec i (by omega)
      rw [if_pos (h _ hc0 hc hparent)]

theorem heapSiftUp_holds (h : r.Holds m) (hi : i < r.timerCount) : (r.heapSiftUp i).1.Holds m :=
  siftUpLoop_holds i 0 (h.lift hi)

theorem heapSiftDown_holds (h : r.Holds m) (hi : i < r.timerCount) :
    (r.heapSiftDown i).1.Holds m :=
  siftDownLoop_holds _ 0 (h.lift hi)

theorem heapSiftUp_rearranged (r : Reactor κ) (i : Nat) : Rearranged r (r.heapSiftUp i).1 :=
  siftUpLoop_rearranged i r i _ 0

theorem heapSiftDown_rearranged (r : Reactor κ) (i : Nat) : Rearranged r (r.heapSiftDown i).1 :=
  siftDownLoop_rearranged _ r i _ 0

theorem heapSiftUp_ordered (hi : i < r.timerCount)
    (h : Lib.UpHole TimerEntry.deadlineMs r.timers r.timerCount i (r.timers i)) :
    (r.heapSiftUp i).1.HeapOrdered :=
  siftUpLoop_ordered i 0 (Nat.le_refl i) hi h

theorem heapSiftDown_ordered
    (h : Lib.DownHole TimerEntry.deadlineMs r.timers r.timerCount i (r.timers i)) :
    (r.heapSiftDown i).1.HeapOrdered :=
  siftDownLoop_ordered (r.timerCount - i) 0 (by omega) h

/-- `heap_remove_at` drops the last cell, and moves its entry to `pos` unless that is the one. -/
theorem heapRemoveAt_cases (r : Reactor κ) (pos : Nat) :
    (pos = r.timerCount - 1 ∧ r.heapRemoveAt pos = { r with timerCount := r.timerCount - 1 }) ∨
    ∃ r' moves, pos ≠ r.timerCount - 1 ∧
      ({ r with timerCount := r.timerCount - 1 }.timerPlace pos
        (r.timers (r.timerCount - 1))).heapSiftDown pos = (r', moves) ∧
      r.heapRemoveAt pos = if moves = 0 then (r'.heapSiftUp pos).1 else r' := by
  by_cases hlast : pos = r.timerCount - 1
  · exact .inl ⟨hlast, by rw [heapRemoveAt]; exact if_pos hlast⟩
  · exact .inr ⟨_, _, hlast, rfl, by rw [heapRemoveAt]; exact if_neg hlast⟩

theorem heapRemoveAt_rearranged (r : Reactor κ) (pos : Nat) :
    Rearranged { r with timerCount := r.timerCount - 1 } (r.heapRemoveAt pos) := by
  obtain ⟨_, hr⟩ | ⟨r', moves, _, hdown, hr⟩ := r.heapRemoveAt_cases pos
  · rw [hr]
  · have hplace := { r with timerCount := r.timerCount - 1 }.timerPlace_rearranged pos
      (r.timers (r.timerCount - 1))
    have hsift := hplace.trans (heapSiftDown_rearranged _ pos)
    rw [hdown] at hsift
    rw [hr]
    split
    · exact hsift.trans (heapSiftUp_rearranged r' pos)
    · exact hsift

theorem heapRemoveAt_holds {pos : Nat} (h : r.Holds m) (hpos : pos < r.timerCount) :
    (r.heapRemoveAt pos).Holds (Function.update m (r.timers pos).slot none) := by
  obtain ⟨n, hn⟩ : ∃ n, r.timerCount = n + 1 := ⟨r.timerCount - 1, by omega⟩
  rw [Holds, hn] at h
  have hlt : r.timerCount - 1 = n := by omega
  obtain ⟨hlast, hr⟩ | ⟨r', moves, hne, hdown, hr⟩ := r.heapRemoveAt_cases pos
  · rw [hr, hlast, hlt]
    exact h.drop_last
  · rw [hlt] at hdown hne
    have hpos' : pos < n := by omega
    have hput : ({ r with timerCount := n }.timerPlace pos (r.timers n)).Holds
        (Function.update m (r.timers pos).slot none) := HoldsBut.place (h.drop_hole hpos')
    have hsift := heapSiftDown_holds hput hpos'
    have hcount := (heapSiftDown_rearranged
      ({ r with timerCount := n }.timerPlace pos (r.timers n)) pos).timerCount
    rw [hdown] at hsift hcount
    rw [hr]
    split
    · exact heapSiftUp_holds hsift (by rw [hcount]; exact hpos')
    · exact hsift

theorem heapRemoveAt_ordered {pos : Nat} (h : r.HeapOrdered) (hpos : pos < r.timerCount) :
    (r.heapRemoveAt pos).HeapOrdered := by
  obtain ⟨n, hn⟩ : ∃ n, r.timerCount = n + 1 := ⟨r.timerCount - 1, by omega⟩
  rw [HeapOrdered, hn] at h
  have hlt : r.timerCount - 1 = n := by omega
  obtain ⟨hlast, hr⟩ | ⟨r', moves, hne, hdown, hr⟩ := r.heapRemoveAt_cases pos
  · rw [hr, hlt]
    exact fun k hk0 hk => h k hk0 (Nat.lt_succ_of_lt hk)
  · rw [hlt] at hdown hne
    have hpos' : pos < n := by omega
    generalize hr₁ : { r with timerCount := n }.timerPlace pos (r.timers n) = r₁ at hdown
    have hcells : r₁.timers = Function.update r.timers pos (r.timers n) := by rw [← hr₁]; rfl
    have hcount₁ : r₁.timerCount = n := by rw [← hr₁]; rfl
    have hself : r₁.timers pos = r.timers n := by rw [hcells, Function.update_self]
    have hcount := (heapSiftDown_rearranged r₁ pos).timerCount
    rw [hdown, hcount₁] at hcount
    rw [hr]
    by_cases habove : 0 < pos → (r.timers ((pos - 1) / 2)).deadlineMs ≤ (r.timers n).deadlineMs
    · -- not due before its parent: sifting down does it, and sifting up changes nothing
      have hhole := (h.downHole hpos' habove).refill (r.timers n)
      rw [← hcells, ← hself, ← hcount₁] at hhole
      have hsift := heapSiftDown_ordered hhole
      rw [hdown] at hsift
      split
      · have hlt' : pos < r'.timerCount := by rw [hcount]; exact hpos'
        exact heapSiftUp_ordered hlt' (Lib.CellsOrdered.upHole hsift pos hlt')
      · exact hsift
    · -- due before its parent, hence before the children too: sifting down does not move it
      obtain ⟨hpos0, hbefore⟩ := Classical.not_imp.mp habove
      have hhole := (h.upHole_last hpos' hpos0 (not_le.mp hbefore)).refill (r.timers n)
      rw [← hcells] at hhole
      have hstay : r₁.heapSiftDown pos = (r₁.timerPlace pos (r₁.timers pos), 0) := by
        refine siftDownLoop_stays _ r₁ pos _ 0 fun k hk0 hk hkp => ?_
        rw [hself]
        exact hhole.below k hk0 (hcount₁ ▸ hk) hkp
      rw [hstay] at hdown
      cases hdown
      rw [if_pos rfl]
      refine heapSiftUp_ordered (by rw [timerPlace_timerCount, hcount₁]; exact hpos') ?_
      rw [timerPlace_timers, timerPlace_timerCount, Function.update_self, hcount₁, hself]
      exact hhole.refill _

end Reactor

end Cloak
