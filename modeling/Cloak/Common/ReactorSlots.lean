import Cloak.Common.ReactorTimers

set_option autoImplicit false

/-! # The slots of the reactor's timers

A slot is in use, on the free list, or retired once it has run out of generations. `Sane` is what
the timer operations keep; the timers pending in a sane reactor are a map from slots, which an
operation changes at one slot. The handles issued for a slot are those of the generations below
`fresh`, so a new one was never issued before. -/

namespace Cloak

universe u

variable {κ : Type u}

namespace Reactor

/-! ## Handles -/

theorem handle_eq {gen s : Nat} (hs : s < TIMER_MAX_SLOTS) :
    handle gen s = gen * 2 ^ TIMER_SLOT_BITS + (s + 1) := by
  have hlow : s + 1 < 2 ^ TIMER_SLOT_BITS := by
    rw [TIMER_MAX_SLOTS] at hs
    omega
  rw [handle, ← Nat.shiftLeft_add_eq_or_of_lt hlow, Nat.shiftLeft_eq]

theorem handle_mod (gen : Nat) {s : Nat} (hs : s < TIMER_MAX_SLOTS) :
    handle gen s % 2 ^ TIMER_SLOT_BITS = s + 1 := by
  rw [handle_eq hs]
  simp only [TIMER_MAX_SLOTS, TIMER_SLOT_BITS] at *
  omega

theorem handle_shift (gen : Nat) {s : Nat} (hs : s < TIMER_MAX_SLOTS) :
    handle gen s >>> TIMER_SLOT_BITS = gen := by
  rw [handle_eq hs, Nat.shiftRight_eq_div_pow]
  simp only [TIMER_MAX_SLOTS, TIMER_SLOT_BITS] at *
  omega

theorem handle_ne_invalid {gen s : Nat} : handle gen s ≠ CLOAK_TIMER_INVALID := by
  intro h
  have hor := Nat.or_eq_zero_iff.mp h
  omega

/-- A handle names one slot and one generation. -/
theorem handle_inj {gen s gen' s' : Nat} (hs : s < TIMER_MAX_SLOTS) (hs' : s' < TIMER_MAX_SLOTS)
    (h : handle gen s = handle gen' s') : gen = gen' ∧ s = s' := by
  have hmod := handle_mod gen hs
  have hshift := handle_shift gen hs
  rw [h, handle_mod _ hs'] at hmod
  rw [h, handle_shift _ hs'] at hshift
  omega

/-! ## The free list -/

/-- The free list from `head` on. -/
def Threaded (slots : Nat → TimerSlot) : Option Nat → List Nat → Prop
  | head, [] => head = none
  | head, s :: free => head = some s ∧ Threaded slots (slots s).nextFree free

theorem Threaded.congr {slots slots' : Nat → TimerSlot} {head : Option Nat} {free : List Nat}
    (h : Threaded slots head free) (heq : ∀ s ∈ free, (slots' s).nextFree = (slots s).nextFree) :
    Threaded slots' head free := by
  induction free generalizing head with
  | nil => exact h
  | cons s free ih =>
    refine ⟨h.1, ?_⟩
    rw [heq s List.mem_cons_self]
    exact ih h.2 fun x hx => heq x (List.mem_cons_of_mem s hx)

/-- The slots handed out are in use, on the free list, or retired. -/
structure Divided (r : Reactor κ) (free : List Nat) : Prop where
  threaded : Threaded r.slots r.freeSlot free
  nodup : free.Nodup
  mem : ∀ s ∈ free, s < r.slotsCount ∧ (r.slots s).inUse = false
  unused : ∀ s, s < r.slotsCount → (r.slots s).inUse = false → s ∉ free →
    (r.slots s).gen = TIMER_GEN_MAX
  gen_le : ∀ s, s < r.slotsCount → (r.slots s).gen ≤ TIMER_GEN_MAX
  count_le : r.slotsCount ≤ TIMER_MAX_SLOTS

/-- The first generation of slot `s` that no handle was issued for. -/
def fresh (r : Reactor κ) (free : List Nat) (s : Nat) : Nat :=
  if s ∈ free then (r.slots s).gen else (r.slots s).gen + 1

variable {r r' : Reactor κ} {free : List Nat} {m : Nat → Option (TimerEntry κ)}

theorem Rearranged.divided (h : Rearranged r r') (hd : r.Divided free) : r'.Divided free where
  threaded := h.freeSlot ▸ hd.threaded.congr fun s _ => h.nextFree s
  nodup := hd.nodup
  mem s hs := by
    rw [h.slotsCount, h.inUse]
    exact hd.mem s hs
  unused s hs hu hf := by
    rw [h.slotsCount] at hs
    rw [h.inUse] at hu
    rw [h.gen]
    exact hd.unused s hs hu hf
  gen_le s hs := by
    rw [h.slotsCount] at hs
    rw [h.gen]
    exact hd.gen_le s hs
  count_le := h.slotsCount ▸ hd.count_le

theorem Rearranged.fresh (h : Rearranged r r') (s : Nat) : r'.fresh free s = r.fresh free s := by
  rw [Reactor.fresh, Reactor.fresh, h.gen]

/-- What `timer_slot_alloc` did when it took slot `s`. -/
structure Took (r r' : Reactor κ) (free free' : List Nat) (s : Nat) : Prop where
  divided : r'.Divided free'
  lt : s < r'.slotsCount
  inUse : (r'.slots s).inUse = true
  unused : s < r.slotsCount → (r.slots s).inUse = false
  count_le : r.slotsCount ≤ r'.slotsCount
  lt_cases : ∀ x, x < r'.slotsCount → x = s ∨ x < r.slotsCount
  other : ∀ x, x ≠ s → r'.slots x = r.slots x
  timers : r'.timers = r.timers
  timerCount : r'.timerCount = r.timerCount
  stopped : r'.stopped = r.stopped
  fresh_other : ∀ x, x ≠ s → r'.fresh free' x = r.fresh free x
  fresh_self : r'.fresh free' s = (r'.slots s).gen + 1
  fresh_old : s < r.slotsCount → r.fresh free s = (r'.slots s).gen
  gen_new : r.slotsCount ≤ s → (r'.slots s).gen = 0

/-- The slot came off the free list, -/
theorem took_free {s : Nat} {free : List Nat} (hd : r.Divided (s :: free)) :
    Took r { r with
      freeSlot := (r.slots s).nextFree
      slots := Function.update r.slots s { r.slots s with inUse := true, nextFree := none } }
      (s :: free) free s := by
  obtain ⟨_, hrest⟩ := hd.threaded
  obtain ⟨hfresh, hnodup⟩ := List.nodup_cons.mp hd.nodup
  have hself := hd.mem s List.mem_cons_self
  have hother : ∀ x, x ≠ s → Function.update r.slots s
      { r.slots s with inUse := true, nextFree := none } x = r.slots x :=
    fun x hx => Function.update_of_ne hx ..
  have hne : ∀ x ∈ free, x ≠ s := by
    rintro x hx rfl
    exact hfresh hx
  refine
    { divided := ?_
      lt := hself.1
      inUse := by simp
      unused := fun _ => hself.2
      count_le := Nat.le_refl _
      lt_cases := fun x hx => Or.inr hx
      other := hother
      timers := rfl
      timerCount := rfl
      stopped := rfl
      fresh_other := ?_
      fresh_self := ?_
      fresh_old := ?_
      gen_new := fun h => absurd hself.1 (not_lt.mpr h) }
  · refine ⟨hrest.congr fun x hx => ?_, hnodup, fun x hx => ?_, fun x hx hu hf => ?_, fun x hx => ?_,
      hd.count_le⟩
    · dsimp only
      rw [hother x (hne x hx)]
    · dsimp only
      rw [hother x (hne x hx)]
      exact hd.mem x (List.mem_cons_of_mem s hx)
    · have hxs : x ≠ s := by
        rintro rfl
        simp at hu
      dsimp only at hu ⊢
      rw [hother x hxs] at hu ⊢
      exact hd.unused x hx hu (by simp [hxs, hf])
    · by_cases hxs : x = s
      · subst hxs
        simpa using hd.gen_le x hx
      · dsimp only
        rw [hother x hxs]
        exact hd.gen_le x hx
  · intro x hx
    simp [fresh, hx]
  · simp [fresh, hfresh]
  · simp [fresh]

/-- or it is one more. -/
theorem took_new (hd : r.Divided []) (hcount : r.slotsCount < TIMER_MAX_SLOTS) (cap : Nat) :
    Took r { r with
      slotsCap := cap
      slotsCount := r.slotsCount + 1
      slots := Function.update r.slots r.slotsCount ⟨0, 0, none, true⟩
      freeSlot := none } [] [] r.slotsCount := by
  have hother : ∀ x, x ≠ r.slotsCount →
      Function.update r.slots r.slotsCount ⟨0, 0, none, true⟩ x = r.slots x :=
    fun x hx => Function.update_of_ne hx ..
  refine
    { divided := ?_
      lt := Nat.lt_succ_self _
      inUse := by simp
      unused := fun h => absurd h (Nat.lt_irrefl _)
      count_le := Nat.le_succ _
      lt_cases := fun x hx => by
        dsimp only at hx
        omega
      other := hother
      timers := rfl
      timerCount := rfl
      stopped := rfl
      fresh_other := fun x hx => by simp [fresh, hx]
      fresh_self := by simp [fresh]
      fresh_old := fun h => absurd h (Nat.lt_irrefl _)
      gen_new := fun _ => by simp }
  refine ⟨rfl, List.nodup_nil, by simp, fun x hx hu _ => ?_, fun x hx => ?_, hcount⟩
  · have hxs : x ≠ r.slotsCount := by
      rintro rfl
      simp at hu
    dsimp only at hx hu ⊢
    rw [hother x hxs] at hu ⊢
    exact hd.unused x (by omega) hu (by simp)
  · dsimp only at hx ⊢
    by_cases hxs : x = r.slotsCount
    · subst hxs
      simp
    · rw [hother x hxs]
      exact hd.gen_le x (by omega)

theorem timerSlotAlloc_took {mem : Bool} {s : Nat} (hd : r.Divided free)
    (h : r.timerSlotAlloc mem = some (r', s)) : ∃ free', Took r r' free free' s := by
  unfold timerSlotAlloc at h
  cases free with
  | nil =>
    have hhead : r.freeSlot = none := hd.threaded
    simp only [hhead] at h
    split at h
    · cases h
    · rename_i hcount
      split at h
      · cases h
      · cases h
        exact ⟨[], took_new hd (not_le.mp hcount) _⟩
  | cons head free =>
    simp only [hd.threaded.1] at h
    cases h
    exact ⟨free, took_free hd⟩

/-- What `timer_slot_free` does to a slot in use: either it is free now, or it is retired. -/
structure Gave (r r' : Reactor κ) (free free' : List Nat) (s : Nat) : Prop where
  divided : r'.Divided free'
  inUse : (r'.slots s).inUse = false
  other : ∀ x, x ≠ s → r'.slots x = r.slots x
  heapPos : r'.heapPos = r.heapPos
  timers : r'.timers = r.timers
  timerCount : r'.timerCount = r.timerCount
  slotsCount : r'.slotsCount = r.slotsCount
  stopped : r'.stopped = r.stopped
  fresh : ∀ x, r'.fresh free' x = r.fresh free x

theorem timerSlotFree_gave {s : Nat} (hd : r.Divided free) (hs : s < r.slotsCount)
    (hu : (r.slots s).inUse = true) : ∃ free', Gave r (r.timerSlotFree s) free free' s := by
  have hfree : s ∉ free := fun hmem => by simp [(hd.mem s hmem).2] at hu
  have hne : ∀ x ∈ free, x ≠ s := by
    rintro x hx rfl
    exact hfree hx
  unfold timerSlotFree
  split
  -- the slot goes to the front of the free list under its next generation
  · rename_i hgen
    have hother : ∀ x, x ≠ s → Function.update r.slots s
        { r.slots s with inUse := false, gen := (r.slots s).gen + 1, nextFree := r.freeSlot } x =
          r.slots x := fun x hx => Function.update_of_ne hx ..
    refine ⟨s :: free, ⟨⟨⟨rfl, ?_⟩, List.nodup_cons.mpr ⟨hfree, hd.nodup⟩, ?_, ?_, ?_, hd.count_le⟩,
      by simp, hother, ?_, rfl, rfl, rfl, rfl, ?_⟩⟩
    · dsimp only
      rw [Function.update_self]
      exact hd.threaded.congr fun x hx => by rw [hother x (hne x hx)]
    · intro x hx
      dsimp only
      rcases List.mem_cons.mp hx with rfl | hx
      · simpa using hs
      · rw [hother x (hne x hx)]
        exact hd.mem x hx
    · intro x hx hux hfx
      have hxs : x ≠ s := fun heq => hfx (by simp [heq])
      dsimp only at hux ⊢
      rw [hother x hxs] at hux ⊢
      exact hd.unused x hx hux fun hmem => hfx (List.mem_cons_of_mem s hmem)
    · intro x hx
      dsimp only
      by_cases hxs : x = s
      · rw [hxs, Function.update_self]
        exact hgen
      · rw [hother x hxs]
        exact hd.gen_le x hx
    · funext x
      by_cases hxs : x = s
      · subst hxs
        simp [Reactor.heapPos]
      · simp [Reactor.heapPos, hxs]
    · intro x
      by_cases hxs : x = s
      · subst hxs
        simp [Reactor.fresh, hfree]
      · simp [Reactor.fresh, hxs]
  -- the generations are used up: the slot is retired, neither in use nor free
  · rename_i hgen
    have hother : ∀ x, x ≠ s →
        Function.update r.slots s { r.slots s with inUse := false } x = r.slots x :=
      fun x hx => Function.update_of_ne hx ..
    have hkept : ∀ x, (Function.update r.slots s { r.slots s with inUse := false } x).gen =
        (r.slots x).gen := by
      intro x
      by_cases hxs : x = s
      · subst hxs
        simp
      · rw [hother x hxs]
    refine ⟨free, ⟨⟨?_, hd.nodup, ?_, ?_, ?_, hd.count_le⟩, by simp, hother, ?_, rfl, rfl, rfl, rfl,
      ?_⟩⟩
    · exact hd.threaded.congr fun x hx => by
        dsimp only
        rw [hother x (hne x hx)]
    · intro x hx
      dsimp only
      rw [hother x (hne x hx)]
      exact hd.mem x hx
    · intro x hx hux hfx
      dsimp only at hux ⊢
      by_cases hxs : x = s
      · subst hxs
        rw [hkept]
        exact Nat.le_antisymm (hd.gen_le x hx) (not_lt.mp hgen)
      · rw [hother x hxs] at hux ⊢
        exact hd.unused x hx hux hfx
    · intro x hx
      dsimp only
      rw [hkept]
      exact hd.gen_le x hx
    · funext x
      by_cases hxs : x = s
      · subst hxs
        simp [Reactor.heapPos]
      · simp [Reactor.heapPos, hxs]
    · intro x
      simp [Reactor.fresh, hkept]

/-! ## The operations -/

/-- What holds of the reactor between any two of its operations; `m` are its timers by slot. -/
structure Sane (r : Reactor κ) (m : Nat → Option (TimerEntry κ)) (free : List Nat) : Prop where
  ordered : r.HeapOrdered
  holds : r.Holds m
  divided : r.Divided free
  used : ∀ s, m s ≠ none ↔ s < r.slotsCount ∧ (r.slots s).inUse = true
  named : ∀ s e, m s = some e → e.id = handle (r.slots s).gen s

/-- The handles issued so far. -/
def Issued (r : Reactor κ) (free : List Nat) (id : Nat) : Prop :=
  ∃ s gen, id = handle gen s ∧ s < r.slotsCount ∧ gen < r.fresh free s

variable {e : TimerEntry κ} {s : Nat}

theorem Sane.create [Inhabited κ] : Sane (create : Reactor κ) (fun _ => none) [] where
  ordered k _ hk := absurd hk (Nat.not_lt_zero k)
  holds := ⟨fun i hi => absurd hi (Nat.not_lt_zero i), by simp⟩
  divided :=
    { threaded := rfl
      nodup := List.nodup_nil
      mem := by simp
      unused := fun s hs => absurd hs (Nat.not_lt_zero s)
      gen_le := fun s hs => absurd hs (Nat.not_lt_zero s)
      count_le := Nat.zero_le _ }
  used s := by simp [Reactor.create]
  named := by simp

/-- The invariant says nothing of the heap's capacity and of `stopped`. -/
theorem Sane.congr (h : r.Sane m free) (cap : Nat) (stopped : Bool) :
    { r with timerCap := cap, stopped := stopped }.Sane m free :=
  ⟨h.ordered, h.holds, ⟨h.divided.threaded, h.divided.nodup, h.divided.mem, h.divided.unused,
    h.divided.gen_le, h.divided.count_le⟩, h.used, h.named⟩

theorem Sane.slot_lt (h : r.Sane m free) (hs : m s = some e) : s < r.slotsCount :=
  ((h.used s).mp (by simp [hs])).1

/-- A handle finds the pending timer it was issued for, and nothing else. -/
theorem Sane.lookup_eq_some (h : r.Sane m free) (id s : Nat) :
    r.lookup id = some s ↔ ∃ e, m s = some e ∧ e.id = id := by
  have hmax : ∀ x, x < r.slotsCount → x < TIMER_MAX_SLOTS :=
    fun x hx => Nat.lt_of_lt_of_le hx h.divided.count_le
  constructor
  · intro hl
    dsimp only [lookup] at hl
    split at hl
    · cases hl
    · rename_i hid
      split at hl
      · cases hl
      · rename_i hlt
        split at hl
        · cases hl
        · rename_i hslot
          obtain rfl := Option.some.inj hl
          obtain ⟨hu, hgen⟩ : (r.slots (id % 2 ^ TIMER_SLOT_BITS - 1)).inUse = true ∧
              (r.slots (id % 2 ^ TIMER_SLOT_BITS - 1)).gen = id >>> TIMER_SLOT_BITS := by
            simpa using hslot
          have hsome := (h.used _).mpr ⟨not_le.mp hlt, hu⟩
          obtain ⟨e, he⟩ := Option.ne_none_iff_exists'.mp hsome
          refine ⟨e, he, ?_⟩
          rw [h.named _ e he, handle_eq (hmax _ (not_le.mp hlt)), hgen, Nat.shiftRight_eq_div_pow]
          have hdiv := Nat.div_add_mod' id (2 ^ TIMER_SLOT_BITS)
          omega
  · rintro ⟨e, he, rfl⟩
    have hlt := h.slot_lt he
    have hu := ((h.used s).mp (by simp [he])).2
    have hid := h.named s e he
    have hmod := handle_mod (r.slots s).gen (hmax s hlt)
    have hshift := handle_shift (r.slots s).gen (hmax s hlt)
    rw [← hid] at hmod hshift
    have hne : e.id ≠ CLOAK_TIMER_INVALID := hid ▸ handle_ne_invalid
    simp [lookup, hne, hmod, hshift, hu, hlt]

/-- `remove` takes the timer of its slot out, and nothing else. -/
theorem Sane.remove (h : r.Sane m free) (hs : m s = some e) :
    ∃ free', (r.remove s).Sane (Function.update m s none) free' ∧
      (∀ id, (r.remove s).Issued free' id ↔ r.Issued free id) ∧
      (r.remove s).stopped = r.stopped := by
  obtain ⟨hslot, hpos, hcell⟩ := h.holds.entry s e hs
  have hlt := h.slot_lt hs
  have hu := ((h.used s).mp (by simp [hs])).2
  have hpos' : r.heapPos s < r.timerCount := hpos
  have hre := r.heapRemoveAt_rearranged (r.heapPos s)
  have hholds := heapRemoveAt_holds h.holds hpos'
  rw [hcell, hslot] at hholds
  have hbase : { r with timerCount := r.timerCount - 1 }.Divided free :=
    ⟨h.divided.threaded, h.divided.nodup, h.divided.mem, h.divided.unused, h.divided.gen_le,
      h.divided.count_le⟩
  obtain ⟨free', hgave⟩ := timerSlotFree_gave (s := s) (hre.divided hbase)
    (by rw [hre.slotsCount]; exact hlt) (by rw [hre.inUse]; exact hu)
  have hcount : (r.remove s).slotsCount = r.slotsCount := hgave.slotsCount.trans hre.slotsCount
  refine ⟨free', ?_, ?_, hgave.stopped.trans hre.stopped⟩
  · constructor
    · have hord := heapRemoveAt_ordered h.ordered hpos'
      rw [HeapOrdered, ← hgave.timers, ← hgave.timerCount] at hord
      exact hord
    · rw [Holds, ← hgave.timers, ← hgave.timerCount, ← hgave.heapPos] at hholds
      exact hholds
    · exact hgave.divided
    · intro x
      rw [hcount]
      by_cases hxs : x = s
      · subst hxs
        rw [Function.update_self, Reactor.remove, hgave.inUse]
        simp
      · rw [Function.update_of_ne hxs, Reactor.remove, hgave.other x hxs, hre.inUse]
        exact h.used x
    · intro x e' he'
      have hxs : x ≠ s := by
        rintro rfl
        rw [Function.update_self] at he'
        cases he'
      rw [Function.update_of_ne hxs] at he'
      rw [Reactor.remove, hgave.other x hxs, hre.gen]
      exact h.named x e' he'
  · intro id
    have hfresh : ∀ x, (r.remove s).fresh free' x = r.fresh free x :=
      fun x => (hgave.fresh x).trans (hre.fresh x)
    simp only [Issued, hcount, hfresh]

/-- What `cloak_reactor_add_timer` adds. -/
structure Added (r r' : Reactor κ) (m : Nat → Option (TimerEntry κ)) (free free' : List Nat)
    (e : TimerEntry κ) : Prop where
  sane : r'.Sane (Function.update m e.slot (some e)) free'
  unused : m e.slot = none
  issued : ∀ id, r'.Issued free' id ↔ r.Issued free id ∨ id = e.id
  new : ¬ r.Issued free e.id
  stopped : r'.stopped = r.stopped

/-- The slot is taken and the entry goes into the heap. -/
theorem Took.added {r₁ r' : Reactor κ} {free' : List Nat} (h : r.Sane m free)
    (ht : Took r r₁ free free' s) (hslot : e.slot = s) (hid : e.id = handle (r₁.slots s).gen s)
    (hr' : r' = (({ r₁ with timerCount := r₁.timerCount + 1 }.timerPlace r₁.timerCount e).heapSiftUp
      r₁.timerCount).1) : Added r r' m free free' e := by
  have hnone : m s = none := by
    by_contra hm
    obtain ⟨hlt, hu⟩ := (h.used s).mp hm
    rw [ht.unused hlt] at hu
    cases hu
  have hheap : r₁.Holds m := by
    rw [Holds, ht.timers, ht.timerCount]
    refine h.holds.congr_pos fun x hx => ?_
    have hxs : x ≠ s := by
      rintro rfl
      exact hx hnone
    rw [heapPos, heapPos, ht.other x hxs]
  -- the entry is filed at the end of the heap before it is sifted up
  have hput : ({ r₁ with timerCount := r₁.timerCount + 1 }.timerPlace r₁.timerCount e).Holds
      (Function.update m e.slot (some e)) :=
    HoldsBut.place (Lib.Filed.push hheap (hslot ▸ hnone))
  have hord : r₁.HeapOrdered := by
    rw [HeapOrdered, ht.timers, ht.timerCount]
    exact h.ordered
  have hre : Rearranged { r₁ with timerCount := r₁.timerCount + 1 } r' := by
    rw [hr']
    exact (timerPlace_rearranged _ _ _).trans (heapSiftUp_rearranged _ _)
  have hbase : { r₁ with timerCount := r₁.timerCount + 1 }.Divided free' :=
    ⟨ht.divided.threaded, ht.divided.nodup, ht.divided.mem, ht.divided.unused, ht.divided.gen_le,
      ht.divided.count_le⟩
  have hfresh : ∀ x, r'.fresh free' x = r₁.fresh free' x := fun x => hre.fresh x
  have hcount : r'.slotsCount = r₁.slotsCount := hre.slotsCount
  have hgen : ∀ x, (r'.slots x).gen = (r₁.slots x).gen := hre.gen
  refine ⟨⟨?_, ?_, hre.divided hbase, ?_, ?_⟩, hslot ▸ hnone, ?_, ?_, hre.stopped.trans ht.stopped⟩
  · rw [hr']
    refine heapSiftUp_ordered (Nat.lt_succ_self _) ?_
    rw [timerPlace_timers, timerPlace_timerCount, Function.update_self]
    exact (Lib.CellsOrdered.upHole_end hord e).refill e
  · rw [hr']
    exact heapSiftUp_holds hput (Nat.lt_succ_self _)
  · intro x
    rw [hcount, hre.inUse]
    by_cases hxs : x = s
    · subst hxs
      rw [← hslot, Function.update_self, hslot]
      simp [ht.lt, ht.inUse]
    · rw [hslot, Function.update_of_ne hxs, h.used x, show _ = r₁.slots x from rfl, ht.other x hxs]
      refine and_congr_left fun _ => ⟨fun hx => Nat.lt_of_lt_of_le hx ht.count_le, fun hx => ?_⟩
      exact (ht.lt_cases x hx).resolve_left hxs
  · intro x e' he'
    rw [hgen]
    by_cases hxs : x = s
    · subst hxs
      rw [hslot, Function.update_self] at he'
      rw [← Option.some.inj he', hid]
    · rw [hslot, Function.update_of_ne hxs] at he'
      rw [ht.other x hxs]
      exact h.named x e' he'
  -- a handle issued before is of another slot or of an earlier generation of this one
  · intro id
    constructor
    · rintro ⟨x, gen, rfl, hx, hlt⟩
      rw [hcount] at hx
      rw [hfresh] at hlt
      by_cases hxs : x = s
      · subst hxs
        rw [ht.fresh_self] at hlt
        by_cases hgx : gen = (r₁.slots x).gen
        · exact Or.inr (by rw [hid, hgx])
        · have hold : x < r.slotsCount := by
            by_contra hnew
            have hzero := ht.gen_new (not_lt.mp hnew)
            omega
          exact Or.inl ⟨x, gen, rfl, hold, by rw [ht.fresh_old hold]; omega⟩
      · rw [ht.fresh_other x hxs] at hlt
        exact Or.inl ⟨x, gen, rfl, (ht.lt_cases x hx).resolve_left hxs, hlt⟩
    · rintro (⟨x, gen, rfl, hx, hlt⟩ | rfl)
      · refine ⟨x, gen, rfl, by rw [hcount]; exact Nat.lt_of_lt_of_le hx ht.count_le, ?_⟩
        rw [hfresh]
        by_cases hxs : x = s
        · subst hxs
          rw [ht.fresh_old hx] at hlt
          rw [ht.fresh_self]
          omega
        · rw [ht.fresh_other x hxs]
          exact hlt
      · refine ⟨s, (r₁.slots s).gen, hid, by rw [hcount]; exact ht.lt, ?_⟩
        rw [hfresh, ht.fresh_self]
        exact Nat.lt_succ_self _
  -- slots are below `TIMER_MAX_SLOTS`, so a handle has one slot and one generation
  · rintro ⟨x, gen, hx, hlt, hgen'⟩
    have hmax : ∀ y, y < r₁.slotsCount → y < TIMER_MAX_SLOTS :=
      fun y hy => Nat.lt_of_lt_of_le hy ht.divided.count_le
    obtain ⟨rfl, rfl⟩ := handle_inj (hmax s ht.lt) (hmax x (Nat.lt_of_lt_of_le hlt ht.count_le))
      (hid.symm.trans hx)
    rw [ht.fresh_old hlt] at hgen'
    exact Nat.lt_irrefl _ hgen'

/-- `cloak_reactor_add_timer` fails and changes no timer, or adds one under a new handle. -/
theorem Sane.addTimer (h : r.Sane m free) (now delayMs : Nat) (cb : Option κ)
    (heapMem slotMem : Bool) :
    ((r.addTimer now delayMs cb heapMem slotMem).2 = CLOAK_TIMER_INVALID ∧
      (r.addTimer now delayMs cb heapMem slotMem).1.Sane m free ∧
      (∀ id, (r.addTimer now delayMs cb heapMem slotMem).1.Issued free id ↔ r.Issued free id) ∧
      (r.addTimer now delayMs cb heapMem slotMem).1.timers = r.timers ∧
      (r.addTimer now delayMs cb heapMem slotMem).1.timerCount = r.timerCount ∧
      (r.addTimer now delayMs cb heapMem slotMem).1.stopped = r.stopped) ∨
    ∃ f e free', cb = some f ∧ (r.addTimer now delayMs cb heapMem slotMem).2 = e.id ∧
      e.deadlineMs = (now + delayMs) % 2 ^ 64 ∧ e.cb = f ∧
      Added r (r.addTimer now delayMs cb heapMem slotMem).1 m free free' e := by
  cases cb with
  | none => exact Or.inl ⟨rfl, h, fun _ => Iff.rfl, rfl, rfl, rfl⟩
  | some f =>
    have hcap : ∀ cap, { r with timerCap := cap }.Sane m free := fun cap => h.congr cap r.stopped
    unfold Reactor.addTimer
    dsimp only
    cases hens : r.timerHeapEnsureCapacity heapMem with
    | none => exact Or.inl ⟨rfl, h, fun _ => Iff.rfl, rfl, rfl, rfl⟩
    | some r₀ =>
      obtain ⟨cap, rfl⟩ : ∃ cap, r₀ = { r with timerCap := cap } := by
        unfold timerHeapEnsureCapacity at hens
        split at hens
        · exact ⟨r.timerCap, (Option.some.inj hens).symm⟩
        · split at hens
          · cases hens
          · exact ⟨_, (Option.some.inj hens).symm⟩
      dsimp only
      cases hall : { r with timerCap := cap }.timerSlotAlloc slotMem with
      | none => exact Or.inl ⟨rfl, hcap cap, fun _ => Iff.rfl, rfl, rfl, rfl⟩
      | some rs =>
        obtain ⟨r₁, s⟩ := rs
        obtain ⟨free', ht⟩ := timerSlotAlloc_took (hcap cap).divided hall
        have hadd := ht.added (hcap cap)
          (e := ⟨(now + delayMs) % 2 ^ 64, handle (r₁.slots s).gen s, s, f⟩) rfl rfl rfl
        refine Or.inr ⟨f, ⟨(now + delayMs) % 2 ^ 64, handle (r₁.slots s).gen s, s, f⟩, free', rfl,
          rfl, rfl, rfl, ?_⟩
        exact ⟨hadd.sane, hadd.unused, hadd.issued, hadd.new, hadd.stopped⟩

end Reactor

end Cloak
