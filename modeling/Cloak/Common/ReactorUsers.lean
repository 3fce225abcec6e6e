import Cloak.Lib.Timers
import Cloak.Common.ReactorRuns

set_option autoImplicit false

/-! # One user of the reactor's timers

`Lib.Timers` is what a user of an event loop relies on. Here that user has the callbacks `κ`, and shares
the reactor with others that have the callbacks `ω`. Its timer with the id `i` is the reactor's timer with
the handle `ids i`, and `Seen` says that the pending ones are the same. Every operation of the user keeps
it, and so does whatever the others do with timers of their own.

Adding can fail for want of memory or of slots. Where a pending timer has just been cancelled or has
fired it cannot (`Seen.add_after_cancel`, `Seen.add_after_fired`): its cell of the heap and its slot are
free, unless the slot is out of generations. -/

namespace Cloak

universe u

namespace Reactor

variable {κ : Type u}

/-! ## Room in the heap -/

/-- The heap's array is as long as its count. -/
def Fits (r : Reactor κ) : Prop := r.timerCount ≤ r.timerCap

theorem Rearranged.fits {r r' : Reactor κ} (h : Rearranged r r') (hfits : r.Fits) : r'.Fits := by
  rw [Fits, h.timerCount, h.timerCap]
  exact hfits

/-- A timer leaves its cell and its slot. -/
theorem remove_counts (r : Reactor κ) (s : Nat) :
    (r.remove s).timerCount = r.timerCount - 1 ∧ (r.remove s).timerCap = r.timerCap
      ∧ ((r.slots s).gen < TIMER_GEN_MAX → (r.remove s).freeSlot = some s) := by
  have hre := r.heapRemoveAt_rearranged (r.heapPos s)
  unfold remove timerSlotFree
  rw [hre.gen]
  split
  · exact ⟨hre.timerCount, hre.timerCap, fun _ => rfl⟩
  · next hmax => exact ⟨hre.timerCount, hre.timerCap, fun hgen => absurd hgen hmax⟩

theorem Fits.remove {r : Reactor κ} (h : r.Fits) (s : Nat) : (r.remove s).Fits := by
  obtain ⟨hcount, hcap, -⟩ := r.remove_counts s
  rw [Fits, hcount, hcap]
  exact Nat.le_trans (Nat.sub_le _ _) h

theorem Fits.cancelTimer {r : Reactor κ} (h : r.Fits) (id : Nat) : (r.cancelTimer id).Fits := by
  unfold Reactor.cancelTimer
  split
  · exact h
  · exact h.remove _

theorem timerSlotAlloc_counts {r r' : Reactor κ} {mem : Bool} {s : Nat}
    (h : r.timerSlotAlloc mem = some (r', s)) :
    r'.timerCount = r.timerCount ∧ r'.timerCap = r.timerCap := by
  unfold timerSlotAlloc at h
  split at h
  · cases h
    exact ⟨rfl, rfl⟩
  · split at h
    · cases h
    · split at h
      · cases h
      · cases h
        exact ⟨rfl, rfl⟩

theorem timerHeapEnsureCapacity_counts {r r' : Reactor κ} {mem : Bool} (hfits : r.Fits)
    (h : r.timerHeapEnsureCapacity mem = some r') :
    r'.timerCount = r.timerCount ∧ r'.timerCount < r'.timerCap := by
  have hle : r.timerCount ≤ r.timerCap := hfits
  unfold timerHeapEnsureCapacity at h
  split at h
  · cases h
    exact ⟨rfl, by assumption⟩
  · split at h
    · cases h
    · cases h
      refine ⟨rfl, ?_⟩
      dsimp only
      split <;> omega

theorem Fits.addTimer {r : Reactor κ} (h : r.Fits) (now delayMs : Nat) (cb : Option κ)
    (heapMem slotMem : Bool) : (r.addTimer now delayMs cb heapMem slotMem).1.Fits := by
  unfold Reactor.addTimer
  cases cb with
  | none => exact h
  | some f =>
    dsimp only
    cases hens : r.timerHeapEnsureCapacity heapMem with
    | none => exact h
    | some r₀ =>
      obtain ⟨-, hroom⟩ := timerHeapEnsureCapacity_counts h hens
      dsimp only
      cases hall : r₀.timerSlotAlloc slotMem with
      | none => exact Nat.le_of_lt hroom
      | some rs =>
        obtain ⟨hcount, hcap⟩ := timerSlotAlloc_counts hall
        have hplaced : Fits { rs.1 with timerCount := rs.1.timerCount + 1 } := by
          rw [Fits]
          dsimp only
          omega
        exact ((timerPlace_rearranged _ _ _).trans (heapSiftUp_rearranged _ _)).fits hplaced

/-- With a cell and a slot at hand no memory is needed. -/
theorem addTimer_of_room {r : Reactor κ} {s : Nat} (hcell : r.timerCount < r.timerCap)
    (hslot : r.freeSlot = some s) (now delayMs : Nat) (f : κ) (heapMem slotMem : Bool) :
    (r.addTimer now delayMs (some f) heapMem slotMem).2 ≠ CLOAK_TIMER_INVALID := by
  simp only [Reactor.addTimer, timerHeapEnsureCapacity, if_pos hcell, timerSlotAlloc, hslot]
  exact handle_ne_invalid

/-- Where a timer has just left there is a cell, and a slot that is not out of generations. -/
theorem Sane.addTimer_after_remove {r : Reactor κ} {m : Nat → Option (TimerEntry κ)} {free : List Nat}
    (h : r.Sane m free) (hfits : r.Fits) {s : Nat} {e : TimerEntry κ} (hs : m s = some e)
    (hgen : e.id >>> TIMER_SLOT_BITS < TIMER_GEN_MAX) (now delayMs : Nat) (f : κ)
    (heapMem slotMem : Bool) :
    ((r.remove s).addTimer now delayMs (some f) heapMem slotMem).2 ≠ CLOAK_TIMER_INVALID := by
  have hmax : s < TIMER_MAX_SLOTS := Nat.lt_of_lt_of_le (h.slot_lt hs) h.divided.count_le
  rw [h.named s e hs, handle_shift _ hmax] at hgen
  obtain ⟨hcount, hcap, hslot⟩ := r.remove_counts s
  have hpos : 0 < r.timerCount := Nat.lt_of_le_of_lt (Nat.zero_le _) (h.holds.entry s e hs).2.1
  have hle : r.timerCount ≤ r.timerCap := hfits
  refine addTimer_of_room ?_ (hslot hgen) now delayMs f heapMem slotMem
  rw [hcount, hcap]
  omega

end Reactor

namespace TimerRun

variable {κ ω : Type u}

/-! ## What the operations do to the pending timers -/

section Operations

variable {w : TimerRun κ} {m : Nat → Option (TimerEntry κ)} {free : List Nat}

theorem Kept.id_ne_invalid (h : w.Kept m free) {t : Timer κ} (ht : t ∈ pending w.reactor) :
    t.id ≠ CLOAK_TIMER_INVALID := by
  obtain ⟨s, e, hs, rfl⟩ := (mem_pending h.sane t).mp ht
  rw [TimerEntry.timer, h.sane.named s e hs]
  exact Reactor.handle_ne_invalid

/-- Pending timers with one handle are one timer, which was issued. -/
theorem Kept.eq_of_id (h : w.Kept m free) {t t' : Timer κ} (ht : t ∈ pending w.reactor)
    (ht' : t' ∈ w.issued) (hid : t.id = t'.id) : t = t' :=
  List.inj_on_of_nodup_map h.nodup (h.once.mem_iff.mp (List.mem_append_left _ ht)) ht' hid

/-- A call of `cloak_reactor_add_timer` fails, or there is one more timer. -/
theorem Kept.add_cases (h : w.Kept m free) (delayMs : Nat) (cb : κ) (heapMem slotMem : Bool) :
    ((w.reactor.addTimer w.nowMs delayMs (some cb) heapMem slotMem).2 = CLOAK_TIMER_INVALID
        ∧ pending (w.add delayMs (some cb) heapMem slotMem).reactor = pending w.reactor
        ∧ (w.add delayMs (some cb) heapMem slotMem).issued = w.issued)
      ∨ ∃ d, (w.reactor.addTimer w.nowMs delayMs (some cb) heapMem slotMem).2 ≠ CLOAK_TIMER_INVALID
        ∧ (pending (w.add delayMs (some cb) heapMem slotMem).reactor).Perm
          (⟨(w.reactor.addTimer w.nowMs delayMs (some cb) heapMem slotMem).2, d, cb⟩ :: pending w.reactor)
        ∧ (w.add delayMs (some cb) heapMem slotMem).issued = w.issued
          ++ [⟨(w.reactor.addTimer w.nowMs delayMs (some cb) heapMem slotMem).2, d, cb⟩] := by
  unfold TimerRun.add
  obtain ⟨hid, -, -, htimers, hcount, -⟩ | ⟨f, e, free', hf, hid, hdl, hcb, hadd⟩ :=
    h.sane.addTimer w.nowMs delayMs (some cb) heapMem slotMem
  · left
    simp only [hid, if_true, true_and]
    exact ⟨by rw [pending, pending, htimers, hcount], rfl⟩
  · right
    obtain rfl := Option.some.inj hf
    have hne : e.id ≠ CLOAK_TIMER_INVALID := by
      rw [hadd.sane.named e.slot e (Function.update_self ..)]
      exact Reactor.handle_ne_invalid
    have ht : (⟨e.id, (w.nowMs + delayMs) % 2 ^ 64, cb⟩ : Timer κ) = e.timer := by
      rw [TimerEntry.timer, hdl, hcb]
    refine ⟨(w.nowMs + delayMs) % 2 ^ 64, hid ▸ hne, ?_, ?_⟩
    · simp only [hid, if_neg hne, ht]
      exact pending_added h.sane hadd
    · simp only [hid, if_neg hne, issued_note]
      rfl

theorem reactor_cancel (w : TimerRun κ) (id : Nat) :
    (w.cancel id).reactor = w.reactor.cancelTimer id := by
  unfold cancel
  dsimp only
  split <;> rfl

theorem issued_cancel (w : TimerRun κ) (id : Nat) : (w.cancel id).issued = w.issued := by
  unfold cancel
  dsimp only
  split
  · rw [issued_note]
    exact List.append_nil _
  · rfl

theorem reactor_add (w : TimerRun κ) (delayMs : Nat) (cb : Option κ) (heapMem slotMem : Bool) :
    (w.add delayMs cb heapMem slotMem).reactor
      = (w.reactor.addTimer w.nowMs delayMs cb heapMem slotMem).1 := by
  unfold add
  cases cb with
  | none => rfl
  | some f =>
    dsimp only
    split <;> rfl

/-- The timer a turn of `process_expired_timers` calls back, if it does. -/
def firing (w : TimerRun κ) : Option (TimerEntry κ) := w.pass.bind w.reactor.expired

theorem turn_quiet (hnone : w.firing = none) :
    w.turn.reactor = w.reactor ∧ w.turn.issued = w.issued := by
  unfold firing at hnone
  unfold turn
  cases hp : w.pass with
  | none => exact ⟨rfl, rfl⟩
  | some now =>
    rw [hp, Option.bind_some] at hnone
    simp only [hnone, true_and]
    rfl

theorem Kept.turn_firing (h : w.Kept m free) {top : TimerEntry κ} (hsome : w.firing = some top) :
    w.turn.reactor = w.reactor.remove top.slot ∧ w.turn.issued = w.issued
      ∧ (pending w.reactor).Perm (top.timer :: pending w.turn.reactor) := by
  unfold firing at hsome
  unfold TimerRun.turn
  cases hp : w.pass with
  | none => rw [hp] at hsome; cases hsome
  | some now =>
    rw [hp, Option.bind_some] at hsome
    obtain ⟨hs, hfire, -, -⟩ := expired_eq_some h.sane hsome
    simp only [hsome, issued_note]
    refine ⟨hfire, List.append_nil _, ?_⟩
    have hperm := pending_remove h.sane hs
    rw [← hfire] at hperm
    exact hperm

end Operations

/-! ## The user's timers -/

/-- The user's timers `t` are those of the reactor with its callbacks, the id `i` being the handle
`ids i`. -/
structure Seen (ids : Nat → Nat) (t : Lib.Timers κ) (w : TimerRun (κ ⊕ ω)) : Prop where
  kept : ∃ m free, w.Kept m free
  fits : w.reactor.Fits
  invalid : ids 0 = CLOAK_TIMER_INVALID
  inj : ∀ i ≤ t.issued, ∀ j ≤ t.issued, ids i = ids j → i = j
  issued : ∀ i, 0 < i → i ≤ t.issued → ∃ d k, ⟨ids i, d, .inl k⟩ ∈ w.issued
  pending : ∀ h k, (∃ d, ⟨h, d, .inl k⟩ ∈ pending w.reactor) ↔ ∃ i, (i, k) ∈ t.pending ∧ ids i = h

variable {ids : Nat → Nat} {t : Lib.Timers κ} {w w' : TimerRun (κ ⊕ ω)}

/-- A user that comes to a reactor has no timers. -/
theorem seen_empty (hkept : ∃ m free, w.Kept m free) (hfits : w.reactor.Fits)
    (hnone : ∀ timer ∈ TimerRun.pending w.reactor, timer.cb.isRight) :
    Seen (fun _ => CLOAK_TIMER_INVALID) (Lib.Timers.empty : Lib.Timers κ) w where
  kept := hkept
  fits := hfits
  invalid := rfl
  inj := by
    intro i hi j hj _
    exact (Nat.le_zero.mp hi).trans (Nat.le_zero.mp hj).symm
  issued := fun i hpos hle => absurd hpos (Nat.not_lt.mpr hle)
  pending := by
    intro h k
    constructor
    · rintro ⟨d, hmem⟩
      cases hnone _ hmem
    · rintro ⟨i, hmem, -⟩
      cases hmem

/-- The user's timers and the record of handles are what they were. -/
theorem Seen.frame (h : Seen ids t w) (hkept : ∃ m free, w'.Kept m free) (hfits : w'.reactor.Fits)
    (hissued : w.issued ⊆ w'.issued)
    (hpending : ∀ i d k, (⟨i, d, .inl k⟩ : Timer (κ ⊕ ω)) ∈ TimerRun.pending w'.reactor
      ↔ ⟨i, d, .inl k⟩ ∈ TimerRun.pending w.reactor) : Seen ids t w' where
  kept := hkept
  fits := hfits
  invalid := h.invalid
  inj := h.inj
  issued := by
    intro i hpos hle
    obtain ⟨d, k, hmem⟩ := h.issued i hpos hle
    exact ⟨d, k, hissued hmem⟩
  pending := fun i k => (exists_congr fun d => hpending i d k).trans (h.pending i k)

/-- A handle of the user's is pending only as its own timer. -/
theorem Seen.own (h : Seen ids t w) {i : Nat} (hi : i ≤ t.issued) {timer : Timer (κ ⊕ ω)}
    (hmem : timer ∈ TimerRun.pending w.reactor) (hid : timer.id = ids i) :
    ∃ k, timer.cb = .inl k ∧ (i, k) ∈ t.pending := by
  obtain ⟨m, free, hkept⟩ := h.kept
  have hpos : 0 < i := by
    rcases Nat.eq_zero_or_pos i with rfl | hpos
    · exact absurd (hid.trans h.invalid) (hkept.id_ne_invalid hmem)
    · exact hpos
  obtain ⟨d, k, hissued⟩ := h.issued i hpos hi
  obtain rfl := hkept.eq_of_id hmem hissued hid
  obtain ⟨j, hj, hij⟩ := (h.pending (ids i) k).mp ⟨d, hmem⟩
  obtain rfl := h.inj j (t.le _ hj) i hi hij
  exact ⟨k, rfl, hj⟩

theorem kept_cancel (hkept : ∃ m free, w.Kept m free) (id : Nat) :
    ∃ m free, (w.cancel id).Kept m free := by
  obtain ⟨m, free, h⟩ := hkept
  obtain ⟨m', free', h', -⟩ := h.cancel id
  exact ⟨m', free', h'⟩

theorem mem_pending_cancel (hkept : ∃ m free, w.Kept m free) (id : Nat) (timer : Timer (κ ⊕ ω)) :
    timer ∈ TimerRun.pending (w.cancel id).reactor
      ↔ timer ∈ TimerRun.pending w.reactor ∧ timer.id ≠ id := by
  obtain ⟨m, free, h⟩ := hkept
  rw [reactor_cancel, (h.cancelTimer id).mem_iff, List.mem_filter, decide_eq_true_iff]

/-- The user cancels a timer by the handle it has, pending or not. -/
theorem Seen.cancel (h : Seen ids t w) {i : Nat} (hi : i ≤ t.issued) :
    Seen ids (t.cancel i) (w.cancel (ids i)) where
  kept := kept_cancel h.kept _
  fits := by
    rw [reactor_cancel]
    exact h.fits.cancelTimer _
  invalid := h.invalid
  inj := h.inj
  issued := by
    rw [issued_cancel]
    exact h.issued
  pending := by
    intro handle k
    simp only [mem_pending_cancel h.kept, Lib.Timers.mem_cancel]
    constructor
    · rintro ⟨d, hmem, hne⟩
      obtain ⟨j, hj, rfl⟩ := (h.pending handle k).mp ⟨d, hmem⟩
      exact ⟨j, ⟨hj, fun heq => hne (congrArg ids heq)⟩, rfl⟩
    · rintro ⟨j, ⟨hj, hne⟩, rfl⟩
      obtain ⟨d, hmem⟩ := (h.pending (ids j) k).mpr ⟨j, hj, rfl⟩
      exact ⟨d, hmem, fun heq => hne (h.inj j (t.le _ hj) i hi heq)⟩

/-- The user adds a timer. Whether that succeeds is the answer `Lib.Timers` leaves open. -/
theorem Seen.add (h : Seen ids t w) (k : κ) (delayMs : Nat) (heapMem slotMem : Bool) :
    ∃ ok ids', Seen ids' (t.add k ok).1 (w.add delayMs (some (.inl k)) heapMem slotMem)
      ∧ ids' (t.add k ok).2
        = (w.reactor.addTimer w.nowMs delayMs (some (.inl k)) heapMem slotMem).2
      ∧ ∀ i ≤ t.issued, ids' i = ids i := by
  obtain ⟨m, free, hkept⟩ := h.kept
  have hkept' : ∃ m free, (w.add delayMs (some (.inl k)) heapMem slotMem).Kept m free := by
    obtain ⟨m', free', hk, -⟩ := hkept.add delayMs (some (.inl k)) heapMem slotMem
    exact ⟨m', free', hk⟩
  have hfits : (w.add delayMs (some (.inl k)) heapMem slotMem).reactor.Fits := by
    rw [reactor_add]
    exact h.fits.addTimer ..
  rcases hkept.add_cases delayMs (.inl k) heapMem slotMem with
    ⟨hid, hpending, hissued⟩ | ⟨d, hne, hpending, hissued⟩
  -- no slot or no memory: nothing has changed
  · refine ⟨false, ids, h.frame hkept' hfits (by rw [hissued]; exact List.Subset.refl _) ?_,
      h.invalid.trans hid.symm, fun _ _ => rfl⟩
    intro i d k'
    rw [hpending]
  · generalize (w.reactor.addTimer w.nowMs delayMs (some (.inl k)) heapMem slotMem).2 = handle
      at hne hpending hissued
    obtain ⟨m', free', hk⟩ := hkept'
    -- the handle is new: it is none of those issued before
    have hnew : ∀ i ≤ t.issued, ids i ≠ handle := by
      intro i hi heq
      rcases Nat.eq_zero_or_pos i with rfl | hpos
      · exact hne (heq.symm.trans h.invalid)
      · obtain ⟨d', k', hmem⟩ := h.issued i hpos hi
        have hnodup := hk.nodup
        rw [hissued, List.map_append] at hnodup
        refine (List.nodup_append.mp hnodup).2.2 (ids i) (List.mem_map_of_mem hmem) handle ?_ heq
        exact List.mem_singleton_self _
    have hold : ∀ i ≤ t.issued, Function.update ids (t.issued + 1) handle i = ids i :=
      fun i hi => Function.update_of_ne (by omega) ..
    refine ⟨true, Function.update ids (t.issued + 1) handle, ?_, Function.update_self .., hold⟩
    constructor
    case kept => exact ⟨m', free', hk⟩
    case fits => exact hfits
    case invalid => exact (hold 0 (Nat.zero_le _)).trans h.invalid
    case inj =>
      intro i hi j hj heq
      rcases Nat.lt_or_ge t.issued i with hlast | hi'
      · obtain rfl : i = t.issued + 1 := Nat.le_antisymm hi hlast
        rcases Nat.lt_or_ge t.issued j with hlast' | hj'
        · exact (Nat.le_antisymm hj hlast').symm
        · rw [Function.update_self, hold j hj'] at heq
          exact absurd heq.symm (hnew j hj')
      · rw [hold i hi'] at heq
        rcases Nat.lt_or_ge t.issued j with hlast' | hj'
        · obtain rfl : j = t.issued + 1 := Nat.le_antisymm hj hlast'
          rw [Function.update_self] at heq
          exact absurd heq (hnew i hi')
        · rw [hold j hj'] at heq
          exact h.inj i hi' j hj' heq
    case issued =>
      intro i hpos hi
      rw [hissued]
      rcases Nat.lt_or_ge t.issued i with hlast | hi'
      · obtain rfl : i = t.issued + 1 := Nat.le_antisymm hi hlast
        rw [Function.update_self]
        exact ⟨d, k, List.mem_append_right _ (List.mem_singleton_self _)⟩
      · rw [hold i hi']
        obtain ⟨d', k', hmem⟩ := h.issued i hpos hi'
        exact ⟨d', k', List.mem_append_left _ hmem⟩
    case pending =>
      intro handle' k'
      simp only [hpending.mem_iff, List.mem_cons]
      constructor
      · rintro ⟨d', heq | hmem⟩
        · cases heq
          exact ⟨t.issued + 1, List.mem_cons_self, Function.update_self ..⟩
        · obtain ⟨i, hi, hih⟩ := (h.pending handle' k').mp ⟨d', hmem⟩
          exact ⟨i, List.mem_cons_of_mem _ hi, (hold i (t.le _ hi)).trans hih⟩
      · rintro ⟨i, hi, hih⟩
        rcases List.mem_cons.mp hi with heq | hi
        · obtain ⟨rfl, rfl⟩ := Prod.mk.inj heq
          rw [Function.update_self] at hih
          exact ⟨d, .inl (by rw [hih])⟩
        · rw [hold i (t.le _ hi)] at hih
          obtain ⟨d', hmem⟩ := (h.pending handle' k').mpr ⟨i, hi, hih⟩
          exact ⟨d', .inr hmem⟩

/-- Behind the cancellation of a pending timer one can be added whatever memory there is, unless its slot
is out of generations. -/
theorem Seen.add_after_cancel (h : Seen ids t w) {i : Nat} {k : κ} (hi : (i, k) ∈ t.pending)
    (hgen : ids i >>> TIMER_SLOT_BITS < TIMER_GEN_MAX) (now delayMs : Nat) (cb : κ ⊕ ω)
    (heapMem slotMem : Bool) :
    ((w.cancel (ids i)).reactor.addTimer now delayMs (some cb) heapMem slotMem).2
      ≠ CLOAK_TIMER_INVALID := by
  obtain ⟨m, free, hkept⟩ := h.kept
  obtain ⟨d, hmem⟩ := (h.pending (ids i) k).mpr ⟨i, hi, rfl⟩
  obtain ⟨s, e, hs, htimer⟩ := (mem_pending hkept.sane _).mp hmem
  have hid : e.id = ids i := congrArg Timer.id htimer
  have hlookup := (hkept.sane.lookup_eq_some (ids i) s).mpr ⟨e, hs, hid⟩
  rw [reactor_cancel, Reactor.cancelTimer, hlookup]
  exact hkept.sane.addTimer_after_remove h.fits hs (hid ▸ hgen) now delayMs cb heapMem slotMem

/-! ## The other users -/

/-- An event of the other users: they add timers of their own, and cancel none of this one's. A turn of
`process_expired_timers` is nobody's. -/
def isOthers (w : TimerRun (κ ⊕ ω)) : TimerEvent (κ ⊕ ω) → Bool
  | .add _ (some cb) _ _ => cb.isRight
  | .cancel id => (TimerRun.pending w.reactor).all fun timer => timer.id != id || timer.cb.isRight
  | .turn => false
  | _ => true

theorem Seen.others (h : Seen ids t w) {e : TimerEvent (κ ⊕ ω)} (he : w.isOthers e = true) :
    Seen ids t (w.step e) := by
  obtain ⟨m, free, hkept⟩ := h.kept
  have hkept' : ∃ m free, (w.step e).Kept m free := by
    obtain ⟨m', free', hk, -⟩ := hkept.step e
    exact ⟨m', free', hk⟩
  cases e with
  | tick ms => exact h.frame hkept' h.fits (List.Subset.refl _) fun _ _ _ => Iff.rfl
  | stop => exact h.frame hkept' h.fits (List.Subset.refl _) fun _ _ _ => Iff.rfl
  | start => exact h.frame hkept' h.fits (List.Subset.refl _) fun _ _ _ => Iff.rfl
  | turn => cases he
  | beginPass =>
    have hsame : w.beginPass.reactor = w.reactor ∧ w.beginPass.issued = w.issued := by
      unfold beginPass
      split <;> exact ⟨rfl, rfl⟩
    have hreactor : (w.step .beginPass).reactor = w.reactor := hsame.1
    have hissued : (w.step .beginPass).issued = w.issued := hsame.2
    refine h.frame hkept' (hreactor ▸ h.fits) (hissued ▸ List.Subset.refl _) fun _ _ _ => ?_
    rw [hreactor]
  | cancel id =>
    have hother : ∀ timer ∈ TimerRun.pending w.reactor, timer.id = id → timer.cb.isRight = true := by
      intro timer hmem hid
      have hall := List.all_eq_true.mp he timer hmem
      simpa [hid] using hall
    refine h.frame hkept' ?_ ?_ fun i d k => ?_
    · change (w.cancel id).reactor.Fits
      rw [reactor_cancel]
      exact h.fits.cancelTimer id
    · change w.issued ⊆ (w.cancel id).issued
      rw [issued_cancel]
      exact List.Subset.refl _
    · refine (mem_pending_cancel h.kept id _).trans (and_iff_left_of_imp fun hmem hid => ?_)
      cases hother _ hmem hid
  | add delayMs cb heapMem slotMem =>
    have hfits : (w.add delayMs cb heapMem slotMem).reactor.Fits := by
      rw [reactor_add]
      exact h.fits.addTimer ..
    cases cb with
    | none => exact h.frame hkept' hfits (List.Subset.refl _) fun _ _ _ => Iff.rfl
    | some cb =>
      cases cb with
      | inl k => cases he
      | inr f =>
        rcases hkept.add_cases delayMs (.inr f) heapMem slotMem with
          ⟨-, hpending, hissued⟩ | ⟨d, -, hpending, hissued⟩
        · refine h.frame hkept' hfits (hissued ▸ List.Subset.refl _) fun i d k => ?_
          exact iff_of_eq (congrArg _ hpending)
        · refine h.frame hkept' hfits (hissued ▸ List.subset_append_left _ _) fun i d' k => ?_
          refine hpending.mem_iff.trans ?_
          rw [List.mem_cons, or_iff_right]
          intro heq
          cases congrArg Timer.cb heq

/-- A turn of `process_expired_timers` that calls the user back for its timer `i`. -/
theorem Seen.fired (h : Seen ids t w) {top : TimerEntry (κ ⊕ ω)} {k : κ} (htop : w.firing = some top)
    (hcb : top.cb = .inl k) : ∃ i, (i, k) ∈ t.pending ∧ Seen ids (t.cancel i) w.turn := by
  obtain ⟨m, free, hkept⟩ := h.kept
  obtain ⟨hreactor, hissued, hperm⟩ := hkept.turn_firing htop
  have htimer : top.timer = ⟨top.id, top.deadlineMs, .inl k⟩ := by rw [TimerEntry.timer, hcb]
  obtain ⟨i, hi, hid⟩ := (h.pending top.id k).mp
    ⟨top.deadlineMs, htimer ▸ hperm.mem_iff.mpr List.mem_cons_self⟩
  have hnodup : ((top.timer :: TimerRun.pending w.turn.reactor).map Timer.id).Nodup := by
    refine ((hperm.map Timer.id).nodup_iff).mp ?_
    have hall := ((hkept.once.map Timer.id).nodup_iff).mpr hkept.nodup
    rw [List.map_append] at hall
    exact hall.of_append_left
  have hgone : ∀ timer ∈ TimerRun.pending w.turn.reactor, timer.id ≠ top.id := by
    intro timer hmem heq
    exact (List.nodup_cons.mp hnodup).1 (List.mem_map.mpr ⟨timer, hmem, heq⟩)
  refine ⟨i, hi, ?_, ?_, h.invalid, h.inj, ?_, fun handle k' => ?_⟩
  · obtain ⟨m', free', hk, -⟩ := hkept.turn
    exact ⟨m', free', hk⟩
  · rw [hreactor]
    exact h.fits.remove _
  · rw [hissued]
    exact h.issued
  · simp only [Lib.Timers.mem_cancel]
    constructor
    · rintro ⟨d, hmem⟩
      obtain ⟨j, hj, rfl⟩ := (h.pending handle k').mp
        ⟨d, hperm.mem_iff.mpr (List.mem_cons_of_mem _ hmem)⟩
      refine ⟨j, ⟨hj, ?_⟩, rfl⟩
      rintro rfl
      exact hgone _ hmem hid
    · rintro ⟨j, ⟨hj, hne⟩, rfl⟩
      obtain ⟨d, hmem⟩ := (h.pending (ids j) k').mpr ⟨j, hj, rfl⟩
      refine ⟨d, (List.mem_cons.mp (hperm.mem_iff.mp hmem)).resolve_left fun heq => hne ?_⟩
      have hids : ids j = ids i := (congrArg Timer.id heq).trans hid.symm
      exact h.inj j (t.le _ hj) i (t.le _ hi) hids

/-- A callback can add a timer whatever memory there is, unless the slot of the one that fired is out of
generations. -/
theorem Seen.add_after_fired (h : Seen ids t w) {top : TimerEntry (κ ⊕ ω)} (htop : w.firing = some top)
    (hgen : top.id >>> TIMER_SLOT_BITS < TIMER_GEN_MAX) (now delayMs : Nat) (cb : κ ⊕ ω)
    (heapMem slotMem : Bool) :
    (w.turn.reactor.addTimer now delayMs (some cb) heapMem slotMem).2 ≠ CLOAK_TIMER_INVALID := by
  obtain ⟨m, free, hkept⟩ := h.kept
  obtain ⟨pass, -, hexpired⟩ := Option.bind_eq_some_iff.mp htop
  obtain ⟨hs, -, -, -⟩ := expired_eq_some hkept.sane hexpired
  rw [(hkept.turn_firing htop).1]
  exact hkept.sane.addTimer_after_remove h.fits hs hgen now delayMs cb heapMem slotMem

/-- A turn that calls another user back, or nobody. -/
theorem Seen.passed (h : Seen ids t w) (hother : ∀ top, w.firing = some top → top.cb.isRight) :
    Seen ids t w.turn := by
  obtain ⟨m, free, hkept⟩ := h.kept
  have hkept' : ∃ m free, w.turn.Kept m free := by
    obtain ⟨m', free', hk, -⟩ := hkept.turn
    exact ⟨m', free', hk⟩
  cases hfiring : w.firing with
  | none =>
    obtain ⟨hreactor, hissued⟩ := turn_quiet hfiring
    refine h.frame hkept' (hreactor ▸ h.fits) (hissued ▸ List.Subset.refl _) fun _ _ _ => ?_
    rw [hreactor]
  | some top =>
    obtain ⟨hreactor, hissued, hperm⟩ := hkept.turn_firing hfiring
    refine h.frame hkept' (hreactor ▸ h.fits.remove _) (hissued ▸ List.Subset.refl _) fun i d k => ?_
    rw [hperm.mem_iff, List.mem_cons]
    refine (or_iff_right fun heq => ?_).symm
    have hright := hother top hfiring
    have hcb : top.cb = .inl k := (congrArg Timer.cb heq).symm
    rw [hcb] at hright
    cases hright

end TimerRun

end Cloak
