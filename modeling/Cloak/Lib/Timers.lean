import Mathlib.Data.List.Basic
import Mathlib.Data.List.Nodup

set_option autoImplicit false

/-! # Pending timers

What a user of an event loop sees of its timers. Adding one gives a fresh id or fails with `0`, an id
is pending until its timer fires or is cancelled, and no id is given out twice, so an old id cancels
nothing. -/

namespace Cloak.Lib

universe u

/-- The pending timers, each with its id and what it will call. -/
structure Timers (κ : Type u) where
  pending : List (Nat × κ)
  issued : Nat
  nodup : (pending.map Prod.fst).Nodup
  pos : ∀ p ∈ pending, 0 < p.1
  le : ∀ p ∈ pending, p.1 ≤ issued

namespace Timers

variable {κ : Type u}

/-- No timer. -/
def empty : Timers κ := ⟨[], 0, List.nodup_nil, by simp, by simp⟩

/-- Cancel the timer `id`, if it is pending. -/
def cancel (t : Timers κ) (id : Nat) : Timers κ where
  pending := t.pending.filter fun p => p.1 ≠ id
  issued := t.issued
  nodup := (List.filter_sublist.map _).nodup t.nodup
  pos := fun p hp => t.pos p (List.mem_of_mem_filter hp)
  le := fun p hp => t.le p (List.mem_of_mem_filter hp)

/-- Add a timer; `ok` is whether there is memory for it. -/
def add (t : Timers κ) (k : κ) (ok : Bool) : Timers κ × Nat :=
  if ok then
    ({ pending := (t.issued + 1, k) :: t.pending
       issued := t.issued + 1
       nodup := by
         rw [List.map_cons, List.nodup_cons]
         refine ⟨fun hmem => ?_, t.nodup⟩
         obtain ⟨p, hp, heq⟩ := List.mem_map.mp hmem
         have hle := t.le p hp
         omega
       pos := by
         intro p hp
         rcases List.mem_cons.mp hp with rfl | hp
         · exact Nat.succ_pos _
         · exact t.pos p hp
       le := by
         intro p hp
         rcases List.mem_cons.mp hp with rfl | hp
         · exact Nat.le_refl _
         · exact Nat.le_succ_of_le (t.le p hp) },
      t.issued + 1)
  else (t, 0)

/-- What the pending timer `id` will call. -/
def find (t : Timers κ) (id : Nat) : Option κ := (t.pending.find? fun p => p.1 == id).map Prod.snd

/-- The ids under which `k` is pending. -/
def armed [DecidableEq κ] (t : Timers κ) (k : κ) : List Nat :=
  (t.pending.filter fun p => p.2 = k).map Prod.fst

theorem mem_cancel {t : Timers κ} {id : Nat} {p : Nat × κ} :
    p ∈ (t.cancel id).pending ↔ p ∈ t.pending ∧ p.1 ≠ id := by
  rw [cancel, List.mem_filter, decide_eq_true_iff]

theorem mem_add {t : Timers κ} {k : κ} {ok : Bool} {p : Nat × κ}
    (hp : p ∈ (t.add k ok).1.pending) : p ∈ t.pending ∨ p = ((t.add k ok).2, k) := by
  cases ok with
  | false => exact Or.inl hp
  | true =>
    rcases List.mem_cons.mp hp with rfl | hp
    · exact Or.inr rfl
    · exact Or.inl hp

/-- The id of a new timer is the last one issued, and a failure has the id `0`. -/
theorem add_le (t : Timers κ) (k : κ) (ok : Bool) :
    (t.add k ok).2 ≤ (t.add k ok).1.issued ∧ t.issued ≤ (t.add k ok).1.issued := by
  cases ok with
  | false => exact ⟨Nat.zero_le _, Nat.le_refl _⟩
  | true => exact ⟨Nat.le_refl _, Nat.le_succ _⟩

theorem mem_add_true (t : Timers κ) (k : κ) :
    ((t.add k true).2, k) ∈ (t.add k true).1.pending :=
  List.mem_cons_self

theorem mem_add_of_mem {t : Timers κ} {p : Nat × κ} (hp : p ∈ t.pending) (k : κ) (ok : Bool) :
    p ∈ (t.add k ok).1.pending := by
  cases ok with
  | false => exact hp
  | true => exact List.mem_cons_of_mem _ hp

theorem mem_of_find {t : Timers κ} {id : Nat} {k : κ} (h : t.find id = some k) :
    (id, k) ∈ t.pending := by
  obtain ⟨p, hp, rfl⟩ := Option.map_eq_some_iff.mp h
  have hid : p.1 = id := by simpa using List.find?_some hp
  rw [← hid]
  exact List.mem_of_find?_eq_some hp

/-- A pending timer is found. -/
theorem find_of_mem {t : Timers κ} {id : Nat} {k : κ} (h : (id, k) ∈ t.pending) :
    t.find id = some k := by
  cases hfind : t.pending.find? fun p => p.1 == id with
  | none =>
    have hno := List.find?_eq_none.mp hfind _ h
    simp at hno
  | some p =>
    have hmem := List.mem_of_find?_eq_some hfind
    have hid : p.1 = id := by simpa using List.find?_some hfind
    have heq : p = (id, k) := List.inj_on_of_nodup_map t.nodup hmem h hid
    rw [find, hfind, heq]
    rfl

/-- One timer is pending for `k` when all of them have one id. -/
theorem armed_eq_singleton [DecidableEq κ] {t : Timers κ} {k : κ} {id : Nat}
    (hmem : (id, k) ∈ t.pending) (hall : ∀ id', (id', k) ∈ t.pending → id' = id) :
    t.armed k = [id] := by
  have hnodup : (t.armed k).Nodup := (List.filter_sublist.map _).nodup t.nodup
  have hiff : ∀ id', id' ∈ t.armed k ↔ id' = id := by
    intro id'
    rw [armed, List.mem_map]
    constructor
    · rintro ⟨⟨i, k'⟩, hp, rfl⟩
      obtain ⟨hpending, hk⟩ := List.mem_filter.mp hp
      obtain rfl : k' = k := by simpa using hk
      exact hall i hpending
    · rintro rfl
      exact ⟨_, List.mem_filter.mpr ⟨hmem, decide_eq_true rfl⟩, rfl⟩
  refine List.perm_singleton.mp ((List.perm_ext_iff_of_nodup hnodup (List.nodup_singleton id)).mpr ?_)
  intro id'
  rw [hiff, List.mem_singleton]

end Timers

end Cloak.Lib
