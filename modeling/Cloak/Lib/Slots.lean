import Mathlib.Data.List.Nodup
import Mathlib.Data.List.Perm.Lattice
import Mathlib.Data.List.Perm.Subperm
import Mathlib.Logic.Function.Basic

set_option autoImplicit false

/-! # Tables of slots

An array of `n` pointers, each to a thing or null, as a program scans it: the first free slot for a new
thing, and the first slot that points to a thing for taking it out.

`Holds n s l` says that the things in the slots are those of the list `l`, each in one slot. -/

namespace Cloak.Lib

universe u

variable {κ : Type u}

/-- What each slot points to. -/
abbrev Slots (κ : Type u) := Nat → Option κ

namespace Slots

/-- The first slot of `n` that is free. -/
def firstFree (n : Nat) (s : Slots κ) : Option Nat := (List.range n).find? fun i => (s i).isNone

/-- The things in the slots, in the order of the slots. -/
def things (n : Nat) (s : Slots κ) : List κ := (List.range n).filterMap s

variable [DecidableEq κ]

/-- Clears the first slot of `n` that points to `k`. -/
def clear (n : Nat) (s : Slots κ) (k : κ) : Slots κ :=
  match (List.range n).find? fun i => s i = some k with
  | none => s
  | some i => Function.update s i none

omit [DecidableEq κ]

/-- The things in the `n` slots are those of `l`, each in one slot. -/
structure Holds (n : Nat) (s : Slots κ) (l : List κ) : Prop where
  lt : ∀ i k, s i = some k → i < n
  once : ∀ i j k, s i = some k → s j = some k → i = j
  nodup : l.Nodup
  mem : ∀ k, k ∈ l ↔ ∃ i, s i = some k

variable {n : Nat} {s : Slots κ} {l : List κ} {i : Nat} {k : κ}

theorem holds_empty (n : Nat) : Holds n (fun _ => none : Slots κ) [] := by
  constructor <;> simp

theorem firstFree_spec (h : firstFree n s = some i) : i < n ∧ s i = none := by
  have hfree := List.find?_some h
  exact ⟨List.mem_range.mp (List.mem_of_find?_eq_some h), Option.isNone_iff_eq_none.mp hfree⟩

theorem Holds.mem_things (h : Holds n s l) : k ∈ things n s ↔ k ∈ l := by
  rw [h.mem, things, List.mem_filterMap]
  constructor
  · rintro ⟨i, -, hi⟩
    exact ⟨i, hi⟩
  · rintro ⟨i, hi⟩
    exact ⟨i, List.mem_range.mpr (h.lt i k hi), hi⟩

theorem Holds.nodup_things (h : Holds n s l) : (things n s).Nodup := by
  refine List.nodup_range.filterMap fun i j k hi hj => ?_
  exact h.once i j k (Option.mem_def.mp hi) (Option.mem_def.mp hj)

/-- The slots have as many things as the list. -/
theorem Holds.length_things (h : Holds n s l) : (things n s).length = l.length :=
  ((List.perm_ext_iff_of_nodup h.nodup_things h.nodup).mpr fun _ => h.mem_things).length_eq

theorem Holds.length_le (h : Holds n s l) : l.length ≤ n := by
  rw [← h.length_things, things]
  have hle := List.length_filterMap_le s (List.range n)
  rwa [List.length_range] at hle

/-- A new thing is put into a free slot. -/
theorem Holds.put (h : Holds n s l) (hi : i < n) (hfree : s i = none) (hk : k ∉ l) :
    Holds n (Function.update s i (some k)) (k :: l) := by
  have hold : ∀ j x, Function.update s i (some k) j = some x ↔ (j = i ∧ x = k) ∨ s j = some x := by
    intro j x
    by_cases hj : j = i
    · subst hj
      simp [hfree, eq_comm]
    · simp [hj]
  have hout : ∀ j, s j ≠ some k := fun j hj => hk ((h.mem k).mpr ⟨j, hj⟩)
  constructor
  case lt =>
    intro j x hj
    rcases (hold j x).mp hj with ⟨rfl, -⟩ | hold'
    · exact hi
    · exact h.lt j x hold'
  case once =>
    intro j j' x hj hj'
    rcases (hold j x).mp hj, (hold j' x).mp hj' with ⟨⟨hji, hx⟩ | hs, ⟨hji', hx'⟩ | hs'⟩
    · rw [hji, hji']
    · exact absurd hs' (hx ▸ hout j')
    · exact absurd hs (hx' ▸ hout j)
    · exact h.once j j' x hs hs'
  case nodup => exact List.nodup_cons.mpr ⟨hk, h.nodup⟩
  case mem =>
    intro x
    simp only [hold, List.mem_cons, h.mem]
    constructor
    · rintro (rfl | ⟨j, hj⟩)
      · exact ⟨i, .inl ⟨rfl, rfl⟩⟩
      · exact ⟨j, .inr hj⟩
    · rintro ⟨j, ⟨-, rfl⟩ | hj⟩
      · exact .inl rfl
      · exact .inr ⟨j, hj⟩

variable [DecidableEq κ]

/-- Taking a thing out clears the slot it is in, and no other. -/
theorem Holds.clear_eq (h : Holds n s l) (hi : s i = some k) :
    clear n s k = Function.update s i none := by
  have hfound : ((List.range n).find? fun j => s j = some k) = some i := by
    cases hfind : (List.range n).find? fun j => s j = some k with
    | none =>
      have hnone := List.find?_eq_none.mp hfind i (List.mem_range.mpr (h.lt i k hi))
      exact absurd (decide_eq_true hi) hnone
    | some j =>
      have hj : s j = some k := by simpa using List.find?_some hfind
      rw [h.once j i k hj hi]
  rw [clear, hfound]

theorem Holds.clear (h : Holds n s l) (hk : k ∈ l) : Holds n (clear n s k) (l.erase k) := by
  obtain ⟨i, hi⟩ := (h.mem k).mp hk
  rw [h.clear_eq hi]
  have hold : ∀ j x, Function.update s i none j = some x ↔ x ≠ k ∧ s j = some x := by
    intro j x
    by_cases hj : j = i
    · subst hj
      simp [hi, eq_comm]
    · rw [Function.update_of_ne hj]
      refine ⟨fun hjx => ⟨fun heq => hj ?_, hjx⟩, fun hjx => hjx.2⟩
      exact h.once j i k (heq ▸ hjx) hi
  constructor
  case lt => exact fun j x hj => h.lt j x ((hold j x).mp hj).2
  case once => exact fun j j' x hj hj' => h.once j j' x ((hold j x).mp hj).2 ((hold j' x).mp hj').2
  case nodup => exact h.nodup.erase k
  case mem =>
    intro x
    simp only [hold, h.nodup.mem_erase_iff, h.mem]
    exact ⟨fun ⟨hne, j, hj⟩ => ⟨j, hne, hj⟩, fun ⟨j, hne, hj⟩ => ⟨hne, j, hj⟩⟩

end Slots

end Cloak.Lib
