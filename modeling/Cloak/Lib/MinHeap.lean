import Mathlib

set_option autoImplicit false

/-! # Array min-heaps

The textbook binary heap in an array, ordered by a key into a linear order: cell `i` has parent
`(i - 1) / 2`, a push appends and sifts up, a pop moves the last cell to the root and sifts down.

Both sifts work on an array that is ordered except around one cell, the hole. `UpOrdered` excuses
the hole from being at least its parent, `DownOrdered` excuses its children from being at least it;
each also relates the hole's children to the hole's parent, and that is what lets one swap move the
hole without disturbing anything else. Neither sift adds or removes a cell, so the heap's contents
are tracked as a permutation. -/

namespace Cloak.Lib

universe u v

variable {α : Type u} {β : Type v} [LinearOrder β]

/-- Every cell is at least its parent. -/
def HeapOrdered (key : α → β) (a : Array α) : Prop :=
  ∀ (k : Nat) (hk : k < a.size), 0 < k → key a[(k - 1) / 2] ≤ key a[k]

/-- Ordered, except that cell `i` may be smaller than its parent. -/
structure UpOrdered (key : α → β) (a : Array α) (i : Nat) : Prop where
  parent_le : ∀ (k : Nat) (hk : k < a.size), 0 < k → k ≠ i → key a[(k - 1) / 2] ≤ key a[k]
  grandparent_le : ∀ (k : Nat) (hk : k < a.size), 0 < i → (k - 1) / 2 = i →
    key a[((k - 1) / 2 - 1) / 2] ≤ key a[k]

/-- Ordered, except that cell `i` may be larger than its children. -/
structure DownOrdered (key : α → β) (a : Array α) (i : Nat) : Prop where
  parent_le : ∀ (k : Nat) (hk : k < a.size), 0 < k → (k - 1) / 2 ≠ i →
    key a[(k - 1) / 2] ≤ key a[k]
  grandparent_le : ∀ (k : Nat) (hk : k < a.size), 0 < i → (k - 1) / 2 = i →
    key a[((k - 1) / 2 - 1) / 2] ≤ key a[k]

/-! ## Pushing -/

/-- Swap cell `i` with its parent until the parent is no larger. The fuel bounds the climb; `i`
    itself is always enough. -/
def siftUp (key : α → β) : (fuel : Nat) → (a : Array α) → (i : Nat) → i < a.size → Array α
  | 0, a, _, _ => a
  | fuel + 1, a, i, hi =>
    if i = 0 then a
    else if key a[(i - 1) / 2] ≤ key a[i] then a
    else siftUp key fuel (a.swap i ((i - 1) / 2)) ((i - 1) / 2)
      (by rw [Array.size_swap]; omega)

/-- Append `x` and restore the order. -/
def heapPush (key : α → β) (a : Array α) (x : α) : Array α :=
  siftUp key a.size (a.push x) a.size (by rw [Array.size_push]; omega)

theorem siftUp_perm (key : α → β) (fuel : Nat) (a : Array α) (i : Nat) (hi : i < a.size) :
    (siftUp key fuel a i hi).Perm a := by
  induction fuel generalizing a i with
  | zero => exact Array.Perm.refl _
  | succ fuel ih =>
    rw [siftUp]
    split
    · exact Array.Perm.refl _
    · split
      · exact Array.Perm.refl _
      · exact (ih _ _ _).trans (Array.swap_perm (by omega) (by omega))

/-- One swap moves the hole from `i` to its parent. -/
theorem UpOrdered.swap {key : α → β} {a : Array α} {i : Nat} (h : UpOrdered key a i)
    (hi : i < a.size) (hpos : i ≠ 0) (hlt : key a[i] < key a[(i - 1) / 2]) :
    UpOrdered key (a.swap i ((i - 1) / 2)) ((i - 1) / 2) := by
  constructor
  · intro k hk hk0 hne
    rw [Array.size_swap] at hk
    rw [Array.getElem_swap, Array.getElem_swap]
    by_cases hki : k = i
    · subst hki
      rw [if_neg (by omega), if_pos rfl, if_pos rfl]
      exact le_of_lt hlt
    · rw [if_neg hki, if_neg hne]
      by_cases hpi : (k - 1) / 2 = i
      · rw [if_pos hpi]
        have hgp := h.grandparent_le k hk (by omega) hpi
        simp only [hpi] at hgp
        exact hgp
      · rw [if_neg hpi]
        have hpar := h.parent_le k hk hk0 hki
        split
        · next hsib =>
          simp only [hsib] at hpar
          exact le_trans (le_of_lt hlt) hpar
        · exact hpar
  · intro k hk hp0 hkp
    rw [Array.size_swap] at hk
    rw [Array.getElem_swap, Array.getElem_swap, if_neg (by omega), if_neg (by omega)]
    have hgp := h.parent_le ((i - 1) / 2) (by omega) hp0 (by omega)
    by_cases hki : k = i
    · rw [if_pos hki]
      simp only [hki]
      exact hgp
    · rw [if_neg hki, if_neg (by omega)]
      have hpar := h.parent_le k hk (by omega) hki
      simp only [hkp] at hpar ⊢
      exact le_trans hgp hpar

theorem siftUp_heapOrdered (key : α → β) (fuel : Nat) (a : Array α) (i : Nat) (hi : i < a.size)
    (hfuel : i ≤ fuel) (h : UpOrdered key a i) : HeapOrdered key (siftUp key fuel a i hi) := by
  induction fuel generalizing a i with
  | zero =>
    intro k hk hk0
    exact h.parent_le k hk hk0 (by omega)
  | succ fuel ih =>
    rw [siftUp]
    split
    · next hz =>
      intro k hk hk0
      exact h.parent_le k hk hk0 (by omega)
    · next hz =>
      split
      · next hle =>
        intro k hk hk0
        by_cases hki : k = i
        · subst hki
          exact hle
        · exact h.parent_le k hk hk0 hki
      · next hle => exact ih _ _ _ (by omega) (h.swap hi hz (not_le.mp hle))

theorem heapPush_perm (key : α → β) (a : Array α) (x : α) :
    (heapPush key a x).toList.Perm (x :: a.toList) := by
  have h := Array.perm_iff_toList_perm.mp (siftUp_perm key a.size (a.push x) a.size (by simp))
  rw [Array.toList_push] at h
  exact h.trans List.perm_append_comm

theorem heapPush_heapOrdered {key : α → β} {a : Array α} (x : α) (h : HeapOrdered key a) :
    HeapOrdered key (heapPush key a x) := by
  apply siftUp_heapOrdered _ _ _ _ _ (Nat.le_refl _)
  constructor
  · intro k hk hk0 hne
    rw [Array.size_push] at hk
    rw [Array.getElem_push_lt (by omega), Array.getElem_push_lt (by omega)]
    exact h k (by omega) hk0
  · intro k hk hi0 hkp
    rw [Array.size_push] at hk
    omega

/-! ## Popping -/

/-- The child `c` if it exists and is smaller than cell `s`, and `s` otherwise. -/
def pickSmaller (key : α → β) (a : Array α) (s c : Nat) : Nat :=
  if h : c < a.size ∧ s < a.size then
    if key a[c] < key a[s] then c else s
  else s

theorem pickSmaller_lt (key : α → β) {a : Array α} {s : Nat} (c : Nat) (hs : s < a.size) :
    pickSmaller key a s c < a.size := by
  unfold pickSmaller
  split
  · next h =>
    split
    · exact h.1
    · exact hs
  · exact hs

theorem pickSmaller_eq_or (key : α → β) (a : Array α) (s c : Nat) :
    pickSmaller key a s c = s ∨ pickSmaller key a s c = c := by
  unfold pickSmaller
  split
  · split
    · exact Or.inr rfl
    · exact Or.inl rfl
  · exact Or.inl rfl

theorem pickSmaller_le_left (key : α → β) {a : Array α} {s c : Nat} (hs : s < a.size)
    (hp : pickSmaller key a s c < a.size) : key a[pickSmaller key a s c] ≤ key a[s] := by
  unfold pickSmaller at hp ⊢
  split
  · split
    · next h => exact le_of_lt h
    · exact le_refl _
  · exact le_refl _

theorem pickSmaller_le_right (key : α → β) {a : Array α} {s c : Nat} (hs : s < a.size)
    (hc : c < a.size) (hp : pickSmaller key a s c < a.size) :
    key a[pickSmaller key a s c] ≤ key a[c] := by
  unfold pickSmaller at hp ⊢
  split
  · split
    · exact le_refl _
    · next h => exact not_lt.mp h
  · next h => exact absurd ⟨hc, hs⟩ h

/-- The smallest of cell `i` and its two children. -/
def smallestChild (key : α → β) (a : Array α) (i : Nat) : Nat :=
  pickSmaller key a (pickSmaller key a i (2 * i + 1)) (2 * i + 2)

theorem smallestChild_lt (key : α → β) {a : Array α} {i : Nat} (hi : i < a.size) :
    smallestChild key a i < a.size :=
  pickSmaller_lt key _ (pickSmaller_lt key _ hi)

theorem smallestChild_eq_or (key : α → β) (a : Array α) (i : Nat) :
    smallestChild key a i = i ∨ smallestChild key a i = 2 * i + 1
      ∨ smallestChild key a i = 2 * i + 2 := by
  obtain h | h := pickSmaller_eq_or key a (pickSmaller key a i (2 * i + 1)) (2 * i + 2)
  · obtain h' | h' := pickSmaller_eq_or key a i (2 * i + 1)
    · exact Or.inl (h.trans h')
    · exact Or.inr (Or.inl (h.trans h'))
  · exact Or.inr (Or.inr h)

theorem smallestChild_le_self (key : α → β) {a : Array α} {i : Nat} (hi : i < a.size)
    (hs : smallestChild key a i < a.size) : key a[smallestChild key a i] ≤ key a[i] :=
  le_trans (pickSmaller_le_left key (pickSmaller_lt key _ hi) hs)
    (pickSmaller_le_left key hi (pickSmaller_lt key _ hi))

theorem smallestChild_le_child (key : α → β) {a : Array α} {i k : Nat} (hi : i < a.size)
    (hk : k < a.size) (hk0 : 0 < k) (hp : (k - 1) / 2 = i)
    (hs : smallestChild key a i < a.size) : key a[smallestChild key a i] ≤ key a[k] := by
  have hk' : k = 2 * i + 1 ∨ k = 2 * i + 2 := by omega
  obtain rfl | rfl := hk'
  · exact le_trans (pickSmaller_le_left key (pickSmaller_lt key _ hi) hs)
      (pickSmaller_le_right key hi hk (pickSmaller_lt key _ hi))
  · exact pickSmaller_le_right key (pickSmaller_lt key _ hi) hk hs

/-- Swap cell `i` with its smallest child until no child is smaller. The fuel bounds the descent;
    the array's size is always enough. -/
def siftDown (key : α → β) : (fuel : Nat) → (a : Array α) → (i : Nat) → i < a.size → Array α
  | 0, a, _, _ => a
  | fuel + 1, a, i, hi =>
    if smallestChild key a i = i then a
    else siftDown key fuel (a.swap i (smallestChild key a i) hi (smallestChild_lt key hi))
      (smallestChild key a i) (by rw [Array.size_swap]; exact smallestChild_lt key hi)

/-- Move the last cell to the root, drop the old root and restore the order. -/
def heapPop (key : α → β) (a : Array α) (h : 0 < a.size) : Array α :=
  if h1 : 1 < a.size then
    siftDown key a.size (a.swap 0 (a.size - 1)).pop 0 (by simp; omega)
  else a.pop

theorem siftDown_perm (key : α → β) (fuel : Nat) (a : Array α) (i : Nat) (hi : i < a.size) :
    (siftDown key fuel a i hi).Perm a := by
  induction fuel generalizing a i with
  | zero => exact Array.Perm.refl _
  | succ fuel ih =>
    rw [siftDown]
    split
    · exact Array.Perm.refl _
    · exact (ih _ _ _).trans (Array.swap_perm hi (smallestChild_lt key hi))

/-- One swap moves the hole from `i` to its smallest child `s`. -/
theorem DownOrdered.swap {key : α → β} {a : Array α} {i s : Nat} (h : DownOrdered key a i)
    (hi : i < a.size) (hs : s < a.size) (hs0 : 0 < s) (hpar : (s - 1) / 2 = i)
    (hself : key a[s] ≤ key a[i])
    (hchild : ∀ (k : Nat) (hk : k < a.size), 0 < k → (k - 1) / 2 = i → key a[s] ≤ key a[k]) :
    DownOrdered key (a.swap i s) s := by
  constructor
  · intro k hk hk0 hks
    rw [Array.size_swap] at hk
    rw [Array.getElem_swap, Array.getElem_swap]
    by_cases hki : k = i
    · -- the hole's old cell against its own parent, which the swap leaves alone
      subst hki
      rw [if_pos rfl, if_neg (by omega), if_neg (by omega)]
      have hgp := h.grandparent_le s hs (by omega) hpar
      simp only [hpar] at hgp
      exact hgp
    · rw [if_neg hki]
      by_cases hpi : (k - 1) / 2 = i
      · rw [if_pos hpi]
        by_cases hkS : k = s
        · subst hkS
          rw [if_pos rfl]
          exact hself
        · rw [if_neg hkS]
          exact hchild k hk hk0 hpi
      · rw [if_neg hpi, if_neg hks, if_neg (by omega)]
        exact h.parent_le k hk hk0 hpi
  · intro k hk _ hks
    rw [Array.size_swap] at hk
    have hk' : k ≠ i ∧ k ≠ s := by omega
    rw [Array.getElem_swap, Array.getElem_swap, if_pos (by omega), if_neg hk'.1, if_neg hk'.2]
    have hpk := h.parent_le k hk (by omega) (by omega)
    simp only [hks] at hpk
    exact hpk

theorem siftDown_heapOrdered (key : α → β) (fuel : Nat) (a : Array α) (i : Nat)
    (hi : i < a.size) (hfuel : a.size ≤ fuel + i) (h : DownOrdered key a i) :
    HeapOrdered key (siftDown key fuel a i hi) := by
  induction fuel generalizing a i with
  | zero => omega
  | succ fuel ih =>
    rw [siftDown]
    split
    · next hstop =>
      intro k hk hk0
      by_cases hpi : (k - 1) / 2 = i
      · have hle := smallestChild_le_child key hi hk hk0 hpi (smallestChild_lt key hi)
        simp only [hstop] at hle
        simp only [hpi]
        exact hle
      · exact h.parent_le k hk hk0 hpi
    · next hne =>
      have hor := smallestChild_eq_or key a i
      have hs := smallestChild_lt key hi
      refine ih _ _ _ (by rw [Array.size_swap]; omega) ?_
      exact h.swap hi hs (by omega) (by omega) (smallestChild_le_self key hi hs)
        (fun k hk hk0 hp => smallestChild_le_child key hi hk hk0 hp hs)

theorem heapPop_perm (key : α → β) (a : Array α) (h : 0 < a.size) :
    (a[0] :: (heapPop key a h).toList).Perm a.toList := by
  unfold heapPop
  split
  · next h1 =>
    have hdown := Array.perm_iff_toList_perm.mp
      (siftDown_perm key a.size (a.swap 0 (a.size - 1)).pop 0 (by simp; omega))
    have hswap : ((a.swap 0 (a.size - 1)).toList).Perm a.toList :=
      Array.perm_iff_toList_perm.mp (Array.swap_perm (by omega) (by omega))
    have hlast : (a.swap 0 (a.size - 1)).toList
        = (a.swap 0 (a.size - 1)).pop.toList ++ [a[0]] := by
      rw [Array.toList_pop]
      have hne : (a.swap 0 (a.size - 1)).toList ≠ [] := by
        apply List.ne_nil_of_length_pos
        simpa using h
      have hroot : (a.swap 0 (a.size - 1)).toList.getLast hne = a[0] := by
        rw [List.getLast_eq_getElem]
        simp
      rw [← hroot, List.dropLast_append_getLast]
    refine (List.Perm.cons _ hdown).trans ?_
    refine List.Perm.trans ?_ hswap
    rw [hlast]
    exact (List.perm_append_singleton _ _).symm
  · next h1 =>
    have hsize : a.size = 1 := by omega
    obtain ⟨l⟩ := a
    match l, hsize with
    | [x], _ => simp

theorem size_heapPop (key : α → β) (a : Array α) (h : 0 < a.size) :
    (heapPop key a h).size + 1 = a.size := by
  have hlen := (heapPop_perm key a h).length_eq
  simpa using hlen

theorem heapPop_heapOrdered {key : α → β} {a : Array α} (h : 0 < a.size)
    (hord : HeapOrdered key a) : HeapOrdered key (heapPop key a h) := by
  unfold heapPop
  split
  · next h1 =>
    apply siftDown_heapOrdered _ _ _ _ _ (by simp)
    constructor
    · intro k hk hk0 hne
      simp only [Array.size_pop, Array.size_swap] at hk
      rw [Array.getElem_pop, Array.getElem_pop, Array.getElem_swap, Array.getElem_swap,
        if_neg hne, if_neg (by omega), if_neg (by omega), if_neg (by omega)]
      exact hord k (by omega) hk0
    · intro k hk hi0
      omega
  · next h1 =>
    intro k hk hk0
    rw [Array.size_pop] at hk
    omega

/-! ## The root -/

/-- The root is a minimum. -/
theorem HeapOrdered.root_le {key : α → β} {a : Array α} (h : HeapOrdered key a) (k : Nat)
    (hk : k < a.size) (h0 : 0 < a.size) : key a[0] ≤ key a[k] := by
  induction k using Nat.strongRecOn with
  | ind k ih =>
    by_cases hk0 : k = 0
    · subst hk0
      exact le_refl _
    · exact le_trans (ih ((k - 1) / 2) (by omega) (by omega)) (h k hk (by omega))

theorem HeapOrdered.root_le_of_mem {key : α → β} {a : Array α} (h : HeapOrdered key a)
    (h0 : 0 < a.size) {x : α} (hx : x ∈ a) : key a[0] ≤ key x := by
  obtain ⟨k, hk, rfl⟩ := Array.getElem_of_mem hx
  exact h.root_le k hk h0

theorem heapOrdered_empty (key : α → β) : HeapOrdered key (#[] : Array α) := by
  intro k hk
  simp at hk

end Cloak.Lib
