import Mathlib

set_option autoImplicit false

/-! # Heaps sifted through a hole, with back-pointers

The binary heap as C programs write it. A sift lifts one entry `e` out of the array, which leaves a
hole, moves parents or children into the hole, and puts `e` down where the hole ends up. Every write
also records where the entry went, under the name of its owner.

The rules here are the steps of such a sift. `UpHole` and `DownHole` are what the order of the
array needs around the hole, `FiledHole` is what the back-pointers need; each has one rule for a
move and one for putting `e` down. The array is memory, a function, of which `count` cells count. -/

namespace Cloak.Lib

universe u v

variable {α : Type u} {β : Type v} [LinearOrder β]

/-! ## Order -/

/-- Every cell is at least its parent. -/
def CellsOrdered (key : α → β) (cells : Nat → α) (count : Nat) : Prop :=
  ∀ k, 0 < k → k < count → key (cells ((k - 1) / 2)) ≤ key (cells k)

/-- What sifting `e` up from `hole` needs. -/
structure UpHole (key : α → β) (cells : Nat → α) (count hole : Nat) (e : α) : Prop where
  off : ∀ k, 0 < k → k < count → k ≠ hole → (k - 1) / 2 ≠ hole →
    key (cells ((k - 1) / 2)) ≤ key (cells k)
  grand : ∀ k, 0 < hole → 0 < k → k < count → (k - 1) / 2 = hole →
    key (cells ((hole - 1) / 2)) ≤ key (cells k)
  below : ∀ k, 0 < k → k < count → (k - 1) / 2 = hole → key e ≤ key (cells k)

/-- What sifting `e` down from `hole` needs. -/
structure DownHole (key : α → β) (cells : Nat → α) (count hole : Nat) (e : α) : Prop where
  off : ∀ k, 0 < k → k < count → k ≠ hole → (k - 1) / 2 ≠ hole →
    key (cells ((k - 1) / 2)) ≤ key (cells k)
  grand : ∀ k, 0 < hole → 0 < k → k < count → (k - 1) / 2 = hole →
    key (cells ((hole - 1) / 2)) ≤ key (cells k)
  above : 0 < hole → key (cells ((hole - 1) / 2)) ≤ key e

variable {key : α → β} {cells : Nat → α} {count hole : Nat} {e : α}

/-- The root is the least. -/
theorem CellsOrdered.root_le (h : CellsOrdered key cells count) (k : Nat) (hk : k < count) :
    key (cells 0) ≤ key (cells k) := by
  induction k using Nat.strongRecOn with
  | ind k ih =>
    by_cases hk0 : k = 0
    · rw [hk0]
    · exact (ih ((k - 1) / 2) (by omega) (by omega)).trans (h k (by omega) hk)

/-- Lifting an entry out of an ordered array. -/
theorem CellsOrdered.upHole (h : CellsOrdered key cells count) (hole : Nat) (hhole : hole < count) :
    UpHole key cells count hole (cells hole) where
  off k hk0 hk _ _ := h k hk0 hk
  grand k hhole0 hk0 hk hkh := by
    have hk' := h k hk0 hk
    rw [hkh] at hk'
    exact (h hole hhole0 hhole).trans hk'
  below k hk0 hk hkh := hkh ▸ h k hk0 hk

/-- One entry more at the end. -/
theorem CellsOrdered.upHole_end (h : CellsOrdered key cells count) (e : α) :
    UpHole key cells (count + 1) count e where
  off k hk0 hk hkne _ := h k hk0 (by omega)
  grand k _ hk0 hk hkh := by omega
  below k hk0 hk hkh := by omega

/-- The last entry `e` is to go into a hole whose parent is no larger. -/
theorem CellsOrdered.downHole (h : CellsOrdered key cells (count + 1)) (hhole : hole < count)
    (habove : 0 < hole → key (cells ((hole - 1) / 2)) ≤ key e) :
    DownHole key cells count hole e where
  off k hk0 hk _ _ := h k hk0 (by omega)
  grand k hhole0 hk0 hk hkh := by
    have hk' := h k hk0 (by omega)
    rw [hkh] at hk'
    exact (h hole hhole0 (by omega)).trans hk'
  above := habove

/-- The last entry `e` is to go into a hole whose parent is larger. -/
theorem CellsOrdered.upHole_last (h : CellsOrdered key cells (count + 1)) (hhole : hole < count)
    (hhole0 : 0 < hole) (hlt : key e < key (cells ((hole - 1) / 2))) :
    UpHole key cells count hole e := by
  have hgrand : ∀ k, 0 < k → k < count → (k - 1) / 2 = hole →
      key (cells ((hole - 1) / 2)) ≤ key (cells k) := by
    intro k hk0 hk hkh
    have hk' := h k hk0 (by omega)
    rw [hkh] at hk'
    exact (h hole hhole0 (by omega)).trans hk'
  exact
    { off := fun k hk0 hk _ _ => h k hk0 (by omega)
      grand := fun k _ => hgrand k
      below := fun k hk0 hk hkh => le_of_lt (lt_of_lt_of_le hlt (hgrand k hk0 hk hkh)) }

/-- The parent moves into the hole. -/
theorem UpHole.move (h : UpHole key cells count hole e) (hhole0 : 0 < hole) (hhole : hole < count)
    (hlt : key e < key (cells ((hole - 1) / 2))) :
    UpHole key (Function.update cells hole (cells ((hole - 1) / 2))) count ((hole - 1) / 2) e := by
  have hparent : 0 < (hole - 1) / 2 →
      key (cells (((hole - 1) / 2 - 1) / 2)) ≤ key (cells ((hole - 1) / 2)) :=
    fun hp => h.off _ hp (by omega) (by omega) (by omega)
  constructor
  · intro k hk0 hk hkne hkp
    have hkh : k ≠ hole := by rintro rfl; exact hkp rfl
    rw [Function.update_of_ne hkh]
    by_cases hpar : (k - 1) / 2 = hole
    · rw [hpar, Function.update_self]
      exact h.grand k hhole0 hk0 hk hpar
    · rw [Function.update_of_ne hpar]
      exact h.off k hk0 hk hkh hpar
  · intro k hp hk0 hk hkp
    rw [Function.update_of_ne (by omega)]
    by_cases hkh : k = hole
    · rw [hkh, Function.update_self]
      exact hparent hp
    · have hk' := h.off k hk0 hk hkh (by omega)
      rw [hkp] at hk'
      rw [Function.update_of_ne hkh]
      exact (hparent hp).trans hk'
  · intro k hk0 hk hkp
    by_cases hkh : k = hole
    · rw [hkh, Function.update_self]
      exact le_of_lt hlt
    · have hk' := h.off k hk0 hk hkh (by omega)
      rw [hkp] at hk'
      rw [Function.update_of_ne hkh]
      exact (le_of_lt hlt).trans hk'

/-- What is in the hole does not matter. -/
theorem UpHole.refill (h : UpHole key cells count hole e) (x : α) :
    UpHole key (Function.update cells hole x) count hole e where
  off k hk0 hk hkh hpar := by
    rw [Function.update_of_ne hkh, Function.update_of_ne hpar]
    exact h.off k hk0 hk hkh hpar
  grand k hhole0 hk0 hk hpar := by
    rw [Function.update_of_ne (by omega), Function.update_of_ne (by omega)]
    exact h.grand k hhole0 hk0 hk hpar
  below k hk0 hk hpar := by
    rw [Function.update_of_ne (by omega)]
    exact h.below k hk0 hk hpar

/-- What is in the hole does not matter. -/
theorem DownHole.refill (h : DownHole key cells count hole e) (x : α) :
    DownHole key (Function.update cells hole x) count hole e where
  off k hk0 hk hkh hpar := by
    rw [Function.update_of_ne hkh, Function.update_of_ne hpar]
    exact h.off k hk0 hk hkh hpar
  grand k hhole0 hk0 hk hpar := by
    rw [Function.update_of_ne (by omega), Function.update_of_ne (by omega)]
    exact h.grand k hhole0 hk0 hk hpar
  above hhole0 := by
    rw [Function.update_of_ne (by omega)]
    exact h.above hhole0

/-- `e` goes down where its parent is no larger. -/
theorem UpHole.finish (h : UpHole key cells count hole e)
    (hstop : 0 < hole → key (cells ((hole - 1) / 2)) ≤ key e) :
    CellsOrdered key (Function.update cells hole e) count := by
  intro k hk0 hk
  by_cases hkh : k = hole
  · subst hkh
    rw [Function.update_self, Function.update_of_ne (by omega)]
    exact hstop hk0
  · rw [Function.update_of_ne hkh]
    by_cases hpar : (k - 1) / 2 = hole
    · rw [hpar, Function.update_self]
      exact h.below k hk0 hk hpar
    · rw [Function.update_of_ne hpar]
      exact h.off k hk0 hk hkh hpar

/-- The smaller child `c` moves into the hole. -/
theorem DownHole.move (h : DownHole key cells count hole e) {c : Nat} (hc0 : 0 < c)
    (hc : c < count) (hch : (c - 1) / 2 = hole) (hlt : key (cells c) < key e)
    (hmin : ∀ k, 0 < k → k < count → (k - 1) / 2 = hole → key (cells c) ≤ key (cells k)) :
    DownHole key (Function.update cells hole (cells c)) count c e := by
  constructor
  · intro k hk0 hk hkc hkp
    by_cases hkh : k = hole
    · subst hkh
      rw [Function.update_self, Function.update_of_ne (by omega)]
      exact h.grand c hk0 hc0 hc hch
    · rw [Function.update_of_ne hkh]
      by_cases hpar : (k - 1) / 2 = hole
      · rw [hpar, Function.update_self]
        exact hmin k hk0 hk hpar
      · rw [Function.update_of_ne hpar]
        exact h.off k hk0 hk hkh hpar
  · intro k _ hk0 hk hkc
    have hk' := h.off k hk0 hk (by omega) (by omega)
    rw [hkc] at hk'
    rw [hch, Function.update_self, Function.update_of_ne (by omega)]
    exact hk'
  · intro _
    rw [hch, Function.update_self]
    exact le_of_lt hlt

/-- `e` goes down where no child is smaller. -/
theorem DownHole.finish (h : DownHole key cells count hole e)
    (hstop : ∀ k, 0 < k → k < count → (k - 1) / 2 = hole → key e ≤ key (cells k)) :
    CellsOrdered key (Function.update cells hole e) count := by
  intro k hk0 hk
  by_cases hkh : k = hole
  · subst hkh
    rw [Function.update_self, Function.update_of_ne (by omega)]
    exact h.above hk0
  · rw [Function.update_of_ne hkh]
    by_cases hpar : (k - 1) / 2 = hole
    · rw [hpar, Function.update_self]
      exact hstop k hk0 hk hpar
    · rw [Function.update_of_ne hpar]
      exact h.off k hk0 hk hkh hpar

/-! ## Back-pointers -/

/-- The cells below `count` hold the entries of `m`, one for each owner, and `pos` says where. -/
structure Filed (owner : α → Nat) (cells : Nat → α) (count : Nat) (pos : Nat → Nat)
    (m : Nat → Option α) : Prop where
  cell : ∀ i, i < count → pos (owner (cells i)) = i ∧ m (owner (cells i)) = some (cells i)
  entry : ∀ s x, m s = some x → owner x = s ∧ pos s < count ∧ cells (pos s) = x

/-- The same with the entry `e` lifted out of the cell `hole`. -/
structure FiledHole (owner : α → Nat) (cells : Nat → α) (count : Nat) (pos : Nat → Nat)
    (m : Nat → Option α) (hole : Nat) (e : α) : Prop where
  lt : hole < count
  lifted : m (owner e) = some e
  cell : ∀ i, i < count → i ≠ hole →
    owner (cells i) ≠ owner e ∧ pos (owner (cells i)) = i ∧ m (owner (cells i)) = some (cells i)
  entry : ∀ s x, m s = some x → s ≠ owner e →
    owner x = s ∧ pos s < count ∧ pos s ≠ hole ∧ cells (pos s) = x

variable {owner : α → Nat} {pos : Nat → Nat} {m : Nat → Option α}

omit [LinearOrder β] in
theorem Filed.lift (h : Filed owner cells count pos m) (hhole : hole < count) :
    FiledHole owner cells count pos m hole (cells hole) where
  lt := hhole
  lifted := (h.cell hole hhole).2
  cell i hi hne :=
    ⟨fun heq => hne (by rw [← (h.cell i hi).1, heq, (h.cell hole hhole).1]), h.cell i hi⟩
  entry s x hs hne := by
    obtain ⟨hx, hpos, hcell⟩ := h.entry s x hs
    refine ⟨hx, hpos, fun heq => hne ?_, hcell⟩
    rw [← hx, ← hcell, heq]

omit [LinearOrder β] in
/-- Only the positions of owners that have an entry matter. -/
theorem Filed.congr_pos {pos' : Nat → Nat} (h : Filed owner cells count pos m)
    (heq : ∀ s, m s ≠ none → pos' s = pos s) : Filed owner cells count pos' m where
  cell i hi := by
    obtain ⟨hpos, hm⟩ := h.cell i hi
    exact ⟨(heq _ (by simp [hm])).trans hpos, hm⟩
  entry s x hs := by
    rw [heq s (by simp [hs])]
    exact h.entry s x hs

omit [LinearOrder β] in
/-- The entry of another cell `c` moves into the hole. -/
theorem FiledHole.move (h : FiledHole owner cells count pos m hole e) {c : Nat} (hc : c < count)
    (hch : c ≠ hole) :
    FiledHole owner (Function.update cells hole (cells c)) count
      (Function.update pos (owner (cells c)) hole) m c e where
  lt := hc
  lifted := h.lifted
  cell i hi hic := by
    by_cases hih : i = hole
    · obtain ⟨hne, _, hm⟩ := h.cell c hc hch
      rw [hih, Function.update_self, Function.update_self]
      exact ⟨hne, rfl, hm⟩
    · obtain ⟨hne, hpos, hm⟩ := h.cell i hi hih
      have hown : owner (cells i) ≠ owner (cells c) :=
        fun heq => hic (by rw [← hpos, heq, (h.cell c hc hch).2.1])
      rw [Function.update_of_ne hih, Function.update_of_ne hown]
      exact ⟨hne, hpos, hm⟩
  entry s x hs hne := by
    obtain ⟨hx, hpos, hph, hcell⟩ := h.entry s x hs hne
    obtain ⟨hcne, hcpos, hcm⟩ := h.cell c hc hch
    by_cases hsc : s = owner (cells c)
    · subst hsc
      rw [Function.update_self, Function.update_self]
      rw [hcpos] at hcell
      exact ⟨hx, h.lt, Ne.symm hch, hcell⟩
    · rw [Function.update_of_ne hsc, Function.update_of_ne hph]
      refine ⟨hx, hpos, fun heq => hsc ?_, hcell⟩
      rw [← hx, ← hcell, heq]

omit [LinearOrder β] in
/-- `e` goes into the hole. -/
theorem FiledHole.finish (h : FiledHole owner cells count pos m hole e) :
    Filed owner (Function.update cells hole e) count (Function.update pos (owner e) hole) m where
  cell i hi := by
    by_cases hih : i = hole
    · rw [hih, Function.update_self, Function.update_self]
      exact ⟨rfl, h.lifted⟩
    · obtain ⟨hne, hpos, hm⟩ := h.cell i hi hih
      rw [Function.update_of_ne hih, Function.update_of_ne hne]
      exact ⟨hpos, hm⟩
  entry s x hs := by
    by_cases hse : s = owner e
    · subst hse
      have hx : e = x := Option.some.inj (h.lifted.symm.trans hs)
      rw [Function.update_self, Function.update_self]
      exact ⟨by rw [hx], h.lt, hx⟩
    · obtain ⟨hx, hpos, hph, hcell⟩ := h.entry s x hs hse
      rw [Function.update_of_ne hse, Function.update_of_ne hph]
      exact ⟨hx, hpos, hcell⟩

omit [LinearOrder β] in
/-- A new owner's entry at the end. -/
theorem Filed.push (h : Filed owner cells count pos m) (hfree : m (owner e) = none) :
    FiledHole owner cells (count + 1) pos (Function.update m (owner e) (some e)) count e where
  lt := Nat.lt_succ_self _
  lifted := Function.update_self ..
  cell i hi hne := by
    obtain ⟨hpos, hm⟩ := h.cell i (by omega)
    have hown : owner (cells i) ≠ owner e := by
      intro heq
      rw [heq, hfree] at hm
      cases hm
    exact ⟨hown, hpos, by rw [Function.update_of_ne hown]; exact hm⟩
  entry s x hs hne := by
    rw [Function.update_of_ne hne] at hs
    obtain ⟨hx, hpos, hcell⟩ := h.entry s x hs
    exact ⟨hx, by omega, by omega, hcell⟩

omit [LinearOrder β] in
/-- The last cell is dropped with its entry. -/
theorem Filed.drop_last (h : Filed owner cells (count + 1) pos m) :
    Filed owner cells count pos (Function.update m (owner (cells count)) none) where
  cell i hi := by
    obtain ⟨hpos, hm⟩ := h.cell i (by omega)
    have hown : owner (cells i) ≠ owner (cells count) := by
      intro heq
      have hlast := (h.cell count (by omega)).1
      rw [← heq, hpos] at hlast
      omega
    exact ⟨hpos, by rw [Function.update_of_ne hown]; exact hm⟩
  entry s x hs := by
    by_cases hsl : s = owner (cells count)
    · rw [hsl, Function.update_self] at hs
      cases hs
    · rw [Function.update_of_ne hsl] at hs
      obtain ⟨hx, hpos, hcell⟩ := h.entry s x hs
      refine ⟨hx, ?_, hcell⟩
      have hne : pos s ≠ count := by
        intro heq
        exact hsl (by rw [← hx, ← hcell, heq])
      omega

omit [LinearOrder β] in
/-- The entry of cell `hole` is dropped, and the last entry is lifted to go there. -/
theorem Filed.drop_hole (h : Filed owner cells (count + 1) pos m) (hhole : hole < count) :
    FiledHole owner cells count pos (Function.update m (owner (cells hole)) none) hole
      (cells count) := by
  have hlast := h.cell count (by omega)
  have hdrop := h.cell hole (by omega)
  have hne : owner (cells count) ≠ owner (cells hole) := by
    intro heq
    have hpos := hlast.1
    rw [heq, hdrop.1] at hpos
    omega
  refine
    { lt := hhole
      lifted := by rw [Function.update_of_ne hne]; exact hlast.2
      cell := ?_
      entry := ?_ }
  · intro i hi hih
    obtain ⟨hpos, hm⟩ := h.cell i (by omega)
    have hown : ∀ j, j < count + 1 → i ≠ j → owner (cells i) ≠ owner (cells j) := by
      intro j hj hij heq
      exact hij (by rw [← hpos, heq, (h.cell j hj).1])
    refine ⟨hown count (by omega) (by omega), hpos, ?_⟩
    rw [Function.update_of_ne (hown hole (by omega) hih)]
    exact hm
  · intro s x hs hsl
    by_cases hsh : s = owner (cells hole)
    · rw [hsh, Function.update_self] at hs
      cases hs
    · rw [Function.update_of_ne hsh] at hs
      obtain ⟨hx, hpos, hcell⟩ := h.entry s x hs
      have hcount : pos s ≠ count := fun heq => hsl (by rw [← hx, ← hcell, heq])
      exact ⟨hx, by omega, fun heq => hsh (by rw [← hx, ← hcell, heq]), hcell⟩

/-- The entries in the array. -/
def cellList (cells : Nat → α) (count : Nat) : List α := (List.range count).map cells

omit [LinearOrder β] in
theorem Filed.mem_cellList (h : Filed owner cells count pos m) (x : α) :
    x ∈ cellList cells count ↔ m (owner x) = some x := by
  rw [cellList, List.mem_map]
  constructor
  · rintro ⟨i, hi, rfl⟩
    exact (h.cell i (List.mem_range.mp hi)).2
  · intro hx
    obtain ⟨_, hpos, hcell⟩ := h.entry _ x hx
    exact ⟨pos (owner x), List.mem_range.mpr hpos, hcell⟩

omit [LinearOrder β] in
theorem Filed.nodup_cellList (h : Filed owner cells count pos m) : (cellList cells count).Nodup := by
  refine List.Nodup.map_on ?_ List.nodup_range
  intro i hi j hj heq
  rw [← (h.cell i (List.mem_range.mp hi)).1, heq, (h.cell j (List.mem_range.mp hj)).1]

omit [LinearOrder β] in
/-- The arrays of `m`, and of `m` without the entry of `s`. -/
theorem Filed.perm_cons {cells' : Nat → α} {count' : Nat} {pos' : Nat → Nat} {s : Nat}
    (h : Filed owner cells count pos m) (hs : m s = some e)
    (h' : Filed owner cells' count' pos' (Function.update m s none)) :
    (cellList cells count).Perm (e :: cellList cells' count') := by
  have hown : owner e = s := (h.entry s e hs).1
  have hnew : e ∉ cellList cells' count' := by
    rw [h'.mem_cellList, hown, Function.update_self]
    simp
  refine (List.perm_ext_iff_of_nodup h.nodup_cellList
    (List.nodup_cons.mpr ⟨hnew, h'.nodup_cellList⟩)).mpr fun x => ?_
  rw [List.mem_cons, h.mem_cellList, h'.mem_cellList]
  by_cases hx : owner x = s
  · rw [hx, Function.update_self, hs]
    simp [eq_comm]
  · rw [Function.update_of_ne hx]
    refine ⟨fun hm => Or.inr hm, fun hm => hm.resolve_left ?_⟩
    rintro rfl
    exact hx hown

end Cloak.Lib
