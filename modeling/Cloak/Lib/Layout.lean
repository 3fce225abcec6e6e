import Mathlib
import Cloak.Lib.Slice

set_option autoImplicit false

/-! # Buffers with named fields

A layout is a row of chunks, some of them named fields. `render ρ` writes it out with the fields as
`ρ` has them. Where every field occurs once, overwriting the cells of a field in the buffer is
updating the field (`patch_render`), and where a field changes its length the fields behind it move
(`offset_update`). -/

namespace Cloak.Lib

universe u v

variable {φ : Type u} {α : Type v}

/-- A chunk of a buffer: a field, or cells that stay as they are. -/
structure Chunk (φ : Type u) (α : Type v) where
  field : Option φ
  cells : List α
deriving DecidableEq, Repr

/-- The cells of a chunk, with the fields as `ρ` has them. -/
def Chunk.render (ρ : φ → List α) (c : Chunk φ α) : List α :=
  match c.field with
  | none => c.cells
  | some f => ρ f

/-- A chunk without the cells of a field. -/
def Chunk.blank (c : Chunk φ α) : Chunk φ α :=
  match c.field with
  | none => c
  | some f => ⟨some f, []⟩

/-- The buffer `cells` cut into chunks of the given names and sizes. -/
def cutLayout : List (Option φ × Nat) → List α → List (Chunk φ α)
  | [], _ => []
  | (field, n) :: sizes, cells => ⟨field, cells.take n⟩ :: cutLayout sizes (cells.drop n)

namespace Layout

def render (ρ : φ → List α) (L : List (Chunk φ α)) : List α := L.flatMap (Chunk.render ρ)

variable [DecidableEq φ] {ρ ρ' : φ → List α} {L : List (Chunk φ α)} {f g : φ} {s rest : List α}

/-- The chunks before the field `f`. -/
def before (L : List (Chunk φ α)) (f : φ) : List (Chunk φ α) := L.takeWhile (·.field ≠ some f)

/-- Where the field `f` starts. -/
def offset (ρ : φ → List α) (L : List (Chunk φ α)) (f : φ) : Nat := (render ρ (before L f)).length

/-- The fields as the layout itself has them. -/
def frozen (L : List (Chunk φ α)) (f : φ) : List α :=
  ((L.find? (·.field = some f)).map Chunk.cells).getD []

def Has (L : List (Chunk φ α)) (f : φ) : Prop := some f ∈ L.map Chunk.field

instance (L : List (Chunk φ α)) (f : φ) : Decidable (Has L f) := inferInstanceAs (Decidable (_ ∈ _))

/-- Every field occurs at most once. -/
def Distinct (L : List (Chunk φ α)) : Prop := (L.filterMap Chunk.field).Nodup

instance (L : List (Chunk φ α)) : Decidable (Distinct L) := inferInstanceAs (Decidable (List.Nodup _))

omit [DecidableEq φ] in
@[simp] theorem render_nil (ρ : φ → List α) : render ρ [] = [] := rfl

omit [DecidableEq φ] in
@[simp] theorem render_cons (ρ : φ → List α) (c : Chunk φ α) (L : List (Chunk φ α)) :
    render ρ (c :: L) = c.render ρ ++ render ρ L := rfl

omit [DecidableEq φ] in
theorem render_append (ρ : φ → List α) (L L' : List (Chunk φ α)) :
    render ρ (L ++ L') = render ρ L ++ render ρ L' := List.flatMap_append

omit [DecidableEq φ] in
/-- The cells of the fields do not count. -/
theorem render_map_blank (ρ : φ → List α) (L : List (Chunk φ α)) :
    render ρ (L.map Chunk.blank) = render ρ L := by
  induction L with
  | nil => rfl
  | cons c L ih =>
    rw [List.map_cons, render_cons, render_cons, ih]
    congr 1
    cases hc : c.field with
    | none => simp [Chunk.render, Chunk.blank, hc]
    | some f => simp [Chunk.render, Chunk.blank, hc]

omit [DecidableEq φ] in
/-- Only the fields that occur count. -/
theorem render_congr (h : ∀ f, Has L f → ρ f = ρ' f) : render ρ L = render ρ' L := by
  induction L with
  | nil => rfl
  | cons c L ih =>
    rw [render_cons, render_cons, ih fun f hf => h f (List.mem_cons_of_mem _ hf)]
    congr 1
    cases hc : c.field with
    | none => simp [Chunk.render, hc]
    | some f => simpa [Chunk.render, hc] using h f (by simp [Has, hc])

/-- Where every field occurs once, a field is what its chunk has. -/
theorem frozen_of_mem (h : Distinct L) {c : Chunk φ α} (hc : c ∈ L) (hf : c.field = some f) :
    frozen L f = c.cells := by
  induction L with
  | nil => cases hc
  | cons c' L ih =>
    rcases List.mem_cons.mp hc with rfl | hmem
    · simp [frozen, hf]
    · have hne : c'.field ≠ some f := by
        intro heq
        rw [Distinct, List.filterMap_cons_some heq, List.nodup_cons] at h
        exact h.1 (List.mem_filterMap.mpr ⟨c, hmem, hf⟩)
      have hrest : Distinct L := h.sublist (List.Sublist.filterMap _ (List.sublist_cons_self ..))
      simpa [frozen, hne] using ih hrest hmem

/-- Where every field occurs once, chunks of the layout are written out as they are. -/
theorem render_frozen (h : Distinct L) {A : List (Chunk φ α)} (hA : A ⊆ L) :
    render (frozen L) A = A.flatMap Chunk.cells := by
  induction A with
  | nil => rfl
  | cons c A ih =>
    obtain ⟨hc, hA⟩ := List.cons_subset.mp hA
    rw [render_cons, ih hA, List.flatMap_cons]
    congr 1
    cases hf : c.field with
    | none => simp [Chunk.render, hf]
    | some f => simp [Chunk.render, hf, frozen_of_mem h hc hf]

/-! ## Layouts from a list of sizes -/

omit [DecidableEq φ] in
/-- How many cells the chunks have. -/
def width (sizes : List (Option φ × Nat)) : Nat := (sizes.map Prod.snd).sum

/-- The chunks before the field `f`. -/
def sizesBefore (sizes : List (Option φ × Nat)) (f : φ) : List (Option φ × Nat) :=
  sizes.takeWhile (·.1 ≠ some f)

variable {sizes : List (Option φ × Nat)} {cells : List α}

omit [DecidableEq φ] in
theorem map_field_cutLayout (sizes : List (Option φ × Nat)) (cells : List α) :
    (cutLayout sizes cells).map Chunk.field = sizes.map Prod.fst := by
  induction sizes generalizing cells with
  | nil => rfl
  | cons size sizes ih => rw [cutLayout, List.map_cons, List.map_cons, ih]

omit [DecidableEq φ] in
theorem filterMap_field_cutLayout (sizes : List (Option φ × Nat)) (cells : List α) :
    (cutLayout sizes cells).filterMap Chunk.field = sizes.filterMap Prod.fst := by
  have h := congrArg (List.filterMap id) (map_field_cutLayout sizes cells)
  rwa [List.filterMap_map, List.filterMap_map] at h

omit [DecidableEq φ] in
theorem has_cutLayout : Has (cutLayout sizes cells) f ↔ some f ∈ sizes.map Prod.fst := by
  rw [Has, map_field_cutLayout]

theorem before_cutLayout (sizes : List (Option φ × Nat)) (cells : List α) (f : φ) :
    before (cutLayout sizes cells) f = cutLayout (sizesBefore sizes f) cells := by
  induction sizes generalizing cells with
  | nil => rfl
  | cons size sizes ih =>
    rw [cutLayout, before, sizesBefore, List.takeWhile_cons, List.takeWhile_cons]
    split
    · rw [cutLayout]
      exact congrArg _ (ih _)
    · rfl

omit [DecidableEq φ] in
/-- Cutting loses no cell. -/
theorem flatMap_cells_cutLayout (sizes : List (Option φ × Nat)) (cells : List α) :
    (cutLayout sizes cells).flatMap Chunk.cells = cells.take (width sizes) := by
  induction sizes generalizing cells with
  | nil => rfl
  | cons size sizes ih =>
    have hwidth : width (size :: sizes) = size.2 + width sizes := rfl
    rw [cutLayout, List.flatMap_cons, ih, hwidth, List.take_add]

theorem offset_cutLayout (h : (sizes.filterMap Prod.fst).Nodup) (hfit : width sizes ≤ cells.length)
    (f : φ) : offset (frozen (cutLayout sizes cells)) (cutLayout sizes cells) f
      = width (sizesBefore sizes f) := by
  have hdist : Distinct (cutLayout sizes cells) := by rwa [Distinct, filterMap_field_cutLayout]
  have hsplit := congrArg width (List.takeWhile_append_dropWhile (p := (·.1 ≠ some f)) (l := sizes))
  rw [width, List.map_append, List.sum_append] at hsplit
  have hpart : before (cutLayout sizes cells) f ⊆ cutLayout sizes cells :=
    List.takeWhile_subset _
  rw [offset, render_frozen hdist hpart, before_cutLayout, flatMap_cells_cutLayout,
    List.length_take, sizesBefore, width]
  omega

omit [DecidableEq φ] in
theorem exists_chunk {n : Nat} (hfit : width sizes ≤ cells.length) (hmem : (some f, n) ∈ sizes) :
    ∃ c ∈ cutLayout sizes cells, c.field = some f ∧ c.cells.length = n := by
  induction sizes generalizing cells with
  | nil => cases hmem
  | cons size sizes ih =>
    rw [width, List.map_cons, List.sum_cons] at hfit
    rcases List.mem_cons.mp hmem with rfl | hmem
    · exact ⟨_, List.mem_cons_self, rfl, by rw [List.length_take]; omega⟩
    · have hfit' : width sizes ≤ (cells.drop size.2).length := by
        rw [List.length_drop, width]
        omega
      obtain ⟨c, hc, hrest⟩ := ih hfit' hmem
      exact ⟨c, List.mem_cons_of_mem _ hc, hrest⟩

theorem length_frozen_cutLayout {n : Nat} (h : (sizes.filterMap Prod.fst).Nodup)
    (hfit : width sizes ≤ cells.length) (hmem : (some f, n) ∈ sizes) :
    (frozen (cutLayout sizes cells) f).length = n := by
  obtain ⟨c, hc, hf, hlen⟩ := exists_chunk hfit hmem
  rw [frozen_of_mem (by rwa [Distinct, filterMap_field_cutLayout]) hc hf, hlen]

theorem render_update_of_not_has (h : ¬ Has L f) :
    render (Function.update ρ f s) L = render ρ L := by
  refine render_congr fun g hg => Function.update_of_ne ?_ _ _
  rintro rfl
  exact h hg

theorem not_has_before (L : List (Chunk φ α)) (f : φ) : ¬ Has (before L f) f := by
  intro h
  obtain ⟨c, hc, hfield⟩ := List.mem_map.mp h
  simpa [hfield] using List.mem_takeWhile_imp hc

/-- A layout is what is before a field, the field, and what is behind it. -/
theorem split_at (h : Has L f) : ∃ cells B, L = before L f ++ ⟨some f, cells⟩ :: B := by
  induction L with
  | nil => cases h
  | cons c L ih =>
    by_cases hc : c.field = some f
    · refine ⟨c.cells, L, ?_⟩
      rw [before, List.takeWhile_cons_of_neg (by simpa using hc), List.nil_append, ← hc]
    · obtain ⟨cells, B, hL⟩ := ih ((List.mem_cons.mp h).resolve_left fun heq => hc heq.symm)
      refine ⟨cells, B, ?_⟩
      rw [before, List.takeWhile_cons_of_pos (by simpa using hc), List.cons_append]
      exact congrArg _ hL

/-- The buffer around a field that occurs once. -/
theorem render_split (hd : Distinct L) (h : Has L f) : ∃ B, ¬ Has B f ∧
    ∀ ρ : φ → List α, render ρ L = render ρ (before L f) ++ (ρ f ++ render ρ B) := by
  obtain ⟨cells, B, hL⟩ := split_at h
  refine ⟨B, ?_, fun ρ => ?_⟩
  · intro hB
    rw [Distinct, hL, List.filterMap_append, List.filterMap_cons] at hd
    have hnot := (List.nodup_cons.mp (List.nodup_append.mp hd).2.1).1
    obtain ⟨c, hc, hfield⟩ := List.mem_map.mp hB
    exact hnot (List.mem_filterMap.mpr ⟨c, hc, hfield⟩)
  · conv_lhs => rw [hL]
    rw [render_append, render_cons]
    rfl

/-! ## Overwriting -/

/-- Overwriting the middle of an append. -/
theorem patch_append_middle {xs ys : List α} (zs : List α) (hlen : s.length = ys.length) :
    patch (xs ++ (ys ++ zs)) xs.length s = xs ++ (s ++ zs) := by
  rw [patch, List.take_left, List.append_assoc, hlen, ← List.length_append, ← List.append_assoc xs ys,
    List.drop_left]

/-- Overwriting the cells of a field is updating it. -/
theorem patch_render (hd : Distinct L) (h : Has L f) (hlen : s.length = (ρ f).length) :
    patch (render ρ L ++ rest) (offset ρ L f) s =
      render (Function.update ρ f s) L ++ rest := by
  obtain ⟨B, hB, hsplit⟩ := render_split hd h
  rw [hsplit, hsplit, render_update_of_not_has (not_has_before L f), render_update_of_not_has hB,
    Function.update_self, List.append_assoc, List.append_assoc, offset]
  exact (patch_append_middle _ hlen).trans (by simp)

/-- The cells of a field. -/
theorem slice_render (hd : Distinct L) (h : Has L f) :
    slice (render ρ L ++ rest) (offset ρ L f) (ρ f).length = ρ f := by
  obtain ⟨B, -, hsplit⟩ := render_split hd h
  rw [hsplit, List.append_assoc, List.append_assoc]
  exact slice_append_middle _ rfl rfl

/-- Exchanging the cells of a field for any others is updating it. -/
theorem splice_render (hd : Distinct L) (h : Has L f) :
    (render ρ L).take (offset ρ L f) ++
        (s ++ (render ρ L).drop (offset ρ L f + (ρ f).length)) =
      render (Function.update ρ f s) L := by
  obtain ⟨B, hB, hsplit⟩ := render_split hd h
  rw [hsplit, hsplit, render_update_of_not_has (not_has_before L f), render_update_of_not_has hB,
    Function.update_self, offset, List.take_left, ← List.drop_drop, List.drop_left, List.drop_left]

/-! ## Offsets -/

omit [DecidableEq φ] in
theorem length_render_congr (h : ∀ f, (ρ f).length = (ρ' f).length) (L : List (Chunk φ α)) :
    (render ρ L).length = (render ρ' L).length := by
  induction L with
  | nil => rfl
  | cons c L ih =>
    rw [render_cons, render_cons, List.length_append, List.length_append, ih]
    congr 1
    cases hc : c.field with
    | none => simp [Chunk.render, hc]
    | some f => simpa [Chunk.render, hc] using h f

/-- Offsets depend on the lengths only. -/
theorem offset_congr (h : ∀ f, (ρ f).length = (ρ' f).length) (L : List (Chunk φ α)) (f : φ) :
    offset ρ L f = offset ρ' L f := length_render_congr h _

/-- The length of a buffer when a field changes its own. -/
theorem length_render_update (hd : Distinct L) (h : Has L f) :
    (render (Function.update ρ f s) L).length + (ρ f).length =
      (render ρ L).length + s.length := by
  obtain ⟨B, hB, hsplit⟩ := render_split hd h
  rw [hsplit, hsplit, render_update_of_not_has (not_has_before L f), render_update_of_not_has hB,
    Function.update_self]
  simp only [List.length_append]
  omega

theorem Distinct.before (hd : Distinct L) (f : φ) : Distinct (before L f) :=
  hd.sublist ((List.takeWhile_sublist _).filterMap _)

/-- A field behind one that changes its length moves. -/
theorem offset_update (hd : Distinct L) (h : Has (before L f) g) :
    offset (Function.update ρ g s) L f + (ρ g).length = offset ρ L f + s.length :=
  length_render_update (hd.before f) h

/-- A field before it stays. -/
theorem offset_update_of_not_has (h : ¬ Has (before L f) g) :
    offset (Function.update ρ g s) L f = offset ρ L f :=
  congrArg List.length (render_update_of_not_has h)

end Layout

end Cloak.Lib
