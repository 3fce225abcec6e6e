import Mathlib.Data.List.DropRight

set_option autoImplicit false

/-! # Lines that end in CRLF

The text protocols' way to write a list of lines: each behind it a CR and an LF, and an empty line where
the list ends. Lines without a CR in them are found again (`headed_inj`), whatever follows the list.
`cutAt` is the search for a byte that all of this rests on. -/

namespace Cloak.Lib

/-- What stands before the first `c`, and what stands behind it. -/
def cutAt (c : UInt8) : List UInt8 → Option (List UInt8 × List UInt8)
  | [] => none
  | b :: bs => if b = c then some ([], bs) else (cutAt c bs).map fun p => (b :: p.1, p.2)

variable {c : UInt8} {bs xs ys xs' ys' : List UInt8}

theorem cutAt_append (h : c ∉ xs) (ys : List UInt8) : cutAt c (xs ++ c :: ys) = some (xs, ys) := by
  induction xs with
  | nil => rw [List.nil_append, cutAt, if_pos rfl]
  | cons x xs ih =>
    rw [List.mem_cons, not_or] at h
    rw [List.cons_append, cutAt, if_neg (Ne.symm h.1), ih h.2, Option.map_some]

theorem cutAt_some (h : cutAt c bs = some (xs, ys)) : bs = xs ++ c :: ys ∧ c ∉ xs := by
  induction bs generalizing xs with
  | nil => cases h
  | cons b bs ih =>
    rw [cutAt] at h
    split at h
    · next hb =>
      obtain ⟨rfl, rfl⟩ := Prod.mk.inj (Option.some.inj h)
      exact ⟨by rw [hb, List.nil_append], List.not_mem_nil⟩
    · next hb =>
      obtain ⟨⟨xs, ys⟩, hcut, heq⟩ := Option.map_eq_some_iff.mp h
      obtain ⟨rfl, rfl⟩ := Prod.mk.inj heq
      obtain ⟨hbs, hxs⟩ := ih hcut
      exact ⟨by rw [hbs, List.cons_append], by
        rw [List.mem_cons, not_or]
        exact ⟨Ne.symm hb, hxs⟩⟩

/-- The first `c` is at one place. -/
theorem cut_unique (hxs : c ∉ xs) (hxs' : c ∉ xs') (h : xs ++ c :: ys = xs' ++ c :: ys') :
    xs = xs' ∧ ys = ys' := by
  have hcut := cutAt_append hxs ys
  rw [h, cutAt_append hxs'] at hcut
  obtain ⟨rfl, rfl⟩ := Prod.mk.inj (Option.some.inj hcut)
  exact ⟨rfl, rfl⟩

/-! ## Lists of lines -/

def cr : UInt8 := 0x0d

def lf : UInt8 := 0x0a

def crlf : List UInt8 := [cr, lf]

/-- The lines, each with its CRLF. -/
def terminated (lines : List (List UInt8)) : List UInt8 := lines.flatMap (· ++ crlf)

/-- The lines, the empty line behind them, and the rest. -/
def headed (lines : List (List UInt8)) (rest : List UInt8) : List UInt8 :=
  terminated lines ++ (crlf ++ rest)

/-- Lines a reader that looks for a CR finds again. -/
def Lines (lines : List (List UInt8)) : Prop := ∀ line ∈ lines, cr ∉ line ∧ line ≠ []

@[simp] theorem terminated_nil : terminated [] = [] := rfl

@[simp] theorem terminated_cons (line : List UInt8) (lines : List (List UInt8)) :
    terminated (line :: lines) = line ++ (crlf ++ terminated lines) := by
  simp [terminated]

theorem terminated_append (lines lines' : List (List UInt8)) :
    terminated (lines ++ lines') = terminated lines ++ terminated lines' :=
  List.flatMap_append

@[simp] theorem headed_nil (rest : List UInt8) : headed [] rest = cr :: lf :: rest := rfl

@[simp] theorem headed_cons (line : List UInt8) (lines : List (List UInt8)) (rest : List UInt8) :
    headed (line :: lines) rest = line ++ cr :: lf :: headed lines rest := by
  simp [headed, crlf]

/-- Bytes that begin with a CR begin with the empty line. -/
theorem cr_first {line : List UInt8} (hline : cr ∉ line) (h : line ++ cr :: xs = cr :: ys) :
    line = [] ∧ xs = ys :=
  cut_unique hline List.not_mem_nil (h.trans (List.nil_append _).symm)

/-- The lines and the rest are read off the bytes. -/
theorem headed_inj {lines lines' : List (List UInt8)} {rest rest' : List UInt8}
    (hlines : Lines lines) (hlines' : Lines lines') (h : headed lines rest = headed lines' rest') :
    lines = lines' ∧ rest = rest' := by
  induction lines generalizing lines' with
  | nil =>
    cases lines' with
    | nil =>
      rw [headed_nil, headed_nil] at h
      exact ⟨rfl, List.cons.inj (List.cons.inj h).2 |>.2⟩
    | cons line' lines' =>
      have hline' := hlines' line' List.mem_cons_self
      rw [headed_nil, headed_cons] at h
      exact absurd (cr_first hline'.1 h.symm).1 hline'.2
  | cons line lines ih =>
    have hline := hlines line List.mem_cons_self
    rw [headed_cons] at h
    cases lines' with
    | nil =>
      rw [headed_nil] at h
      exact absurd (cr_first hline.1 h).1 hline.2
    | cons line' lines' =>
      have hline' := hlines' line' List.mem_cons_self
      rw [headed_cons] at h
      obtain ⟨rfl, htail⟩ := cut_unique hline.1 hline'.1 h
      obtain ⟨rfl, rfl⟩ := ih (fun l hl => hlines l (List.mem_cons_of_mem _ hl))
        (fun l hl => hlines' l (List.mem_cons_of_mem _ hl)) (List.cons.inj htail).2
      exact ⟨rfl, rfl⟩

/-- A CR without its LF, in the line behind `lines`, is in no list of lines. -/
theorem bareCr_ne_headed {lines lines' : List (List UInt8)} {line rest rest' : List UInt8} {b : UInt8}
    (hlines : Lines lines) (hlines' : Lines lines') (hline : cr ∉ line) (hb : b ≠ lf) :
    terminated lines ++ (line ++ cr :: b :: rest) ≠ headed lines' rest' := by
  intro h
  induction lines generalizing lines' with
  | nil =>
    rw [terminated_nil, List.nil_append] at h
    cases lines' with
    | nil => exact hb (List.cons.inj (cr_first hline h).2).1
    | cons line' lines' =>
      rw [headed_cons] at h
      exact hb (List.cons.inj (cut_unique hline (hlines' line' List.mem_cons_self).1 h).2).1
  | cons first lines ih =>
    have hfirst := hlines first List.mem_cons_self
    rw [terminated_cons, List.append_assoc] at h
    cases lines' with
    | nil => exact hfirst.2 (cr_first hfirst.1 h).1
    | cons line' lines' =>
      rw [headed_cons] at h
      have hmore := (cut_unique hfirst.1 (hlines' line' List.mem_cons_self).1 h).2
      exact ih (fun l hl => hlines l (List.mem_cons_of_mem _ hl))
        (fun l hl => hlines' l (List.mem_cons_of_mem _ hl)) (List.cons.inj hmore).2

end Cloak.Lib
