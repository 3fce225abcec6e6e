import Mathlib.Tactic.Common

set_option autoImplicit false

/-! # Escaping

An escape character before every special one, itself among them, lets any text stand between separators.
`escape` writes it, `unescaped` takes it off again, and `cutUnescaped` finds the first separator that is not
escaped. The escape character has no meaning at the end of a text or before a character that is not special,
and the two readers agree on that: both walk over an escape and what follows it as one. -/

namespace Cloak.Lib

universe u

variable {α : Type u}

/-- An escape character before every special one. -/
def escape (esc : α) (special : α → Bool) : List α → List α
  | [] => []
  | c :: cs => if special c then esc :: c :: escape esc special cs else c :: escape esc special cs

@[simp] theorem escape_nil (esc : α) (special : α → Bool) : escape esc special [] = [] := rfl

theorem escape_cons (esc : α) (special : α → Bool) (c : α) (cs : List α) :
    escape esc special (c :: cs)
      = if special c then esc :: c :: escape esc special cs else c :: escape esc special cs := rfl

variable [DecidableEq α]

/-- The text without the escapes of special characters. -/
def unescaped (esc : α) (special : α → Bool) : List α → List α
  | [] => []
  | [c] => [c]
  | c :: d :: cs =>
    if c = esc ∧ special d = true then d :: unescaped esc special cs else c :: unescaped esc special (d :: cs)

/-- What stands before the first `stop` that is not escaped, and what stands from there on. -/
def cutUnescaped (esc stop : α) : List α → List α × List α
  | [] => ([], [])
  | [c] => if c = stop then ([], [c]) else ([c], [])
  | c :: d :: cs =>
    if c = esc then (c :: d :: (cutUnescaped esc stop cs).1, (cutUnescaped esc stop cs).2)
    else if c = stop then ([], c :: d :: cs)
    else (c :: (cutUnescaped esc stop (d :: cs)).1, (cutUnescaped esc stop (d :: cs)).2)

variable {esc stop : α} {special : α → Bool}

theorem unescaped_cons_cons (c d : α) (cs : List α) :
    unescaped esc special (c :: d :: cs) =
      if c = esc ∧ special d = true then d :: unescaped esc special cs
      else c :: unescaped esc special (d :: cs) := rfl

theorem cutUnescaped_singleton (c : α) :
    cutUnescaped esc stop [c] = if c = stop then ([], [c]) else ([c], []) := rfl

theorem cutUnescaped_cons_cons (c d : α) (cs : List α) :
    cutUnescaped esc stop (c :: d :: cs) =
      if c = esc then (c :: d :: (cutUnescaped esc stop cs).1, (cutUnescaped esc stop cs).2)
      else if c = stop then ([], c :: d :: cs)
      else (c :: (cutUnescaped esc stop (d :: cs)).1, (cutUnescaped esc stop (d :: cs)).2) := rfl

theorem unescaped_cons_of_ne {c : α} (h : c ≠ esc) (cs : List α) :
    unescaped esc special (c :: cs) = c :: unescaped esc special cs := by
  cases cs with
  | nil => rfl
  | cons d cs => rw [unescaped_cons_cons, if_neg fun hc => h hc.1]

/-- Unescaping undoes escaping, also where something stands behind. -/
theorem unescaped_escape_append (hesc : special esc = true) (xs ys : List α) :
    unescaped esc special (escape esc special xs ++ ys) = xs ++ unescaped esc special ys := by
  induction xs with
  | nil => rfl
  | cons c xs ih =>
    rw [escape_cons]
    split
    · next hc =>
      rw [List.cons_append, List.cons_append, unescaped_cons_cons, if_pos ⟨rfl, hc⟩, ih, List.cons_append]
    · next hc =>
      have hne : c ≠ esc := by
        rintro rfl
        exact hc hesc
      rw [List.cons_append, unescaped_cons_of_ne hne, ih, List.cons_append]

theorem unescaped_escape (hesc : special esc = true) (xs : List α) :
    unescaped esc special (escape esc special xs) = xs := by
  have h := unescaped_escape_append hesc xs []
  rwa [List.append_nil, show unescaped esc special [] = [] from rfl, List.append_nil] at h

theorem cutUnescaped_cons_of_ne {c : α} (hesc : c ≠ esc) (hstop : c ≠ stop) (cs : List α) :
    cutUnescaped esc stop (c :: cs) = (c :: (cutUnescaped esc stop cs).1, (cutUnescaped esc stop cs).2) := by
  cases cs with
  | nil => exact if_neg hstop
  | cons d cs => rw [cutUnescaped_cons_cons, if_neg hesc, if_neg hstop]

theorem cutUnescaped_stop (h : stop ≠ esc) (cs : List α) :
    cutUnescaped esc stop (stop :: cs) = ([], stop :: cs) := by
  cases cs with
  | nil => rw [cutUnescaped_singleton, if_pos rfl]
  | cons d cs => rw [cutUnescaped_cons_cons, if_neg h, if_pos rfl]

/-- An escaped text holds no cut, whatever stands behind it. -/
theorem cutUnescaped_escape_append (hesc : special esc = true) (hstop : special stop = true)
    (xs ys : List α) :
    cutUnescaped esc stop (escape esc special xs ++ ys)
      = (escape esc special xs ++ (cutUnescaped esc stop ys).1, (cutUnescaped esc stop ys).2) := by
  induction xs with
  | nil => rfl
  | cons c xs ih =>
    rw [escape_cons]
    split
    · rw [List.cons_append, List.cons_append, cutUnescaped_cons_cons, if_pos rfl, ih]
      rfl
    · next hc =>
      have hne : c ≠ esc := by
        rintro rfl
        exact hc hesc
      have hne' : c ≠ stop := by
        rintro rfl
        exact hc hstop
      rw [List.cons_append, cutUnescaped_cons_of_ne hne hne', ih]
      rfl

/-- The two parts are the text. -/
theorem cutUnescaped_append (esc stop : α) (xs : List α) :
    (cutUnescaped esc stop xs).1 ++ (cutUnescaped esc stop xs).2 = xs := by
  fun_induction cutUnescaped esc stop xs with
  | case1 => rfl
  | case2 => rfl
  | case3 c h => rfl
  | case4 d cs ih => rw [List.cons_append, List.cons_append, ih]
  | case5 => rfl
  | case6 c d cs h1 h2 ih => rw [List.cons_append, ih]

/-- What stands behind the cut starts with the separator. -/
theorem cutUnescaped_snd (esc stop : α) (xs : List α) :
    (cutUnescaped esc stop xs).2 = [] ∨ ∃ rest, (cutUnescaped esc stop xs).2 = stop :: rest := by
  fun_induction cutUnescaped esc stop xs with
  | case1 => exact .inl rfl
  | case2 => exact .inr ⟨[], rfl⟩
  | case3 c h => exact .inl rfl
  | case4 d cs ih => exact ih
  | case5 d cs h => exact .inr ⟨d :: cs, rfl⟩
  | case6 c d cs h1 h2 ih => exact ih

end Cloak.Lib
