import Mathlib

set_option autoImplicit false

/-! # Readers that consume

A reader that accepts takes something off its input, and carries the proof of it. So a loop over one ends
without a bound of its own (`sepBy`), and readers may call each other in a circle as long as each turn goes
through one. -/

namespace Cloak.Lib

/-- A reader from the front of its input. It refuses, or it returns what it has read and a shorter rest. -/
structure Consuming (β α : Type) where
  run : List β → Option (α × List β)
  shrinks : ∀ {s : List β} {a : α} {t : List β}, run s = some (a, t) → t.length < s.length

section

variable {β α : Type}

/-- One item after another, for as long as a separator stands behind the last one. -/
def sepBy (elem : Consuming β α) (isSep : β → Bool) (s : List β) : Option (List α × List β) :=
  match h : elem.run s with
  | none => none
  | some (a, []) => some ([a], [])
  | some (a, c :: t) =>
    if isSep c then
      have : t.length < s.length := Nat.lt_of_succ_lt (elem.shrinks h)
      (sepBy elem isSep t).map fun (as, rest) => (a :: as, rest)
    else some ([a], c :: t)
termination_by s.length

variable {elem : Consuming β α} {isSep : β → Bool}

/-- The last item. -/
theorem sepBy_last {s t : List β} {a : α} {c : β} (h : elem.run s = some (a, c :: t))
    (hc : isSep c = false) : sepBy elem isSep s = some ([a], c :: t) := by
  rw [sepBy]
  split
  · simp_all
  · simp_all
  · rename_i heq
    obtain ⟨rfl, rfl, rfl⟩ : _ = a ∧ _ = c ∧ _ = t := by simpa [h, eq_comm] using heq
    rw [if_neg (by simp [hc])]

/-- An item and those behind its separator. -/
theorem sepBy_more {s t : List β} {a : α} {c : β} (h : elem.run s = some (a, c :: t))
    (hc : isSep c = true) :
    sepBy elem isSep s = (sepBy elem isSep t).map fun (as, rest) => (a :: as, rest) := by
  rw [sepBy]
  split
  · simp_all
  · simp_all
  · rename_i heq
    obtain ⟨rfl, rfl, rfl⟩ : _ = a ∧ _ = c ∧ _ = t := by simpa [h, eq_comm] using heq
    rw [if_pos hc]

theorem sepBy_shrinks (s : List β) :
    ∀ {as : List α} {t : List β}, sepBy elem isSep s = some (as, t) → t.length < s.length := by
  fun_induction sepBy elem isSep s with
  | case1 s h => exact fun heq => nomatch heq
  | case2 s a h =>
    intro as t heq
    obtain ⟨-, rfl⟩ := Prod.mk.inj (Option.some.inj heq)
    exact elem.shrinks h
  | case3 s a c t h hc hlt ih =>
    intro as rest heq
    rw [Option.map_eq_some_iff] at heq
    obtain ⟨⟨as', rest'⟩, hrest, hpair⟩ := heq
    obtain ⟨-, rfl⟩ := Prod.mk.inj hpair
    exact Nat.lt_trans (ih hrest) hlt
  | case4 s a c t h hc =>
    intro as rest heq
    obtain ⟨-, rfl⟩ := Prod.mk.inj (Option.some.inj heq)
    exact elem.shrinks h

/-- The texts with a separator between any two. -/
def joinWith (sep : β) : List (List β) → List β
  | [] => []
  | [text] => text
  | text :: next :: texts => text ++ sep :: joinWith sep (next :: texts)

theorem mem_joinWith {sep c : β} {texts : List (List β)} (h : c ∈ joinWith sep texts) :
    c = sep ∨ ∃ text ∈ texts, c ∈ text := by
  fun_induction joinWith sep texts with
  | case1 => cases h
  | case2 text => exact .inr ⟨text, List.mem_singleton_self text, h⟩
  | case3 text next texts ih =>
    rcases List.mem_append.mp h with hmem | hmem
    · exact .inr ⟨text, List.mem_cons_self, hmem⟩
    · rcases List.mem_cons.mp hmem with rfl | hmem
      · exact .inl rfl
      · rcases ih hmem with rfl | ⟨other, hother, hc⟩
        · exact .inl rfl
        · exact .inr ⟨other, List.mem_cons_of_mem text hother, hc⟩

/-- Each text counts one character more, but for the last. -/
theorem length_joinWith (sep : β) {texts : List (List β)} (hne : texts ≠ []) :
    (joinWith sep texts).length + 1 = (texts.map fun text => text.length + 1).sum := by
  fun_induction joinWith sep texts with
  | case1 => exact absurd rfl hne
  | case2 text => simp
  | case3 text next texts ih =>
    have hrest := ih (List.cons_ne_nil _ _)
    rw [List.map_cons, List.sum_cons, ← hrest, List.length_append, List.length_cons]
    omega

/-- Items whose texts are read in front of a separator and in front of the end are read when separators join
these texts. -/
theorem sepBy_joinWith {γ : Type} {text : γ → List β} {value : γ → α} {sep close : β} (items : List γ)
    (hne : items ≠ []) (hsep : isSep sep = true) (hclose : isSep close = false)
    (hread : ∀ item ∈ items, ∀ c t, c = sep ∨ c = close →
      elem.run (text item ++ c :: t) = some (value item, c :: t)) (rest : List β) :
    sepBy elem isSep (joinWith sep (items.map text) ++ close :: rest)
      = some (items.map value, close :: rest) := by
  induction items with
  | nil => exact absurd rfl hne
  | cons item items ih =>
    cases items with
    | nil =>
      have hlast := hread item List.mem_cons_self close rest (.inr rfl)
      simpa [joinWith] using sepBy_last hlast hclose
    | cons next items =>
      have hfirst := hread item List.mem_cons_self sep
        (joinWith sep ((next :: items).map text) ++ close :: rest) (.inl rfl)
      have hrest := ih (List.cons_ne_nil _ _) fun other hmem => hread other (List.mem_cons_of_mem _ hmem)
      have htext : joinWith sep ((item :: next :: items).map text) ++ close :: rest
          = text item ++ sep :: (joinWith sep ((next :: items).map text) ++ close :: rest) := by
        simp [joinWith]
      rw [htext, sepBy_more hfirst hsep, hrest]
      rfl

end

end Cloak.Lib
