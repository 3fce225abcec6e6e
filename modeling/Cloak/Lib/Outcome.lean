import Mathlib.Tactic.Common

set_option autoImplicit false

/-! # Computations that may get stuck

A parser over memory has three ways to end: with a value, with a refusal, or stuck, where the program it
models would read outside its input or go on for ever. `Matches` compares such a computation with one on
plain values that only knows the first two: they end alike, with related values, and nothing gets stuck.
It is carried through a computation by `Matches.bind`, one step at a time. -/

namespace Cloak.Lib

/-- A value, a refusal, or stuck. -/
inductive Outcome (α : Type) where
  | ok (a : α)
  | reject
  | stuck
deriving DecidableEq, Repr

namespace Outcome

def bind {α β : Type} (o : Outcome α) (f : α → Outcome β) : Outcome β :=
  match o with
  | ok a => f a
  | reject => reject
  | stuck => stuck

instance : Monad Outcome where
  pure := ok
  bind := bind

variable {α β α' β' : Type}

@[simp] theorem bind_ok (a : α) (f : α → Outcome β) : (ok a >>= f) = f a := rfl

@[simp] theorem bind_reject (f : α → Outcome β) : (reject >>= f) = reject := rfl

@[simp] theorem pure_eq (a : α) : (pure a : Outcome α) = ok a := rfl

/-- The two end alike: with values in `R`, or refused. -/
def Matches (R : α → α' → Prop) : Outcome α → Option α' → Prop
  | ok a, some a' => R a a'
  | reject, none => True
  | _, _ => False

theorem Matches.bind {R : α → α' → Prop} {S : β → β' → Prop} {o : Outcome α} {q : Option α'}
    (h : Matches R o q) {f : α → Outcome β} {g : α' → Option β'}
    (hf : ∀ a a', R a a' → Matches S (f a) (g a')) : Matches S (o >>= f) (q >>= g) := by
  cases o with
  | ok a =>
    cases q with
    | some a' => exact hf a a' h
    | none => exact h.elim
  | reject =>
    cases q with
    | some a' => exact h.elim
    | none => trivial
  | stuck => cases q <;> exact h.elim

/-- Both refuse unless the condition holds. -/
theorem Matches.require {S : β → β' → Prop} {c c' : Prop} [Decidable c] [Decidable c']
    (hc : c ↔ c') {o : Outcome β} {q : Option β'} (h : c' → Matches S o q) :
    Matches S (if c then o else reject) ((guard c' : Option Unit) >>= fun _ => q) := by
  by_cases hc' : c'
  · rw [if_pos (hc.mpr hc'), guard, if_pos hc']
    exact h hc'
  · rw [if_neg (mt hc.mp hc'), guard, if_neg hc']
    trivial

end Outcome

end Cloak.Lib
