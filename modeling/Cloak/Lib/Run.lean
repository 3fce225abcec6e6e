import Mathlib.Data.List.Basic
import Mathlib.Data.List.Induction

set_option autoImplicit false

/-! # Runs of a machine

A machine is a total step function on states and events, a run folds it over a list of events.
`run_induction` is the induction over runs. Its two common cases are `run_invariant` for a property
of states, and `run_history` for one that also speaks of the events so far. `run_guarded` is the
first of them for runs in which every step meets a condition, `foldlM_invariant` for runs whose steps
may be impossible. -/

namespace Cloak.Lib

universe u v

variable {σ : Type u} {ε : Type v}

/-- The state after the events `es`. -/
def run (step : σ → ε → σ) (s : σ) (es : List ε) : σ := es.foldl step s

@[simp] theorem run_nil (step : σ → ε → σ) (s : σ) : run step s [] = s := rfl

theorem run_append (step : σ → ε → σ) (s : σ) (es es' : List ε) :
    run step s (es ++ es') = run step (run step s es) es' :=
  List.foldl_append

theorem run_concat (step : σ → ε → σ) (s : σ) (es : List ε) (e : ε) :
    run step s (es ++ [e]) = step (run step s es) e := by
  rw [run_append]
  rfl

/-- A property of runs that every further event keeps. -/
theorem run_induction {P : List ε → σ → Prop} {step : σ → ε → σ} {s : σ} (h0 : P [] s)
    (hstep : ∀ es e, P es (run step s es) → P (es ++ [e]) (step (run step s es) e))
    (es : List ε) : P es (run step s es) := by
  induction es using List.reverseRecOn with
  | nil => exact h0
  | append_singleton es e ih =>
    rw [run_concat]
    exact hstep es e ih

/-- A property of the state and of the events so far that every step keeps. -/
theorem run_history {P : List ε → σ → Prop} {step : σ → ε → σ} {s : σ} (h0 : P [] s)
    (hstep : ∀ es s e, P es s → P (es ++ [e]) (step s e)) (es : List ε) :
    P es (run step s es) :=
  run_induction h0 (fun es e h => hstep es _ e h) es

/-- A property of states that every step keeps holds along every run. -/
theorem run_invariant {P : σ → Prop} {step : σ → ε → σ} {s : σ} (h0 : P s)
    (hstep : ∀ s e, P s → P (step s e)) (es : List ε) : P (run step s es) :=
  run_history (P := fun _ => P) h0 (fun _ s e => hstep s e) es

/-- The same for a machine whose steps may be impossible. -/
theorem foldlM_invariant {P : σ → Prop} {step : σ → ε → Option σ}
    (hstep : ∀ s e s', P s → step s e = some s' → P s') {s s' : σ} {es : List ε} (h0 : P s)
    (hrun : es.foldlM step s = some s') : P s' := by
  induction es generalizing s with
  | nil =>
    obtain rfl := Option.some.inj hrun
    exact h0
  | cons e es ih =>
    rw [List.foldlM_cons] at hrun
    obtain ⟨s₁, hs₁, hrest⟩ := Option.bind_eq_some_iff.mp hrun
    exact ih (hstep s e s₁ h0 hs₁) hrest

/-- Every step of the run from `s` meets `C`. -/
def Obeys (step : σ → ε → σ) (C : σ → ε → Prop) : σ → List ε → Prop
  | _, [] => True
  | s, e :: es => C s e ∧ Obeys step C (step s e) es

instance Obeys.instDecidable (step : σ → ε → σ) (C : σ → ε → Prop) [∀ s e, Decidable (C s e)] :
    ∀ s es, Decidable (Obeys step C s es)
  | _, [] => .isTrue trivial
  | s, e :: es =>
    match (inferInstance : Decidable (C s e)), instDecidable step C (step s e) es with
    | .isTrue h, .isTrue hs => .isTrue ⟨h, hs⟩
    | .isFalse h, _ => .isFalse fun hc => h hc.1
    | _, .isFalse hs => .isFalse fun hc => hs hc.2

/-- A condition on events alone. -/
theorem obeys_of_forall {step : σ → ε → σ} {C : ε → Prop} {s : σ} {es : List ε}
    (h : ∀ e ∈ es, C e) : Obeys step (fun _ => C) s es := by
  induction es generalizing s with
  | nil => exact trivial
  | cons e es ih =>
    rw [List.forall_mem_cons] at h
    exact ⟨h.1, ih h.2⟩

/-- A property of states that every step which meets `C` keeps. -/
theorem run_guarded {P : σ → Prop} {step : σ → ε → σ} {C : σ → ε → Prop}
    (hstep : ∀ s e, P s → C s e → P (step s e)) {s : σ} {es : List ε} (h0 : P s)
    (hes : Obeys step C s es) : P (run step s es) := by
  induction es generalizing s with
  | nil => exact h0
  | cons e es ih => exact ih (hstep s e h0 hes.1) hes.2

end Cloak.Lib
