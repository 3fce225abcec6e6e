import Cloak.Lib.Run

set_option autoImplicit false

/-! # Machines that answer, and what they refine

A machine answers every event it is given. `trace` is a run of it with the answers on the way, and what
a run leaves behind is `run` again (`trace_fst`).

The machine it is compared with may leave its answer open, so that one is a relation. `Simulates` asks
that every answer of the machine is one the abstract step allows, and that the relation between the two
states is kept. Then the same holds of whole runs (`Simulates.runs`). Where the abstract machine is a
function too, both give the same answers (`Simulates.trace_eq`). -/

namespace Cloak.Lib

universe u v w x

variable {σ : Type u} {τ : Type v} {ε : Type w} {ο : Type x}

/-- The state after the events `es`, and the answers to them. -/
def trace (step : σ → ε → σ × ο) (s : σ) : List ε → σ × List ο
  | [] => (s, [])
  | e :: es =>
    let rest := trace step (step s e).1 es
    (rest.1, (step s e).2 :: rest.2)

@[simp] theorem trace_nil (step : σ → ε → σ × ο) (s : σ) : trace step s [] = (s, []) := rfl

theorem trace_cons (step : σ → ε → σ × ο) (s : σ) (e : ε) (es : List ε) :
    trace step s (e :: es)
      = ((trace step (step s e).1 es).1, (step s e).2 :: (trace step (step s e).1 es).2) := rfl

theorem trace_fst (step : σ → ε → σ × ο) (s : σ) (es : List ε) :
    (trace step s es).1 = run (fun s e => (step s e).1) s es := by
  induction es generalizing s with
  | nil => rfl
  | cons e es ih => exact ih _

@[simp] theorem length_trace (step : σ → ε → σ × ο) (s : σ) (es : List ε) :
    (trace step s es).2.length = es.length := by
  induction es generalizing s with
  | nil => rfl
  | cons e es ih => simp [trace_cons, ih]

/-- The abstract machine can go from the first state to the last over `es` with the answers `os`. -/
inductive Runs (astep : τ → ε → ο → τ → Prop) : τ → List ε → List ο → τ → Prop
  | nil (a : τ) : Runs astep a [] [] a
  | cons {a b c : τ} {e : ε} {o : ο} {es : List ε} {os : List ο} (head : astep a e o b)
      (tail : Runs astep b es os c) : Runs astep a (e :: es) (o :: os) c

/-- The step of a function as a relation. -/
def stepRel (astep : τ → ε → τ × ο) (a : τ) (e : ε) (o : ο) (b : τ) : Prop := astep a e = (b, o)

/-- A function has one run. -/
theorem Runs.eq_trace {astep : τ → ε → τ × ο} {a b : τ} {es : List ε} {os : List ο}
    (h : Runs (stepRel astep) a es os b) : trace astep a es = (b, os) := by
  induction h with
  | nil a => rfl
  | cons head tail ih => rw [trace_cons, head, ih]

/-- Every answer of `step` is one the abstract step allows, and `R` is kept. -/
def Simulates (R : σ → τ → Prop) (step : σ → ε → σ × ο) (astep : τ → ε → ο → τ → Prop) : Prop :=
  ∀ s a e, R s a → ∃ b, astep a e (step s e).2 b ∧ R (step s e).1 b

variable {R : σ → τ → Prop} {step : σ → ε → σ × ο}

theorem Simulates.runs {astep : τ → ε → ο → τ → Prop} (h : Simulates R step astep) {s : σ} {a : τ}
    (hR : R s a) (es : List ε) :
    ∃ b, Runs astep a es (trace step s es).2 b ∧ R (trace step s es).1 b := by
  induction es generalizing s a with
  | nil => exact ⟨a, .nil a, hR⟩
  | cons e es ih =>
    obtain ⟨b, hstep, hb⟩ := h s a e hR
    obtain ⟨c, hrest, hc⟩ := ih hb
    exact ⟨c, .cons hstep hrest, hc⟩

/-- Against a function: the answers are the same, and `R` holds behind the run. -/
theorem Simulates.trace_eq {astep : τ → ε → τ × ο} (h : Simulates R step (stepRel astep)) {s : σ} {a : τ}
    (hR : R s a) (es : List ε) :
    (trace step s es).2 = (trace astep a es).2 ∧ R (trace step s es).1 (trace astep a es).1 := by
  obtain ⟨b, hruns, hb⟩ := h.runs hR es
  rw [hruns.eq_trace]
  exact ⟨rfl, hb⟩

end Cloak.Lib
