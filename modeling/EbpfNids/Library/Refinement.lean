import EbpfNids.Library.Runs

/-!
# Refinement between two step functions

A concrete system refines an abstract one when every concrete step does what
some operations of the abstract one do: none, one or several. A relation says
which abstract state a concrete state stands for. A run then ends in a state that
stands for the result of all the operations of its steps, one after the other
(`exec_refines`), and what is seen of the abstract state is known without the
steps in between. What the steps put out on the way is what the operations put
out (`operations_refines`).
-/

set_option autoImplicit false

namespace Library.Refinement

open Library.Runs

variable {σ ε τ ω : Type*} {step : σ → ε → σ} {op : τ → ω → τ}

/-- The operations of a run. -/
def operations (step : σ → ε → σ) (ops : σ × ε → List ω) (start : σ) (events : List ε) : List ω :=
  (steps step start events).flatMap ops

@[simp] theorem operations_nil (ops : σ × ε → List ω) (start : σ) :
    operations step ops start [] = [] := rfl

theorem operations_cons (ops : σ × ε → List ω) (start : σ) (event : ε) (rest : List ε) :
    operations step ops start (event :: rest) =
      ops (start, event) ++ operations step ops (step start event) rest := by
  rw [operations, steps_cons, List.flatMap_cons]
  rfl

theorem operations_append (ops : σ × ε → List ω) (start : σ) (first second : List ε) :
    operations step ops start (first ++ second) =
      operations step ops start first ++
        operations step ops (exec step start first) second := by
  rw [operations, steps_append, List.flatMap_append]
  rfl

/-- Operations that depend on the event only. -/
theorem operations_events (ops : ε → List ω) (start : σ) (events : List ε) :
    operations step (fun p => ops p.2) start events = events.flatMap ops := by
  induction events generalizing start with
  | nil => rfl
  | cons event rest ih => rw [operations_cons, ih, List.flatMap_cons]

/-- **Refinement rule.** -/
theorem exec_refines {ops : σ × ε → List ω} (StandsFor : σ → τ → Prop) {start : σ} {abstract : τ}
    {events : List ε} (initial : StandsFor start abstract)
    (refines : ∀ p ∈ steps step start events, ∀ t, StandsFor p.1 t →
      StandsFor (step p.1 p.2) (exec op t (ops p))) :
    StandsFor (exec step start events)
      (exec op abstract (operations step ops start events)) := by
  induction events generalizing start abstract with
  | nil => exact initial
  | cons event rest ih =>
      have here := refines (start, event) List.mem_cons_self abstract initial
      rw [operations_cons, exec_append]
      exact ih here fun p member => refines p (List.mem_cons_of_mem _ member)

/-- **Output rule.** When the outputs of every step are those of its operations,
the outputs of a run are those of all its operations. -/
theorem operations_refines {β : Type*} {ops : σ × ε → List ω} {shown : σ × ε → List β}
    {made : τ × ω → List β} (StandsFor : σ → τ → Prop) {start : σ} {abstract : τ}
    {events : List ε} (initial : StandsFor start abstract)
    (refines : ∀ p ∈ steps step start events, ∀ t, StandsFor p.1 t →
      StandsFor (step p.1 p.2) (exec op t (ops p)) ∧ shown p = operations op made t (ops p)) :
    operations step shown start events =
      operations op made abstract (operations step ops start events) := by
  induction events generalizing start abstract with
  | nil => rfl
  | cons event rest ih =>
      obtain ⟨next, outputs⟩ := refines (start, event) List.mem_cons_self abstract initial
      rw [operations_cons, operations_cons, operations_append, outputs]
      congr 1
      exact ih next fun p member => refines p (List.mem_cons_of_mem _ member)

end Library.Refinement
