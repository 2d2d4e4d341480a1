import EbpfNids.Library.Runs

/-!
# Two runs that look the same to an observer

An observer sees some steps of a run, holds a view of the state, and is shown
outputs. If the steps it does not see leave its view alone and show it nothing,
and a step it sees changes its view and shows it outputs that depend only on
what it sees and on its view, then two runs in which it sees the same are shown
to it with the same outputs (`outputs_eq`).
-/

set_option autoImplicit false

namespace Library.TwoRuns

open Runs

variable {σ ε V O R : Type*} (step : σ → ε → σ) (view : σ → V) (sight : σ × ε → Option O)
  (output : σ × ε → List R)

/-- The step, if the observer does not see it, leaves its view alone and shows
it nothing. -/
def Hidden (p : σ × ε) : Prop :=
  sight p = none → view (step p.1 p.2) = view p.1 ∧ output p = []

/-- The steps, if the observer sees the same in both, take equal views to equal
views and show it the same. -/
def Determined (p q : σ × ε) : Prop :=
  ∀ o, sight p = some o → sight q = some o → view p.1 = view q.1 →
    view (step p.1 p.2) = view (step q.1 q.2) ∧ output p = output q

variable {step sight output}

/-- A run of which the observer sees nothing shows it nothing. -/
theorem outputs_eq_nil (view : σ → V) {start : σ} {events : List ε}
    (hidden : ∀ p ∈ steps step start events, Hidden step view sight output p)
    (unseen : (steps step start events).filterMap sight = []) :
    (steps step start events).flatMap output = [] := by
  rw [List.flatMap_eq_nil_iff]
  intro p member
  exact (hidden p member (List.filterMap_eq_nil_iff.mp unseen p member)).2

/-- **Unwinding rule.** Two runs in which the observer sees the same, from equal
views, show it the same outputs. -/
theorem outputs_eq (view : σ → V) {start₁ start₂ : σ} {events₁ events₂ : List ε}
    (views : view start₁ = view start₂)
    (hidden₁ : ∀ p ∈ steps step start₁ events₁, Hidden step view sight output p)
    (hidden₂ : ∀ q ∈ steps step start₂ events₂, Hidden step view sight output q)
    (determined : ∀ p ∈ steps step start₁ events₁, ∀ q ∈ steps step start₂ events₂,
      Determined step view sight output p q)
    (sights : (steps step start₁ events₁).filterMap sight =
      (steps step start₂ events₂).filterMap sight) :
    (steps step start₁ events₁).flatMap output = (steps step start₂ events₂).flatMap output := by
  induction events₁ generalizing start₁ start₂ events₂ with
  | nil => exact (outputs_eq_nil view hidden₂ sights.symm).symm
  | cons event₁ rest₁ ih =>
      have later₁ : ∀ p ∈ steps step (step start₁ event₁) rest₁, Hidden step view sight output p :=
        fun p member => hidden₁ p (List.mem_cons_of_mem _ member)
      cases seen₁ : sight (start₁, event₁) with
      | none =>
          obtain ⟨kept, silent⟩ := hidden₁ (start₁, event₁) List.mem_cons_self seen₁
          rw [steps_cons, List.filterMap_cons_none seen₁] at sights
          rw [steps_cons, List.flatMap_cons, silent, List.nil_append]
          exact ih (kept.trans views) later₁ hidden₂
            (fun p member => determined p (List.mem_cons_of_mem _ member)) sights
      | some o =>
          -- skip what the observer does not see of the other run
          induction events₂ generalizing start₂ with
          | nil =>
              rw [steps_cons, List.filterMap_cons_some seen₁] at sights
              cases sights
          | cons event₂ rest₂ ih₂ =>
              have later₂ : ∀ q ∈ steps step (step start₂ event₂) rest₂,
                  Hidden step view sight output q :=
                fun q member => hidden₂ q (List.mem_cons_of_mem _ member)
              cases seen₂ : sight (start₂, event₂) with
              | none =>
                  obtain ⟨kept, silent⟩ := hidden₂ (start₂, event₂) List.mem_cons_self seen₂
                  rw [steps_cons _ start₂, List.filterMap_cons_none seen₂] at sights
                  rw [steps_cons _ start₂, List.flatMap_cons, silent, List.nil_append]
                  exact ih₂ (views.trans kept.symm) later₂
                    (fun p member q inRest => determined p member q (List.mem_cons_of_mem _ inRest))
                    sights
              | some o₂ =>
                  rw [steps_cons, steps_cons, List.filterMap_cons_some seen₁,
                    List.filterMap_cons_some seen₂] at sights
                  obtain ⟨rfl, sightsLater⟩ := List.cons.inj sights
                  obtain ⟨kept, same⟩ := determined (start₁, event₁) List.mem_cons_self
                    (start₂, event₂) List.mem_cons_self o seen₁ seen₂ views
                  rw [steps_cons, steps_cons, List.flatMap_cons, List.flatMap_cons, same,
                    ih kept later₁ later₂
                      (fun p member q inRest => determined p (List.mem_cons_of_mem _ member) q
                        (List.mem_cons_of_mem _ inRest)) sightsLater]

end Library.TwoRuns
