import Mathlib.Algebra.Order.Ring.Nat

/-!
# While loops

A loop tests its state and, while the test succeeds, runs its body. It returns
when some number of rounds is enough. A loop whose body decreases a measure
returns (`returns_of_measure`), and one whose body keeps the test true never
does (`not_returns`). What the body preserves holds when the loop has returned,
and the test then fails (`Returns.invariant`, `Returns.test_false`).
-/

set_option autoImplicit false

namespace Library.Loops

variable {σ : Type*} (test : σ → Bool) (body : σ → σ)

/-- The loop, for so many rounds. -/
def whileLoop : ℕ → σ → Option σ
  | 0, _ => none
  | rounds + 1, s => if test s then whileLoop rounds (body s) else some s

/-- The loop ends in `s'` when it is started in `s`. -/
def Returns (s s' : σ) : Prop := ∃ rounds, whileLoop test body rounds s = some s'

variable {test body} {s s' : σ}

/-- A loop whose test fails at once changes nothing. -/
theorem returns_self (stop : test s = false) : Returns test body s s :=
  ⟨1, by rw [whileLoop, stop, if_neg Bool.false_ne_true]⟩

theorem returns_body (goes : test s = true) (later : Returns test body (body s) s') :
    Returns test body s s' := by
  obtain ⟨rounds, ends⟩ := later
  exact ⟨rounds + 1, by rw [whileLoop, if_pos goes, ends]⟩

theorem Returns.test_false (returned : Returns test body s s') : test s' = false := by
  obtain ⟨rounds, ends⟩ := returned
  induction rounds generalizing s with
  | zero => cases ends
  | succ rounds ih =>
      rw [whileLoop] at ends
      split at ends
      · exact ih ends
      · rename_i stop
        rw [← Option.some.inj ends]
        exact Bool.eq_false_of_not_eq_true stop

/-- **Invariant rule.** -/
theorem Returns.invariant {I : σ → Prop} (preserved : ∀ s, test s = true → I s → I (body s))
    (returned : Returns test body s s') (initial : I s) : I s' := by
  obtain ⟨rounds, ends⟩ := returned
  induction rounds generalizing s with
  | zero => cases ends
  | succ rounds ih =>
      rw [whileLoop] at ends
      split at ends
      · rename_i goes
        exact ih (preserved s goes initial) ends
      · rw [← Option.some.inj ends]
        exact initial

/-- **Termination rule.** -/
theorem returns_of_measure (measure : σ → ℕ)
    (decreases : ∀ s, test s = true → measure (body s) < measure s) (s : σ) :
    ∃ s', Returns test body s s' := by
  induction bound : measure s using Nat.strong_induction_on generalizing s with
  | h n ih =>
      cases goes : test s with
      | false => exact ⟨s, returns_self goes⟩
      | true =>
          obtain ⟨s', later⟩ := ih _ (bound ▸ decreases s goes) (body s) rfl
          exact ⟨s', returns_body goes later⟩

/-- **Divergence rule.** A body that keeps the test true is run for ever. -/
theorem not_returns {I : σ → Prop} (goes : ∀ s, I s → test s = true)
    (preserved : ∀ s, I s → I (body s)) (initial : I s) : ¬Returns test body s s' := by
  intro returned
  have last := returned.invariant (fun s _ holds => preserved s holds) initial
  exact Bool.false_ne_true (returned.test_false.symm.trans (goes s' last))

end Library.Loops
