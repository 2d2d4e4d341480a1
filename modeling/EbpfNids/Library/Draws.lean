import Mathlib.Data.Fintype.BigOperators
import Mathlib.Data.Fintype.Pi
import Mathlib.Data.Fin.Tuple.Basic
import Mathlib.Algebra.BigOperators.Fin

/-!
# Sequences of draws

A sequence of draws where every draw is out of one more number than the draw
before it (`Draws`). Sequences with a property are counted by their last draw
(`card_draws_succ`).
-/

set_option autoImplicit false

namespace Library

open Finset

/-- Draws one after the other, the draw `i` out of `first + i + 1` numbers. -/
abbrev Draws (first m : ℕ) := (i : Fin m) → Fin (first + i + 1)

namespace Draws

variable {first m : ℕ}

/-- One more draw. -/
def snoc (draws : Draws first m) (j : Fin (first + m + 1)) : Draws first (m + 1) :=
  Fin.snoc (α := fun i => Fin (first + i + 1)) draws j

/-- The value of a draw, zero when there is none. -/
def value (draws : Draws first m) (i : ℕ) : ℕ := if h : i < m then draws ⟨i, h⟩ else 0

theorem value_snoc_of_lt (draws : Draws first m) (j : Fin (first + m + 1)) {i : ℕ}
    (earlier : i < m) : (draws.snoc j).value i = draws.value i := by
  rw [value, value, dif_pos earlier, dif_pos (Nat.lt_succ_of_lt earlier)]
  exact congrArg Fin.val
    (Fin.snoc_castSucc (α := fun i => Fin (first + i + 1)) j draws ⟨i, earlier⟩)

theorem value_snoc_last (draws : Draws first m) (j : Fin (first + m + 1)) :
    (draws.snoc j).value m = j := by
  rw [value, dif_pos (Nat.lt_succ_self m)]
  exact congrArg Fin.val (Fin.snoc_last (α := fun i => Fin (first + i + 1)) j draws)

/-- **Counting by the last draw.** -/
theorem card_filter_succ (P : Draws first (m + 1) → Prop) [DecidablePred P] :
    #{draws | P draws} = ∑ draws : Draws first m, #{j | P (draws.snoc j)} := by
  simp only [card_filter]
  rw [← Fintype.sum_equiv (Fin.snocEquiv fun i : Fin (m + 1) => Fin (first + i + 1))
    (fun both => if P (Draws.snoc both.2 both.1) then 1 else 0) _ fun _ => rfl,
    Fintype.sum_prod_type_right]
  rfl

end Draws

end Library
