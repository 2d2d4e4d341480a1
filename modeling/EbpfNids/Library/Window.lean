import Mathlib.Data.List.DropRight

/-!
# The newest elements of a list that grows

A list that is appended to, and loses its first element when it has become too
long, holds the newest elements of all that were appended (`push_rtake`).
Mathlib's `List.rtake` gives the newest elements of a list; the newest of the
newest are as many as the smaller number says (`rtake_rtake`).
-/

set_option autoImplicit false

namespace Library.Window

variable {α : Type*}

/-- Append an element, and remove the first one if there are now more than `k`. -/
def push (k : ℕ) (kept : List α) (a : α) : List α :=
  if (kept ++ [a]).length > k then (kept ++ [a]).tail else kept ++ [a]

/-- The newest elements, with one more appended. -/
theorem push_rtake (k : ℕ) (l : List α) (a : α) :
    push k (l.rtake k) a = (l ++ [a]).rtake k := by
  have whole : l.rtake k ++ [a] = (l ++ [a]).drop (l.length - k) :=
    (List.drop_append_of_le_length (Nat.sub_le _ _)).symm
  rw [push, whole, List.rtake, List.length_drop, List.length_append, List.length_singleton]
  by_cases short : l.length < k
  · rw [if_neg (by omega), Nat.sub_eq_zero_of_le (Nat.le_of_lt short),
      Nat.sub_eq_zero_of_le short]
  · rw [if_pos (by omega), ← List.drop_one, List.drop_drop]
    congr 1
    omega

theorem length_rtake (l : List α) (n : ℕ) : (l.rtake n).length = min n l.length := by
  rw [List.rtake, List.length_drop]
  omega

theorem rtake_rtake (l : List α) (n k : ℕ) : (l.rtake k).rtake n = l.rtake (min n k) := by
  rw [List.rtake, length_rtake, List.rtake, List.drop_drop, List.rtake]
  congr 1
  omega

/-- More than there are is all there are. -/
theorem rtake_min_length (l : List α) (n : ℕ) : l.rtake (min n l.length) = l.rtake n := by
  rw [List.rtake, List.rtake]
  congr 1
  omega

end Library.Window
