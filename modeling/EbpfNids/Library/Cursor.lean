import Mathlib.Data.List.MinMax

/-!
# Visiting the keys of a map with a cursor

The keys of a map are visited in a fixed order (`VisitOrder`), and the cursor is
a key. The key after a key that the map holds is its successor among the keys,
and the key after one that the map does not hold is the first (`next`). So there
is no next key exactly when the map is empty or the cursor is its last key
(`next_eq_none`).
-/

set_option autoImplicit false

namespace Library

/-- An order in which keys are visited: the place of every key. -/
structure VisitOrder (K : Type*) where
  place : K → ℕ
  injective : Function.Injective place

namespace VisitOrder

variable {K : Type*} (order : VisitOrder K)

/-- The first key. -/
def first (keys : List K) : Option K := keys.argmin order.place

theorem first_mem {keys : List K} {k : K} (found : order.first keys = some k) : k ∈ keys :=
  List.argmin_mem (Option.mem_def.mpr found)

@[simp] theorem first_eq_none {keys : List K} : order.first keys = none ↔ keys = [] :=
  List.argmin_eq_none

theorem place_first_le {keys : List K} {a k : K} (found : order.first keys = some a)
    (member : k ∈ keys) : order.place a ≤ order.place k :=
  List.le_of_mem_argmin member (Option.mem_def.mpr found)

variable [DecidableEq K]

/-- The key after a key: its successor if it is there, and the first if not. -/
def next (keys : List K) (key : K) : Option K :=
  if key ∈ keys then order.first (keys.filter fun k => order.place key < order.place k)
  else order.first keys

theorem next_of_not_mem {keys : List K} {key : K} (absent : key ∉ keys) :
    order.next keys key = order.first keys := if_neg absent

theorem next_mem {keys : List K} {key k : K} (found : order.next keys key = some k) :
    k ∈ keys := by
  rw [next] at found
  split at found
  · exact List.mem_of_mem_filter (order.first_mem found)
  · exact order.first_mem found

/-- From a cursor that is there the visit goes forward. -/
theorem place_lt_next {keys : List K} {key a : K} (present : key ∈ keys)
    (found : order.next keys key = some a) : order.place key < order.place a := by
  rw [next, if_pos present] at found
  have later := List.of_mem_filter (order.first_mem found)
  exact of_decide_eq_true later

/-- No key after the cursor is left out, whether or not the cursor is there. -/
theorem place_next_le {keys : List K} {key a k : K} (found : order.next keys key = some a)
    (member : k ∈ keys) (later : order.place key < order.place k) :
    order.place a ≤ order.place k := by
  rw [next] at found
  split at found
  · exact order.place_first_le found (List.mem_filter.mpr ⟨member, decide_eq_true later⟩)
  · exact order.place_first_le found member

theorem next_ne_none {keys : List K} {key k : K} (member : k ∈ keys)
    (later : order.place key < order.place k) : order.next keys key ≠ none := by
  rw [next]
  split
  · rw [Ne, first_eq_none]
    exact List.ne_nil_of_mem (List.mem_filter.mpr ⟨member, decide_eq_true later⟩)
  · rw [Ne, first_eq_none]
    exact List.ne_nil_of_mem member

/-- The cursor is the last key. -/
def IsLast (keys : List K) (key : K) : Prop :=
  key ∈ keys ∧ ∀ k ∈ keys, order.place k ≤ order.place key

instance (keys : List K) (key : K) : Decidable (order.IsLast keys key) :=
  inferInstanceAs (Decidable (_ ∧ _))

/-- **The end of a visit.** -/
theorem next_eq_none {keys : List K} {key : K} :
    order.next keys key = none ↔ keys = [] ∨ order.IsLast keys key := by
  by_cases present : key ∈ keys
  · rw [next, if_pos present, first_eq_none, List.filter_eq_nil_iff, IsLast]
    have nonempty : keys ≠ [] := List.ne_nil_of_mem present
    simp [present, nonempty]
  · rw [next_of_not_mem order present, first_eq_none, IsLast]
    simp [present]

end VisitOrder

end Library
