import Mathlib.Data.Finset.Basic
import Mathlib.Algebra.Order.Ring.Nat

/-!
# A record of what is opened and closed

A ledger records the openings and closings of resources that are known by a
number or a name. A resource is held between the two (`held`). In a sound ledger
only a resource that is not held is opened, and only one that is held is closed,
so the same number can come back after a closing. Every resource has then been
closed as often as it was opened, but for the one opening of what is held
(`Sound.balance`), and the openings of a ledger, in order, are what it was asked to
open (`openings`).
-/

set_option autoImplicit false

namespace Library.Ledger

inductive Entry (R : Type*) where
  | opened (r : R)
  | closed (r : R)
deriving DecidableEq, Repr

variable {R : Type*}

/-- What a ledger opened, in order. -/
def openings (ledger : List (Entry R)) : List R :=
  ledger.filterMap fun entry =>
    match entry with
    | .opened r => some r
    | .closed _ => none

@[simp]
theorem openings_append (ledger later : List (Entry R)) :
    openings (ledger ++ later) = openings ledger ++ openings later :=
  List.filterMap_append

@[simp]
theorem openings_opened (r : R) (ledger : List (Entry R)) :
    openings (.opened r :: ledger) = r :: openings ledger := rfl

@[simp]
theorem openings_closed (r : R) (ledger : List (Entry R)) :
    openings (.closed r :: ledger) = openings ledger := rfl

@[simp]
theorem openings_nil : openings ([] : List (Entry R)) = [] := rfl

variable [DecidableEq R]

/-- What an entry makes of the resources that are held. -/
def record (before : Finset R) : Entry R → Finset R
  | .opened r => insert r before
  | .closed r => before.erase r

/-- The resources held after a ledger. -/
def held (ledger : List (Entry R)) : Finset R := ledger.foldl record ∅

@[simp]
theorem held_nil : held ([] : List (Entry R)) = ∅ := rfl

@[simp]
theorem held_opened (ledger : List (Entry R)) (r : R) :
    held (ledger ++ [.opened r]) = insert r (held ledger) := by
  rw [held, List.foldl_append]
  rfl

@[simp]
theorem held_closed (ledger : List (Entry R)) (r : R) :
    held (ledger ++ [.closed r]) = (held ledger).erase r := by
  rw [held, List.foldl_append]
  rfl

/-- Nothing is opened while it is held, or closed while it is not. -/
inductive Sound : List (Entry R) → Prop
  | nil : Sound []
  | opened {ledger : List (Entry R)} {r : R} (sound : Sound ledger) (free : r ∉ held ledger) :
      Sound (ledger ++ [.opened r])
  | closed {ledger : List (Entry R)} {r : R} (sound : Sound ledger) (there : r ∈ held ledger) :
      Sound (ledger ++ [.closed r])

/-- **Balance.** A resource has been closed as often as it was opened, but for
the opening of one that is held. -/
theorem Sound.balance {ledger : List (Entry R)} (sound : Sound ledger) (r : R) :
    ledger.count (.opened r) = ledger.count (.closed r) + if r ∈ held ledger then 1 else 0 := by
  induction sound with
  | nil => rfl
  | opened sound free ih =>
      rename_i ledger other
      rw [List.count_append, List.count_append, ih, held_opened]
      by_cases same : other = r
      · subst same
        simp [free]
      · simp [same, Ne.symm same]
  | closed sound there ih =>
      rename_i ledger other
      rw [List.count_append, List.count_append, ih, held_closed]
      by_cases same : other = r
      · subst same
        simp [there]
      · simp [same, Ne.symm same]

end Library.Ledger
