import Mathlib.Logic.Function.Basic

/-!
# Places with one owner each

Parties take and give back places, each at most one at a time, and remember the
place that they have. `Owned` says that a remembered place is the party's own, so
that no two parties remember the same one (`Owned.unique`); `Known` says that a
place which has an owner is remembered by it.
-/

set_option autoImplicit false

namespace Library.Places

/-- The owner of each place. -/
abbrev Owners (π ι : Type*) := π → Option ι

variable {π ι : Type*} {held : ι → Option π} {places : Owners π ι} {i j : ι} {p : π}

/-- What a party remembers is its own. -/
def Owned (held : ι → Option π) (places : Owners π ι) : Prop :=
  ∀ i p, held i = some p → places p = some i

/-- What has an owner is remembered by it. -/
def Known (held : ι → Option π) (places : Owners π ι) : Prop :=
  ∀ p i, places p = some i → held i = some p

theorem Owned.unique (owned : Owned held places) (first : held i = some p)
    (second : held j = some p) : i = j := by
  have same := (owned i p first).symm.trans (owned j p second)
  exact Option.some.inj same

variable [DecidableEq ι]

namespace Owned

/-- A party forgets the place that it has. -/
theorem forget (owned : Owned held places) : Owned (Function.update held i none) places := by
  intro j q remembers
  by_cases own : j = i
  · subst own
    rw [Function.update_self] at remembers
    cases remembers
  · rw [Function.update_of_ne own] at remembers
    exact owned j q remembers

variable [DecidableEq π]

/-- A free place is taken. -/
theorem take (owned : Owned held places) (free : places p = none) :
    Owned (Function.update held i (some p)) (Function.update places p (some i)) := by
  intro j q remembers
  by_cases own : j = i
  · subst own
    rw [Function.update_self] at remembers
    obtain rfl := Option.some.inj remembers
    exact Function.update_self ..
  · rw [Function.update_of_ne own] at remembers
    have theirs := owned j q remembers
    have other : q ≠ p := by
      rintro rfl
      rw [free] at theirs
      cases theirs
    rw [Function.update_of_ne other]
    exact theirs

/-- A party gives back the place that it has. -/
theorem give (owned : Owned held places) (mine : held i = some p) :
    Owned (Function.update held i none) (Function.update places p none) := by
  intro j q remembers
  by_cases own : j = i
  · subst own
    rw [Function.update_self] at remembers
    cases remembers
  · rw [Function.update_of_ne own] at remembers
    have other : q ≠ p := by
      rintro rfl
      exact own (owned.unique remembers mine)
    rw [Function.update_of_ne other]
    exact owned j q remembers

end Owned

namespace Known

variable [DecidableEq π]

theorem take (known : Known held places) (idle : held i = none) :
    Known (Function.update held i (some p)) (Function.update places p (some i)) := by
  intro q j owner
  by_cases here : q = p
  · subst here
    rw [Function.update_self] at owner
    obtain rfl := Option.some.inj owner
    exact Function.update_self ..
  · rw [Function.update_of_ne here] at owner
    have remembers := known q j owner
    have other : j ≠ i := by
      rintro rfl
      rw [idle] at remembers
      cases remembers
    rw [Function.update_of_ne other]
    exact remembers

theorem give (known : Known held places) (mine : held i = some p) :
    Known (Function.update held i none) (Function.update places p none) := by
  intro q j owner
  by_cases here : q = p
  · subst here
    rw [Function.update_self] at owner
    cases owner
  · rw [Function.update_of_ne here] at owner
    have remembers := known q j owner
    have other : j ≠ i := by
      rintro rfl
      exact here (Option.some.inj (remembers.symm.trans mine))
    rw [Function.update_of_ne other]
    exact remembers

end Known

end Library.Places
