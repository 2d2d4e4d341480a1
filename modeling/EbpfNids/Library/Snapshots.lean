import Mathlib.Algebra.BigOperators.Group.List.Basic
import Mathlib.Algebra.Order.Ring.Nat
import Mathlib.Data.List.Chain

/-!
# Reading a counter that can restart

A reader takes snapshots of a counter and adds up how much it has grown since
the snapshot before, taking a smaller value for no growth (`gains`). Each
snapshot knows how much had been counted in all when it was taken.

If from one snapshot to the next the counter has grown by at most what was
counted (`Follows`), as it does when it may also be restarted at zero in
between, the gains add up to at most what was counted from the first snapshot
to the last (`sum_gains_le`). If it never falls they add up to the difference
of the two readings (`sum_gains_eq`).

A counter of fixed width also wraps. A reader who knows how often it was
restarted knows its value from an earlier one by what has been counted since,
modulo the width, as long as it was not restarted (`Wraps`).
-/

set_option autoImplicit false

namespace Library.Snapshots

/-- A reading of the counter, and how much had been counted in all by then. -/
structure Snapshot where
  total : ℕ
  counted : ℕ
deriving DecidableEq, Repr

/-- How much each reading exceeds the one before it; the first exceeds none. -/
def gains : Option ℕ → List ℕ → List ℕ
  | _, [] => []
  | none, v :: rest => 0 :: gains (some v) rest
  | some u, v :: rest => (v - u) :: gains (some v) rest

/-- The counter has grown by at most what was counted. -/
def Follows (a b : Snapshot) : Prop :=
  a.counted ≤ b.counted ∧ b.total + a.counted ≤ a.total + b.counted

/-- The counter has not fallen. -/
def Grows (a b : Snapshot) : Prop := a.total ≤ b.total

theorem follows_refl (a : Snapshot) : Follows a a := ⟨Nat.le_refl _, Nat.le_refl _⟩

theorem follows_trans {a b c : Snapshot} (first : Follows a b) (second : Follows b c) :
    Follows a c := by
  obtain ⟨counts₁, totals₁⟩ := first
  obtain ⟨counts₂, totals₂⟩ := second
  exact ⟨Nat.le_trans counts₁ counts₂, by omega⟩

theorem grows_refl (a : Snapshot) : Grows a a := Nat.le_refl _

theorem grows_trans {a b c : Snapshot} (first : Grows a b) (second : Grows b c) : Grows a c :=
  Nat.le_trans first second

theorem sum_gains_after {first : Snapshot} {later : List Snapshot}
    (chain : List.IsChain Follows (first :: later)) :
    (gains (some first.total) (later.map Snapshot.total)).sum + first.counted ≤
      (later.getLast?.getD first).counted := by
  induction later generalizing first with
  | nil => simp [gains]
  | cons next rest ih =>
      obtain ⟨⟨counts, total⟩, chainLater⟩ := List.isChain_cons_cons.mp chain
      have later := ih chainLater
      rw [List.getLast?_cons, Option.getD_some, List.map_cons, gains, List.sum_cons]
      omega

/-- The gains are at most what was counted from the first snapshot to the last. -/
theorem sum_gains_le {snapshots : List Snapshot} (chain : List.IsChain Follows snapshots) :
    (gains none (snapshots.map Snapshot.total)).sum ≤
      (snapshots.getLast?.map Snapshot.counted).getD 0 -
        (snapshots.head?.map Snapshot.counted).getD 0 := by
  cases snapshots with
  | nil => rfl
  | cons first later =>
      have sum := sum_gains_after chain
      rw [List.getLast?_cons, List.map_cons, gains, List.sum_cons]
      simp only [List.head?_cons, Option.map_some, Option.getD_some]
      omega

theorem sum_gains_after_grows {first : Snapshot} {later : List Snapshot}
    (chain : List.IsChain Grows (first :: later)) :
    (gains (some first.total) (later.map Snapshot.total)).sum + first.total =
      (later.getLast?.getD first).total := by
  induction later generalizing first with
  | nil => simp [gains]
  | cons next rest ih =>
      obtain ⟨grows, chainLater⟩ := List.isChain_cons_cons.mp chain
      have later := ih chainLater
      rw [Grows] at grows
      rw [List.getLast?_cons, Option.getD_some, List.map_cons, gains, List.sum_cons]
      omega

/-- The gains of a counter that never falls are the last reading less the first. -/
theorem sum_gains_eq {snapshots : List Snapshot} (chain : List.IsChain Grows snapshots) :
    (gains none (snapshots.map Snapshot.total)).sum =
      (snapshots.getLast?.map Snapshot.total).getD 0 -
        (snapshots.head?.map Snapshot.total).getD 0 := by
  cases snapshots with
  | nil => rfl
  | cons first later =>
      have sum := sum_gains_after_grows chain
      rw [List.getLast?_cons, List.map_cons, gains, List.sum_cons]
      simp only [List.head?_cons, Option.map_some, Option.getD_some]
      omega

/-! ## Counters that wrap -/

/-- How much has been counted in all, and how often the counter was restarted. -/
structure Mark where
  counted : ℕ
  resets : ℕ
deriving DecidableEq, Repr

/-- A reading of the counter, with the mark at it. -/
structure Marked where
  total : ℕ
  mark : Mark
deriving DecidableEq, Repr

/-- Without a restart from one to the other the counter has grown by what was
counted, modulo the modulus. -/
def Wraps (modulus : ℕ) (a b : Marked) : Prop :=
  a.mark.counted ≤ b.mark.counted ∧ a.mark.resets ≤ b.mark.resets ∧
    (a.mark.resets = b.mark.resets →
      b.total = (a.total + (b.mark.counted - a.mark.counted)) % modulus)

theorem wraps_trans {modulus : ℕ} {a b c : Marked} (first : Wraps modulus a b)
    (second : Wraps modulus b c) : Wraps modulus a c := by
  obtain ⟨counts₁, resets₁, total₁⟩ := first
  obtain ⟨counts₂, resets₂, total₂⟩ := second
  refine ⟨Nat.le_trans counts₁ counts₂, Nat.le_trans resets₁ resets₂, ?_⟩
  intro same
  have same₁ : a.mark.resets = b.mark.resets := by omega
  rw [total₂ (same₁.symm.trans same), total₁ same₁, Nat.mod_add_mod, Nat.add_assoc]
  congr 2
  omega

end Library.Snapshots
