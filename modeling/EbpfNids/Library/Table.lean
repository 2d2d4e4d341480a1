import EbpfNids.Library.Runs
import Mathlib.Data.List.DropRight
import Mathlib.Data.List.Infix

/-!
# A table that numbers its rows

Every row that is inserted gets the number after the last one given out, and
clearing the table does not start the numbers again. So a table holds the rows
inserted since it was last cleared, each with its place among all the rows ever
inserted (`exec_apply`), and a number belongs to one row for ever
(`number_of_one_row`).
-/

set_option autoImplicit false

namespace Library

open Library.Runs

/-- The rows in the order of their numbers, and the last number given out. -/
structure Table (α : Type*) where
  rows : List α
  last : ℕ

inductive TableOp (α : Type*) where
  | insert (row : α)
  | clear

namespace Table

variable {α : Type*}

def empty : Table α := ⟨[], 0⟩

/-- `number n row` is the row with the number `n`. -/
def apply (number : ℕ → α → α) (table : Table α) : TableOp α → Table α
  | .insert row => ⟨table.rows ++ [number (table.last + 1) row], table.last + 1⟩
  | .clear => ⟨[], table.last⟩

/-- The rows that are inserted. -/
def inserted (ops : List (TableOp α)) : List α :=
  ops.filterMap fun op =>
    match op with
    | .insert row => some row
    | .clear => none

def TableOp.isInsert : TableOp α → Bool
  | .insert _ => true
  | .clear => false

/-- How many rows are inserted after the table has last been cleared. -/
def kept (ops : List (TableOp α)) : ℕ := (ops.rtakeWhile TableOp.isInsert).length

/-- Rows with their numbers, from 1. -/
def numbered (number : ℕ → α → α) (rows : List α) : List α :=
  rows.mapIdx fun i row => number (i + 1) row

variable {number : ℕ → α → α}

@[simp] theorem length_numbered (rows : List α) : (numbered number rows).length = rows.length :=
  List.length_mapIdx

theorem numbered_concat (rows : List α) (row : α) :
    numbered number (rows ++ [row]) =
      numbered number rows ++ [number (rows.length + 1) row] := List.mapIdx_concat

theorem inserted_append (first second : List (TableOp α)) :
    inserted (first ++ second) = inserted first ++ inserted second := List.filterMap_append

theorem kept_insert (ops : List (TableOp α)) (row : α) :
    kept (ops ++ [.insert row]) = kept ops + 1 := by
  simp [kept, List.rtakeWhile_concat, TableOp.isInsert]

theorem kept_clear (ops : List (TableOp α)) : kept (ops ++ [.clear]) = 0 := by
  simp [kept, TableOp.isInsert]

/-- **What a table holds.** -/
theorem exec_apply (ops : List (TableOp α)) :
    exec (apply number) empty ops =
      ⟨(numbered number (inserted ops)).rtake (kept ops), (inserted ops).length⟩ := by
  induction ops using List.reverseRecOn with
  | nil => rfl
  | append_singleton ops op ih =>
      rw [exec_append, ih, exec_cons, exec_nil, inserted_append]
      cases op with
      | insert row =>
          rw [kept_insert]
          have one : inserted [.insert row] = [row] := rfl
          rw [one, numbered_concat, List.rtake_concat_succ, List.length_append]
          rfl
      | clear =>
          have nothing : inserted [(.clear : TableOp α)] = [] := rfl
          rw [kept_clear, nothing, List.append_nil, List.rtake_zero]
          rfl

theorem getElem?_numbered (rows : List α) (i : ℕ) :
    (numbered number rows)[i]? = (rows[i]?).map (number (i + 1)) := List.getElem?_mapIdx

/-- What is numbered does not change when more is inserted. -/
theorem numbered_grows {first second : List α} (grows : first <+: second) :
    numbered number first <+: numbered number second := by
  obtain ⟨more, rfl⟩ := grows
  rw [numbered, numbered, List.mapIdx_append]
  exact List.prefix_append _ _

/-- **A number belongs to one row.** Of two states of a table, one of which comes
after the other, rows with the same number are the same row. -/
theorem number_of_one_row (label : α → ℕ) (labels : ∀ n row, label (number n row) = n)
    {first second : List (TableOp α)} (later : first <+: second) {a b : α}
    (here : a ∈ (exec (apply number) empty first).rows)
    (there : b ∈ (exec (apply number) empty second).rows) (same : label a = label b) : a = b := by
  rw [exec_apply] at here there
  have grows : inserted first <+: inserted second := by
    obtain ⟨more, rfl⟩ := later
    rw [inserted_append]
    exact List.prefix_append _ _
  have inSecond := (numbered_grows grows).subset (List.mem_of_mem_drop here)
  obtain ⟨i, atI⟩ := List.mem_iff_getElem?.mp inSecond
  obtain ⟨j, atJ⟩ := List.mem_iff_getElem?.mp (List.mem_of_mem_drop there)
  have place : ∀ {k : ℕ} {c : α}, (numbered number (inserted second))[k]? = some c →
      label c = k + 1 := by
    intro k c found
    rw [getElem?_numbered] at found
    obtain ⟨row, -, rfl⟩ := Option.map_eq_some_iff.mp found
    exact labels _ _
  have index : i = j := by
    have := place atI
    have := place atJ
    omega
  rw [index, atJ, Option.some.injEq] at atI
  exact atI.symm

/-- The rows are in the order of their numbers. -/
theorem pairwise_numbered (label : α → ℕ) (labels : ∀ n row, label (number n row) = n)
    (rows : List α) : (numbered number rows).Pairwise fun a b => label a < label b := by
  refine List.pairwise_iff_getElem.mpr fun i j iLt jLt less => ?_
  simp only [numbered, List.getElem_mapIdx, labels]
  omega

end Table

end Library
