import EbpfNids.Library.Runs
import Mathlib.Data.Finset.Card
import Mathlib.Data.Finset.Option
import Mathlib.Data.List.Dedup
import Mathlib.Data.List.DropRight

/-!
# Cutting a sequence when enough distinct elements have accumulated

`blocks k` cuts a sequence greedily: a block is closed by the element that
makes its number of distinct elements reach `k`, and the next block starts
empty. A system whose view is the set of elements accumulated since the last
cut, and which puts out one mark with every cut, puts out as many marks as
there are blocks (`sum_marks_eq_blocks`).

Between two cuts the view is the set of elements since the last mark
(`view_eq_since`). A system may accumulate something else than what it ought to.
If what each step adds to its view is among the elements of the run since the
last mark, so is the whole view (`view_subset_since`).
-/

set_option autoImplicit false

namespace Library.Greedy

open Runs

variable {α : Type*} [DecidableEq α]

/-- The closed blocks of a sequence, after a block that is still open. -/
def blocks (k : ℕ) : List α → List α → List (List α)
  | _, [] => []
  | current, a :: rest =>
      if (current ++ [a]).toFinset.card = k then (current ++ [a]) :: blocks k [] rest
      else blocks k (current ++ [a]) rest

theorem toFinset_concat (current : List α) (a : α) :
    (current ++ [a]).toFinset = insert a current.toFinset := by
  ext b
  simp

variable {σ ε : Type*} {step : σ → ε → σ}

/-- What a step does to the accumulated set: an element joins it or closes it,
with one mark, and a step without an element changes nothing. -/
def Accumulates (k : ℕ) (step : σ → ε → σ) (view : σ → Finset α) (element : σ × ε → Option α)
    (marks : σ × ε → ℕ) (p : σ × ε) : Prop :=
  match element p with
  | some a =>
      (view (step p.1 p.2) = if (insert a (view p.1)).card = k then ∅ else insert a (view p.1)) ∧
        marks p = if (insert a (view p.1)).card = k then 1 else 0
  | none => view (step p.1 p.2) = view p.1 ∧ marks p = 0

/-- **Cutting rule.** A run whose steps accumulate elements puts out one mark
for every closed block of its elements. -/
theorem sum_marks_eq_blocks (view : σ → Finset α) {k : ℕ} {element : σ × ε → Option α}
    {marks : σ × ε → ℕ} {start : σ} {events : List ε} (current : List α)
    (initial : view start = current.toFinset)
    (accumulates : ∀ p ∈ steps step start events, Accumulates k step view element marks p) :
    ((steps step start events).map marks).sum =
      (blocks k current ((steps step start events).filterMap element)).length := by
  induction events generalizing start current with
  | nil => rfl
  | cons event rest ih =>
      have here := accumulates (start, event) List.mem_cons_self
      have later : ∀ p ∈ steps step (step start event) rest,
          Accumulates k step view element marks p :=
        fun p member => accumulates p (List.mem_cons_of_mem _ member)
      rw [steps_cons, List.map_cons, List.sum_cons]
      unfold Accumulates at here
      cases joined : element (start, event) with
      | none =>
          simp only [joined] at here
          rw [List.filterMap_cons_none joined, here.2, Nat.zero_add]
          exact ih current (here.1.trans initial) later
      | some a =>
          simp only [joined, initial, ← toFinset_concat] at here
          obtain ⟨accumulated, marked⟩ := here
          rw [List.filterMap_cons_some joined, blocks, marked]
          by_cases full : (current ++ [a]).toFinset.card = k
          · rw [if_pos full] at accumulated
            rw [if_pos full, if_pos full, List.length_cons, ih [] accumulated later, Nat.add_comm]
          · rw [if_neg full] at accumulated
            rw [if_neg full, if_neg full, Nat.zero_add]
            exact ih (current ++ [a]) accumulated later

/-! ## Elements since the last mark -/

section Since

variable {β : Type*} (quiet : β → Bool) (collect : β → Option α)

/-- The elements of a run, from after its last step that is not quiet. -/
def since (run : List β) : Finset α := ((run.rtakeWhile quiet).filterMap collect).toFinset

@[simp] theorem since_nil : since quiet collect [] = ∅ := rfl

theorem since_concat_quiet {run : List β} {b : β} (silent : quiet b = true) :
    since quiet collect (run ++ [b]) = since quiet collect run ∪ (collect b).toFinset := by
  rw [since, List.rtakeWhile_concat_pos _ _ _ silent, List.filterMap_append,
    List.toFinset_append, since]
  cases found : collect b with
  | none => rw [List.filterMap_cons_none found]; rfl
  | some a => rw [List.filterMap_cons_some found]; rfl

theorem since_concat_mark {run : List β} {b : β} (marked : quiet b = false) :
    since quiet collect (run ++ [b]) = ∅ := by
  rw [since, List.rtakeWhile_concat_neg _ _ _ (by simp [marked])]
  rfl

theorem exists_of_mem_since {run : List β} {a : α} (member : a ∈ since quiet collect run) :
    ∃ b ∈ run, collect b = some a := by
  obtain ⟨b, recent, found⟩ := List.mem_filterMap.mp (List.mem_toFinset.mp member)
  exact ⟨b, (List.rtakeWhile_suffix quiet run).subset recent, found⟩

end Since

/-- **Collection rule.** If a quiet step adds its own element to the view and the
other steps empty it, the view is the set of elements since the last mark. -/
theorem view_eq_since (view : σ → Finset α) {quiet : σ × ε → Bool}
    {collect : σ × ε → Option α} {start : σ} {events : List ε} (initial : view start = ∅)
    (collects : ∀ p ∈ steps step start events,
      view (step p.1 p.2) = if quiet p then view p.1 ∪ (collect p).toFinset else ∅) :
    view (exec step start events) = since quiet collect (steps step start events) := by
  induction events using List.reverseRecOn with
  | nil => exact initial
  | append_singleton before event ih =>
      rw [steps_append] at collects
      have earlier := ih fun p member => collects p (List.mem_append_left _ member)
      have last := collects (exec step start before, event)
        (List.mem_append_right _ List.mem_cons_self)
      rw [exec_append, steps_append, exec_cons, exec_nil, steps_cons, steps_nil, last]
      cases silent : quiet (exec step start before, event) with
      | false =>
          rw [since_concat_mark quiet collect silent]
          rfl
      | true =>
          rw [since_concat_quiet quiet collect silent, if_pos rfl, earlier]

/-- **Evidence rule.** If a quiet step adds to the view only its own element and
elements since the last mark, and the other steps empty it, the view holds only
elements since the last mark. -/
theorem view_subset_since (view : σ → Finset α) {quiet : σ × ε → Bool}
    {collect : σ × ε → Option α} {start : σ} {events : List ε} (initial : view start = ∅)
    (adds : ∀ before event after, events = before ++ event :: after →
      view (step (exec step start before) event) ⊆
        if quiet (exec step start before, event) then
          view (exec step start before) ∪ ((collect (exec step start before, event)).toFinset ∪
            since quiet collect (steps step start before))
        else ∅) :
    view (exec step start events) ⊆ since quiet collect (steps step start events) := by
  induction events using List.reverseRecOn with
  | nil => exact initial.subset
  | append_singleton before event ih =>
      have earlier := ih fun first e rest split =>
        adds first e (rest ++ [event]) (by rw [split, List.append_assoc, List.cons_append])
      have last := adds before event [] rfl
      rw [exec_append, steps_append, exec_cons, exec_nil, steps_cons, steps_nil]
      cases silent : quiet (exec step start before, event) with
      | false =>
          rw [silent] at last
          rw [since_concat_mark quiet collect silent]
          exact last
      | true =>
          rw [silent, if_pos rfl] at last
          rw [since_concat_quiet quiet collect silent]
          refine last.trans (Finset.union_subset ?_ (Finset.union_subset ?_ ?_))
          · exact earlier.trans Finset.subset_union_left
          · exact Finset.subset_union_right
          · exact Finset.subset_union_left

end Library.Greedy
