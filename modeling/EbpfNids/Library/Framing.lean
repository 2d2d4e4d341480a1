import Mathlib.Data.List.Basic

/-!
# Cutting a stream at a mark

A stream is cut into pieces that end with a mark, and what is left after the
last mark (`drain`). A reader that keeps what is left and cuts again when more
arrives gets the pieces of the whole stream, however it arrived
(`drain_append`). A piece without a mark, followed by one, is cut off as it is
(`drain_piece`).
-/

set_option autoImplicit false

namespace Library.Framing

variable {α : Type*} [DecidableEq α] (mark : α)

/-- What comes before the first mark, and what comes after it. -/
def splitFirst : List α → Option (List α × List α)
  | [] => none
  | a :: rest =>
      if a = mark then some ([], rest)
      else (splitFirst rest).map fun (piece, left) => (a :: piece, left)

/-- The pieces that end with a mark, without their marks, and what is left. -/
def drain : List α → List (List α) × List α
  | [] => ([], [])
  | a :: rest =>
      if a = mark then ([] :: (drain rest).1, (drain rest).2)
      else
        match (drain rest).1 with
        | [] => ([], a :: (drain rest).2)
        | piece :: pieces => ((a :: piece) :: pieces, (drain rest).2)

variable {mark}

/-- The first piece, if there is one, is what comes before the first mark. -/
theorem drain_eq (stream : List α) :
    drain mark stream =
      match splitFirst mark stream with
      | some (piece, left) => (piece :: (drain mark left).1, (drain mark left).2)
      | none => ([], stream) := by
  induction stream with
  | nil => rfl
  | cons a rest ih =>
      rw [drain, splitFirst]
      by_cases here : a = mark
      · rw [if_pos here, if_pos here]
      · rw [if_neg here, if_neg here, ih]
        cases split : splitFirst mark rest with
        | none => rfl
        | some both => rfl

theorem splitFirst_length {stream piece left : List α}
    (split : splitFirst mark stream = some (piece, left)) :
    stream.length = piece.length + left.length + 1 := by
  induction stream generalizing piece with
  | nil => cases split
  | cons a rest ih =>
      rw [splitFirst] at split
      by_cases here : a = mark
      · rw [if_pos here] at split
        cases split
        simp
      · rw [if_neg here] at split
        obtain ⟨⟨first, after⟩, later, same⟩ := Option.map_eq_some_iff.mp split
        cases same
        simp only [List.length_cons, ih later]
        omega

/-- **Cutting as it arrives.** The pieces of a stream are those of its first
part and then those of what that left followed by the second part. -/
theorem drain_append (first second : List α) :
    drain mark (first ++ second) =
      ((drain mark first).1 ++ (drain mark ((drain mark first).2 ++ second)).1,
        (drain mark ((drain mark first).2 ++ second)).2) := by
  induction first with
  | nil => rfl
  | cons a rest ih =>
      rw [List.cons_append, drain, drain, ih]
      by_cases here : a = mark
      · rw [if_pos here, if_pos here]
        rfl
      · rw [if_neg here, if_neg here]
        cases pieces : (drain mark rest).1 with
        | nil =>
            dsimp only
            rw [List.cons_append, drain, if_neg here]
            rfl
        | cons piece more => rfl

theorem drain_of_not_mem {stream : List α} (unmarked : mark ∉ stream) :
    drain mark stream = ([], stream) := by
  induction stream with
  | nil => rfl
  | cons a rest ih =>
      obtain ⟨here, later⟩ := not_or.mp (mt List.mem_cons.mpr unmarked)
      rw [drain, if_neg (Ne.symm here), ih later]

/-- A piece and its mark. -/
theorem drain_piece {piece : List α} (unmarked : mark ∉ piece) (rest : List α) :
    drain mark (piece ++ mark :: rest) = (piece :: (drain mark rest).1, (drain mark rest).2) := by
  induction piece with
  | nil => rw [List.nil_append, drain, if_pos rfl]
  | cons a more ih =>
      obtain ⟨here, later⟩ := not_or.mp (mt List.mem_cons.mpr unmarked)
      rw [List.cons_append, drain, if_neg (Ne.symm here), ih later]

end Library.Framing
