import Mathlib.Data.List.Basic

/-!
# Decoding a stream piece by piece

A decoder reads symbols one at a time and puts out at most one result for each
(`transduce`). A stream that arrives in pieces may be decoded piece by piece,
with a fresh decoder for every piece. That is decoding the whole stream with a
decoder that is made fresh wherever a piece starts (`transduce_marked`).

In a code in which a fresh decoder passes over everything but the first symbol
of a word, what is lost by this is exactly the words that a piece starts inside
of (`SelfSync.decode_pieces`).
-/

set_option autoImplicit false

namespace Library.SelfSync

variable {σ β γ : Type*}

/-! ## Decoders -/

/-- What a decoder puts out from a state, and the state it ends in. -/
def transduce (step : σ → β → Option γ × σ) : σ → List β → List γ × σ
  | s, [] => ([], s)
  | s, b :: rest =>
      let next := step s b
      let later := transduce step next.2 rest
      (next.1.toList ++ later.1, later.2)

section Transduce

variable (step : σ → β → Option γ × σ)

@[simp] theorem transduce_nil (s : σ) : transduce step s [] = ([], s) := rfl

theorem transduce_cons (s : σ) (b : β) (rest : List β) :
    transduce step s (b :: rest) =
      ((step s b).1.toList ++ (transduce step (step s b).2 rest).1,
        (transduce step (step s b).2 rest).2) := rfl

theorem transduce_append (s : σ) (first second : List β) :
    transduce step s (first ++ second) =
      ((transduce step s first).1 ++ (transduce step (transduce step s first).2 second).1,
        (transduce step (transduce step s first).2 second).2) := by
  induction first generalizing s with
  | nil => rfl
  | cons b rest ih =>
      rw [List.cons_append, transduce_cons, ih, transduce_cons, List.append_assoc]

/-- Symbols that a state passes over. -/
theorem transduce_skips {s : σ} {symbols : List β} (skips : ∀ b ∈ symbols, step s b = (none, s)) :
    transduce step s symbols = ([], s) := by
  induction symbols with
  | nil => rfl
  | cons b rest ih =>
      rw [transduce_cons, skips b List.mem_cons_self,
        ih fun c member => skips c (List.mem_cons_of_mem _ member)]
      rfl

end Transduce

/-! ## Pieces -/

/-- The symbols of a piece, each with whether the piece starts there. -/
def markPiece : List β → List (Bool × β)
  | [] => []
  | b :: rest => (true, b) :: rest.map fun c => (false, c)

def marked (pieces : List (List β)) : List (Bool × β) := pieces.flatMap markPiece

/-- Where the pieces start. -/
def starts (pieces : List (List β)) : List Bool := (marked pieces).map Prod.fst

theorem map_snd_marked (pieces : List (List β)) :
    (marked pieces).map Prod.snd = pieces.flatten := by
  have each : ∀ piece : List β, (markPiece piece).map Prod.snd = piece := by
    intro piece
    cases piece with
    | nil => rfl
    | cons b rest => simp [markPiece, List.map_map, Function.comp_def]
  induction pieces with
  | nil => rfl
  | cons piece rest ih =>
      rw [marked, List.flatMap_cons, List.map_append, each, List.flatten_cons, ← ih, marked]

section Restart

variable (step : σ → β → Option γ × σ) (fresh : σ)

/-- A decoder that is made fresh where a piece starts. -/
def restart (s : σ) (p : Bool × β) : Option γ × σ := step (if p.1 then fresh else s) p.2

theorem transduce_restart_unmarked (s : σ) (symbols : List β) :
    transduce (restart step fresh) s (symbols.map fun b => (false, b)) =
      transduce step s symbols := by
  induction symbols generalizing s with
  | nil => rfl
  | cons b rest ih =>
      rw [List.map_cons, transduce_cons, transduce_cons, ih]
      rfl

theorem eq_map_of_unmarked {stream : List (Bool × β)} (unmarked : true ∉ stream.map Prod.fst) :
    stream = (stream.map Prod.snd).map fun b => (false, b) := by
  rw [List.map_map]
  refine (List.map_id stream).symm.trans (List.map_congr_left fun p member => ?_)
  have flag : p.1 = false := by
    by_contra set
    exact unmarked (List.mem_map.mpr ⟨p, member, by simpa using set⟩)
  exact Prod.ext flag rfl

/-- **Piece by piece.** Decoding every piece with a fresh decoder is decoding
the stream with one that is made fresh where the pieces start. -/
theorem transduce_marked (s : σ) (pieces : List (List β)) :
    (transduce (restart step fresh) s (marked pieces)).1 =
      pieces.flatMap fun piece => (transduce step fresh piece).1 := by
  induction pieces generalizing s with
  | nil => rfl
  | cons piece rest ih =>
      rw [marked, List.flatMap_cons, transduce_append, List.flatMap_cons, ← marked, ih]
      cases piece with
      | nil => rfl
      | cons b more =>
          rw [markPiece, transduce_cons, transduce_restart_unmarked, transduce_cons]
          rfl

end Restart

/-! ## Codes -/

/-- A code for which a decoder puts out the result of a word with its last
symbol, and when fresh passes over every symbol of a word but its first. -/
structure Synchronizes {α : Type*} (step : σ → β → Option γ × σ) (fresh : σ) (code : α → List β)
    (result : α → γ) : Prop where
  nonempty : ∀ a, code a ≠ []
  whole : ∀ a, transduce step fresh (code a) = ([result a], fresh)
  silent : ∀ a, (transduce step fresh (code a).dropLast).1 = []
  passes : ∀ a, ∀ b ∈ (code a).tail, step fresh b = (none, fresh)

/-- The words of which no symbol but the first starts a piece. -/
def uncut {α : Type*} (code : α → List β) : List α → List Bool → List α
  | [], _ => []
  | a :: rest, startsAt =>
      let later := uncut code rest (startsAt.drop (code a).length)
      if (startsAt.take (code a).length).tail.any id then later else a :: later

section Uncut

variable {α : Type*} {code : α → List β}

theorem uncut_sublist (words : List α) (startsAt : List Bool) :
    (uncut code words startsAt).Sublist words := by
  induction words generalizing startsAt with
  | nil => exact List.Sublist.slnil
  | cons a rest ih =>
      rw [uncut]
      split
      · exact (ih _).cons a
      · exact (ih _).cons_cons a

theorem uncut_append (first second : List α) (startsAt : List Bool) :
    uncut code (first ++ second) startsAt =
      uncut code first startsAt ++
        uncut code second (startsAt.drop (first.flatMap code).length) := by
  induction first generalizing startsAt with
  | nil => rfl
  | cons a rest ih =>
      rw [List.cons_append, uncut, uncut, ih, List.flatMap_cons, List.length_append, List.drop_drop]
      split
      · rfl
      · rfl

end Uncut

namespace Synchronizes

variable {α : Type*} {step : σ → β → Option γ × σ} {fresh : σ} {code : α → List β} {result : α → γ}

/-- No beginning of a word but the whole puts anything out. -/
theorem silent_of_prefix (sync : Synchronizes step fresh code result) {a : α}
    {beginning rest : List β} (split : code a = beginning ++ rest) (left : rest ≠ []) :
    (transduce step fresh beginning).1 = [] := by
  have before : (code a).dropLast = beginning ++ rest.dropLast := by
    rw [split, List.dropLast_append_of_ne_nil left]
  have silent := sync.silent a
  rw [before, transduce_append] at silent
  exact (List.append_eq_nil_iff.mp silent).1

/-- A stream that comes in one piece is decoded as it was encoded. -/
theorem decode_whole (sync : Synchronizes step fresh code result) (words : List α) :
    transduce step fresh (words.flatMap code) = (words.map result, fresh) := by
  induction words with
  | nil => rfl
  | cons a rest ih =>
      rw [List.flatMap_cons, transduce_append, sync.whole, ih]
      rfl

/-- **Word lemma.** A word gives its result unless a piece starts inside it, and
leaves the decoder fresh either way. -/
theorem decode_word (sync : Synchronizes step fresh code result) {a : α}
    {word : List (Bool × β)} (spells : word.map Prod.snd = code a) :
    transduce (restart step fresh) fresh word =
      (if (word.map Prod.fst).tail.any id then [] else [result a], fresh) := by
  cases word with
  | nil => exact absurd spells.symm (sync.nonempty a)
  | cons first rest =>
      obtain ⟨flag, b⟩ := first
      have begins : ∀ more, transduce (restart step fresh) fresh ((flag, b) :: more) =
          transduce (restart step fresh) fresh ((false, b) :: more) := by
        intro more
        rw [transduce_cons, transduce_cons, restart, restart, ite_self, ite_self]
      rw [List.map_cons, List.tail_cons, begins]
      rw [List.map_cons] at spells
      by_cases cut : true ∈ rest.map Prod.fst
      · -- what is before the first start inside the word is silent, what is after it is passed over
        rw [if_pos (List.any_eq_true.mpr ⟨true, cut, rfl⟩)]
        obtain ⟨flags, more, split, unmarked⟩ := List.eq_append_cons_of_mem cut
        obtain ⟨before, tail, rfl, rfl, after⟩ := List.map_eq_append_iff.mp split
        obtain ⟨⟨flag', c⟩, later, rfl, marks, rfl⟩ := List.map_eq_cons_iff.mp after
        obtain rfl : flag' = true := marks
        have spelled : code a = (b :: before.map Prod.snd) ++ c :: later.map Prod.snd := by
          rw [← spells, List.map_append, List.map_cons, List.cons_append]
        have silent := sync.silent_of_prefix spelled (List.cons_ne_nil _ _)
        have passed : ∀ p ∈ (true, c) :: later, restart step fresh fresh p = (none, fresh) := by
          intro p member
          rw [restart, ite_self]
          refine sync.passes a p.2 ?_
          rw [spelled]
          exact List.mem_append_right _ (List.mem_map_of_mem (f := Prod.snd) member)
        have restarts : ∀ s, transduce (restart step fresh) s ((true, c) :: later) =
            transduce (restart step fresh) fresh ((true, c) :: later) := fun s => rfl
        have starting : (false, b) :: before =
            (b :: before.map Prod.snd).map fun b => (false, b) := by
          rw [List.map_cons, ← eq_map_of_unmarked unmarked]
        rw [← List.cons_append, transduce_append, restarts, transduce_skips _ passed, starting,
          transduce_restart_unmarked, silent]
        rfl
      · have noStart : ((rest.map Prod.fst).any id) = false := by
          rw [List.any_eq_false]
          intro flag member set
          exact cut (set ▸ member)
        have starting : (false, b) :: rest = (code a).map fun b => (false, b) := by
          rw [← spells, List.map_cons, ← eq_map_of_unmarked cut]
        rw [if_neg (by rw [noStart]; exact Bool.false_ne_true), starting,
          transduce_restart_unmarked, sync.whole]

/-- **Decoding piece by piece.** What is decoded is the words that no piece starts
inside of. -/
theorem decode_pieces (sync : Synchronizes step fresh code result) {pieces : List (List β)}
    {words : List α} (spells : pieces.flatten = words.flatMap code) :
    (pieces.flatMap fun piece => (transduce step fresh piece).1) =
      (uncut code words (starts pieces)).map result := by
  have general : ∀ (words : List α) (stream : List (Bool × β)),
      stream.map Prod.snd = words.flatMap code →
      (transduce (restart step fresh) fresh stream).1 =
        (uncut code words (stream.map Prod.fst)).map result := by
    intro words
    induction words with
    | nil =>
        intro stream spelled
        obtain rfl := List.map_eq_nil_iff.mp spelled
        rfl
    | cons a rest ih =>
        intro stream spelled
        obtain ⟨word, more, rfl, here, later⟩ := List.map_eq_append_iff.mp spelled
        have length : (word.map Prod.fst).length = (code a).length := by
          rw [← here, List.length_map, List.length_map]
        rw [transduce_append, sync.decode_word here, ih more later, uncut, List.map_append,
          ← length, List.take_left, List.drop_left]
        dsimp only
        split
        · rfl
        · rfl
  rw [← transduce_marked step fresh fresh, starts]
  exact general words (marked pieces) ((map_snd_marked pieces).trans spells)

end Synchronizes

end Library.SelfSync
