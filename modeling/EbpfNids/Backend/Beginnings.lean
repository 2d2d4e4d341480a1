import EbpfNids.Backend.Json

/-!
# Texts behind the beginning of an object

After a beginning of an object the reader is inside it, or has ended (`Busy`),
and so it is after anything more (`Busy.feed`). An object that follows there is
read as a value of the object outside, if one is expected, which leaves that one
open, and is refused otherwise. Either way the text is no JSON text
(`finish_behind`).
-/

set_option autoImplicit false

namespace EbpfNids.Backend

open Library

/-! ## Readers that are inside something -/

/-- The rest of a literal has no brace. -/
def NoBrace : Mode → Prop
  | .literal rest _ => 123 ∉ rest
  | _ => True

/-- A reader that is inside an array or object, or has ended. -/
structure Busy (r : Reader) : Prop where
  inside : r.stack ≠ [] ∨ (∃ v, r.mode = .done v) ∨ ∃ e, r.mode = .failed e
  noBrace : NoBrace r.mode

theorem busy_fail (e : PyExn) : Busy (fail e) := ⟨Or.inr (Or.inr ⟨e, rfl⟩), True.intro⟩

theorem busy_inside {mode : Mode} {σ : List Open} (inside : σ ≠ []) (noBrace : NoBrace mode) :
    Busy ⟨mode, σ⟩ := ⟨Or.inl inside, noBrace⟩

theorem busy_attach (v : Json) (σ : List Open) : Busy (attach v σ) := by
  cases σ with
  | nil => exact ⟨Or.inr (Or.inl ⟨v, rfl⟩), True.intro⟩
  | cons top below =>
      cases top with
      | arr items => exact busy_inside (List.cons_ne_nil _ _) True.intro
      | obj fields => exact busy_fail _
      | field fields key => exact busy_inside (List.cons_ne_nil _ _) True.intro

/-- A value that is handed to an array or object does not end the text. -/
theorem attach_not_done {σ : List Open} (inside : σ ≠ []) (v w : Json) :
    (attach v σ).mode ≠ .done w := by
  cases σ with
  | nil => exact absurd rfl inside
  | cons top below => cases top <;> exact fun done => (nomatch done)

/-- **Step lemma.** A busy reader stays busy. -/
theorem Busy.readChar {r : Reader} (busy : Busy r) (c : ℕ) : Busy (readChar r c) := by
  have plain : ∀ {mode : Mode}, mode.isLiteral = false → NoBrace mode := by
    intro mode other
    cases mode with
    | literal rest v => cases other
    | _ => exact True.intro
  have outcomes : Outcomes Busy r :=
    { same := busy
      failed := busy_fail
      attached := busy_attach
      stays := fun going _ other => busy_inside (busy.inside.resolve_right going) (plain other)
      opened := fun _ _ _ other => busy_inside (List.cons_ne_nil _ _) (plain other)
      literal := by
        intro going rest v left
        refine busy_inside (busy.inside.resolve_right going) ?_
        rcases left with word | ⟨-, d, before⟩
        · exact (by decide : ∀ rest ∈ literalRests, 123 ∉ rest) rest word
        · have noBrace := busy.noBrace
          rw [before] at noBrace
          exact fun member => noBrace (List.mem_cons_of_mem d member) }
  exact outcomes.readChar c

theorem Busy.feed {r : Reader} (busy : Busy r) (t : Text) : Busy (feed r t) := by
  induction t generalizing r with
  | nil => exact busy
  | cons c rest ih => exact ih (busy.readChar c)

/-! ## An object behind a beginning -/

/-- After a value only white space, a comma or a bracket may come. -/
theorem afterStep_fail (r : Reader) {c : ℕ} (space : isJsonSpace c = false)
    (other : c ≠ 44 ∧ c ≠ 93 ∧ c ≠ 125) : ∃ e, afterStep r c = fail e := by
  obtain ⟨comma, bracket, brace⟩ := other
  rw [afterStep, space, if_neg Bool.false_ne_true]
  split
  · exact ⟨_, by rw [if_neg comma, if_neg bracket]⟩
  · exact ⟨_, by rw [if_neg comma, if_neg brace]⟩
  · exact ⟨_, rfl⟩
  · exact ⟨_, rfl⟩

/-- A brace and a quote where no value is expected: the reader fails, or the
brace was part of a string that the quote has closed. -/
theorem readChar_brace {r : Reader} (busy : Busy r) :
    (∃ e, readChar r 123 = fail e) ∨
      (∃ isKey acc, r.mode = .string isKey acc) ∨
      (r.stack ≠ [] ∧ readChar r 123 = readChar ⟨.value, r.stack⟩ 123) := by
  have either := busy.inside
  have noBrace := busy.noBrace
  have refused := fun r => afterStep_fail r (c := 123) rfl (by decide)
  obtain ⟨mode, σ⟩ := r
  cases mode with
  | value => exact Or.inr (Or.inr ⟨by simpa using either, rfl⟩)
  | firstItem => exact Or.inr (Or.inr ⟨by simpa using either, rfl⟩)
  | string isKey acc => exact Or.inr (Or.inl ⟨_, _, rfl⟩)
  | firstKey => exact Or.inl ⟨_, rfl⟩
  | key => exact Or.inl ⟨_, rfl⟩
  | colon key =>
      left
      cases σ with
      | nil => exact ⟨_, rfl⟩
      | cons top below =>
          cases top with
          | arr items => exact ⟨_, rfl⟩
          | obj fields => exact ⟨_, rfl⟩
          | field fields key => exact ⟨_, rfl⟩
  | escape isKey acc => exact Or.inl ⟨_, rfl⟩
  | unicode isKey acc digits => exact Or.inl ⟨_, rfl⟩
  | number phase acc =>
      left
      have stops : numberPhase phase 123 = none := by cases phase <;> rfl
      have ended : readChar ⟨.number phase acc, σ⟩ 123 = afterStep (endNumber phase acc σ) 123 := by
        simp [readChar, stops]
      rw [ended]
      exact refused (endNumber phase acc σ)
  | literal rest v =>
      left
      cases rest with
      | nil => exact refused (attach v σ)
      | cons d more =>
          have different : 123 ≠ d := by
            intro same
            exact noBrace (same ▸ List.mem_cons_self)
          exact ⟨_, if_neg different⟩
  | afterValue => exact Or.inl (refused _)
  | done v => exact Or.inl (refused _)
  | failed e => exact Or.inl ⟨e, rfl⟩

/-- A letter after a string that has been closed inside something. -/
theorem readChar_closed {σ : List Open} (isKey : Bool) (acc : Text) :
    ∃ e, readChar (closeString isKey acc σ) 116 = fail e := by
  cases isKey with
  | true =>
      cases σ with
      | nil => exact ⟨_, rfl⟩
      | cons top below =>
          cases top with
          | arr items => exact ⟨_, rfl⟩
          | obj fields => exact ⟨_, rfl⟩
          | field fields key => exact ⟨_, rfl⟩
  | false =>
      obtain ⟨e, refused⟩ := afterStep_fail (attach (.str (mergeSurrogates acc)) σ) (c := 116) rfl
        (by decide)
      exact ⟨e, (readChar_attach _ _ _).trans refused⟩

theorem finish_of_busy {r : Reader} (busy : Busy r) (going : ∀ v, r.mode ≠ .done v) :
    ∃ e, finish r = .error e := by
  have either := busy.inside
  obtain ⟨mode, σ⟩ := r
  cases mode with
  | done v => exact absurd rfl (going v)
  | number phase acc =>
      have inside : σ ≠ [] := by simpa using either
      simp only [finish, if_neg inside]
      split
      · exact ⟨_, rfl⟩
      · exact ⟨_, rfl⟩
  | _ => exact ⟨_, rfl⟩

/-- **Behind a beginning.** An object whose first key starts with a `t`, behind a
beginning of a text, does not complete it. -/
theorem finish_behind {r : Reader} (busy : Busy r) {t rest : Text} {v : Json}
    (starts : t = 123 :: 34 :: 116 :: rest)
    (reads : ∀ σ, feed ⟨.value, σ⟩ t = attach v σ) : ∃ e, finish (feed r t) = .error e := by
  apply finish_of_busy (busy.feed t)
  intro w done
  rcases readChar_brace busy with ⟨e, failed⟩ | ⟨isKey, acc, string⟩ | ⟨inside, value⟩
  · rw [starts, feed_cons, failed, feed_fail] at done
    cases done
  · obtain ⟨mode, σ⟩ := r
    cases string
    have brace : readChar ⟨.string isKey acc, σ⟩ 123 = ⟨.string isKey (acc ++ [123]), σ⟩ := rfl
    have quote : readChar ⟨.string isKey (acc ++ [123]), σ⟩ 34 =
        closeString isKey (acc ++ [123]) σ := rfl
    obtain ⟨e, failed⟩ := readChar_closed (σ := σ) isKey (acc ++ [123])
    rw [starts, feed_cons, brace, feed_cons, quote, feed_cons, failed, feed_fail] at done
    cases done
  · have same : feed r t = feed ⟨.value, r.stack⟩ t := by
      rw [starts, feed_cons, value, ← feed_cons]
    rw [same, reads] at done
    exact attach_not_done inside v w done

end EbpfNids.Backend
