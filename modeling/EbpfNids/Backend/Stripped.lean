import EbpfNids.Backend.Beginnings

/-!
# White space around a JSON text

The loop strips a line before it parses it. `str.strip` takes off more kinds of
white space than JSON allows, but around a JSON text there is only what JSON
allows, and that means nothing to the parser. So a line that is a JSON text is
parsed as the same value when it has been stripped (`jsonLoads_strip`).
-/

set_option autoImplicit false

namespace EbpfNids.Backend

open Library Library.Decimal

/-! ## The characters that `str.isspace` accepts -/

theorem isPySpace_cases {c : ℕ} (space : isPySpace c = true) :
    (9 ≤ c ∧ c ≤ 13) ∨ (28 ≤ c ∧ c ≤ 32) ∨ 0x80 ≤ c := by
  simp only [isPySpace, Bool.or_eq_true, Bool.and_eq_true, decide_eq_true_eq, beq_iff_eq] at space
  omega

/-- None of them has a part in a JSON text outside strings. -/
theorem startValue_space {c : ℕ} (space : isPySpace c = true) (σ : List Open) :
    startValue σ c = fail .jsonDecodeError := by
  have kinds := isPySpace_cases space
  have notDigit : isDigit c = false := by
    simp only [isDigit, Bool.and_eq_false_iff, decide_eq_false_iff_not]
    omega
  rw [startValue, if_neg (by omega), if_neg (by omega), if_neg (by omega), if_neg (by omega),
    if_neg (by omega), if_neg (by simp [notDigit]), if_neg (by omega), if_neg (by omega),
    if_neg (by omega), if_neg (by omega), if_neg (by omega)]

theorem numberPhase_space {c : ℕ} (space : isPySpace c = true) (phase : NumPhase) :
    numberPhase phase c = none := by
  have kinds := isPySpace_cases space
  have notDigit : isDigit c = false := by
    simp only [isDigit, Bool.and_eq_false_iff, decide_eq_false_iff_not]
    omega
  have dot : c ≠ 46 := by omega
  have exponent : ¬ (c = 101 ∨ c = 69) := by omega
  have sign : ¬ (c = 43 ∨ c = 45) := by omega
  have zero : c ≠ 48 := by omega
  cases phase <;> simp [numberPhase, notDigit, dot, exponent, sign, zero]

theorem escaped_space {c : ℕ} (space : isPySpace c = true) : escaped c = none := by
  have kinds := isPySpace_cases space
  rw [escaped, if_neg (by omega), if_neg (by omega), if_neg (by omega), if_neg (by omega),
    if_neg (by omega), if_neg (by omega), if_neg (by omega), if_neg (by omega)]

theorem hexDigit_space {c : ℕ} (space : isPySpace c = true) : hexDigit c = none := by
  have kinds := isPySpace_cases space
  rw [hexDigit, if_neg (by omega), if_neg (by omega), if_neg (by omega)]

/-! ## The rest of a literal -/

/-- What is still to come of a literal is not nothing, and has no white space. -/
def WordLeft : Mode → Prop
  | .literal rest _ => rest ≠ [] ∧ ∀ c ∈ rest, isPySpace c = false
  | _ => True

theorem wordLeft_of_other {mode : Mode} (other : mode.isLiteral = false) : WordLeft mode := by
  cases mode with
  | literal rest v => cases other
  | _ => exact True.intro

theorem wordLeft_attach (v : Json) (σ : List Open) : WordLeft (attach v σ).mode := by
  cases σ with
  | nil => exact True.intro
  | cons top below => cases top <;> exact True.intro

/-- **Step lemma.** A literal is always in the middle of its word. -/
theorem wordLeft_readChar {r : Reader} (left : WordLeft r.mode) (c : ℕ) :
    WordLeft (readChar r c).mode := by
  have outcomes : Outcomes (fun r => WordLeft r.mode) r :=
    { same := left
      failed := fun _ => True.intro
      attached := wordLeft_attach
      stays := fun _ _ other => wordLeft_of_other other
      opened := fun _ _ _ other => wordLeft_of_other other
      literal := by
        rintro - rest v (word | ⟨more, d, before⟩)
        · exact (by decide : ∀ rest ∈ literalRests,
            rest ≠ [] ∧ ∀ c ∈ rest, isPySpace c = false) rest word
        · rw [before] at left
          exact ⟨more, fun c member => left.2 c (List.mem_cons_of_mem d member)⟩ }
  exact outcomes.readChar c

theorem wordLeft_feed {r : Reader} (left : WordLeft r.mode) (t : Text) :
    WordLeft (feed r t).mode := by
  induction t generalizing r with
  | nil => exact left
  | cons c rest ih => exact ih (wordLeft_readChar left c)

/-! ## Reading white space -/

theorem afterStep_space {c : ℕ} (space : isPySpace c = true) (r : Reader) :
    afterStep r c = r ∨ ∃ e, afterStep r c = fail e := by
  have kinds := isPySpace_cases space
  by_cases json : isJsonSpace c = true
  · exact Or.inl (if_pos json)
  · exact Or.inr (afterStep_fail r (Bool.not_eq_true _ ▸ json) ⟨by omega, by omega, by omega⟩)

theorem readChar_string_space {c : ℕ} (space : isPySpace c = true) (isKey : Bool) (acc : Text)
    (σ : List Open) :
    (∃ e, readChar ⟨.string isKey acc, σ⟩ c = fail e) ∨
      readChar ⟨.string isKey acc, σ⟩ c = ⟨.string isKey (acc ++ [c]), σ⟩ := by
  have kinds := isPySpace_cases space
  have stays : readChar ⟨.string isKey acc, σ⟩ c =
      if c < 32 then fail .jsonDecodeError else ⟨.string isKey (acc ++ [c]), σ⟩ := by
    rw [readChar]
    dsimp only
    rw [if_neg (by omega), if_neg (by omega)]
  rw [stays]
  split
  · exact Or.inl ⟨_, rfl⟩
  · exact Or.inr rfl

theorem readChar_number_space {c : ℕ} (space : isPySpace c = true) (phase : NumPhase) (acc : Text)
    (σ : List Open) :
    (∃ e, readChar ⟨.number phase acc, σ⟩ c = fail e) ∨
      ∃ w, numberValue phase acc = .ok w ∧ readChar ⟨.number phase acc, σ⟩ c = attach w σ := by
  have kinds := isPySpace_cases space
  have ends : readChar ⟨.number phase acc, σ⟩ c = afterStep (endNumber phase acc σ) c := by
    have notInfinity : ¬ (phase = .minus ∧ c = 73) := by omega
    simp [readChar, numberPhase_space space, notInfinity]
  rw [ends, endNumber]
  cases value : numberValue phase acc with
  | error e =>
      rcases afterStep_space space (fail e) with same | refused
      · exact Or.inl ⟨e, same⟩
      · exact Or.inl refused
  | ok w =>
      rcases afterStep_space space (attach w σ) with same | refused
      · exact Or.inr ⟨w, rfl, same⟩
      · exact Or.inl refused

/-- White space is passed over, is refused, or stands in a string, except that it
ends a number. -/
theorem readChar_space {r : Reader} (left : WordLeft r.mode) {c : ℕ} (space : isPySpace c = true) :
    readChar r c = r ∨ (∃ e, readChar r c = fail e) ∨
      (∃ isKey acc, (readChar r c).mode = .string isKey acc) ∨
      ∃ phase acc w, r.mode = .number phase acc ∧ numberValue phase acc = .ok w ∧
        readChar r c = attach w r.stack := by
  have kinds := isPySpace_cases space
  have passed : ∀ {r'}, (∃ e, r' = fail e) →
      (if isJsonSpace c then r else r') = r ∨ ∃ e, (if isJsonSpace c then r else r') = fail e := by
    intro r' refused
    split
    · exact Or.inl rfl
    · exact Or.inr refused
  obtain ⟨mode, σ⟩ := r
  cases mode with
  | value => exact (passed ⟨_, startValue_space space σ⟩).imp_right Or.inl
  | firstItem =>
      refine (passed ⟨.jsonDecodeError, ?_⟩).imp_right Or.inl
      rw [if_neg (by omega), startValue_space space]
  | firstKey =>
      refine (passed ⟨.jsonDecodeError, ?_⟩).imp_right Or.inl
      rw [if_neg (by omega), if_neg (by omega)]
  | key =>
      refine (passed ⟨.jsonDecodeError, ?_⟩).imp_right Or.inl
      rw [if_neg (by omega)]
  | colon key =>
      refine (passed ⟨.jsonDecodeError, ?_⟩).imp_right Or.inl
      dsimp only
      split
      · exact if_neg (by omega)
      · rfl
  | string isKey acc =>
      rcases readChar_string_space space isKey acc σ with refused | stays
      · exact Or.inr (Or.inl refused)
      · exact Or.inr (Or.inr (Or.inl ⟨_, _, by rw [stays]⟩))
  | escape isKey acc =>
      refine Or.inr (Or.inl ⟨.jsonDecodeError, ?_⟩)
      rw [readChar]
      dsimp only
      rw [if_neg (by omega), escaped_space space]
  | unicode isKey acc digits =>
      refine Or.inr (Or.inl ⟨.jsonDecodeError, ?_⟩)
      rw [readChar]
      dsimp only
      rw [hexDigit_space space]
      rfl
  | number phase acc =>
      rcases readChar_number_space space phase acc σ with refused | ⟨w, value, ended⟩
      · exact Or.inr (Or.inl refused)
      · exact Or.inr (Or.inr (Or.inr ⟨phase, acc, w, rfl, value, ended⟩))
  | literal rest v =>
      cases rest with
      | nil => exact absurd rfl left.1
      | cons d more =>
          have different : c ≠ d := by
            rintro rfl
            rw [left.2 c List.mem_cons_self] at space
            cases space
          exact Or.inr (Or.inl ⟨_, if_neg different⟩)
  | afterValue => exact (afterStep_space space _).imp_right Or.inl
  | done v => exact (afterStep_space space _).imp_right Or.inl
  | failed e => exact Or.inr (Or.inl ⟨e, rfl⟩)

theorem finish_attach {w v : Json} {σ : List Open} (parsed : finish (attach w σ) = .ok v) :
    σ = [] ∧ w = v := by
  cases σ with
  | nil => exact ⟨rfl, Except.ok.inj parsed⟩
  | cons top below => cases top <;> cases parsed

/-- A text that has been read with white space behind it has been read without. -/
theorem finish_of_space {r : Reader} (left : WordLeft r.mode) {c : ℕ} {v : Json}
    (space : isPySpace c = true) (parsed : finish (readChar r c) = .ok v) : finish r = .ok v := by
  rcases readChar_space left space with same | ⟨e, refused⟩ | ⟨isKey, acc, string⟩ |
    ⟨phase, acc, w, number, value, ended⟩
  · rwa [same] at parsed
  · rw [refused] at parsed
    cases parsed
  · rw [finish, string] at parsed
    cases parsed
  · rw [ended] at parsed
    obtain ⟨outermost, rfl⟩ := finish_attach parsed
    rw [finish, number]
    simp only [value, outermost, if_true]

/-! ## Stripping -/

theorem jsonLoads_dropWhile {t : Text} {v : Json} (parsed : jsonLoads t = .ok v) :
    jsonLoads (t.dropWhile isPySpace) = .ok v := by
  induction t with
  | nil => exact parsed
  | cons c rest ih =>
      cases space : isPySpace c with
      | false => rwa [List.dropWhile_cons_of_neg (by simp [space])]
      | true =>
          rw [List.dropWhile_cons_of_pos space]
          refine ih ?_
          have first : readChar ⟨.value, []⟩ c =
              if isJsonSpace c then ⟨.value, []⟩ else fail .jsonDecodeError := by
            rw [← startValue_space space []]
            rfl
          rw [jsonLoads, feed_cons, first] at parsed
          by_cases json : isJsonSpace c = true
          · rwa [if_pos json] at parsed
          · rw [if_neg json, feed_fail] at parsed
            cases parsed

theorem jsonLoads_rdropWhile {t : Text} {v : Json} (parsed : jsonLoads t = .ok v) :
    jsonLoads (t.rdropWhile isPySpace) = .ok v := by
  induction t using List.reverseRecOn with
  | nil => exact parsed
  | append_singleton before c ih =>
      cases space : isPySpace c with
      | false => rwa [List.rdropWhile_concat_neg _ _ _ (by simp [space])]
      | true =>
          rw [List.rdropWhile_concat_pos _ _ _ space]
          refine ih ?_
          rw [jsonLoads, feed_append] at parsed
          exact finish_of_space (wordLeft_feed (r := ⟨.value, []⟩) True.intro before) space parsed

/-- **Stripping a JSON text.** It is parsed as the same value. -/
theorem jsonLoads_strip {t : Text} {v : Json} (parsed : jsonLoads t = .ok v) :
    jsonLoads (strip t) = .ok v := jsonLoads_rdropWhile (jsonLoads_dropWhile parsed)

/-- A text is blank when it has nothing but white space. -/
theorem strip_eq_nil_iff {t : Text} : strip t = [] ↔ ∀ c ∈ t, isPySpace c = true := by
  rw [strip, List.rdropWhile_eq_nil_iff]
  constructor
  · intro blank c member
    rw [← List.takeWhile_append_dropWhile (p := isPySpace) (l := t)] at member
    rcases List.mem_append.mp member with front | back
    · exact List.mem_takeWhile_imp front
    · exact blank c back
  · intro blank c member
    exact blank c ((List.dropWhile_suffix isPySpace).subset member)

end EbpfNids.Backend
