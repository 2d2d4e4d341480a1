import EbpfNids.Backend.PyText

/-!
# `json.loads`

A reader of JSON texts, one character at a time. Its state is a mode, which
says what may come next, and a stack of the arrays and objects that are open.
`attach` hands a finished value to the innermost of them, and ends the text
when there is none.

It reads what Python's decoder reads: `NaN` and the infinities too, no control
characters in strings, no integers of more than 4300 digits. Nesting is not
bounded: beyond the interpreter's recursion limit, which is some thousand levels,
Python's decoder raises `RecursionError` instead.

What the reader does inside an open array or object does not depend on what is
open around it, so a text that spells a value is read as that value wherever a
value is expected (`Reads`), and an object is read from the spellings of its
fields (`feed_object`).
-/

set_option autoImplicit false

namespace EbpfNids.Backend

open Library Library.Decimal

/-! ## Values -/

inductive Json where
  | null
  | bool (b : Bool)
  | int (z : ℤ)
  | float (literal : Text)
  | str (s : Text)
  | arr (items : List Json)
  | obj (fields : List (Text × Json))

/-- `dict.get(key)`: the last field of the name. -/
def getField (fields : List (Text × Json)) (key : Text) : Option Json :=
  fields.reverse.lookup key

/-! ## The reader -/

/-- Where a number is. -/
inductive NumPhase where
  | minus
  | zero
  | int
  | dot
  | frac
  | exp
  | expSign
  | expDigits
deriving DecidableEq, Repr

inductive Mode where
  | value
  | firstItem
  | firstKey
  | key
  | colon (key : Text)
  | string (isKey : Bool) (acc : Text)
  | escape (isKey : Bool) (acc : Text)
  | unicode (isKey : Bool) (acc : Text) (digits : Text)
  | number (phase : NumPhase) (acc : Text)
  | literal (rest : Text) (v : Json)
  | afterValue
  | done (v : Json)
  | failed (e : PyExn)

/-- An array or object that is open. -/
inductive Open where
  | arr (items : List Json)
  | obj (fields : List (Text × Json))
  | field (fields : List (Text × Json)) (key : Text)

structure Reader where
  mode : Mode
  stack : List Open

def isJsonSpace (c : ℕ) : Bool := c == 32 || c == 9 || c == 10 || c == 13

def fail (e : PyExn) : Reader := ⟨.failed e, []⟩

/-- Hand a finished value to the innermost open array or object. -/
def attach (v : Json) : List Open → Reader
  | [] => ⟨.done v, []⟩
  | .arr items :: σ => ⟨.afterValue, .arr (items ++ [v]) :: σ⟩
  | .field fields key :: σ => ⟨.afterValue, .obj (fields ++ [(key, v)]) :: σ⟩
  | .obj _ :: _ => fail .jsonDecodeError

/-- The limit on the digits of an integer. -/
def intMaxStrDigits : ℕ := 4300

/-- What a number that has ended is: the value, or the exception that `int`
raises. -/
def numberValue (phase : NumPhase) (acc : Text) : Except PyExn Json :=
  match phase with
  | .zero | .int =>
      let digits := acc.filter isDigit
      if digits.length > intMaxStrDigits then .error .valueError
      else .ok (.int (if acc.head? = some 45 then -(value digits : ℤ) else value digits))
  | .frac | .expDigits => .ok (.float acc)
  | .minus => .error .jsonDecodeError
  | .dot | .exp | .expSign =>
      -- an integer before the dot or the exponent is read first, and then what follows is refused
      let digits := (acc.takeWhile fun c => isDigit c || c == 45).filter isDigit
      if (phase = .dot ∨ 46 ∉ acc) ∧ digits.length > intMaxStrDigits then .error .valueError
      else .error .jsonDecodeError

/-- The code unit that four hexadecimal digits name. -/
def hexDigit (c : ℕ) : Option ℕ :=
  if 48 ≤ c ∧ c ≤ 57 then some (c - 48)
  else if 97 ≤ c ∧ c ≤ 102 then some (c - 87)
  else if 65 ≤ c ∧ c ≤ 70 then some (c - 55)
  else none

def codeUnit (digits : Text) : ℕ := digits.foldl (fun v c => 16 * v + (hexDigit c).getD 0) 0

/-- Surrogate pairs as the characters they stand for. -/
def mergeSurrogates : Text → Text
  | hi :: lo :: rest =>
      if 0xD800 ≤ hi ∧ hi ≤ 0xDBFF ∧ 0xDC00 ≤ lo ∧ lo ≤ 0xDFFF then
        (0x10000 + (hi - 0xD800) * 1024 + (lo - 0xDC00)) :: mergeSurrogates rest
      else hi :: mergeSurrogates (lo :: rest)
  | t => t

/-- The end of a string: a key waits for its colon, a value is handed over. -/
def closeString (isKey : Bool) (acc : Text) (σ : List Open) : Reader :=
  if isKey then ⟨.colon (mergeSurrogates acc), σ⟩ else attach (.str (mergeSurrogates acc)) σ

/-- What an escaped character stands for, `u` apart. -/
def escaped (c : ℕ) : Option ℕ :=
  if c = 34 then some 34
  else if c = 92 then some 92
  else if c = 47 then some 47
  else if c = 98 then some 8
  else if c = 102 then some 12
  else if c = 110 then some 10
  else if c = 114 then some 13
  else if c = 116 then some 9
  else none

/-- A character where a value has to start. -/
def startValue (σ : List Open) (c : ℕ) : Reader :=
  if c = 34 then ⟨.string false [], σ⟩
  else if c = 123 then ⟨.firstKey, .obj [] :: σ⟩
  else if c = 91 then ⟨.firstItem, .arr [] :: σ⟩
  else if c = 45 then ⟨.number .minus [c], σ⟩
  else if c = 48 then ⟨.number .zero [c], σ⟩
  else if isDigit c then ⟨.number .int [c], σ⟩
  else if c = 116 then ⟨.literal (text "rue") (.bool true), σ⟩
  else if c = 102 then ⟨.literal (text "alse") (.bool false), σ⟩
  else if c = 110 then ⟨.literal (text "ull") .null, σ⟩
  else if c = 78 then ⟨.literal (text "aN") (.float (text "NaN")), σ⟩
  else if c = 73 then ⟨.literal (text "nfinity") (.float (text "Infinity")), σ⟩
  else fail .jsonDecodeError

/-- A character after a value. -/
def afterStep (r : Reader) (c : ℕ) : Reader :=
  if isJsonSpace c then r
  else
    match r.mode, r.stack with
    | .afterValue, .arr items :: σ =>
        if c = 44 then ⟨.value, .arr items :: σ⟩
        else if c = 93 then attach (.arr items) σ
        else fail .jsonDecodeError
    | .afterValue, .obj fields :: σ =>
        if c = 44 then ⟨.key, .obj fields :: σ⟩
        else if c = 125 then attach (.obj fields) σ
        else fail .jsonDecodeError
    | .failed e, _ => fail e
    | _, _ => fail .jsonDecodeError

/-- The phase that a character takes a number to, if it belongs to it. -/
def numberPhase (phase : NumPhase) (c : ℕ) : Option NumPhase :=
  match phase with
  | .minus => if c = 48 then some .zero else if isDigit c then some .int else none
  | .zero => if c = 46 then some .dot else if c = 101 ∨ c = 69 then some .exp else none
  | .int =>
      if isDigit c then some .int
      else if c = 46 then some .dot
      else if c = 101 ∨ c = 69 then some .exp
      else none
  | .dot => if isDigit c then some .frac else none
  | .frac => if isDigit c then some .frac else if c = 101 ∨ c = 69 then some .exp else none
  | .exp =>
      if isDigit c then some .expDigits else if c = 43 ∨ c = 45 then some .expSign else none
  | .expSign => if isDigit c then some .expDigits else none
  | .expDigits => if isDigit c then some .expDigits else none

/-- A number that has ended, handed over. -/
def endNumber (phase : NumPhase) (acc : Text) (σ : List Open) : Reader :=
  match numberValue phase acc with
  | .ok v => attach v σ
  | .error e => fail e

def readChar (r : Reader) (c : ℕ) : Reader :=
  match r.mode with
  | .value => if isJsonSpace c then r else startValue r.stack c
  | .firstItem =>
      if isJsonSpace c then r
      else if c = 93 then attach (.arr []) r.stack.tail
      else startValue r.stack c
  | .firstKey =>
      if isJsonSpace c then r
      else if c = 125 then attach (.obj []) r.stack.tail
      else if c = 34 then ⟨.string true [], r.stack⟩
      else fail .jsonDecodeError
  | .key =>
      if isJsonSpace c then r
      else if c = 34 then ⟨.string true [], r.stack⟩
      else fail .jsonDecodeError
  | .colon key =>
      if isJsonSpace c then r
      else
        match r.stack with
        | .obj fields :: σ =>
            if c = 58 then ⟨.value, .field fields key :: σ⟩ else fail .jsonDecodeError
        | _ => fail .jsonDecodeError
  | .string isKey acc =>
      if c = 34 then closeString isKey acc r.stack
      else if c = 92 then ⟨.escape isKey acc, r.stack⟩
      else if c < 32 then fail .jsonDecodeError
      else ⟨.string isKey (acc ++ [c]), r.stack⟩
  | .escape isKey acc =>
      if c = 117 then ⟨.unicode isKey acc [], r.stack⟩
      else
        match escaped c with
        | some d => ⟨.string isKey (acc ++ [d]), r.stack⟩
        | none => fail .jsonDecodeError
  | .unicode isKey acc digits =>
      if (hexDigit c).isNone then fail .jsonDecodeError
      else if digits.length = 3 then
        ⟨.string isKey (acc ++ [codeUnit (digits ++ [c])]), r.stack⟩
      else ⟨.unicode isKey acc (digits ++ [c]), r.stack⟩
  | .number phase acc =>
      match numberPhase phase c with
      | some next => ⟨.number next (acc ++ [c]), r.stack⟩
      | none =>
          if phase = .minus ∧ c = 73 then
            ⟨.literal (text "nfinity") (.float (text "-Infinity")), r.stack⟩
          else afterStep (endNumber phase acc r.stack) c
  | .literal rest v =>
      match rest with
      | [] => afterStep (attach v r.stack) c
      | d :: more =>
          if c = d then
            if more = [] then attach v r.stack else ⟨.literal more v, r.stack⟩
          else fail .jsonDecodeError
  | .afterValue => afterStep r c
  | .done _ => afterStep r c
  | .failed e => fail e

def feed (r : Reader) (t : Text) : Reader := t.foldl readChar r

/-- What the reader has read when the text ends. -/
def finish (r : Reader) : Except PyExn Json :=
  match r.mode with
  | .done v => .ok v
  | .failed e => .error e
  | .number phase acc =>
      match numberValue phase acc with
      | .error e => .error e
      | .ok v => if r.stack = [] then .ok v else .error .jsonDecodeError
  | _ => .error .jsonDecodeError

def jsonLoads (t : Text) : Except PyExn Json := finish (feed ⟨.value, []⟩ t)

/-! ## What a character can do -/

/-- What is left of the literals when their first character has been read. -/
def literalRests : List Text :=
  [text "rue", text "alse", text "ull", text "aN", text "nfinity"]

/-- The reader has ended with a value or an exception. -/
def Reader.Ended (r : Reader) : Prop := (∃ v, r.mode = .done v) ∨ ∃ e, r.mode = .failed e

def Mode.isLiteral : Mode → Bool
  | .literal _ _ => true
  | _ => false

/-- What holds of all that a character can make of a reader: failures, values
handed over, other modes at the same place or inside something new, and literals
with what is left of them. -/
structure Outcomes (P : Reader → Prop) (r : Reader) : Prop where
  same : P r
  failed : ∀ e, P (fail e)
  attached : ∀ v σ, P (attach v σ)
  stays : ¬ r.Ended → ∀ mode : Mode, mode.isLiteral = false → P ⟨mode, r.stack⟩
  opened : ∀ (mode : Mode) top σ, mode.isLiteral = false → P ⟨mode, top :: σ⟩
  literal : ¬ r.Ended → ∀ rest v,
    (rest ∈ literalRests ∨ rest ≠ [] ∧ ∃ d, r.mode = .literal (d :: rest) v) →
      P ⟨.literal rest v, r.stack⟩

section Outcomes

variable {P : Reader → Prop} {r : Reader}

theorem holds_ite {p : Prop} [Decidable p] {r r' : Reader} (yes : P r) (no : P r') :
    P (if p then r else r') := by
  split
  · exact yes
  · exact no

theorem Outcomes.startValue (outcomes : Outcomes P r) (going : ¬ r.Ended) (c : ℕ) :
    P (startValue r.stack c) := by
  have string := outcomes.stays going (.string false []) rfl
  have number : ∀ phase, P ⟨.number phase [c], r.stack⟩ := fun phase =>
    outcomes.stays going _ rfl
  have key := outcomes.opened .firstKey (.obj []) r.stack rfl
  have item := outcomes.opened .firstItem (.arr []) r.stack rfl
  have literal : ∀ rest v, rest ∈ literalRests → P ⟨.literal rest v, r.stack⟩ :=
    fun rest v word => outcomes.literal going rest v (Or.inl word)
  unfold Backend.startValue
  refine holds_ite string (holds_ite key (holds_ite item ?_))
  refine holds_ite (number _) (holds_ite (number _) (holds_ite (number _) ?_))
  refine holds_ite (literal _ _ (by decide)) (holds_ite (literal _ _ (by decide)) ?_)
  refine holds_ite (literal _ _ (by decide)) (holds_ite (literal _ _ (by decide)) ?_)
  exact holds_ite (literal _ _ (by decide)) (outcomes.failed _)

/-- A character after a value, of this reader or of one made from it. -/
theorem Outcomes.afterStep (outcomes : Outcomes P r) {r' : Reader} (holds : P r') (c : ℕ) :
    P (afterStep r' c) := by
  unfold Backend.afterStep
  apply holds_ite holds
  split
  · exact holds_ite (outcomes.opened _ _ _ rfl)
      (holds_ite (outcomes.attached _ _) (outcomes.failed _))
  · exact holds_ite (outcomes.opened _ _ _ rfl)
      (holds_ite (outcomes.attached _ _) (outcomes.failed _))
  · exact outcomes.failed _
  · exact outcomes.failed _

/-- **Reader rule.** What holds of all the outcomes holds after a character. -/
theorem Outcomes.readChar (outcomes : Outcomes P r) (c : ℕ) : P (readChar r c) := by
  by_cases ended : r.Ended
  · obtain ⟨mode, σ⟩ := r
    rcases ended with ⟨v, rfl⟩ | ⟨e, rfl⟩
    · exact outcomes.afterStep outcomes.same c
    · exact outcomes.failed e
  · have same := outcomes.same
    have failed := outcomes.failed
    have attached := outcomes.attached
    have stays := outcomes.stays ended
    have start := outcomes.startValue ended c
    have literal := outcomes.literal ended
    obtain ⟨mode, σ⟩ := r
    cases mode with
    | value => exact holds_ite same start
    | firstItem => exact holds_ite same (holds_ite (attached _ _) start)
    | firstKey =>
        exact holds_ite same (holds_ite (attached _ _) (holds_ite (stays _ rfl) (failed _)))
    | key => exact holds_ite same (holds_ite (stays _ rfl) (failed _))
    | colon key =>
        apply holds_ite same
        split
        · exact holds_ite (outcomes.opened _ _ _ rfl) (failed _)
        · exact failed _
    | string isKey acc =>
        have closed : P (closeString isKey acc σ) := holds_ite (stays _ rfl) (attached _ _)
        exact holds_ite closed (holds_ite (stays _ rfl) (holds_ite (failed _) (stays _ rfl)))
    | escape isKey acc =>
        apply holds_ite (stays _ rfl)
        split
        · exact stays _ rfl
        · exact failed _
    | unicode isKey acc digits =>
        exact holds_ite (failed _) (holds_ite (stays _ rfl) (stays _ rfl))
    | number phase acc =>
        unfold Backend.readChar
        dsimp only
        split
        · exact stays _ rfl
        · apply holds_ite (literal _ _ (Or.inl (by decide)))
          apply outcomes.afterStep
          rw [endNumber]
          split
          · exact attached _ _
          · exact failed _
    | literal rest v =>
        cases rest with
        | nil => exact outcomes.afterStep (attached v σ) c
        | cons d more =>
            apply holds_ite _ (failed _)
            by_cases last : more = []
            · rw [if_pos last]
              exact attached v σ
            · rw [if_neg last]
              exact literal more v (Or.inr ⟨last, d, rfl⟩)
    | afterValue => exact outcomes.afterStep same c
    | done v => exact absurd (Or.inl ⟨v, rfl⟩) ended
    | failed e => exact absurd (Or.inr ⟨e, rfl⟩) ended

end Outcomes

/-! ## Reading spelled values -/

theorem feed_append (r : Reader) (first second : Text) :
    feed r (first ++ second) = feed (feed r first) second := List.foldl_append ..

theorem feed_cons (r : Reader) (c : ℕ) (rest : Text) :
    feed r (c :: rest) = feed (readChar r c) rest := rfl

theorem feed_nil (r : Reader) : feed r [] = r := rfl

/-- A reader that has failed stays so. -/
theorem feed_fail (e : PyExn) (t : Text) : feed (fail e) t = fail e := by
  induction t with
  | nil => rfl
  | cons c rest ih => exact ih

/-- Characters that stand for themselves in a string. -/
def Plain (s : Text) : Prop := ∀ c ∈ s, c ≠ 34 ∧ c ≠ 92 ∧ 32 ≤ c ∧ c < 0xD800

theorem mergeSurrogates_plain {s : Text} (plain : Plain s) : mergeSurrogates s = s := by
  induction s with
  | nil => rfl
  | cons hi rest ih =>
      have later := ih fun c member => plain c (List.mem_cons_of_mem _ member)
      have low := (plain hi List.mem_cons_self).2.2.2
      cases rest with
      | nil => rfl
      | cons lo more =>
          rw [mergeSurrogates, if_neg (by omega), later]

/-- The rest of a string, and its closing quote. -/
theorem feed_string {s : Text} (plain : Plain s) (isKey : Bool) (acc : Text) (σ : List Open) :
    feed ⟨.string isKey acc, σ⟩ (s ++ [34]) = closeString isKey (acc ++ s) σ := by
  induction s generalizing acc with
  | nil =>
      rw [List.append_nil]
      rfl
  | cons c rest ih =>
      obtain ⟨notQuote, notSlash, visible, -⟩ := plain c List.mem_cons_self
      have stays : readChar ⟨.string isKey acc, σ⟩ c = ⟨.string isKey (acc ++ [c]), σ⟩ := by
        simp [readChar, notQuote, notSlash, Nat.not_lt.mpr visible]
      rw [List.cons_append, feed_cons, stays,
        ih (fun d member => plain d (List.mem_cons_of_mem _ member)), List.append_assoc,
        List.singleton_append]

/-- What may follow a value inside an object. -/
def EndsValue (c : ℕ) : Prop := c = 44 ∨ c = 125

/-- The text is read as the value wherever a value is expected. -/
def Reads (t : Text) (v : Json) : Prop :=
  ∀ σ c, EndsValue c → feed ⟨.value, σ⟩ (t ++ [c]) = afterStep (attach v σ) c

theorem readChar_attach (v : Json) (σ : List Open) (c : ℕ) :
    readChar (attach v σ) c = afterStep (attach v σ) c := by
  cases σ with
  | nil => rfl
  | cons top below =>
      cases top with
      | arr items => rfl
      | field fields key => rfl
      | obj fields =>
          show fail _ = afterStep (fail _) c
          rw [afterStep]
          split
          · rfl
          · rfl

/-- A string between quotes. -/
def quoted (s : Text) : Text := 34 :: (s ++ [34])

theorem reads_quoted {s : Text} (plain : Plain s) : Reads (quoted s) (.str s) := by
  intro σ c _
  have opened : readChar ⟨.value, σ⟩ 34 = ⟨.string false [], σ⟩ := rfl
  have read : feed ⟨.value, σ⟩ (quoted s) = attach (.str s) σ := by
    rw [quoted, feed_cons, opened, feed_string plain, List.nil_append, closeString,
      if_neg Bool.false_ne_true, mergeSurrogates_plain plain]
  rw [feed_append, read]
  exact readChar_attach (.str s) σ c

theorem feed_digits {ds : Text} (digits : ∀ d ∈ ds, isDigit d = true) (acc : Text)
    (σ : List Open) : feed ⟨.number .int acc, σ⟩ ds = ⟨.number .int (acc ++ ds), σ⟩ := by
  induction ds generalizing acc with
  | nil => rw [List.append_nil, feed_nil]
  | cons d rest ih =>
      have digit := digits d List.mem_cons_self
      have next : readChar ⟨.number .int acc, σ⟩ d = ⟨.number .int (acc ++ [d]), σ⟩ := by
        simp [readChar, numberPhase, digit]
      rw [feed_cons, next, ih fun x member => digits x (List.mem_cons_of_mem _ member),
        List.append_assoc, List.singleton_append]

/-- The digits of a number after its sign, if it has one. -/
theorem feed_decimal (n : ℕ) (sign : Text) (σ : List Open) {start : Reader}
    (zero : readChar start 48 = ⟨.number .zero (sign ++ [48]), σ⟩)
    (digit : ∀ d, 49 ≤ d → d ≤ 57 → readChar start d = ⟨.number .int (sign ++ [d]), σ⟩) :
    ∃ phase, (phase = .zero ∨ phase = .int) ∧
      feed start (decimal n) = ⟨.number phase (sign ++ decimal n), σ⟩ := by
  rcases decimal_cases n with ⟨-, spelled⟩ | ⟨d, ds, spelled, low, high, digits⟩
  · exact ⟨.zero, Or.inl rfl, by rw [spelled, feed_cons, zero, feed_nil]⟩
  · refine ⟨.int, Or.inr rfl, ?_⟩
    rw [spelled, feed_cons, digit d low high, feed_digits digits, List.append_assoc,
      List.singleton_append]

theorem feed_decimalInt (z : ℤ) (σ : List Open) :
    ∃ phase, (phase = .zero ∨ phase = .int) ∧
      feed ⟨.value, σ⟩ (decimalInt z) = ⟨.number phase (decimalInt z), σ⟩ := by
  rw [decimalInt]
  split
  · have minus : readChar ⟨.value, σ⟩ 45 = ⟨.number .minus [45], σ⟩ := rfl
    rw [feed_cons, minus]
    apply feed_decimal z.natAbs [45] σ rfl
    intro d low high
    have notZero : d ≠ 48 := by omega
    simp [readChar, numberPhase, notZero, isDigit_iff.mpr (by omega : 48 ≤ d ∧ d ≤ 57)]
  · apply feed_decimal z.natAbs [] σ rfl
    intro d low high
    have digit : isDigit d = true := isDigit_iff.mpr (by omega)
    have notSpace : isJsonSpace d = false := by simp [isJsonSpace]; omega
    have others : d ≠ 34 ∧ d ≠ 123 ∧ d ≠ 91 ∧ d ≠ 45 ∧ d ≠ 48 := by omega
    simp [readChar, startValue, notSpace, others, digit]

theorem filter_decimal (n : ℕ) : (decimal n).filter isDigit = decimal n :=
  List.filter_eq_self.mpr fun _ member => isDigit_of_mem_decimal member

/-- The numeral of an integer is its value, if it has not too many digits. -/
theorem numberValue_decimalInt {z : ℤ} {phase : NumPhase} (whole : phase = .zero ∨ phase = .int)
    (short : (decimal z.natAbs).length ≤ intMaxStrDigits) :
    numberValue phase (decimalInt z) = .ok (.int z) := by
  have result : numberValue phase (decimalInt z) =
      if ((decimalInt z).filter isDigit).length > intMaxStrDigits then .error .valueError
      else .ok (.int (if (decimalInt z).head? = some 45 then
        -(value ((decimalInt z).filter isDigit) : ℤ)
      else value ((decimalInt z).filter isDigit))) := by
    rcases whole with rfl | rfl
    · rfl
    · rfl
  have digits : (decimalInt z).filter isDigit = decimal z.natAbs := by
    rw [decimalInt]
    split
    · rw [List.filter_cons_of_neg (by decide), filter_decimal]
    · exact filter_decimal _
  rw [result, digits, if_neg (Nat.not_lt.mpr short), value_decimal]
  by_cases negative : z < 0
  · rw [decimalInt, if_pos negative, List.head?_cons, if_pos rfl]
    congr 2
    omega
  · have sign : (decimalInt z).head? ≠ some 45 := by
      rw [decimalInt, if_neg negative]
      intro starts
      have digit := isDigit_of_mem_decimal (List.mem_of_mem_head? starts)
      exact absurd digit (by decide)
    rw [if_neg sign]
    congr 2
    omega

theorem reads_decimalInt {z : ℤ} (short : (decimal z.natAbs).length ≤ intMaxStrDigits) :
    Reads (decimalInt z) (.int z) := by
  intro σ c ends
  obtain ⟨phase, whole, read⟩ := feed_decimalInt z σ
  have stops : numberPhase phase c = none := by
    rcases whole with rfl | rfl <;> rcases ends with rfl | rfl <;> rfl
  have notMinus : ¬ (phase = .minus ∧ c = 73) := by
    rcases whole with rfl | rfl <;> simp
  rw [feed_append, read, feed_cons, feed_nil, readChar]
  simp only [stops, notMinus, if_false]
  rw [endNumber, numberValue_decimalInt whole short]

/-! ## Objects -/

/-- The spelling of a field and the value that it is read as. -/
structure FieldText where
  key : Text
  text : Text
  value : Json

/-- The spelling of a key, a colon, and the spelling of the value. -/
def FieldText.spell (f : FieldText) : Text := quoted f.key ++ 58 :: f.text

def FieldText.Ok (f : FieldText) : Prop := Plain f.key ∧ Reads f.text f.value

/-- Fields with commas between them, and a closing brace. -/
def spellFields : List FieldText → Text
  | [] => [125]
  | [f] => f.spell ++ [125]
  | f :: g :: rest => f.spell ++ 44 :: spellFields (g :: rest)

def spellObject (fields : List FieldText) : Text := 123 :: spellFields fields

/-- A field, where a key is expected. -/
theorem feed_field {f : FieldText} (ok : f.Ok) {mode : Mode}
    (expects : mode = .key ∨ mode = .firstKey)
    (fields : List (Text × Json)) (σ : List Open) {c : ℕ} (ends : EndsValue c) :
    feed ⟨mode, .obj fields :: σ⟩ (f.spell ++ [c]) =
      afterStep ⟨.afterValue, .obj (fields ++ [(f.key, f.value)]) :: σ⟩ c := by
  obtain ⟨plain, reads⟩ := ok
  have opened : readChar ⟨mode, .obj fields :: σ⟩ 34 = ⟨.string true [], .obj fields :: σ⟩ := by
    rcases expects with rfl | rfl <;> rfl
  have colon : readChar ⟨.colon f.key, .obj fields :: σ⟩ 58 =
      ⟨.value, .field fields f.key :: σ⟩ := rfl
  rw [FieldText.spell, quoted, List.append_assoc, feed_append, feed_cons, opened,
    feed_string plain, List.nil_append, closeString, if_pos rfl, mergeSurrogates_plain plain,
    List.cons_append, feed_cons, colon, reads _ _ ends]
  rfl

theorem feed_fields {fields : List FieldText} (ok : ∀ f ∈ fields, f.Ok) (nonempty : fields ≠ [])
    {mode : Mode} (expects : mode = .key ∨ mode = .firstKey) (earlier : List (Text × Json))
    (σ : List Open) :
    feed ⟨mode, .obj earlier :: σ⟩ (spellFields fields) =
      attach (.obj (earlier ++ fields.map fun f => (f.key, f.value))) σ := by
  induction fields generalizing earlier mode with
  | nil => exact absurd rfl nonempty
  | cons f rest ih =>
      have first := ok f List.mem_cons_self
      cases rest with
      | nil =>
          rw [spellFields, feed_field first expects earlier σ (Or.inr rfl)]
          rfl
      | cons g more =>
          have comma : f.spell ++ 44 :: spellFields (g :: more) =
              (f.spell ++ [44]) ++ spellFields (g :: more) := by
            rw [List.append_assoc, List.singleton_append]
          rw [spellFields, comma, feed_append, feed_field first expects earlier σ (Or.inl rfl)]
          have next : afterStep ⟨.afterValue, .obj (earlier ++ [(f.key, f.value)]) :: σ⟩ 44 =
              ⟨.key, .obj (earlier ++ [(f.key, f.value)]) :: σ⟩ := rfl
          rw [next, ih (fun h member => ok h (List.mem_cons_of_mem _ member)) (List.cons_ne_nil _ _)
            (Or.inl rfl), List.append_assoc, List.singleton_append]
          rfl

/-- **Objects.** The spelling of an object is read as the object, whatever is
open around it. -/
theorem feed_object {fields : List FieldText} (ok : ∀ f ∈ fields, f.Ok) (nonempty : fields ≠ [])
    (σ : List Open) :
    feed ⟨.value, σ⟩ (spellObject fields) =
      attach (.obj (fields.map fun f => (f.key, f.value))) σ := by
  have opened : readChar ⟨.value, σ⟩ 123 = ⟨.firstKey, .obj [] :: σ⟩ := rfl
  rw [spellObject, feed_cons, opened, feed_fields ok nonempty (Or.inr rfl), List.nil_append]

end EbpfNids.Backend
