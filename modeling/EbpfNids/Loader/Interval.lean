import EbpfNids.Loader.ConfigLines

/-!
# The interval that a text stands for

`load_config_file` reads the value of `stats_interval_sec` with `atoi` and tests
the number. `atoi` passes over white space and a sign, stops behind the last
digit, and cuts the number down to 32 bits. So the parser takes other texts than
the numerals of 1..3600 for an interval: on a line that `fgets` reads whole it
decides rightly about a text exactly when that is such a numeral, or does not begin
with a number that is cut down into the range; on a longer line exactly when the
pieces of the line come to the same (`interval_decided_iff`).
-/

set_option autoImplicit false

namespace EbpfNids.Loader

open Library Library.Decimal
open scoped CharArray

/-! ## The number that a text begins with -/

/-- A sign in front of a text: a minus, a plus or none. -/
def IsSign (negative : Bool) (sign : List UInt8) : Prop :=
  (sign = if negative then ['-'.toUInt8] else []) ∨ negative = false ∧ sign = ['+'.toUInt8]

/-- A text is white space, a sign, the digits of a number, and a rest that they do
not go on in. -/
inductive BeginsWith : List UInt8 → Bool → ℕ → Prop
  | number {spaces sign digits rest : List UInt8} {negative : Bool}
      (blank : ∀ b ∈ spaces, isSpace b = true) (isSign : IsSign negative sign)
      (nonempty : digits ≠ []) (digit : ∀ b ∈ digits, isDigit b.toNat = true)
      (stop : ∀ b ∈ rest.head?, isDigit b.toNat = false) :
      BeginsWith (spaces ++ (sign ++ (digits ++ rest))) negative (value (digits.map UInt8.toNat))

/-- The number is between 1 and 3600 when `long` and `int` have cut it down. -/
def CutInRange (negative : Bool) (magnitude : ℕ) : Prop :=
  if negative then magnitude ≤ 2 ^ 63 ∧ 2 ^ 32 - 3600 ≤ magnitude % 2 ^ 32
  else magnitude < 2 ^ 63 ∧ 1 ≤ magnitude % 2 ^ 32 ∧ magnitude % 2 ^ 32 ≤ 3600

/-- The text begins with a number that is cut down into the range. -/
def BeginsInRange (text : List UInt8) : Prop :=
  ∃ negative magnitude, BeginsWith text negative magnitude ∧ CutInRange negative magnitude

/-- The bytes of the numeral of a number. -/
def numeral (n : ℕ) : List UInt8 := asciiBytes (decimal n)

/-- The text is the numeral of an interval. -/
def IntervalNumeral (text : List UInt8) (n : ℕ) : Prop := 1 ≤ n ∧ n ≤ 3600 ∧ text = numeral n

/-! ## What `atoi` gives -/

/-- The sign that a text starts with, and what follows it. -/
def signed : List UInt8 → Bool × List UInt8
  | 45 :: rest => (true, rest)
  | 43 :: rest => (false, rest)
  | rest => (false, rest)

/-- A number within 64 bits, cut to 32 bits. -/
def cutDown (negative : Bool) (magnitude : ℕ) : ℤ :=
  (if negative then max (-(magnitude : ℤ)) (-2 ^ 63) else min (magnitude : ℤ) (2 ^ 63 - 1)).bmod
    (2 ^ 32)

theorem atoi_eq (text : List UInt8) :
    atoi text = cutDown (signed (text.dropWhile isSpace)).1
      (value (((signed (text.dropWhile isSpace)).2.map UInt8.toNat).takeWhile isDigit)) := by
  rw [atoi]
  split
  rename_i negative digits sign
  have parts : signed (text.dropWhile isSpace) = (negative, digits) := sign
  rw [parts]
  rfl

theorem cutDown_inRange (negative : Bool) (magnitude : ℕ) :
    (1 ≤ cutDown negative magnitude ∧ cutDown negative magnitude ≤ 3600) ↔
      CutInRange negative magnitude := by
  rw [cutDown, CutInRange, Int.bmod_def]
  cases negative with
  | true =>
      simp only [if_true]
      split <;> omega
  | false =>
      simp only [Bool.false_eq_true, if_false]
      split <;> omega

theorem signed_cases (text : List UInt8) :
    ∃ sign, text = sign ++ (signed text).2 ∧ IsSign (signed text).1 sign := by
  rw [signed.eq_def]
  split
  · exact ⟨['-'.toUInt8], rfl, Or.inl rfl⟩
  · exact ⟨['+'.toUInt8], rfl, Or.inr ⟨rfl, rfl⟩⟩
  · exact ⟨[], rfl, Or.inl rfl⟩

theorem signed_of_digit {b : UInt8} (digit : isDigit b.toNat = true) (rest : List UInt8) :
    signed (b :: rest) = (false, b :: rest) := by
  rw [signed]
  · rintro _ ⟨⟩
    cases digit
  · rintro _ ⟨⟩
    cases digit

theorem isSpace_of_digit {b : UInt8} (digit : isDigit b.toNat = true) : isSpace b = false := by
  have range := isDigit_iff.mp digit
  rw [isSpace, Bool.or_eq_false_iff, Bool.and_eq_false_iff]
  refine ⟨decide_eq_false ?_, Or.inr (decide_eq_false ?_)⟩
  · rintro rfl
    exact absurd range.1 (by decide)
  · rw [UInt8.le_iff_toNat_le]
    show ¬ b.toNat ≤ 13
    omega

/-- The sign of a number is passed over, and nothing before it is left. -/
theorem signed_dropWhile {negative : Bool} {sign digits rest : List UInt8}
    (isSign : IsSign negative sign) (digit : ∀ b ∈ digits, isDigit b.toNat = true)
    (nonempty : digits ≠ []) :
    signed ((sign ++ (digits ++ rest)).dropWhile isSpace) = (negative, digits ++ rest) := by
  obtain ⟨first, others, rfl⟩ := List.exists_cons_of_ne_nil nonempty
  have firstDigit := digit first List.mem_cons_self
  cases negative with
  | true =>
      obtain rfl | ⟨impossible, -⟩ := isSign
      · rfl
      · cases impossible
  | false =>
      obtain rfl | ⟨-, rfl⟩ := isSign
      · show signed (List.dropWhile isSpace (first :: (others ++ rest))) = _
        rw [List.dropWhile_cons_of_neg (by simp [isSpace_of_digit firstDigit]),
          signed_of_digit firstDigit]
        rfl
      · rfl

/-- The number of a text is that of its first digits, cut down. -/
theorem atoi_of_beginsWith {text : List UInt8} {negative : Bool} {magnitude : ℕ}
    (begins : BeginsWith text negative magnitude) : atoi text = cutDown negative magnitude := by
  cases begins with
  | @number spaces sign digits rest _ blank isSign nonempty digit stop =>
      have mapped : ∀ c ∈ digits.map UInt8.toNat, isDigit c = true := by
        intro c member
        obtain ⟨b, inDigits, rfl⟩ := List.mem_map.mp member
        exact digit b inDigits
      have stops : ∀ c ∈ (rest.map UInt8.toNat).head?, isDigit c = false := by
        intro c member
        rw [List.head?_map] at member
        obtain ⟨b, head, rfl⟩ := Option.map_eq_some_iff.mp member
        exact stop b head
      rw [atoi_eq, List.dropWhile_append_of_pos blank, signed_dropWhile isSign digit nonempty,
        List.map_append, (takeWhile_digits mapped stops).1]

/-- A text without a number in front is read as zero. -/
theorem beginsWith_or_zero (text : List UInt8) :
    atoi text = 0 ∨ ∃ negative magnitude, BeginsWith text negative magnitude := by
  obtain ⟨sign, split, isSign⟩ := signed_cases (text.dropWhile isSpace)
  set tail := (signed (text.dropWhile isSpace)).2 with tailEq
  by_cases none : tail.takeWhile (isDigit ∘ UInt8.toNat) = []
  · left
    rw [atoi_eq, ← tailEq, List.takeWhile_map, none]
    cases (signed (text.dropWhile isSpace)).1 with
    | true => rfl
    | false => rfl
  · right
    have digit : ∀ b ∈ tail.takeWhile (isDigit ∘ UInt8.toNat), isDigit b.toNat = true :=
      fun b member => List.mem_takeWhile_imp (p := isDigit ∘ UInt8.toNat) member
    have stop : ∀ b ∈ (tail.dropWhile (isDigit ∘ UInt8.toNat)).head?, isDigit b.toNat = false := by
      intro b head
      have stops := List.head?_dropWhile_not (isDigit ∘ UInt8.toNat) tail
      rw [Option.mem_def.mp head] at stops
      simpa using stops
    have number := BeginsWith.number (fun b (member : b ∈ text.takeWhile isSpace) =>
      List.mem_takeWhile_imp member) isSign none digit stop
    rw [List.takeWhile_append_dropWhile, ← split, List.takeWhile_append_dropWhile] at number
    exact ⟨_, _, number⟩

/-- **The texts that `atoi` reads into the range.** -/
theorem atoi_inRange_iff (text : List UInt8) :
    (1 ≤ atoi text ∧ atoi text ≤ 3600) ↔ BeginsInRange text := by
  constructor
  · intro inRange
    rcases beginsWith_or_zero text with zero | ⟨negative, magnitude, begins⟩
    · omega
    · rw [atoi_of_beginsWith begins] at inRange
      exact ⟨negative, magnitude, begins, (cutDown_inRange _ _).mp inRange⟩
  · rintro ⟨negative, magnitude, begins, cut⟩
    rw [atoi_of_beginsWith begins]
    exact (cutDown_inRange _ _).mpr cut

/-- A numeral in the range is read as its number. -/
theorem atoi_numeral {text : List UInt8} {n : ℕ} (isNumeral : IntervalNumeral text n) :
    atoi text = n := by
  obtain ⟨least, most, rfl⟩ := isNumeral
  have bytes : (numeral n).map UInt8.toNat = decimal n := by
    rw [numeral, asciiBytes, List.map_map]
    refine (List.map_congr_left fun c member => ?_).trans (List.map_id _)
    have digit := isDigit_iff.mp (isDigit_of_mem_decimal member)
    show (UInt8.ofNat c).toNat = c
    rw [UInt8.toNat_ofNat']
    omega
  have digit : ∀ b ∈ numeral n, isDigit b.toNat = true := by
    intro b member
    exact isDigit_of_mem_decimal (n := n) (bytes ▸ List.mem_map_of_mem member)
  have nonempty : numeral n ≠ [] := by
    intro none
    have := value_decimal n
    rw [← bytes, none] at this
    exact absurd this (by rw [List.map_nil]; show 0 ≠ n; omega)
  have begins : BeginsWith (numeral n) false n := by
    have number : BeginsWith ([] ++ ([] ++ (numeral n ++ []))) false _ :=
      .number (by simp) (Or.inl rfl) nonempty digit (by simp)
    rwa [List.append_nil, bytes, value_decimal] at number
  rw [atoi_of_beginsWith begins, cutDown, if_neg Bool.false_ne_true, min_eq_left (by omega),
    Int.bmod_eq_of_le (by omega) (by omega)]

/-! ## The line that sets the interval -/

/-- The line, without its comment, is the key `stats_interval_sec` and a text around
the first `=`. -/
structure SetsInterval (line key text : List UInt8) : Prop where
  form : lineCore line = key ++ '='.toUInt8 :: text
  first : '='.toUInt8 ∉ key
  isKey : trim key = chars "stats_interval_sec"

/-- Some whole lines, and the line behind them, where they have been accepted and
have left the configuration `c`. -/
structure Reaches (before line : List UInt8) (out c : AppConfig) : Prop where
  wholeLines : before = [] ∨ ∃ earlier, before = earlier ++ ['\n'.toUInt8]
  inLine : '\n'.toUInt8 ∉ line
  accepted : loadConfigFile (.contents before) out = (c, none)

/-- The end of a line: that of the file, or a newline and more lines. -/
def LineEnd (after : List UInt8) : Prop :=
  after = [] ∨ ∃ later, after = '\n'.toUInt8 :: later

/-- However a file goes on behind the line: if the text is the numeral of an interval,
the file is accepted as its later lines are, read with this interval; and if it is no
such numeral, the file is rejected. -/
structure DecidesInterval (before line : List UInt8) (out c : AppConfig) (text : List UInt8) :
    Prop where
  accepts : ∀ n : ℕ, IntervalNumeral (trim text) n → ∀ after c', LineEnd after →
    (loadConfigFile (.contents (before ++ (line ++ after))) out = (c', none) ↔
      loadConfigFile (.contents (after.drop 1)) { c with statsIntervalSec := n } = (c', none))
  rejects : (∀ n, ¬IntervalNumeral (trim text) n) → ∀ after, LineEnd after →
    (loadConfigFile (.contents (before ++ (line ++ after))) out).2 ≠ none

/-- The pieces of the line say what its text does: they leave the interval that it is
the numeral of, or one of them is refused if it is no numeral. -/
inductive PiecesAgree (line : List UInt8) (c : AppConfig) (text : List UInt8) : Prop
  | numeral {n : ℕ} (isNumeral : IntervalNumeral (trim text) n) {said : List (Option Assignment)}
      (whole : List.Forall₂ LineSays ((fgetsLines 512 [] line).map cString) said)
      (same : said.reduceOption.foldl Assignment.apply c = { c with statsIntervalSec := n })
  | refused (noNumeral : ∀ n, ¬IntervalNumeral (trim text) n) {piece : List UInt8}
      (member : piece ∈ (fgetsLines 512 [] line).map cString)
      (bad : ∀ said, ¬LineSays piece said)

/-- What the pieces of a line come to. -/
theorem loadConfigFile_line_iff {line : List UInt8} {c c' : AppConfig} :
    loadConfigFile (.contents line) c = (c', none) ↔
      ∃ as, linesReading ((fgetsLines 512 [] line).map cString) = some as ∧
        as.foldl Assignment.apply c = c' := by
  rw [loadConfigFile]
  cases read : linesReading ((fgetsLines 512 [] line).map cString) with
  | none =>
      refine iff_of_false (fun accepted => ?_) (by rintro ⟨as, impossible, -⟩; cases impossible)
      exact loadLines_of_bad read 0 c (congrArg Prod.snd accepted)
  | some as =>
      rw [loadLines_of_reading read 0 c]
      simp

/-- **Line lemma.** A file is accepted up to the end of the line as the line is, from
the configuration that it is reached with. -/
theorem Reaches.load_iff {before line : List UInt8} {out c c' : AppConfig}
    (reaches : Reaches before line out c) :
    loadConfigFile (.contents (before ++ line)) out = (c', none) ↔
      loadConfigFile (.contents line) c = (c', none) := by
  obtain ⟨wholeLines, -, accepted⟩ := reaches
  rcases wholeLines with rfl | ⟨earlier, rfl⟩
  · cases accepted
    rfl
  · obtain ⟨between, read, nothing⟩ := loadConfigFile_cons_ok.mp accepted
    cases nothing
    rw [List.append_assoc, List.singleton_append, loadConfigFile_cons_ok]
    constructor
    · rintro ⟨other, again, later⟩
      rw [read] at again
      cases again
      exact later
    · exact fun later => ⟨_, read, later⟩

/-- What follows the line is read when the line has been accepted. -/
theorem Reaches.load_after_iff {before line after : List UInt8} {out c c' : AppConfig}
    (reaches : Reaches before line out c) (lineEnd : LineEnd after) :
    loadConfigFile (.contents (before ++ (line ++ after))) out = (c', none) ↔
      ∃ between, loadConfigFile (.contents line) c = (between, none) ∧
        loadConfigFile (.contents (after.drop 1)) between = (c', none) := by
  rcases lineEnd with rfl | ⟨later, rfl⟩
  · rw [List.append_nil, reaches.load_iff]
    constructor
    · exact fun read => ⟨c', read, rfl⟩
    · rintro ⟨between, read, nothing⟩
      cases nothing
      exact read
  · rw [← List.append_assoc, loadConfigFile_cons_ok]
    simp only [reaches.load_iff]
    rfl

/-- The decision about a text is that about its line. -/
theorem decidesInterval_iff {before line text : List UInt8} {out c : AppConfig}
    (reaches : Reaches before line out c) :
    DecidesInterval before line out c text ↔
      (∀ n : ℕ, IntervalNumeral (trim text) n →
        loadConfigFile (.contents line) c = ({ c with statsIntervalSec := n }, none)) ∧
      ((∀ n, ¬IntervalNumeral (trim text) n) →
        ∀ c', loadConfigFile (.contents line) c ≠ (c', none)) := by
  constructor
  · intro decides
    refine ⟨fun n isNumeral => ?_, fun noNumeral c' read => ?_⟩
    · have whole := (decides.accepts n isNumeral [] _ (Or.inl rfl)).mpr rfl
      rwa [List.append_nil, reaches.load_iff] at whole
    · have whole := decides.rejects noNumeral [] (Or.inl rfl)
      rw [List.append_nil, reaches.load_iff.mpr read] at whole
      exact whole rfl
  · rintro ⟨accepts, rejects⟩
    refine ⟨fun n isNumeral after c' lineEnd => ?_, fun noNumeral after lineEnd accepted => ?_⟩
    · rw [reaches.load_after_iff lineEnd]
      simp only [accepts n isNumeral, Prod.mk.injEq, and_true, exists_eq_left']
    · obtain ⟨between, read, -⟩ := (reaches.load_after_iff lineEnd).mp (Prod.ext rfl accepted :
        loadConfigFile _ out = (_, none))
      exact rejects noNumeral between read

/-- The pieces of a line decide as they should exactly when they agree with its
text. -/
theorem piecesAgree_iff (line text : List UInt8) (c : AppConfig) :
    ((∀ n : ℕ, IntervalNumeral (trim text) n →
        loadConfigFile (.contents line) c = ({ c with statsIntervalSec := n }, none)) ∧
      ((∀ n, ¬IntervalNumeral (trim text) n) →
        ∀ c', loadConfigFile (.contents line) c ≠ (c', none))) ↔
      PiecesAgree line c text := by
  simp only [Ne, loadConfigFile_line_iff]
  constructor
  · rintro ⟨accepts, rejects⟩
    by_cases numeral : ∃ n, IntervalNumeral (trim text) n
    · obtain ⟨n, isNumeral⟩ := numeral
      obtain ⟨as, read, same⟩ := accepts n isNumeral
      obtain ⟨said, whole, rfl⟩ := linesReading_eq_some.mp read
      exact .numeral isNumeral whole same
    · have noNumeral := not_exists.mp numeral
      have bad : linesReading ((fgetsLines 512 [] line).map cString) = none := by
        cases read : linesReading ((fgetsLines 512 [] line).map cString) with
        | none => rfl
        | some as => exact absurd ⟨as, read, rfl⟩ (rejects noNumeral _)
      obtain ⟨piece, member, refused⟩ := linesReading_eq_none.mp bad
      exact .refused noNumeral member refused
  · intro agree
    cases agree with
    | numeral isNumeral whole same =>
        refine ⟨fun n other => ?_, fun none => absurd isNumeral (none _)⟩
        have numbers := (atoi_numeral isNumeral).symm.trans (atoi_numeral other)
        exact ⟨_, linesReading_eq_some.mpr ⟨_, whole, rfl⟩, numbers ▸ same⟩
    | refused noNumeral member bad =>
        refine ⟨fun n isNumeral => absurd isNumeral (noNumeral n), fun _ c' => ?_⟩
        rintro ⟨as, read, -⟩
        rw [linesReading_eq_none.mpr ⟨_, member, bad⟩] at read
        cases read

/-- A line that `fgets` reads whole is accepted when the number that `atoi` reads is in
the range, and stores it. -/
theorem loadConfigFile_interval {line key text : List UInt8} {c c' : AppConfig}
    (sets : SetsInterval line key text) (inLine : '\n'.toUInt8 ∉ line)
    (short : line.length ≤ 511) (noNul : 0 ∉ line) :
    loadConfigFile (.contents line) c = (c', none) ↔
      (1 ≤ atoi (trim text) ∧ atoi (trim text) ≤ 3600) ∧
        { c with statsIntervalSec := atoi (trim text) } = c' := by
  obtain ⟨keyPart, valuePart⟩ := takeWhile_ne_append sets.first text
  have reading : lineReading line =
      if 1 ≤ atoi (trim text) ∧ atoi (trim text) ≤ 3600 then
        some (some (.statsIntervalSec (atoi (trim text)))) else none := by
    rw [lineReading, sets.form, keyPart, valuePart, if_neg (by simp), if_neg (by simp),
      sets.isKey, assignment, if_neg (by decide), if_neg (by decide), if_neg (by decide),
      if_pos rfl]
    split
    · rfl
    · rfl
  have noNulPieces : (fgetsLines 512 [] line).map cString = fgetsLines 512 [] line := by
    refine (List.map_congr_left fun piece pieceMem => ?_).trans (List.map_id _)
    exact cString_of_noNul fun zero => noNul (mem_of_mem_fgetsLines [] pieceMem zero)
  rw [loadConfigFile_line_iff, noNulPieces, linesReading_fgetsLines_last inLine short,
    linesReading, reading]
  by_cases inRange : 1 ≤ atoi (trim text) ∧ atoi (trim text) ≤ 3600
  · rw [if_pos inRange]
    simp [inRange, linesReading, Assignment.apply]
  · rw [if_neg inRange]
    simp [inRange]

/-- **The interval that is accepted.** At every line that sets the interval the parser
decides as it should exactly when the pieces of the line agree with its text. On a
line of at most 511 bytes that is: when the trimmed text is the numeral of a number in
1..3600, or does not begin with a number that is cut down into this range. -/
theorem interval_decided_iff {before line key text : List UInt8} {out c : AppConfig}
    (reaches : Reaches before line out c) (sets : SetsInterval line key text) :
    (DecidesInterval before line out c text ↔ PiecesAgree line c text) ∧
      (line.length ≤ 511 → 0 ∉ line →
        (DecidesInterval before line out c text ↔
          (∃ n, IntervalNumeral (trim text) n) ∨ ¬BeginsInRange (trim text))) := by
  refine ⟨(decidesInterval_iff reaches).trans (piecesAgree_iff line text c), ?_⟩
  intro short noNul
  rw [decidesInterval_iff reaches, ← atoi_inRange_iff]
  simp only [Ne, loadConfigFile_interval sets reaches.inLine short noNul]
  constructor
  · rintro ⟨-, rejects⟩
    by_contra neither
    obtain ⟨noNumeral, inRange⟩ := not_or.mp neither
    exact rejects (not_exists.mp noNumeral) _ ⟨not_not.mp inRange, rfl⟩
  · rintro (⟨n, isNumeral⟩ | outside)
    · refine ⟨fun m other => ?_, fun none => absurd isNumeral (none n)⟩
      have ⟨least, most, _⟩ := other
      rw [atoi_numeral other]
      exact ⟨by omega, rfl⟩
    · refine ⟨fun n isNumeral => ?_, fun _ _ accepted => outside accepted.1⟩
      have ⟨least, most, _⟩ := isNumeral
      rw [atoi_numeral isNumeral] at outside
      omega

/-- The line that sets the interval to a text. -/
def intervalLine (text : String) : List UInt8 := chars ("stats_interval_sec=" ++ text)

/-- A file of such a line sets the interval, and is not decided as it should be. -/
structure WronglyDecided (text : String) : Prop where
  reaches : Reaches [] (intervalLine text) configDefaults configDefaults
  sets : SetsInterval (intervalLine text) (chars "stats_interval_sec") (chars text)
  wrong : ¬DecidesInterval [] (intervalLine text) configDefaults configDefaults (chars text)

theorem wronglyDecided_five : ∀ text ∈ ["5min", "4294967301"], WronglyDecided text := by
  have notNumeral : ∀ text ∈ ["5min", "4294967301"], atoi (trim (chars text)) = 5 ∧
      trim (chars text) ≠ numeral 5 := by decide +kernel
  have accepted : ∀ text ∈ ["5min", "4294967301"],
      (loadConfigFile (.contents (intervalLine text)) configDefaults).2 = none := by decide +kernel
  have forms : ∀ text ∈ ["5min", "4294967301"], '\n'.toUInt8 ∉ intervalLine text ∧
      lineCore (intervalLine text) =
        chars "stats_interval_sec" ++ '='.toUInt8 :: chars text := by decide +kernel
  intro text member
  refine ⟨⟨Or.inl rfl, (forms text member).1, rfl⟩,
    ⟨(forms text member).2, by decide, by decide⟩, ?_⟩
  intro decides
  have noNumeral : ∀ n, ¬IntervalNumeral (trim (chars text)) n := by
    intro n isNumeral
    have number := atoi_numeral isNumeral
    rw [(notNumeral text member).1] at number
    obtain rfl : n = 5 := by omega
    exact (notNumeral text member).2 isNumeral.2.2
  have rejected := decides.rejects noNumeral [] (Or.inl rfl)
  rw [List.append_nil, List.nil_append] at rejected
  exact rejected (accepted text member)

/-- A value with a unit behind it, and one beyond the range of `int`, are read as
5 seconds. -/
theorem unit_and_overflow_accepted : WronglyDecided "5min" ∧ WronglyDecided "4294967301" :=
  ⟨wronglyDecided_five _ List.mem_cons_self,
    wronglyDecided_five _ (List.mem_cons_of_mem _ List.mem_cons_self)⟩

/-- A second line, with a comment. -/
theorem interval_of_a_minute :
    DecidesInterval (chars "ifname=eth0\n") (chars "stats_interval_sec = 60 # s") configDefaults
      { configDefaults with ifname := .print (chars "eth0") } (chars " 60") := by
  have reaches : Reaches (chars "ifname=eth0\n") (chars "stats_interval_sec = 60 # s")
      configDefaults { configDefaults with ifname := .print (chars "eth0") } :=
    ⟨Or.inr ⟨chars "ifname=eth0", by decide +kernel⟩, by decide +kernel, by decide +kernel⟩
  have sets : SetsInterval (chars "stats_interval_sec = 60 # s") (chars "stats_interval_sec ")
      (chars " 60") :=
    ⟨by decide +kernel, by decide +kernel, by decide +kernel⟩
  exact ((interval_decided_iff reaches sets).2 (by decide +kernel) (by decide +kernel)).mpr
    (Or.inl ⟨60, by decide, by decide, by decide +kernel⟩)

end EbpfNids.Loader
