import Mathlib.Data.List.Forall2
import Mathlib.Data.List.ReduceOption
import EbpfNids.Loader.Config

/-!
# The grammar of the configuration file

A line of the file says nothing, or assigns one setting (`LineSays`), and a file
is its lines, assigned from the first to the last. `load_config_file` reads the
lines with `fgets` into 512 bytes, so a line of more than 511 bytes reaches the
parser in pieces, and each of them is taken for a line. The parser follows the
grammar on a file exactly when its pieces say the same as its lines do
(`loadConfigFile_follows_iff`), as they do when no line is that long.
-/

set_option autoImplicit false

namespace EbpfNids.Loader

open Library.Decimal
open scoped CharArray

/-! ## What a line says -/

/-- One setting and its value. -/
inductive Assignment where
  | ifname (name : CharArray 16)
  | socketPath (path : CharArray 108)
  | logFile (path : CharArray 256)
  | statsIntervalSec (n : ℤ)
  | daemonMode (on : Bool)
  | xdpFlags (flags : UInt32)
deriving DecidableEq, Repr

def Assignment.apply (c : AppConfig) : Assignment → AppConfig
  | .ifname name => { c with ifname := name }
  | .socketPath path => { c with socketPath := path }
  | .logFile path => { c with logFile := path }
  | .statsIntervalSec n => { c with statsIntervalSec := n }
  | .daemonMode on => { c with daemonMode := on }
  | .xdpFlags flags => { c with xdpFlags := flags }

/-- What a key and a value assign, if the key is known and the value accepted. -/
def assignment (key value : List UInt8) : Option Assignment :=
  if key = chars "ifname" then some (.ifname (.print value))
  else if key = chars "socket_path" then some (.socketPath (.print value))
  else if key = chars "log_file" then some (.logFile (.print value))
  else if key = chars "stats_interval_sec" then
    if 1 ≤ atoi value ∧ atoi value ≤ 3600 then some (.statsIntervalSec (atoi value)) else none
  else if key = chars "daemon" then some (.daemonMode (atoi value ≠ 0))
  else if key = chars "xdp_mode" then (parseXdpMode value).map .xdpFlags
  else none

/-- A line without its comment, and without the blanks at both ends. -/
def lineCore (line : List UInt8) : List UInt8 := trim (line.takeWhile (· ≠ '#'.toUInt8))

/-- A line is blank, or a key and a value around its first `=`. -/
inductive LineSays (line : List UInt8) : Option Assignment → Prop
  | blank (empty : lineCore line = []) : LineSays line none
  | assigns {key value : List UInt8} {a : Assignment}
      (form : lineCore line = key ++ '='.toUInt8 :: value) (first : '='.toUInt8 ∉ key)
      (accepted : assignment (trim key) (trim value) = some a) : LineSays line (some a)

/-- The newline-delimited lines of a file. -/
def fileLines (bytes : List UInt8) : List (List UInt8) := bytes.splitOn '\n'.toUInt8

/-- The parser accepts exactly the files of the grammar, and then the
configuration is what the assignments make of the starting one, in order. -/
structure FollowsGrammar (bytes : List UInt8) (out : AppConfig) : Prop where
  accepts : (loadConfigFile (.contents bytes) out).2 = none ↔
    ∀ line ∈ fileLines bytes, ∃ said, LineSays line said
  result : (loadConfigFile (.contents bytes) out).2 = none →
    ∀ said, List.Forall₂ LineSays (fileLines bytes) said →
      (loadConfigFile (.contents bytes) out).1 = said.reduceOption.foldl Assignment.apply out

/-! ## The settings that assignments leave -/

/-- For each setting the value assigned to it, if one is. -/
@[ext]
structure Settings where
  ifname : Option (CharArray 16)
  socketPath : Option (CharArray 108)
  logFile : Option (CharArray 256)
  statsIntervalSec : Option ℤ
  daemonMode : Option Bool
  xdpFlags : Option UInt32
deriving DecidableEq, Repr

namespace Settings

/-- Nothing is assigned. -/
def unset : Settings := ⟨none, none, none, none, none, none⟩

/-- A later assignment replaces an earlier one. -/
def assign (s : Settings) : Assignment → Settings
  | .ifname name => { s with ifname := some name }
  | .socketPath path => { s with socketPath := some path }
  | .logFile path => { s with logFile := some path }
  | .statsIntervalSec n => { s with statsIntervalSec := some n }
  | .daemonMode on => { s with daemonMode := some on }
  | .xdpFlags flags => { s with xdpFlags := some flags }

/-- The last value that each setting is assigned. -/
def last (as : List Assignment) : Settings := as.foldl assign unset

/-- A configuration with the assigned values in place. -/
def applied (s : Settings) (c : AppConfig) : AppConfig where
  ifname := s.ifname.getD c.ifname
  socketPath := s.socketPath.getD c.socketPath
  logFile := s.logFile.getD c.logFile
  statsIntervalSec := s.statsIntervalSec.getD c.statsIntervalSec
  daemonMode := s.daemonMode.getD c.daemonMode
  xdpFlags := s.xdpFlags.getD c.xdpFlags

@[simp]
theorem applied_unset (c : AppConfig) : unset.applied c = c := rfl

theorem apply_applied (s : Settings) (c : AppConfig) (a : Assignment) :
    a.apply (s.applied c) = (s.assign a).applied c := by
  cases a with
  | ifname name => rfl
  | socketPath path => rfl
  | logFile path => rfl
  | statsIntervalSec n => rfl
  | daemonMode on => rfl
  | xdpFlags flags => rfl

/-- The last assignment to a setting wins, and a setting that is not assigned
keeps its value. -/
theorem foldl_apply (as : List Assignment) (c : AppConfig) :
    as.foldl Assignment.apply c = (last as).applied c := by
  have from_some : ∀ (as : List Assignment) (s : Settings),
      as.foldl Assignment.apply (s.applied c) = (as.foldl assign s).applied c := by
    intro as
    induction as with
    | nil => intro s; rfl
    | cons a rest ih =>
        intro s
        rw [List.foldl_cons, List.foldl_cons, apply_applied, ih]
  exact from_some as unset

end Settings

/-- The lines of a file and its pieces are both refused, or they say the same of
the configuration to start from. -/
inductive CutUnnoticed (lines pieces : List (List UInt8)) (out : AppConfig) : Prop
  | refused {line piece : List UInt8} (lineMem : line ∈ lines)
      (badLine : ∀ said, ¬LineSays line said)
      (pieceMem : piece ∈ pieces) (badPiece : ∀ said, ¬LineSays piece said)
  | accepted {said saidCut : List (Option Assignment)} (whole : List.Forall₂ LineSays lines said)
      (cut : List.Forall₂ LineSays pieces saidCut)
      (same : (Settings.last said.reduceOption).applied out =
        (Settings.last saidCut.reduceOption).applied out)

/-! ## Reading a line -/

/-- What a line says, if it is of the grammar. -/
def lineReading (line : List UInt8) : Option (Option Assignment) :=
  let core := lineCore line
  let eq := '='.toUInt8
  if core = [] then some none
  else if eq ∉ core then none
  else
    (assignment (trim (core.takeWhile (· ≠ eq))) (trim ((core.dropWhile (· ≠ eq)).drop 1))).map some

theorem takeWhile_ne_append {eq : UInt8} {key : List UInt8} (first : eq ∉ key)
    (value : List UInt8) :
    (key ++ eq :: value).takeWhile (· ≠ eq) = key ∧
      ((key ++ eq :: value).dropWhile (· ≠ eq)).drop 1 = value := by
  have before : ∀ b ∈ key, decide (b ≠ eq) = true := by
    intro b member
    exact decide_eq_true fun same => first (same ▸ member)
  constructor
  · rw [List.takeWhile_append_of_pos before, List.takeWhile_cons_of_neg (by simp),
      List.append_nil]
  · rw [List.dropWhile_append_of_pos before, List.dropWhile_cons_of_neg (by simp),
      List.drop_succ_cons, List.drop_zero]

theorem split_at_first {eq : UInt8} {core : List UInt8} (member : eq ∈ core) :
    core = core.takeWhile (· ≠ eq) ++ eq :: (core.dropWhile (· ≠ eq)).drop 1 ∧
      eq ∉ core.takeWhile (· ≠ eq) := by
  obtain ⟨key, value, rfl, first⟩ := List.eq_append_cons_of_mem member
  obtain ⟨keyPart, valuePart⟩ := takeWhile_ne_append first value
  rw [keyPart, valuePart]
  exact ⟨rfl, first⟩

theorem lineSays_iff (line : List UInt8) (said : Option Assignment) :
    LineSays line said ↔ lineReading line = some said := by
  constructor
  · intro reads
    cases reads with
    | blank empty => rw [lineReading, empty]; rfl
    | assigns form first accepted =>
        obtain ⟨keyPart, valuePart⟩ := takeWhile_ne_append first _
        rw [lineReading, form, keyPart, valuePart, accepted, if_neg (by simp),
          if_neg (by simp)]
        rfl
  · intro read
    rw [lineReading] at read
    split at read
    · rename_i empty
      obtain rfl := Option.some.inj read
      exact .blank empty
    · split at read
      · cases read
      · rename_i member
        rw [not_not] at member
        obtain ⟨form, first⟩ := split_at_first member
        obtain ⟨a, accepted, rfl⟩ := Option.map_eq_some_iff.mp read
        exact .assigns form first accepted

/-- Writing the field of a key is applying its assignment. -/
theorem setField_toOption (key value : List UInt8) (out : AppConfig) :
    (setField key value out).toOption = (assignment key value).map (Assignment.apply out) := by
  rw [setField, assignment]
  split
  · rfl
  · split
    · rfl
    · split
      · rfl
      · split
        · dsimp only
          split
          · rename_i outside
            rw [if_neg (by omega)]
            rfl
          · rename_i inside
            rw [if_pos (by omega)]
            rfl
        · split
          · rfl
          · split
            · cases parseXdpMode value with
              | some flags => rfl
              | none => rfl
            · rfl

theorem cString_of_noNul {bytes : List UInt8} (noNul : 0 ∉ bytes) : cString bytes = bytes := by
  rw [cString, List.takeWhile_eq_self_iff]
  intro b member
  exact decide_eq_true fun zero => noNul (zero ▸ member)

/-- The parser reads a line, up to its first NUL, as the grammar does. -/
theorem parseConfigLine_toOption (lineNo : ℕ) (line : List UInt8) (out : AppConfig) :
    (parseConfigLine lineNo line out).toOption =
      (lineReading (cString line)).map fun said => said.toList.foldl Assignment.apply out := by
  rw [parseConfigLine, lineReading, lineCore]
  split
  · rfl
  · split
    · rfl
    · rw [setField_toOption, Option.map_map]
      rfl

/-! ## Reading the lines -/

/-- What the lines say, if all of them are of the grammar. -/
def linesReading : List (List UInt8) → Option (List Assignment)
  | [] => some []
  | line :: rest =>
      (lineReading line).bind fun said => (linesReading rest).map (said.toList ++ ·)

theorem linesReading_eq_some {lines : List (List UInt8)} {as : List Assignment} :
    linesReading lines = some as ↔
      ∃ said, List.Forall₂ LineSays lines said ∧ said.reduceOption = as := by
  induction lines generalizing as with
  | nil =>
      constructor
      · rintro ⟨⟩
        exact ⟨[], .nil, rfl⟩
      · rintro ⟨said, whole, rfl⟩
        cases whole
        rfl
  | cons line rest ih =>
      have reduce : ∀ (first : Option Assignment) (later : List (Option Assignment)),
          (first :: later).reduceOption = first.toList ++ later.reduceOption := by
        intro first later
        cases first with
        | none => rfl
        | some a => rfl
      rw [linesReading, Option.bind_eq_some_iff]
      constructor
      · rintro ⟨first, read, after⟩
        obtain ⟨later, readLater, rfl⟩ := Option.map_eq_some_iff.mp after
        obtain ⟨saidLater, whole, rfl⟩ := ih.mp readLater
        exact ⟨first :: saidLater, .cons ((lineSays_iff _ _).mpr read) whole, reduce _ _⟩
      · rintro ⟨said, whole, rfl⟩
        cases whole with
        | cons reads whole =>
            refine ⟨_, (lineSays_iff _ _).mp reads, ?_⟩
            rw [ih.mpr ⟨_, whole, rfl⟩, reduce]
            rfl

theorem linesReading_eq_none {lines : List (List UInt8)} :
    linesReading lines = none ↔ ∃ line ∈ lines, ∀ said, ¬LineSays line said := by
  induction lines with
  | nil => simp [linesReading]
  | cons line rest ih =>
      rw [linesReading, Option.bind_eq_none_iff]
      simp only [Option.map_eq_none_iff, ih, List.exists_mem_cons_iff, lineSays_iff]
      cases lineReading line with
      | none => simp
      | some first => simp

theorem loadLines_of_reading {lines : List (List UInt8)} {as : List Assignment}
    (read : linesReading (lines.map cString) = some as) (lineNo : ℕ) (out : AppConfig) :
    loadLines lineNo out lines = (as.foldl Assignment.apply out, none) := by
  induction lines generalizing lineNo out as with
  | nil => cases read; rfl
  | cons line rest ih =>
      obtain ⟨first, readFirst, after⟩ := Option.bind_eq_some_iff.mp read
      obtain ⟨later, readLater, rfl⟩ := Option.map_eq_some_iff.mp after
      have parsed := parseConfigLine_toOption (lineNo + 1) line out
      rw [readFirst] at parsed
      rw [loadLines]
      cases result : parseConfigLine (lineNo + 1) line out with
      | error e => rw [result] at parsed; cases parsed
      | ok out' =>
          rw [result] at parsed
          obtain rfl := Option.some.inj parsed
          dsimp only
          rw [ih readLater, List.foldl_append]

theorem loadLines_of_bad {lines : List (List UInt8)}
    (bad : linesReading (lines.map cString) = none) (lineNo : ℕ) (out : AppConfig) :
    (loadLines lineNo out lines).2 ≠ none := by
  induction lines generalizing lineNo out with
  | nil => cases bad
  | cons line rest ih =>
      have parsed := parseConfigLine_toOption (lineNo + 1) line out
      rw [loadLines]
      cases result : parseConfigLine (lineNo + 1) line out with
      | error e => exact Option.some_ne_none e
      | ok out' =>
          rw [result] at parsed
          obtain ⟨first, readFirst, -⟩ := Option.map_eq_some_iff.mp parsed.symm
          rw [List.map_cons, linesReading, readFirst, Option.bind_some,
            Option.map_eq_none_iff] at bad
          exact ih bad _ _

/-- What a file assigns, if it is accepted. The lines are those that `fgets`
reads, each up to its first NUL. -/
def ConfigFile.settings : ConfigFile → Option Settings
  | .missing => some .unset
  | .unreadable => none
  | .contents bytes => (linesReading ((fgetsLines 512 [] bytes).map cString)).map Settings.last

/-- **What `load_config_file` does**: whether it accepts a file, and what the
file assigns, does not depend on the configuration that it is given. -/
theorem loadConfigFile_settings (file : ConfigFile) (out : AppConfig) :
    match file.settings with
    | some s => loadConfigFile file out = (s.applied out, none)
    | none => (loadConfigFile file out).2 ≠ none := by
  cases file with
  | missing => rfl
  | unreadable => exact Option.some_ne_none _
  | contents bytes =>
      rw [ConfigFile.settings]
      cases read : linesReading ((fgetsLines 512 [] bytes).map cString) with
      | none => exact loadLines_of_bad read 0 out
      | some as => exact (loadLines_of_reading read 0 out).trans (by rw [Settings.foldl_apply])

/-! ## Lines and pieces -/

theorem mem_of_mem_fgetsLines {size : ℕ} {b : UInt8} {piece bytes : List UInt8}
    (line : List UInt8) (pieceMem : piece ∈ fgetsLines size line bytes) (member : b ∈ piece) :
    b ∈ line ++ bytes := by
  induction bytes generalizing line with
  | nil =>
      rw [fgetsLines] at pieceMem
      split at pieceMem
      · cases pieceMem
      · obtain rfl := List.mem_singleton.mp pieceMem
        exact List.mem_append_left _ member
  | cons first rest ih =>
      rw [fgetsLines] at pieceMem
      split at pieceMem
      · rcases List.mem_cons.mp pieceMem with rfl | later
        · rw [List.append_cons]
          exact List.mem_append_left _ member
        · exact List.mem_append_right _ (List.mem_cons_of_mem _ (ih [] later))
      · rw [List.append_cons]
        exact ih (line ++ [first]) pieceMem

/-- `fgets` reads on over a part of a line that leaves room in its buffer. -/
theorem fgetsLines_append {size : ℕ} {part : List UInt8} (inLine : '\n'.toUInt8 ∉ part)
    (line : List UInt8) (room : line.length + part.length < size - 1) (bytes : List UInt8) :
    fgetsLines size line (part ++ bytes) = fgetsLines size (line ++ part) bytes := by
  induction part generalizing line with
  | nil => rw [List.append_nil, List.nil_append]
  | cons first rest ih =>
      obtain ⟨notNewline, later⟩ := not_or.mp (mt List.mem_cons.mpr inLine)
      rw [List.length_cons] at room
      rw [List.cons_append, fgetsLines, if_neg, ih later, List.append_assoc]
      · rfl
      · rw [List.length_append, List.length_singleton]
        omega
      · rintro (newline | full)
        · exact notNewline newline.symm
        · omega

theorem trim_append_blank {b : UInt8} (blank : isBlank b = true) (s : List UInt8) :
    trim (s ++ [b]) = trim s := by
  rw [trim, trim, List.dropWhile_append]
  cases left : s.dropWhile isBlank with
  | nil => simp [blank]
  | cons first rest =>
      rw [List.isEmpty_cons, if_neg Bool.false_ne_true, List.reverse_append]
      simp [blank]

theorem lineCore_append_newline (line : List UInt8) :
    lineCore (line ++ ['\n'.toUInt8]) = lineCore line := by
  rw [lineCore, lineCore, List.takeWhile_append]
  split
  · rename_i noComment
    rw [(List.takeWhile_prefix _).eq_of_length noComment]
    exact trim_append_blank (b := '\n'.toUInt8) (by decide) line
  · rfl

/-- The newline at the end of a line says nothing. -/
theorem lineReading_newline (line : List UInt8) :
    lineReading (line ++ ['\n'.toUInt8]) = lineReading line := by
  rw [lineReading, lineReading, lineCore_append_newline]

/-- A line that `fgets` can read whole but for its newline. -/
theorem linesReading_fgetsLines_cons {line : List UInt8} (inLine : '\n'.toUInt8 ∉ line)
    (short : line.length ≤ 511) (rest : List UInt8) :
    linesReading (fgetsLines 512 [] (line ++ '\n'.toUInt8 :: rest)) =
      linesReading (line :: fgetsLines 512 [] rest) := by
  rcases Nat.lt_or_eq_of_le short with fits | full
  · rw [fgetsLines_append inLine [] (by simpa using fits), List.nil_append, fgetsLines,
      if_pos (Or.inl rfl), linesReading, lineReading_newline]
    rfl
  · -- The buffer is full before the newline, which is then a line of its own.
    obtain rfl | ⟨part, b, rfl⟩ := List.eq_nil_or_concat line
    · cases full
    · rw [List.concat_eq_append, List.length_append, List.length_singleton] at full
      rw [List.concat_eq_append] at inLine ⊢
      have inPart : '\n'.toUInt8 ∉ part := fun member => inLine (List.mem_append_left _ member)
      rw [List.append_assoc, fgetsLines_append inPart [] (by simp; omega), List.nil_append,
        List.singleton_append, fgetsLines, if_pos (Or.inr (by omega)), fgetsLines,
        if_pos (Or.inl rfl), linesReading, linesReading, linesReading,
        lineReading_newline [], show lineReading [] = some none from rfl]
      simp

/-- The last line of a file, if `fgets` can read it whole. -/
theorem fgetsLines_last {line : List UInt8} (inLine : '\n'.toUInt8 ∉ line)
    (short : line.length ≤ 511) :
    fgetsLines 512 [] line = if line = [] then [] else [line] := by
  rcases Nat.lt_or_eq_of_le short with fits | full
  · have whole := fgetsLines_append inLine [] (by simpa using fits : _ < 512 - 1) []
    rw [List.append_nil, List.nil_append] at whole
    rw [whole, fgetsLines]
  · obtain rfl | ⟨part, b, rfl⟩ := List.eq_nil_or_concat line
    · cases full
    · rw [List.concat_eq_append, List.length_append, List.length_singleton] at full
      rw [List.concat_eq_append] at inLine ⊢
      have inPart : '\n'.toUInt8 ∉ part := fun member => inLine (List.mem_append_left _ member)
      rw [fgetsLines_append inPart [] (by simp; omega), List.nil_append, fgetsLines,
        if_pos (Or.inr (by omega)), fgetsLines, if_pos rfl, if_neg (by simp)]

theorem linesReading_fgetsLines_last {line : List UInt8} (inLine : '\n'.toUInt8 ∉ line)
    (short : line.length ≤ 511) :
    linesReading (fgetsLines 512 [] line) = linesReading [line] := by
  rw [fgetsLines_last inLine short]
  split
  · rename_i empty
    rw [empty]
    rfl
  · rfl

theorem fileLines_of_last {line : List UInt8} (inLine : '\n'.toUInt8 ∉ line) :
    fileLines line = [line] := List.splitOn_eq_singleton inLine

theorem fileLines_cons {line : List UInt8} (inLine : '\n'.toUInt8 ∉ line) (rest : List UInt8) :
    fileLines (line ++ '\n'.toUInt8 :: rest) = line :: fileLines rest :=
  List.splitOn_append_cons_self_of_not_mem inLine rest

/-- **Induction over the lines of a file.** -/
@[elab_as_elim]
theorem fileLines_induction {motive : List UInt8 → Prop}
    (last : ∀ line, '\n'.toUInt8 ∉ line → motive line)
    (more : ∀ line rest, '\n'.toUInt8 ∉ line → motive rest →
      motive (line ++ '\n'.toUInt8 :: rest)) (bytes : List UInt8) : motive bytes := by
  obtain ⟨n, size⟩ : ∃ n, bytes.length ≤ n := ⟨_, le_rfl⟩
  induction n generalizing bytes with
  | zero =>
      obtain rfl := List.length_eq_zero_iff.mp (Nat.le_zero.mp size)
      exact last [] List.not_mem_nil
  | succ n ih =>
      by_cases newline : '\n'.toUInt8 ∈ bytes
      · obtain ⟨line, rest, rfl, inLine⟩ := List.eq_append_cons_of_mem newline
        rw [List.length_append, List.length_cons] at size
        exact more line rest inLine (ih rest (by omega))
      · exact last bytes newline

/-- Lines of at most 511 bytes are read as the grammar takes them. -/
theorem linesReading_fgetsLines {bytes : List UInt8}
    (short : ∀ line ∈ fileLines bytes, line.length ≤ 511) :
    linesReading (fgetsLines 512 [] bytes) = linesReading (fileLines bytes) := by
  induction bytes using fileLines_induction with
  | last line inLine =>
      rw [fileLines_of_last inLine] at short ⊢
      exact linesReading_fgetsLines_last inLine (short _ (List.mem_singleton_self _))
  | more line rest inLine ih =>
      rw [fileLines_cons inLine] at short ⊢
      rw [linesReading_fgetsLines_cons inLine (short _ List.mem_cons_self), linesReading,
        linesReading, ih fun line member => short line (List.mem_cons_of_mem _ member)]

/-! ## Where the parser follows the grammar -/

theorem cutUnnoticed_iff (lines pieces : List (List UInt8)) (out : AppConfig) :
    CutUnnoticed lines pieces out ↔
      (linesReading lines).map (fun as => as.foldl Assignment.apply out) =
        (linesReading pieces).map fun as => as.foldl Assignment.apply out := by
  simp only [Settings.foldl_apply]
  constructor
  · intro unnoticed
    cases unnoticed with
    | refused lineMem badLine pieceMem badPiece =>
        rw [linesReading_eq_none.mpr ⟨_, lineMem, badLine⟩,
          linesReading_eq_none.mpr ⟨_, pieceMem, badPiece⟩]
    | accepted whole cut same =>
        rw [linesReading_eq_some.mpr ⟨_, whole, rfl⟩, linesReading_eq_some.mpr ⟨_, cut, rfl⟩,
          Option.map_some, Option.map_some, same]
  · intro same
    cases readLines : linesReading lines with
    | none =>
        rw [readLines, Option.map_none] at same
        obtain ⟨line, lineMem, badLine⟩ := linesReading_eq_none.mp readLines
        obtain ⟨piece, pieceMem, badPiece⟩ :=
          linesReading_eq_none.mp (Option.map_eq_none_iff.mp same.symm)
        exact .refused lineMem badLine pieceMem badPiece
    | some as =>
        rw [readLines, Option.map_some] at same
        obtain ⟨asCut, readPieces, sameApplied⟩ := Option.map_eq_some_iff.mp same.symm
        obtain ⟨said, whole, rfl⟩ := linesReading_eq_some.mp readLines
        obtain ⟨saidCut, cut, rfl⟩ := linesReading_eq_some.mp readPieces
        exact .accepted whole cut sameApplied.symm

/-- The parser follows the grammar when the pieces say what the lines say. -/
theorem followsGrammar_iff {bytes : List UInt8} (noNul : 0 ∉ bytes) (out : AppConfig) :
    FollowsGrammar bytes out ↔
      (linesReading (fileLines bytes)).map (fun as => as.foldl Assignment.apply out) =
        (linesReading (fgetsLines 512 [] bytes)).map fun as => as.foldl Assignment.apply out := by
  have noNulPieces : (fgetsLines 512 [] bytes).map cString = fgetsLines 512 [] bytes := by
    refine (List.map_congr_left fun piece pieceMem => ?_).trans (List.map_id _)
    exact cString_of_noNul fun zero => noNul (mem_of_mem_fgetsLines [] pieceMem zero)
  have accepts : (∀ line ∈ fileLines bytes, ∃ said, LineSays line said) ↔
      linesReading (fileLines bytes) ≠ none := by
    rw [Ne, linesReading_eq_none]
    push Not
    rfl
  have loaded := loadConfigFile_settings (.contents bytes) out
  rw [ConfigFile.settings, noNulPieces] at loaded
  cases readPieces : linesReading (fgetsLines 512 [] bytes) with
  | none =>
      rw [readPieces] at loaded
      rw [Option.map_none, Option.map_eq_none_iff]
      constructor
      · intro follows
        exact not_not.mp (mt (follows.accepts.trans accepts).mpr loaded)
      · intro bad
        refine ⟨?_, fun accepted => absurd accepted loaded⟩
        rw [accepts]
        exact ⟨fun accepted => absurd accepted loaded, fun some => absurd bad some⟩
  | some asCut =>
      rw [readPieces] at loaded
      simp only [Option.map_some, ← Settings.foldl_apply] at loaded
      constructor
      · intro follows
        have good := (follows.accepts.trans accepts).mp (by rw [loaded])
        obtain ⟨as, readLines⟩ := Option.ne_none_iff_exists'.mp good
        obtain ⟨said, whole, rfl⟩ := linesReading_eq_some.mp readLines
        have result := follows.result (by rw [loaded]) said whole
        rw [loaded] at result
        rw [readLines, Option.map_some, Option.map_some]
        exact congrArg some result.symm
      · intro same
        obtain ⟨as, readLines, sameApplied⟩ := Option.map_eq_some_iff.mp same
        refine ⟨?_, fun _ said whole => ?_⟩
        · rw [accepts, loaded, readLines]
          exact ⟨fun _ => Option.some_ne_none as, fun _ => rfl⟩
        · obtain rfl := Option.some.inj
            (readLines.symm.trans (linesReading_eq_some.mpr ⟨said, whole, rfl⟩))
          rw [loaded, sameApplied]

/-- **The parser and its grammar.** The parser follows the grammar on a file
without NUL exactly when the pieces of the file and its lines are both refused
or say the same, as they do when no line has more than 511 bytes before its
newline. -/
theorem loadConfigFile_follows_iff (bytes : List UInt8) (out : AppConfig) (noNul : 0 ∉ bytes) :
    (FollowsGrammar bytes out ↔
        CutUnnoticed (fileLines bytes) (fgetsLines 512 [] bytes) out) ∧
      ((∀ line ∈ fileLines bytes, line.length ≤ 511) → FollowsGrammar bytes out) := by
  constructor
  · rw [followsGrammar_iff noNul, cutUnnoticed_iff]
  · intro short
    rw [followsGrammar_iff noNul, linesReading_fgetsLines short]

/-- A comment of 511 bytes before its last words. -/
def longComment : List UInt8 :=
  '#'.toUInt8 :: (List.replicate 510 '-'.toUInt8 ++ chars "daemon=1\n")

/-- The end of the comment sets the daemon flag. -/
theorem long_comment_sets_daemon :
    0 ∉ longComment ∧ ¬FollowsGrammar longComment configDefaults := by
  refine ⟨by decide +kernel, fun follows => ?_⟩
  have loaded : loadConfigFile (.contents longComment) configDefaults =
      ({ configDefaults with daemonMode := true }, none) := by decide +kernel
  have blank : linesReading (fileLines longComment) = some [] := by decide +kernel
  obtain ⟨said, whole, nothing⟩ := linesReading_eq_some.mp blank
  have result := follows.result (by rw [loaded]) said whole
  rw [loaded, nothing] at result
  exact absurd result (by decide)

theorem short_file_follows :
    FollowsGrammar (chars "daemon = 1 # in the background\n") configDefaults :=
  (loadConfigFile_follows_iff (chars "daemon = 1 # in the background\n") configDefaults
    (by decide)).2 (by decide)

end EbpfNids.Loader
