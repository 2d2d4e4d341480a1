import EbpfNids.Loader.ConfigGrammar

/-!
# The configuration file, line by line

`fgets` stops behind a newline, so whatever the length of its lines a file is read
one newline-delimited line after the other: it is accepted exactly when its first
line is, as a file of its own, and then the rest is, from the configuration that
the line has left (`loadConfigFile_cons_ok`).
-/

set_option autoImplicit false

namespace EbpfNids.Loader

/-- A newline ends a piece, whatever is in the buffer. -/
theorem fgetsLines_newline {size : ℕ} (first rest line : List UInt8) :
    fgetsLines size line (first ++ '\n'.toUInt8 :: rest) =
      fgetsLines size line (first ++ ['\n'.toUInt8]) ++ fgetsLines size [] rest := by
  induction first generalizing line with
  | nil =>
      rw [List.nil_append, List.nil_append, fgetsLines, fgetsLines, if_pos (Or.inl rfl),
        if_pos (Or.inl rfl)]
      rfl
  | cons b first ih =>
      rw [List.cons_append, List.cons_append, fgetsLines, fgetsLines]
      split
      · rw [ih, List.cons_append]
      · exact ih _

/-- With a newline behind it the last piece of a text is longer by this newline,
or there is one more piece. -/
theorem fgetsLines_end (size : ℕ) (part line : List UInt8) :
    ∃ init last, fgetsLines size line (part ++ ['\n'.toUInt8]) = init ++ [last ++ ['\n'.toUInt8]] ∧
      fgetsLines size line part = init ++ if last = [] then [] else [last] := by
  induction part generalizing line with
  | nil =>
      refine ⟨[], line, ?_, rfl⟩
      rw [List.nil_append, fgetsLines, if_pos (Or.inl rfl)]
      rfl
  | cons b part ih =>
      rw [List.cons_append, fgetsLines, fgetsLines]
      split
      · obtain ⟨init, last, ended, open_⟩ := ih []
        exact ⟨(line ++ [b]) :: init, last, congrArg _ ended, congrArg _ open_⟩
      · exact ih (line ++ [b])

theorem cString_append (line : List UInt8) (b : UInt8) :
    cString (line ++ [b]) = if 0 ∈ line then cString line else line ++ cString [b] := by
  by_cases zero : 0 ∈ line
  · rw [if_pos zero, cString, cString]
    obtain ⟨before, after, rfl, first⟩ := List.eq_append_cons_of_mem zero
    have noZero : ∀ c ∈ before, decide (c ≠ 0) = true :=
      fun c member => decide_eq_true fun same => first (same ▸ member)
    rw [List.append_assoc, List.takeWhile_append_of_pos noZero,
      List.takeWhile_append_of_pos noZero]
    rfl
  · rw [if_neg zero, cString, cString, List.takeWhile_append_of_pos]
    exact fun c member => decide_eq_true fun same => zero (same ▸ member)

/-- The newline at the end of a line is a blank. -/
theorem lineCore_newline (line : List UInt8) :
    lineCore (cString (line ++ ['\n'.toUInt8])) = lineCore (cString line) := by
  rw [cString_append]
  split
  · rfl
  · rename_i noNul
    rw [cString_of_noNul noNul]
    exact lineCore_append_newline line

theorem parseConfigLine_congr {line line' : List UInt8}
    (same : lineCore (cString line) = lineCore (cString line')) (lineNo : ℕ) (out : AppConfig) :
    parseConfigLine lineNo line out = parseConfigLine lineNo line' out := by
  rw [lineCore, lineCore] at same
  rw [parseConfigLine, parseConfigLine, same]

/-- The newline at the end of a file makes no difference. -/
theorem loadLines_newline (part : List UInt8) (lineNo : ℕ) (out : AppConfig) :
    loadLines lineNo out (fgetsLines 512 [] (part ++ ['\n'.toUInt8])) =
      loadLines lineNo out (fgetsLines 512 [] part) := by
  obtain ⟨init, last, ended, open_⟩ := fgetsLines_end 512 part []
  rw [ended, open_, loadLines_append, loadLines_append]
  cases loadLines lineNo out init with
  | mk c rejected =>
      cases rejected with
      | some e => rfl
      | none =>
          dsimp only
          by_cases empty : last = []
          · rw [if_pos empty, empty]
            rfl
          · rw [if_neg empty, loadLines, loadLines,
              parseConfigLine_congr (lineCore_newline last)]

/-- Whether lines are accepted does not depend on their numbers. -/
theorem loadLines_lineNo {lineNo : ℕ} {out c : AppConfig} {lines : List (List UInt8)}
    (accepted : loadLines lineNo out lines = (c, none)) (other : ℕ) :
    loadLines other out lines = (c, none) := by
  cases read : linesReading (lines.map cString) with
  | none => exact absurd (congrArg Prod.snd accepted) (loadLines_of_bad read lineNo out)
  | some as =>
      rw [loadLines_of_reading read other out, ← loadLines_of_reading read lineNo out, accepted]

/-- **A file is read line by line.** -/
theorem loadConfigFile_cons_ok {first rest : List UInt8} {out c : AppConfig} :
    loadConfigFile (.contents (first ++ '\n'.toUInt8 :: rest)) out = (c, none) ↔
      ∃ between, loadConfigFile (.contents first) out = (between, none) ∧
        loadConfigFile (.contents rest) between = (c, none) := by
  simp only [loadConfigFile]
  rw [fgetsLines_newline, loadLines_append, loadLines_newline]
  cases loadLines 0 out (fgetsLines 512 [] first) with
  | mk between rejected =>
      cases rejected with
      | some e => simp
      | none =>
          simp only [Prod.mk.injEq, and_true]
          constructor
          · intro accepted
            exact ⟨between, rfl, loadLines_lineNo accepted 0⟩
          · rintro ⟨_, rfl, accepted⟩
            exact loadLines_lineNo accepted _

end EbpfNids.Loader
