import Mathlib.Data.List.Perm.Basic
import EbpfNids.Backend.PyText

/-!
# Merging the source files

`merge_data_without_full_load` reads the source files in chunks and appends every
chunk to `FULL_CSV`, the first one with the header. Whether a chunk is the first
is known to the run only, and no run looks at what is in the file already.

So a run leaves what was there before in front of its own header
(`full_mergeRun`), and the file is a single header with every source row once if
and only if no earlier run, completed or interrupted, had written a chunk
(`merge_repeatable_iff`).
-/

set_option autoImplicit false

namespace EbpfNids.Training

open Library
open Backend (strip)

/-! ## Files -/

/-- A cell; a missing value has no text. -/
abbrev Cell := Option Text

structure CsvFile where
  columns : List Text
  rows : List (List Cell)
  wide : ∀ row ∈ rows, row.length = columns.length

/-- A line of `FULL_CSV`. -/
inductive CsvLine where
  | header (columns : List Text)
  | row (cells : List Cell)
deriving DecidableEq, Repr

def CsvLine.isRow : CsvLine → Bool
  | .header _ => false
  | .row _ => true

/-! ## Chunks -/

section Pieces

variable {α : Type*}

/-- The pieces of a list of the given size, of which there is at least one. -/
def pieces (size : ℕ) (l : List α) : List (List α) :=
  (List.range (max 1 ((l.length + size - 1) / size))).map fun i => (l.drop (i * size)).take size

theorem flatten_pieces_range (size n : ℕ) (l : List α) :
    ((List.range n).map fun i => (l.drop (i * size)).take size).flatten = l.take (n * size) := by
  induction n with
  | zero => simp
  | succ n ih =>
      rw [List.range_succ, List.map_append, List.flatten_append, ih, List.map_singleton,
        List.flatten_singleton, Nat.succ_mul, List.take_add]

theorem flatten_pieces {size : ℕ} (positive : 0 < size) (l : List α) :
    (pieces size l).flatten = l := by
  rw [pieces, flatten_pieces_range]
  apply List.take_of_length_le
  have enough : l.length ≤ (l.length + size - 1) / size * size := by
    have := Nat.lt_div_mul_add (a := l.length + size - 1) positive
    omega
  exact enough.trans (Nat.mul_le_mul_right size (Nat.le_max_right 1 _))

theorem pieces_ne_nil (size : ℕ) (l : List α) : pieces size l ≠ [] := by
  have some : 0 < max 1 ((l.length + size - 1) / size) := Nat.le_max_left 1 _
  rw [pieces, Ne, List.map_eq_nil_iff, List.range_eq_nil]
  exact Nat.ne_of_gt some

end Pieces

/-- What `pd.read_csv` hands out with `chunksize=50000`. A file without rows has
one chunk, without rows. -/
def CsvFile.chunks (f : CsvFile) : List (List (List Cell)) := pieces 50000 f.rows

/-- The labels as texts without white space around them. -/
def stripLabels (columns : List Text) (cells : List Cell) : List Cell :=
  if text "Label" ∈ columns then
    List.zipWith
      (fun column cell =>
        if column = text "Label" then some (strip (cell.getD (text "nan"))) else cell)
      columns cells
  else cells

/-! ## One run -/

/-- The variables `first` and `total_rows` of a run, and the file. -/
structure Merge where
  first : Bool
  totalRows : ℕ
  full : List CsvLine

/-- The lines of a chunk without its header. -/
def chunkLines (chunk : List Text × List (List Cell)) : List CsvLine :=
  chunk.2.map fun cells => .row (stripLabels chunk.1 cells)

/-- The body of the inner loop. -/
def writeChunk (m : Merge) (chunk : List Text × List (List Cell)) : Merge where
  first := false
  totalRows := m.totalRows + chunk.2.length
  full := m.full ++ ((if m.first then [.header chunk.1] else []) ++ chunkLines chunk)

/-- The chunks of all files, with the columns that they have. -/
def csvChunks (files : List CsvFile) : List (List Text × List (List Cell)) :=
  files.flatMap fun f => f.chunks.map fun chunk => (f.columns, chunk)

/-- A run that gets as far as these chunks. -/
def mergeRun (full : List CsvLine) (chunks : List (List Text × List (List Cell))) : Merge :=
  chunks.foldl writeChunk ⟨true, 0, full⟩

/-- `merge_data_without_full_load`: the file that it leaves, and the count that it
returns. Nothing is returned for a directory that does not exist or has no CSV
files. -/
def mergeDataWithoutFullLoad (full : List CsvLine) :
    Option (List CsvFile) → List CsvLine × Option ℕ
  | none => (full, none)
  | some [] => (full, none)
  | some files =>
      let done := mergeRun full (csvChunks files)
      (done.full, some done.totalRows)

/-- An earlier run: the files in its directory, and how many chunks it wrote before
it was interrupted, if it was. -/
structure EarlierRun where
  files : List CsvFile
  written : ℕ

def EarlierRun.chunks (r : EarlierRun) : List (List Text × List (List Cell)) :=
  (csvChunks r.files).take r.written

/-- The file after some runs, which did not exist before them. -/
def fullAfter (history : List EarlierRun) : List CsvLine :=
  history.foldl (fun full r => (mergeRun full r.chunks).full) []

/-! ## What a run leaves -/

section Run

variable {full : List CsvLine}

/-- After the first chunk only rows are written. -/
theorem foldl_writeChunk (chunks : List (List Text × List (List Cell))) (total : ℕ) :
    chunks.foldl writeChunk ⟨false, total, full⟩ =
      ⟨false, total + (chunks.flatMap chunkLines).length, full ++ chunks.flatMap chunkLines⟩ := by
  induction chunks generalizing total full with
  | nil => simp
  | cons chunk rest ih =>
      rw [List.foldl_cons, writeChunk, if_neg Bool.false_ne_true, List.nil_append, ih,
        List.flatMap_cons, List.length_append, chunkLines, List.length_map, ← Nat.add_assoc,
        List.append_assoc]

theorem mergeRun_cons (chunk : List Text × List (List Cell))
    (rest : List (List Text × List (List Cell))) :
    mergeRun full (chunk :: rest) =
      ⟨false, ((chunk :: rest).flatMap chunkLines).length,
        full ++ .header chunk.1 :: (chunk :: rest).flatMap chunkLines⟩ := by
  rw [mergeRun, List.foldl_cons, writeChunk, if_pos rfl, foldl_writeChunk, List.flatMap_cons,
    List.length_append, chunkLines, List.length_map, Nat.zero_add, List.append_assoc]
  rfl

/-- **A run.** What was in the file stays in front of what a run writes. -/
theorem full_mergeRun (chunks : List (List Text × List (List Cell))) :
    full <+: (mergeRun full chunks).full ∧
      ((mergeRun full chunks).full = [] ↔ full = [] ∧ chunks = []) := by
  cases chunks with
  | nil => simp [mergeRun]
  | cons chunk rest =>
      rw [mergeRun_cons]
      exact ⟨List.prefix_append _ _, by simp⟩

/-- **Earlier runs.** They leave an empty file exactly when none has written a
chunk. -/
theorem fullAfter_eq_nil (history : List EarlierRun) :
    fullAfter history = [] ↔ ∀ r ∈ history, r.chunks = [] := by
  have runs : ∀ (history : List EarlierRun) (full : List CsvLine),
      history.foldl (fun full r => (mergeRun full r.chunks).full) full = [] ↔
        full = [] ∧ ∀ r ∈ history, r.chunks = [] := by
    intro history
    induction history with
    | nil => simp
    | cons r rest ih =>
        intro full
        rw [List.foldl_cons, ih, (full_mergeRun r.chunks).2, List.forall_mem_cons, and_assoc]
  rw [fullAfter, runs]
  exact and_iff_right rfl

end Run

/-! ## Merging again -/

/-- Source files with equal columns. -/
structure SourceFiles where
  files : List CsvFile
  nonempty : files ≠ []
  columns : List Text
  equal : ∀ f ∈ files, f.columns = columns

/-- A line for every row of the source. -/
def SourceFiles.lines (source : SourceFiles) : List CsvLine :=
  source.files.flatMap fun f => f.rows.map fun cells => .row (stripLabels f.columns cells)

/-- A run that completes leaves one header and every source row once, and returns
the number of rows in the file. -/
def MergedOnce (full : List CsvLine) (source : SourceFiles) : Prop :=
  ∃ total lines,
    mergeDataWithoutFullLoad full (some source.files) =
        (.header source.columns :: lines, some total) ∧
      lines.Perm source.lines ∧
      total = (CsvLine.header source.columns :: lines).countP CsvLine.isRow

theorem flatMap_chunkLines (files : List CsvFile) :
    (csvChunks files).flatMap chunkLines =
      files.flatMap fun f => f.rows.map fun cells => .row (stripLabels f.columns cells) := by
  rw [csvChunks, List.flatMap_assoc]
  refine List.flatMap_congr fun f _ => ?_
  rw [List.flatMap_map, List.flatMap_def]
  show (f.chunks.map fun chunk => chunk.map fun cells =>
    CsvLine.row (stripLabels f.columns cells)).flatten = _
  rw [← List.map_flatten, CsvFile.chunks, flatten_pieces (by decide)]

/-- A run over the source writes its header and its rows. -/
theorem mergeDataWithoutFullLoad_source (full : List CsvLine) (source : SourceFiles) :
    mergeDataWithoutFullLoad full (some source.files) =
      (full ++ .header source.columns :: source.lines, some source.lines.length) := by
  obtain ⟨files, nonempty, columns, equal⟩ := source
  cases files with
  | nil => exact absurd rfl nonempty
  | cons f rest =>
      have lines := flatMap_chunkLines (f :: rest)
      have first : ∃ chunk later, csvChunks (f :: rest) = (columns, chunk) :: later := by
        obtain ⟨chunk, more, chunks⟩ := List.exists_cons_of_ne_nil (pieces_ne_nil 50000 f.rows)
        refine ⟨chunk, more.map (f.columns, ·) ++ csvChunks rest, ?_⟩
        rw [csvChunks, List.flatMap_cons, CsvFile.chunks, chunks, List.map_cons,
          equal f List.mem_cons_self]
        rfl
      obtain ⟨chunk, later, chunks⟩ := first
      rw [mergeDataWithoutFullLoad]
      · dsimp only
        rw [chunks, mergeRun_cons, ← chunks, lines]
        rfl
      · exact List.cons_ne_nil f rest

theorem isRow_of_mem_lines {source : SourceFiles} {line : CsvLine} (member : line ∈ source.lines) :
    line.isRow = true := by
  obtain ⟨f, -, inFile⟩ := List.mem_flatMap.mp member
  obtain ⟨cells, -, rfl⟩ := List.mem_map.mp inFile
  rfl

/-- **Merging again.** After any earlier runs, a run that completes leaves one
header and every source row once, and counts the rows, if and only if no earlier
run has written a chunk. -/
theorem merge_repeatable_iff (history : List EarlierRun) (source : SourceFiles) :
    MergedOnce (fullAfter history) source ↔ ∀ r ∈ history, r.chunks = [] := by
  rw [← fullAfter_eq_nil, MergedOnce, mergeDataWithoutFullLoad_source]
  constructor
  · rintro ⟨total, lines, same, rows, -⟩
    have file := congrArg List.length (Prod.mk.inj same).1
    have count := rows.length_eq
    rw [List.length_append, List.length_cons, List.length_cons, count] at file
    exact List.length_eq_zero_iff.mp (by omega)
  · intro empty
    rw [empty, List.nil_append]
    refine ⟨source.lines.length, source.lines, rfl, List.Perm.refl _, ?_⟩
    rw [List.countP_cons_of_neg (by simp [CsvLine.isRow])]
    exact (List.countP_eq_length.mpr fun line member => isRow_of_mem_lines member).symm

/-- A source with one row. -/
def oneRow : SourceFiles where
  files := [⟨[text "Label"], [[some (text "BENIGN")]], by decide⟩]
  nonempty := List.cons_ne_nil _ _
  columns := [text "Label"]
  equal := by
    intro f member
    rw [List.mem_singleton.mp member]

/-- The second of two runs repeats the header and the row, and returns 1. -/
theorem second_run_repeats :
    let history : List EarlierRun := [⟨oneRow.files, 1⟩]
    let label : List Cell := [some (text "BENIGN")]
    mergeDataWithoutFullLoad (fullAfter history) (some oneRow.files) =
        ([.header [text "Label"], .row label, .header [text "Label"], .row label], some 1) ∧
      ¬ MergedOnce (fullAfter history) oneRow := by
  have result : mergeDataWithoutFullLoad (fullAfter [⟨oneRow.files, 1⟩]) (some oneRow.files) =
      ([.header [text "Label"], .row [some (text "BENIGN")], .header [text "Label"],
        .row [some (text "BENIGN")]], some 1) := by decide
  refine ⟨result, ?_⟩
  rintro ⟨total, lines, same, rows, -⟩
  rw [result] at same
  have count := rows.length_eq
  rw [← (List.cons.inj (Prod.mk.inj same).1).2] at count
  exact absurd count (by decide)

end EbpfNids.Training
