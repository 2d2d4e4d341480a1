import EbpfNids.Training.Merge
import EbpfNids.Training.WebRules

/-!
# Learning the rule from a file

`get_web_labels` reads the data in chunks and collects the labels in which the
letters of `web` follow each other, in capitals or not; `learn_web_rules` reads
it again, takes the rows of these labels, and computes the bounds of every
feature from all of them. The main program then looks for the first of these
rows, to try the predictor on it.

However the file is cut, the rows are those whose label contains `web`, in their
order, and nothing is learned exactly when there is no such row or a column is
missing. A column that has no value in them gets bounds that are no numbers. Of
any other column at most a twentieth of the values, rounded up, lies below the
bounds, and as many above (`web_rules_learned`).
-/

set_option autoImplicit false

namespace EbpfNids.Training

open Library Library.Quantile
open Backend (strip)

/-! ## The data -/

/-- The label of a row and its values, where they are not missing. -/
structure DataRow where
  label : Cell
  value : String → Option ℚ

/-- The sampled data, with the names of the columns. -/
structure DataFile where
  columns : List String
  rows : List DataRow

/-- What `pd.read_csv` hands out with `chunksize=50000`. -/
def DataFile.chunks (f : DataFile) : List (List DataRow) := pieces 50000 f.rows

/-- The label as a text without white space around it. -/
def labelOf (row : DataRow) : Text := strip (row.label.getD (text "nan"))

def lowerCase (t : Text) : Text := t.map fun c => if 65 ≤ c ∧ c ≤ 90 then c + 32 else c

/-- `str.contains('web', case=False)` -/
def containsWeb (label : Text) : Bool := decide (text "web" <:+: lowerCase label)

/-- What learning raises. -/
inductive LearnExn where
  | valueError
  | keyError
deriving DecidableEq, Repr

/-! ## The labels -/

section Source

variable (columns : List String)

/-- The body of the loop of `get_web_labels`. -/
def collectLabels (found : Finset Text) (chunk : List DataRow) : Finset Text :=
  if "Label" ∈ columns then found ∪ ((chunk.map labelOf).filter containsWeb).toFinset else found

def getWebLabels (chunks : List (List DataRow)) : Except LearnExn (Finset Text) :=
  let found := chunks.foldl (collectLabels columns) ∅
  if found = ∅ then .error .valueError else .ok found

/-! ## The rows -/

/-- The rows of a chunk that have one of the labels. -/
def labelled (webLabels : Finset Text) (chunk : List DataRow) : List DataRow :=
  chunk.filter fun row => labelOf row ∈ webLabels

/-- The body of the loop of `learn_web_rules`. The columns of the features are
asked for in chunks only that have one of the rows. -/
def collectSamples (webLabels : Finset Text) (webSamples : List (List DataRow))
    (chunk : List DataRow) : Except LearnExn (List (List DataRow)) :=
  if "Label" ∈ columns then
    if (labelled webLabels chunk).isEmpty then .ok webSamples
    else if ∀ col ∈ featureList, col ∈ columns then
      .ok (webSamples ++ [labelled webLabels chunk])
    else .error .keyError
  else .ok webSamples

/-- The bounds of a column, which are no numbers when it has no values. -/
inductive Bounds where
  | nan
  | between (low high : ℚ)
deriving DecidableEq, Repr

def boundsOf (values : List ℚ) : Bounds :=
  if values.isEmpty then .nan
  else .between (quantile (1 / 20) values) (quantile (19 / 20) values)

/-- The values of a column. -/
def valuesOf (webDf : List DataRow) (col : String) : List ℚ := webDf.filterMap (·.value col)

/-- The rules as they are computed from all samples. -/
def rulesOf (webDf : List DataRow) : List (String × Bounds) :=
  featureList.map fun col => (col, boundsOf (valuesOf webDf col))

/-- `learn_web_rules` -/
def learnRules (webLabels : Finset Text) (chunks : List (List DataRow)) :
    Except LearnExn (List (String × Bounds)) := do
  let webSamples ← chunks.foldlM (collectSamples columns webLabels) []
  if webSamples.isEmpty then throw .valueError
  return rulesOf webSamples.flatten

end Source

/-- The row that the main program tries the predictor on. -/
def firstSample (webLabels : Finset Text) (chunks : List (List DataRow)) : Option DataRow :=
  chunks.findSome? fun chunk => (labelled webLabels chunk).head?

/-! ## What is learned -/

/-- The rows of the web attacks. -/
def DataFile.webRows (f : DataFile) : List DataRow :=
  f.rows.filter fun row => containsWeb (labelOf row)

/-- What a column is bounded by, and how much of it is outside. -/
structure Covers (values : List ℚ) (low high : ℚ) : Prop where
  ordered : low ≤ high
  below : 20 * values.countP (· < low) ≤ values.length + 18
  above : 20 * values.countP (high < ·) ≤ values.length + 18

/-- What the main program gets from a file with web attacks. -/
structure Learned (f : DataFile) (webLabels : Finset Text) : Prop where
  labels : getWebLabels f.columns f.chunks = .ok webLabels
  exact : ∀ label, label ∈ webLabels ↔
    containsWeb label = true ∧ ∃ row ∈ f.rows, labelOf row = label
  missing : (∃ col ∈ featureList, col ∉ f.columns) →
    learnRules f.columns webLabels f.chunks = .error .keyError
  rules : (∀ col ∈ featureList, col ∈ f.columns) →
    learnRules f.columns webLabels f.chunks = .ok (rulesOf f.webRows)
  covered : ∀ col ∈ featureList,
    valuesOf f.webRows col = [] ∧ (col, .nan) ∈ rulesOf f.webRows ∨
      ∃ low high, (col, .between low high) ∈ rulesOf f.webRows ∧
        learnWebRules (valuesOf f.webRows) col = some (low, high) ∧
        Covers (valuesOf f.webRows col) low high
  sample : firstSample webLabels f.chunks = f.webRows.head?

/-! ## Labels -/

section Labels

variable {columns : List String} {chunks : List (List DataRow)}

theorem foldl_collectLabels (labels : "Label" ∈ columns) (found : Finset Text) :
    chunks.foldl (collectLabels columns) found =
      found ∪ ((chunks.flatten.map labelOf).filter containsWeb).toFinset := by
  induction chunks generalizing found with
  | nil => simp
  | cons chunk rest ih =>
      rw [List.foldl_cons, ih, collectLabels, if_pos labels, List.flatten_cons, List.map_append,
        List.filter_append, List.toFinset_append, Finset.union_assoc]

theorem foldl_collectLabels_none (noLabels : "Label" ∉ columns) (found : Finset Text) :
    chunks.foldl (collectLabels columns) found = found := by
  induction chunks generalizing found with
  | nil => rfl
  | cons chunk rest ih => rw [List.foldl_cons, ih, collectLabels, if_neg noLabels]

theorem mem_webLabels {rows : List DataRow} {label : Text} :
    label ∈ ((rows.map labelOf).filter containsWeb).toFinset ↔
      containsWeb label = true ∧ ∃ row ∈ rows, labelOf row = label := by
  rw [List.mem_toFinset, List.mem_filter, List.mem_map, and_comm]

/-- The rows of the labels found are the rows of web attacks. -/
theorem labelled_eq {rows : List DataRow} :
    labelled ((rows.map labelOf).filter containsWeb).toFinset rows =
      rows.filter fun row => containsWeb (labelOf row) := by
  refine List.filter_congr fun row member => ?_
  rw [Bool.eq_iff_iff, decide_eq_true_iff, mem_webLabels]
  exact and_iff_left ⟨row, member, rfl⟩

end Labels

/-! ## Samples -/

section Samples

variable {columns : List String} {webLabels : Finset Text} {chunks : List (List DataRow)}

theorem labelled_flatten :
    (chunks.map (labelled webLabels)).flatten = labelled webLabels chunks.flatten :=
  List.filter_flatten.symm

/-- With all columns, every chunk that has such rows gives them. -/
theorem foldlM_collectSamples (labels : "Label" ∈ columns)
    (features : ∀ col ∈ featureList, col ∈ columns) (webSamples : List (List DataRow)) :
    chunks.foldlM (collectSamples columns webLabels) webSamples =
      .ok (webSamples ++ (chunks.map (labelled webLabels)).filter fun chunk => !chunk.isEmpty) := by
  induction chunks generalizing webSamples with
  | nil => rw [List.map_nil, List.filter_nil, List.append_nil]; rfl
  | cons chunk rest ih =>
      rw [List.foldlM_cons, collectSamples, if_pos labels, List.map_cons]
      cases empty : (labelled webLabels chunk).isEmpty with
      | true =>
          rw [if_pos rfl, List.filter_cons_of_neg (by simp [empty])]
          exact ih webSamples
      | false =>
          rw [if_neg Bool.false_ne_true, if_pos features, List.filter_cons_of_pos (by simp [empty])]
          refine (ih (webSamples ++ [labelled webLabels chunk])).trans ?_
          rw [List.append_assoc]
          rfl

/-- Without one of them, the first such row raises. -/
theorem foldlM_collectSamples_missing (labels : "Label" ∈ columns)
    (missing : ∃ col ∈ featureList, col ∉ columns) (some : labelled webLabels chunks.flatten ≠ [])
    (webSamples : List (List DataRow)) :
    chunks.foldlM (collectSamples columns webLabels) webSamples = .error .keyError := by
  induction chunks generalizing webSamples with
  | nil => exact absurd rfl some
  | cons chunk rest ih =>
      have incomplete : ¬∀ col ∈ featureList, col ∈ columns := by
        obtain ⟨col, member, absent⟩ := missing
        exact fun all => absent (all col member)
      rw [List.foldlM_cons, collectSamples, if_pos labels]
      cases empty : (labelled webLabels chunk).isEmpty with
      | true =>
          rw [if_pos rfl]
          refine ih (fun none => some ?_) webSamples
          rw [List.flatten_cons, labelled, List.filter_append]
          exact List.append_eq_nil_iff.mpr ⟨List.isEmpty_iff.mp empty, none⟩
      | false =>
          rw [if_neg Bool.false_ne_true, if_neg incomplete]
          rfl

theorem flatten_filter_isEmpty {α : Type*} (l : List (List α)) :
    (l.filter fun chunk => !chunk.isEmpty).flatten = l.flatten := by
  induction l with
  | nil => rfl
  | cons chunk rest ih =>
      cases chunk with
      | nil => exact ih
      | cons a more => exact congrArg (a :: more ++ ·) ih

/-- **The rules** are those of all such rows. -/
theorem learnRules_eq (labels : "Label" ∈ columns)
    (features : ∀ col ∈ featureList, col ∈ columns)
    (some : labelled webLabels chunks.flatten ≠ []) :
    learnRules columns webLabels chunks = .ok (rulesOf (labelled webLabels chunks.flatten)) := by
  have all : ((chunks.map (labelled webLabels)).filter fun chunk => !chunk.isEmpty).flatten =
      labelled webLabels chunks.flatten := by
    rw [flatten_filter_isEmpty, labelled_flatten]
  have found : ((chunks.map (labelled webLabels)).filter fun chunk => !chunk.isEmpty).isEmpty =
      false := by
    refine Bool.eq_false_iff.mpr fun empty => some ?_
    rw [← all, List.isEmpty_iff.mp empty, List.flatten_nil]
  rw [learnRules, foldlM_collectSamples labels features, List.nil_append]
  simp only [bind, Except.bind, found, all]
  rfl

theorem firstSample_eq :
    firstSample webLabels chunks = (labelled webLabels chunks.flatten).head? := by
  induction chunks with
  | nil => rfl
  | cons chunk rest ih =>
      have split : labelled webLabels (chunk :: rest).flatten =
          labelled webLabels chunk ++ labelled webLabels rest.flatten := List.filter_append _ _
      rw [split, List.head?_append, ← ih, firstSample, List.findSome?_cons]
      cases (labelled webLabels chunk).head? with
      | none => rfl
      | some row => rfl

end Samples

/-! ## Bounds -/

section Bounds

variable {values : List ℚ}

theorem ceil_twentieth (m : ℕ) : ⌈(1 / 20 : ℚ) * m⌉₊ ≤ (m + 19) / 20 := by
  have whole : m ≤ 20 * ((m + 19) / 20) := by omega
  have rational : (m : ℚ) ≤ 20 * ((m + 19) / 20 : ℕ) := by exact_mod_cast whole
  refine Nat.ceil_le.mpr ?_
  linarith

theorem floor_nineteen_twentieths (m : ℕ) : 19 * m / 20 ≤ ⌊(19 / 20 : ℚ) * m⌋₊ := by
  have whole : 20 * (19 * m / 20) ≤ 19 * m := Nat.mul_div_le _ _
  have rational : 20 * ((19 * m / 20 : ℕ) : ℚ) ≤ 19 * m := by exact_mod_cast whole
  refine Nat.le_floor ?_
  linarith

/-- **The bounds of a column** leave little outside. -/
theorem covers_quantile (some : values ≠ []) :
    Covers values (quantile (1 / 20) values) (quantile (19 / 20) values) where
  ordered := quantile_mono (by norm_num) (by norm_num) values
  below := by
    have few := countP_lt_quantile (q := (1 / 20 : ℚ)) values (by norm_num)
    have part := ceil_twentieth (values.length - 1)
    have positive := List.length_pos_iff.mpr some
    omega
  above := by
    have few := countP_quantile_lt (q := (19 / 20 : ℚ)) values (by norm_num)
    have part := floor_nineteen_twentieths (values.length - 1)
    have positive := List.length_pos_iff.mpr some
    omega

theorem covered_rulesOf (webDf : List DataRow) {col : String} (member : col ∈ featureList) :
    valuesOf webDf col = [] ∧ (col, .nan) ∈ rulesOf webDf ∨
      ∃ low high, (col, .between low high) ∈ rulesOf webDf ∧
        learnWebRules (valuesOf webDf) col = some (low, high) ∧
        Covers (valuesOf webDf col) low high := by
  have entry : (col, boundsOf (valuesOf webDf col)) ∈ rulesOf webDf :=
    List.mem_map_of_mem (f := fun col => (col, boundsOf (valuesOf webDf col))) member
  by_cases none : valuesOf webDf col = []
  · rw [none] at entry
    exact Or.inl ⟨none, entry⟩
  · rw [boundsOf, if_neg (by simpa using none)] at entry
    exact Or.inr ⟨_, _, entry, if_pos member, covers_quantile none⟩

end Bounds

/-- **Learning from a file.** Whatever its length, so wherever it is cut: without
web attacks the labels raise, and with them everything is taken from the rows of
web attacks, all of them, in their order. -/
theorem web_rules_learned (f : DataFile) :
    ("Label" ∉ f.columns ∨ f.webRows = [] →
        getWebLabels f.columns f.chunks = .error .valueError) ∧
      ("Label" ∈ f.columns → f.webRows ≠ [] → ∃ webLabels, Learned f webLabels) := by
  have rows : f.chunks.flatten = f.rows := flatten_pieces (by decide) f.rows
  constructor
  · intro without
    have nothing : f.chunks.foldl (collectLabels f.columns) ∅ = ∅ := by
      by_cases labels : "Label" ∈ f.columns
      · have none := without.resolve_left (not_not.mpr labels)
        rw [foldl_collectLabels labels, rows, Finset.empty_union, List.toFinset_eq_empty_iff,
          List.filter_map, List.map_eq_nil_iff]
        exact none
      · exact foldl_collectLabels_none labels ∅
    rw [getWebLabels]
    exact if_pos nothing
  · intro labels some
    let webLabels := ((f.rows.map labelOf).filter containsWeb).toFinset
    have web : labelled webLabels f.chunks.flatten = f.webRows := by
      rw [rows]
      exact labelled_eq
    have someLabelled : labelled webLabels f.chunks.flatten ≠ [] := web ▸ some
    refine ⟨webLabels, ?_, fun label => mem_webLabels, ?_, ?_, fun col => covered_rulesOf _, ?_⟩
    · have found : f.chunks.foldl (collectLabels f.columns) ∅ = webLabels := by
        rw [foldl_collectLabels labels, rows, Finset.empty_union]
      have notEmpty : webLabels ≠ ∅ := by
        rw [Ne, List.toFinset_eq_empty_iff, List.filter_map, List.map_eq_nil_iff]
        exact some
      rw [getWebLabels, found]
      exact if_neg notEmpty
    · intro missing
      rw [learnRules, foldlM_collectSamples_missing labels missing someLabelled]
      rfl
    · intro features
      rw [learnRules_eq labels features someLabelled, web]
    · rw [firstSample_eq, web]

end EbpfNids.Training
