import Mathlib.Algebra.Order.Ring.Rat
import Mathlib.Data.Rat.Floor
import EbpfNids.Library.Quantile

/-!
# The rule for web attacks

`learn_web_rules` takes the 5% and the 95% quantile of every feature over the
web attacks of the training data. `is_web_attack` accepts a feature vector whose
values are all between the two, where the tolerance scales the lower one down
and the upper one up. Scaling a negative bound moves it the other way: the
tolerance widens the rule exactly when no lower bound is negative
(`tolerance_widens_iff`). Numbers are exact rationals.
-/

set_option autoImplicit false

namespace EbpfNids.Training

open Library.Quantile

/-! ## The rule -/

def featureList : List String :=
  ["Flow Duration", "Total Fwd Packets", "Total Backward Packets",
    "Total Length of Fwd Packets", "Total Length of Bwd Packets",
    "Fwd Packet Length Max", "Fwd Packet Length Min", "Bwd Packet Length Max",
    "Bwd Packet Length Min", "Flow Bytes/s", "Flow Packets/s",
    "Fwd IAT Mean", "Bwd IAT Mean", "SYN Flag Count", "ACK Flag Count"]

/-- The dictionary of the rules: the low and the high bound of a column. -/
abbrev Rules := String → Option (ℚ × ℚ)

/-- What an expression raises on a missing key or element. -/
inductive LookupExn where
  | keyError
  | indexError
deriving DecidableEq, Repr

/-- The loop of `is_web_attack` over the columns from position `i` on. -/
def featuresInside (features : List ℚ) (rules : Rules) (tolerance : ℚ) :
    ℕ → List String → Except LookupExn Bool
  | _, [] => .ok true
  | i, col :: rest =>
      match rules col with
      | none => .error .keyError
      | some (low, high) =>
          match features[i]? with
          | none => .error .indexError
          | some val =>
              if low * (1 - tolerance) ≤ val ∧ val ≤ high * (1 + tolerance) then
                featuresInside features rules tolerance (i + 1) rest
              else .ok false

def isWebAttack (features : List ℚ) (rules : Rules) (tolerance : ℚ) : Except LookupExn Bool :=
  featuresInside features rules tolerance 0 featureList

/-- The predictor that `create_enhanced_predictor` makes of the model. -/
def enhancedPredict (predict : List ℚ → String) (rules : Rules) (tolerance : ℚ)
    (features : List ℚ) : Except LookupExn (String × Bool) :=
  let rawPred := predict features
  if rawPred ≠ "BENIGN" then .ok (rawPred, false)
  else
    match isWebAttack features rules tolerance with
    | .error e => .error e
    | .ok true => .ok ("Web Attack (Rule)", true)
    | .ok false => .ok ("BENIGN", false)

/-- The rules that `learn_web_rules` takes from the columns of the web attacks. -/
def learnWebRules (webDf : String → List ℚ) : Rules := fun col =>
  if col ∈ featureList then some (quantile (1 / 20) (webDf col), quantile (19 / 20) (webDf col))
  else none

/-- A dictionary that has bounds for every feature, the low one at most the high
one. -/
structure RuleTable where
  rules : Rules
  bounds : String → ℚ × ℚ
  complete : ∀ col ∈ featureList, rules col = some (bounds col)
  ordered : ∀ col ∈ featureList, (bounds col).1 ≤ (bounds col).2

/-- **The learned rules** have ordered bounds for every feature. -/
def RuleTable.learned (webDf : String → List ℚ) : RuleTable where
  rules := learnWebRules webDf
  bounds col := (quantile (1 / 20) (webDf col), quantile (19 / 20) (webDf col))
  complete _ member := if_pos member
  ordered col _ := quantile_mono (by norm_num) (by norm_num) (webDf col)

/-! ## What the tolerance is for -/

/-- Every feature has a value between its bounds. -/
def RuleTable.Inside (table : RuleTable) (features : List ℚ) : Prop :=
  ∀ (i : ℕ) (col : String), featureList[i]? = some col →
    ∃ val, features[i]? = some val ∧ (table.bounds col).1 ≤ val ∧ val ≤ (table.bounds col).2

/-- With a tolerance, the rule accepts every vector between the bounds, and with a
larger one all that it accepts now, so that the predictor relabels all that it
relabels now. -/
structure Widens (table : RuleTable) (predict : List ℚ → String) (tolerance : ℚ) : Prop where
  inside : ∀ features, table.Inside features → isWebAttack features table.rules tolerance = .ok true
  wider : ∀ larger, tolerance ≤ larger → ∀ features,
    isWebAttack features table.rules tolerance = .ok true →
      isWebAttack features table.rules larger = .ok true
  relabels : ∀ larger, tolerance ≤ larger → ∀ features,
    predict features = "BENIGN" →
      enhancedPredict predict table.rules tolerance features = .ok ("Web Attack (Rule)", true) →
        enhancedPredict predict table.rules larger features = .ok ("Web Attack (Rule)", true)

/-! ## What the rule accepts -/

/-- The value of a column that has bounds is between them, as the tolerance scales
them. -/
def Accepts (rules : Rules) (tolerance : ℚ) (col : String) (value : Option ℚ) : Prop :=
  ∃ low high val, rules col = some (low, high) ∧ value = some val ∧
    low * (1 - tolerance) ≤ val ∧ val ≤ high * (1 + tolerance)

section Loop

variable {features : List ℚ} {rules : Rules} {tolerance : ℚ} {i : ℕ}

/-- One round of the loop. -/
theorem featuresInside_cons {col : String} {rest : List String} :
    featuresInside features rules tolerance i (col :: rest) = .ok true ↔
      Accepts rules tolerance col features[i]? ∧
        featuresInside features rules tolerance (i + 1) rest = .ok true := by
  rw [featuresInside]
  cases bounds : rules col with
  | none =>
      refine iff_of_false (fun accepted => nomatch accepted) ?_
      rintro ⟨⟨low, high, val, known, -⟩, -⟩
      rw [bounds] at known
      cases known
  | some pair =>
      obtain ⟨low, high⟩ := pair
      cases value : features[i]? with
      | none =>
          refine iff_of_false (fun accepted => nomatch accepted) ?_
          rintro ⟨⟨_, _, val, -, there, -⟩, -⟩
          cases there
      | some val =>
          dsimp only
          split
          · rename_i between
            rw [and_iff_right]
            exact ⟨low, high, val, bounds, rfl, between⟩
          · rename_i beyond
            refine iff_of_false (fun accepted => nomatch accepted) ?_
            rintro ⟨⟨low', high', val', known, there, between⟩, -⟩
            cases there
            rw [bounds] at known
            cases known
            exact beyond between

theorem forall_getElem?_cons {α : Type*} {P : ℕ → α → Prop} {a : α} {l : List α} :
    (∀ (j : ℕ) (c : α), (a :: l)[j]? = some c → P (i + j) c) ↔
      P i a ∧ ∀ (j : ℕ) (c : α), l[j]? = some c → P (i + 1 + j) c := by
  constructor
  · intro all
    refine ⟨all 0 a rfl, fun j c there => ?_⟩
    rw [Nat.add_assoc, Nat.add_comm 1 j]
    exact all (j + 1) c there
  · rintro ⟨here, later⟩ j c there
    cases j with
    | zero =>
        cases there
        exact here
    | succ j =>
        have := later j c there
        rwa [Nat.add_assoc, Nat.add_comm 1 j] at this

/-- **Loop lemma.** The loop accepts what every column accepts. -/
theorem featuresInside_iff {cols : List String} :
    featuresInside features rules tolerance i cols = .ok true ↔
      ∀ (j : ℕ) (col : String), cols[j]? = some col →
        Accepts rules tolerance col features[i + j]? := by
  induction cols generalizing i with
  | nil => simp [featuresInside]
  | cons col rest ih =>
      rw [featuresInside_cons, ih]
      exact (forall_getElem?_cons (P := fun k c => Accepts rules tolerance c features[k]?)).symm

end Loop

section Table

variable {table : RuleTable} {features : List ℚ} {tolerance : ℚ}

theorem isWebAttack_iff :
    isWebAttack features table.rules tolerance = .ok true ↔
      ∀ (i : ℕ) (col : String), featureList[i]? = some col →
        ∃ val, features[i]? = some val ∧ (table.bounds col).1 * (1 - tolerance) ≤ val ∧
          val ≤ (table.bounds col).2 * (1 + tolerance) := by
  rw [isWebAttack, featuresInside_iff]
  refine forall_congr' fun i => forall_congr' fun col => imp_congr_right fun there => ?_
  have known := table.complete col (List.mem_of_getElem? there)
  rw [Nat.zero_add, Accepts, known]
  constructor
  · rintro ⟨low, high, val, same, value, between⟩
    rw [Option.some.inj same]
    exact ⟨val, value, between⟩
  · rintro ⟨val, value, between⟩
    exact ⟨_, _, val, rfl, value, between⟩

theorem enhancedPredict_iff {predict : List ℚ → String} (benign : predict features = "BENIGN") :
    enhancedPredict predict table.rules tolerance features = .ok ("Web Attack (Rule)", true) ↔
      isWebAttack features table.rules tolerance = .ok true := by
  rw [enhancedPredict, benign, if_neg (not_not.mpr rfl)]
  cases isWebAttack features table.rules tolerance with
  | error e => exact iff_of_false (fun relabelled => nomatch relabelled) fun same => nomatch same
  | ok accepted =>
      cases accepted with
      | true => exact iff_of_true rfl rfl
      | false => simp

/-- The vector of the low bounds. -/
def RuleTable.lowest (table : RuleTable) : List ℚ := featureList.map fun col => (table.bounds col).1

theorem getElem?_lowest {i : ℕ} {col : String} (there : featureList[i]? = some col) :
    table.lowest[i]? = some (table.bounds col).1 := by
  rw [RuleTable.lowest, List.getElem?_map, there, Option.map_some]

theorem inside_lowest (table : RuleTable) : table.Inside table.lowest := fun _ col there =>
  ⟨_, getElem?_lowest there, le_rfl, table.ordered col (List.mem_of_getElem? there)⟩

/-- Without a tolerance the rule accepts the vectors between the bounds. -/
theorem isWebAttack_zero (inside : table.Inside features) :
    isWebAttack features table.rules 0 = .ok true := by
  rw [isWebAttack_iff]
  intro i col there
  obtain ⟨val, value, least, most⟩ := inside i col there
  exact ⟨val, value, by rwa [sub_zero, mul_one], by rwa [add_zero, mul_one]⟩

/-- Bounds that are not negative move apart. -/
theorem isWebAttack_mono (lows : ∀ col ∈ featureList, 0 ≤ (table.bounds col).1) {larger : ℚ}
    (le : tolerance ≤ larger) (accepted : isWebAttack features table.rules tolerance = .ok true) :
    isWebAttack features table.rules larger = .ok true := by
  rw [isWebAttack_iff] at accepted ⊢
  intro i col there
  obtain ⟨val, value, least, most⟩ := accepted i col there
  have member := List.mem_of_getElem? there
  have low := lows col member
  have high := low.trans (table.ordered col member)
  refine ⟨val, value, ?_, ?_⟩
  · calc (table.bounds col).1 * (1 - larger)
        ≤ (table.bounds col).1 * (1 - tolerance) := mul_le_mul_of_nonneg_left (by linarith) low
      _ ≤ val := least
  · calc val ≤ (table.bounds col).2 * (1 + tolerance) := most
      _ ≤ (table.bounds col).2 * (1 + larger) := mul_le_mul_of_nonneg_left (by linarith) high

end Table

/-- **What the tolerance does.** At every tolerance of at least zero the rule
widens with it exactly when no feature has a negative low bound. -/
theorem tolerance_widens_iff (table : RuleTable) (predict : List ℚ → String) {tolerance : ℚ}
    (nonneg : 0 ≤ tolerance) :
    Widens table predict tolerance ↔ ∀ col ∈ featureList, 0 ≤ (table.bounds col).1 := by
  constructor
  · intro widens col member
    obtain ⟨i, there⟩ := List.mem_iff_getElem?.mp member
    -- The low bounds themselves are to be accepted, with a larger tolerance too.
    have accepted := widens.wider (tolerance + 1) (by linarith) _
      (widens.inside _ (inside_lowest table))
    obtain ⟨val, value, least, -⟩ := isWebAttack_iff.mp accepted i col there
    rw [getElem?_lowest there, Option.some.injEq] at value
    rw [← value] at least
    nlinarith
  · intro lows
    refine ⟨fun features inside => isWebAttack_mono lows nonneg (isWebAttack_zero inside),
      fun larger le features => isWebAttack_mono lows le, ?_⟩
    intro larger le features benign relabelled
    rw [enhancedPredict_iff benign] at relabelled ⊢
    exact isWebAttack_mono lows le relabelled

/-- The rules of a table by column: one for `Flow Bytes/s` and one for all other
columns. -/
def tableOf (flowBytes others : ℚ × ℚ) (ordered : flowBytes.1 ≤ flowBytes.2 ∧ others.1 ≤ others.2) :
    RuleTable where
  rules col := if col ∈ featureList then
    some (if col = "Flow Bytes/s" then flowBytes else others) else none
  bounds col := if col = "Flow Bytes/s" then flowBytes else others
  complete _ member := if_pos member
  ordered col _ := by
    split
    · exact ordered.1
    · exact ordered.2

/-- The vector of the low bounds is accepted without a tolerance and not with
one of 10%, if one of them is negative. -/
theorem tolerance_narrows :
    let table := tableOf (-10, 10) (0, 0) (by decide)
    isWebAttack table.lowest table.rules 0 = .ok true ∧
      isWebAttack table.lowest table.rules (1 / 10) = .ok false ∧
      ∀ predict, ¬Widens table predict 0 ∧ ¬Widens table predict (1 / 10) := by
  intro table
  have without : isWebAttack table.lowest table.rules 0 = .ok true := by decide +kernel
  have narrowed : isWebAttack table.lowest table.rules (1 / 10) = .ok false := by decide +kernel
  refine ⟨without, narrowed, fun predict => ⟨fun widens => ?_, fun widens => ?_⟩⟩
  · have accepted := widens.wider (1 / 10) (by norm_num) _ without
    rw [narrowed] at accepted
    cases accepted
  · have accepted := widens.inside _ (inside_lowest table)
    rw [narrowed] at accepted
    cases accepted

theorem positive_bounds_widen :
    Widens (tableOf (10, 200) (0, 1) (by decide)) (fun _ => "BENIGN") (1 / 10) :=
  (tolerance_widens_iff (tableOf (10, 200) (0, 1) (by decide)) (fun _ => "BENIGN")
    (by norm_num)).mpr (by decide +kernel)

end EbpfNids.Training
