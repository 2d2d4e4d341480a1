import Mathlib.Algebra.Order.Floor.Semiring
import Mathlib.Algebra.Order.Field.Basic
import Mathlib.Data.List.Sort
import Mathlib.Tactic.Linarith

/-!
# Quantiles of a sample

The quantile of a sample is its sorted list read at a position between two
elements, on the line from the one to the other. A sequence that does not
decrease is read so without decreasing (`interpolate_mono`), and so a larger
quantile is at least a smaller one (`quantile_mono`). At most the rounded part of
a sample lies on either side of its quantile (`countP_lt_quantile`,
`countP_quantile_lt`).
-/

set_option autoImplicit false

namespace Library.Quantile

variable {K : Type*} [Field K] [LinearOrder K] [IsStrictOrderedRing K] [FloorSemiring K]

/-- A sequence at a position, on the line between the elements around it. -/
def interpolate (s : ℕ → K) (x : K) : K :=
  s ⌊x⌋₊ + (x - ⌊x⌋₊) * (s (⌊x⌋₊ + 1) - s ⌊x⌋₊)

/-- The elements of a sample in increasing order, the last one without end. -/
def ranked (l : List K) (i : ℕ) : K := ((l.mergeSort (· ≤ ·))[min i (l.length - 1)]?).getD 0

/-- The quantile `q` of a sample. -/
def quantile (q : K) (l : List K) : K := interpolate (ranked l) (q * ((l.length - 1 : ℕ) : K))

variable {s : ℕ → K}

/-- Between two elements. -/
theorem le_interpolate (mono : Monotone s) {x : K} (nonneg : 0 ≤ x) : s ⌊x⌋₊ ≤ interpolate s x := by
  have step : 0 ≤ s (⌊x⌋₊ + 1) - s ⌊x⌋₊ := sub_nonneg.mpr (mono (Nat.le_succ _))
  have part : 0 ≤ x - ⌊x⌋₊ := sub_nonneg.mpr (Nat.floor_le nonneg)
  exact le_add_of_nonneg_right (mul_nonneg part step)

theorem interpolate_le (mono : Monotone s) (x : K) : interpolate s x ≤ s (⌊x⌋₊ + 1) := by
  have step : 0 ≤ s (⌊x⌋₊ + 1) - s ⌊x⌋₊ := sub_nonneg.mpr (mono (Nat.le_succ _))
  have part : x - ⌊x⌋₊ ≤ 1 := by
    have := Nat.lt_floor_add_one x
    linarith
  have most := mul_le_of_le_one_left step part
  rw [interpolate]
  linarith

theorem interpolate_mono (mono : Monotone s) {x y : K} (nonneg : 0 ≤ x) (le : x ≤ y) :
    interpolate s x ≤ interpolate s y := by
  rcases Nat.lt_or_eq_of_le (Nat.floor_mono le) with apart | same
  · calc interpolate s x ≤ s (⌊x⌋₊ + 1) := interpolate_le mono x
      _ ≤ s ⌊y⌋₊ := mono apart
      _ ≤ interpolate s y := le_interpolate mono (nonneg.trans le)
  · have step : 0 ≤ s (⌊y⌋₊ + 1) - s ⌊y⌋₊ := sub_nonneg.mpr (mono (Nat.le_succ _))
    rw [interpolate, interpolate, same]
    have parts : x - ⌊y⌋₊ ≤ y - ⌊y⌋₊ := sub_le_sub_right le _
    have := mul_le_mul_of_nonneg_right parts step
    linarith

omit [IsStrictOrderedRing K] [FloorSemiring K] in
theorem ranked_mono (l : List K) : Monotone (ranked l) := by
  intro i j le
  have sorted : (l.mergeSort (· ≤ ·)).SortedLE :=
    List.Pairwise.sortedLE (by simpa using List.pairwise_mergeSort' (· ≤ ·) l)
  rw [ranked, ranked]
  have length : (l.mergeSort (· ≤ ·)).length = l.length := List.length_mergeSort l
  cases l with
  | nil => simp
  | cons a rest =>
      have inI : min i ((a :: rest).length - 1) < ((a :: rest).mergeSort (· ≤ ·)).length := by
        rw [length, List.length_cons]
        omega
      have inJ : min j ((a :: rest).length - 1) < ((a :: rest).mergeSort (· ≤ ·)).length := by
        rw [length, List.length_cons]
        omega
      rw [List.getElem?_eq_getElem inI, List.getElem?_eq_getElem inJ]
      exact sorted.getElem_le_getElem_of_le (min_le_min_right _ le)

/-- **Larger quantiles are larger.** -/
theorem quantile_mono {p q : K} (nonneg : 0 ≤ p) (le : p ≤ q) (l : List K) :
    quantile p l ≤ quantile q l := by
  have size : (0 : K) ≤ ((l.length - 1 : ℕ) : K) := Nat.cast_nonneg _
  exact interpolate_mono (ranked_mono l) (mul_nonneg nonneg size)
    (mul_le_mul_of_nonneg_right le size)

/-! ## How much of a sample lies on either side -/

/-- A list of which everything from a position on fails a test. -/
theorem countP_le_of_drop {α : Type*} {p : α → Bool} {l : List α} {k : ℕ}
    (rest : ∀ a ∈ l.drop k, p a = false) : l.countP p ≤ k := by
  have none : (l.drop k).countP p = 0 :=
    List.countP_eq_zero.mpr fun a member => Bool.eq_false_iff.mp (rest a member)
  calc l.countP p = (l.take k).countP p + (l.drop k).countP p := by
        rw [← List.countP_append, List.take_append_drop]
    _ = (l.take k).countP p := by rw [none, Nat.add_zero]
    _ ≤ (l.take k).length := List.countP_le_length
    _ ≤ k := List.length_take_le k l

/-- A list of which everything up to a position fails a test. -/
theorem countP_le_of_take {α : Type*} {p : α → Bool} {l : List α} {k : ℕ}
    (first : ∀ a ∈ l.take k, p a = false) : l.countP p ≤ l.length - k := by
  have none : (l.take k).countP p = 0 :=
    List.countP_eq_zero.mpr fun a member => Bool.eq_false_iff.mp (first a member)
  calc l.countP p = (l.take k).countP p + (l.drop k).countP p := by
        rw [← List.countP_append, List.take_append_drop]
    _ = (l.drop k).countP p := by rw [none, Nat.zero_add]
    _ ≤ (l.drop k).length := List.countP_le_length
    _ = l.length - k := List.length_drop

theorem interpolate_le_ceil (mono : Monotone s) {x : K} (nonneg : 0 ≤ x) :
    interpolate s x ≤ s ⌈x⌉₊ := by
  rcases Nat.lt_or_eq_of_le (Nat.floor_le_ceil x) with between | whole
  · exact (interpolate_le mono x).trans (mono between)
  · have same : x = ⌊x⌋₊ := le_antisymm (whole ▸ Nat.le_ceil x) (Nat.floor_le nonneg)
    rw [interpolate, ← whole, ← same, sub_self, zero_mul, add_zero]

omit [IsStrictOrderedRing K] [FloorSemiring K] in
/-- The element of the sorted sample at a position. -/
theorem ranked_getElem (l : List K) {i : ℕ} (bound : i < (l.mergeSort (· ≤ ·)).length) :
    (l.mergeSort (· ≤ ·))[i] = ranked l i := by
  have inside : i ≤ l.length - 1 := by
    rw [List.length_mergeSort] at bound
    omega
  rw [ranked, Nat.min_eq_left inside, List.getElem?_eq_getElem bound, Option.getD_some]

/-- **Below a quantile.** -/
theorem countP_lt_quantile {q : K} (l : List K) (nonneg : 0 ≤ q) :
    l.countP (· < quantile q l) ≤ ⌈q * ((l.length - 1 : ℕ) : K)⌉₊ := by
  have size : (0 : K) ≤ ((l.length - 1 : ℕ) : K) := Nat.cast_nonneg _
  rw [← (List.mergeSort_perm l (· ≤ ·)).countP_eq]
  refine countP_le_of_drop fun a member => decide_eq_false (not_lt.mpr ?_)
  obtain ⟨i, bound, rfl⟩ := List.mem_drop_iff_getElem.mp member
  rw [ranked_getElem]
  exact (interpolate_le_ceil (ranked_mono l) (mul_nonneg nonneg size)).trans
    (ranked_mono l (Nat.le_add_right _ _))

/-- **Above a quantile.** -/
theorem countP_quantile_lt {q : K} (l : List K) (nonneg : 0 ≤ q) :
    l.countP (quantile q l < ·) ≤ l.length - (⌊q * ((l.length - 1 : ℕ) : K)⌋₊ + 1) := by
  have size : (0 : K) ≤ ((l.length - 1 : ℕ) : K) := Nat.cast_nonneg _
  have length : (l.mergeSort (· ≤ ·)).length = l.length := List.length_mergeSort l
  rw [← (List.mergeSort_perm l (· ≤ ·)).countP_eq, ← length]
  refine countP_le_of_take fun a member => decide_eq_false (not_lt.mpr ?_)
  obtain ⟨i, bound, rfl⟩ := List.mem_take_iff_getElem.mp member
  rw [ranked_getElem]
  refine (ranked_mono l ?_).trans (le_interpolate (ranked_mono l) (mul_nonneg nonneg size))
  rw [List.length_mergeSort] at bound
  omega

end Library.Quantile
