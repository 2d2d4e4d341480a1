import Mathlib.Data.Nat.Factorial.Basic
import Mathlib.Data.List.FinRange
import EbpfNids.Library.Draws

/-!
# Reservoir sampling of the training data

`reservoir_sample` keeps the first rows until the reservoir is full. The row
after that replaces the row in slot `j`, where `j` is drawn from as many numbers
as rows have been processed, if there is such a slot.

The rows that are kept are those at some positions, which depend on the draws
only (`map_some_reservoirSample`). A set of positions without the newest one
comes about from itself and a draw beyond the slots; a set with it, from a set
that has some other position instead, and the draw of that slot. Either way
there are as many cases as there were rows beyond the slots, so every set comes
about equally often (`reservoir_uniform`).
-/

set_option autoImplicit false

namespace EbpfNids.Training

open Library

/-! ## The loop -/

/-- The rows in the reservoir, and how many rows have been processed. -/
structure Sampler (α : Type*) where
  reservoir : List α
  processed : ℕ

variable {α β : Type*}

/-- The loop on a row. `randint i` is what `np.random.randint(0, i)` returns. -/
def sampleRow (sampleSize : ℕ) (randint : ℕ → ℕ) (s : Sampler α) (row : α) : Sampler α :=
  let processed := s.processed + 1
  if s.reservoir.length < sampleSize then ⟨s.reservoir ++ [row], processed⟩
  else
    let j := randint processed
    ⟨if j < sampleSize then s.reservoir.set j row else s.reservoir, processed⟩

def sampleChunk (sampleSize : ℕ) (randint : ℕ → ℕ) (s : Sampler α) (chunk : List α) :
    Sampler α :=
  chunk.foldl (sampleRow sampleSize randint) s

/-- The rows that are written to the sample. -/
def reservoirSample (sampleSize : ℕ) (randint : ℕ → ℕ) (chunks : List (List α)) : List α :=
  (chunks.foldl (sampleChunk sampleSize randint) ⟨[], 0⟩).reservoir

/-- The same for rows that are told apart by their positions `0`, `1`, and so
on. -/
def positions (sampleSize : ℕ) (randint : ℕ → ℕ) (n : ℕ) : List ℕ :=
  reservoirSample sampleSize randint [List.range n]

/-! ## Positions -/

section Positions

variable (k : ℕ) (randint : ℕ → ℕ)

/-- Where the file is divided does not matter. -/
theorem reservoirSample_flatten (chunks : List (List α)) :
    reservoirSample k randint [chunks.flatten] = reservoirSample k randint chunks := by
  rw [reservoirSample, reservoirSample, List.foldl_cons, List.foldl_nil, sampleChunk,
    List.foldl_flatten]
  rfl

/-- The loop does not look into the rows. -/
theorem sampleChunk_map (f : α → β) (s : Sampler α) (chunk : List α) :
    sampleChunk k randint ⟨s.reservoir.map f, s.processed⟩ (chunk.map f) =
      ⟨(sampleChunk k randint s chunk).reservoir.map f,
        (sampleChunk k randint s chunk).processed⟩ := by
  induction chunk generalizing s with
  | nil => rfl
  | cons row rest ih =>
      have here : sampleRow k randint ⟨s.reservoir.map f, s.processed⟩ (f row) =
          ⟨(sampleRow k randint s row).reservoir.map f, (sampleRow k randint s row).processed⟩ := by
        simp only [sampleRow, List.length_map]
        split
        · rw [List.map_append, List.map_singleton]
        · split
          · rw [List.map_set]
          · rfl
      rw [sampleChunk, List.map_cons, List.foldl_cons, here]
      exact ih _

theorem map_some_eq_map_getElem? (rows : List α) :
    rows.map some = (List.range rows.length).map fun p => rows[p]? := by
  apply List.ext_getElem
  · simp
  · intro i inside _
    rw [List.length_map] at inside
    simp

/-- **Only positions matter.** The sample has the rows at the positions that
the draws leave in the reservoir. -/
theorem map_some_reservoirSample (chunks : List (List α)) :
    (reservoirSample k randint chunks).map some =
      (positions k randint chunks.flatten.length).map fun p => chunks.flatten[p]? := by
  have left := congrArg Sampler.reservoir
    (sampleChunk_map k randint some ⟨[], 0⟩ chunks.flatten)
  have right := congrArg Sampler.reservoir
    (sampleChunk_map k randint (fun p => chunks.flatten[p]?) ⟨[], 0⟩
      (List.range chunks.flatten.length))
  rw [← map_some_eq_map_getElem?] at right
  rw [← reservoirSample_flatten]
  exact left.symm.trans right

theorem processed_sampleChunk (s : Sampler α) (chunk : List α) :
    (sampleChunk k randint s chunk).processed = s.processed + chunk.length := by
  induction chunk generalizing s with
  | nil => rfl
  | cons row rest ih =>
      have here : (sampleRow k randint s row).processed = s.processed + 1 := by
        rw [sampleRow]
        split
        · rfl
        · rfl
      rw [sampleChunk, List.foldl_cons, ← sampleChunk, ih, here, List.length_cons]
      omega

/-- One more row. -/
theorem positions_succ (n : ℕ) :
    positions k randint (n + 1) =
      (sampleRow k randint ⟨positions k randint n, n⟩ n).reservoir := by
  have before : sampleChunk k randint ⟨[], 0⟩ (List.range n) = ⟨positions k randint n, n⟩ := by
    have counted := processed_sampleChunk k randint ⟨[], 0⟩ (List.range n)
    rw [List.length_range, Nat.zero_add] at counted
    exact congrArg (Sampler.mk _) counted
  have last : sampleChunk k randint ⟨[], 0⟩ (List.range (n + 1)) =
      sampleRow k randint (sampleChunk k randint ⟨[], 0⟩ (List.range n)) n := by
    rw [List.range_succ, sampleChunk, List.foldl_append]
    rfl
  rw [positions, reservoirSample, List.foldl_cons, List.foldl_nil, last, before]

/-- Until the reservoir is full, every row is kept. -/
theorem positions_filling {n : ℕ} (room : n ≤ k) : positions k randint n = List.range n := by
  induction n with
  | zero => rfl
  | succ n ih =>
      have before := ih (Nat.le_of_succ_le room)
      rw [positions_succ, before, sampleRow, if_pos (by rw [List.length_range]; exact room),
        List.range_succ]

/-- The positions in a full reservoir are as many as the slots, different from
one another, and positions of rows. -/
structure Full (n : ℕ) (kept : List ℕ) : Prop where
  length : kept.length = k
  nodup : kept.Nodup
  inside : ∀ p ∈ kept, p < n

variable {k randint}

/-- A row that comes when the reservoir is full. -/
theorem positions_full {n : ℕ} (full : Full k n (positions k randint n)) :
    positions k randint (n + 1) =
      if randint (n + 1) < k then (positions k randint n).set (randint (n + 1)) n
      else positions k randint n := by
  rw [positions_succ, sampleRow, if_neg (Nat.not_lt.mpr (Nat.le_of_eq full.length.symm))]

theorem Full.step {n : ℕ} (full : Full k n (positions k randint n)) :
    Full k (n + 1) (positions k randint (n + 1)) := by
  have later : ∀ p ∈ positions k randint n, p < n + 1 :=
    fun p member => Nat.lt_succ_of_lt (full.inside p member)
  rw [positions_full full]
  split
  · refine ⟨by rw [List.length_set, full.length], full.nodup.set ?_, ?_⟩
    · exact fun member => Nat.lt_irrefl n (full.inside n member)
    · intro p member
      rcases List.mem_or_eq_of_mem_set member with old | rfl
      · exact later p old
      · exact Nat.lt_succ_self p
  · exact ⟨full.length, full.nodup, later⟩

theorem full_positions {n : ℕ} (more : k ≤ n) : Full k n (positions k randint n) := by
  induction n, more using Nat.le_induction with
  | base =>
      rw [positions_filling k randint (Nat.le_refl k)]
      exact ⟨List.length_range, List.nodup_range, fun p member => List.mem_range.mp member⟩
  | succ n more ih => exact ih.step

/-- Later draws do not matter. -/
theorem positions_congr {randint' : ℕ → ℕ} {n : ℕ}
    (same : ∀ i, k < i → i ≤ n → randint i = randint' i) :
    positions k randint n = positions k randint' n := by
  induction n with
  | zero => rfl
  | succ n ih =>
      have before := ih fun i beyond upTo => same i beyond (Nat.le_succ_of_le upTo)
      rcases Nat.lt_or_ge n k with room | more
      · rw [positions_filling k randint room, positions_filling k randint' room]
      · rw [positions_full (full_positions more), positions_full (full_positions more), before,
          same (n + 1) (Nat.lt_succ_of_le more) (Nat.le_refl _)]

end Positions

/-! ## Counting draws -/

section Counting

open Finset

variable {k m : ℕ}

/-- What `randint` returns in the order of the draws, the first of which is made
when the row `k + 1` has come. -/
def randintOf (draws : Draws k m) (processed : ℕ) : ℕ := draws.value (processed - (k + 1))

/-- The positions that are left in the end. -/
def kept (draws : Draws k m) : List ℕ := positions k (randintOf draws) (k + m)

theorem full_kept (draws : Draws k m) : Full k (k + m) (kept draws) :=
  full_positions (Nat.le_add_right k m)

/-- **Step lemma.** The last draw. -/
theorem kept_snoc (draws : Draws k m) (j : Fin (k + m + 1)) :
    kept (draws.snoc j) = if (j : ℕ) < k then (kept draws).set j (k + m) else kept draws := by
  have earlier : positions k (randintOf (draws.snoc j)) (k + m) = kept draws := by
    apply positions_congr
    intro i beyond upTo
    exact Draws.value_snoc_of_lt draws j (by omega)
  have last : randintOf (draws.snoc j) (k + m + 1) = j := by
    rw [randintOf, show k + m + 1 - (k + 1) = m by omega]
    exact Draws.value_snoc_last draws j
  have full : Full k (k + m) (positions k (randintOf (draws.snoc j)) (k + m)) :=
    full_positions (Nat.le_add_right k m)
  have step := positions_full full
  rwa [earlier, last] at step

/-- The set of the positions after a slot has been given to a new one. -/
theorem toFinset_set {slots : List ℕ} (nodup : slots.Nodup) {j n : ℕ} (inside : j < slots.length)
    (new : n ∉ slots) :
    (slots.set j n).toFinset = insert n (slots.toFinset.erase slots[j]) := by
  ext p
  rw [List.mem_toFinset, mem_insert, mem_erase, List.mem_toFinset]
  constructor
  · intro member
    obtain ⟨i, bound, rfl⟩ := List.mem_iff_getElem.mp member
    rw [List.length_set] at bound
    rw [List.getElem_set]
    split
    · exact Or.inl rfl
    · rename_i other
      refine Or.inr ⟨?_, List.getElem_mem bound⟩
      intro same
      exact other (nodup.getElem_inj_iff.mp same).symm
  · rintro (rfl | ⟨other, member⟩)
    · exact List.mem_set inside p
    · obtain ⟨i, bound, rfl⟩ := List.mem_iff_getElem.mp member
      have different : j ≠ i := by
        rintro rfl
        exact other rfl
      refine List.mem_iff_getElem.mpr ⟨i, by rwa [List.length_set], ?_⟩
      rw [List.getElem_set_of_ne different]

variable {slots : List ℕ} {T : Finset ℕ}

/-- A set without the newest position comes about from itself, by a draw beyond
the slots. -/
theorem card_draws_old (full : Full k (k + m) slots) (old : k + m ∉ T) :
    #{j : Fin (k + m + 1) | (if (j : ℕ) < k then slots.set j (k + m) else slots).toFinset = T} =
      if slots.toFinset = T then m + 1 else 0 := by
  have beyond : ∀ j : Fin (k + m + 1),
      (if (j : ℕ) < k then slots.set j (k + m) else slots).toFinset = T ↔
        slots.toFinset = T ∧ ¬ (j : ℕ) < k := by
    intro j
    by_cases slot : (j : ℕ) < k
    · rw [if_pos slot]
      refine iff_of_false ?_ fun both => both.2 slot
      rintro rfl
      refine old (List.mem_toFinset.mpr (List.mem_set ?_ _))
      rw [full.length]
      exact slot
    · rw [if_neg slot, and_iff_left slot]
  rw [filter_congr fun j _ => beyond j]
  by_cases same : slots.toFinset = T
  · rw [if_pos same]
    have all : #{j : Fin (k + m + 1) | (j : ℕ) < k} = k := by
      rw [Fin.card_filter_val_lt]
      omega
    have parts := card_filter_add_card_filter_not (s := univ) fun j : Fin (k + m + 1) => (j : ℕ) < k
    rw [all, card_univ, Fintype.card_fin] at parts
    simp only [same, true_and]
    omega
  · rw [if_neg same, card_eq_zero]
    exact filter_false_of_mem fun j _ both => same both.1

/-- A set with the newest position comes about by the draw of a slot, from the
positions that are the same but for that slot's. -/
theorem toFinset_draw_eq_iff (full : Full k (k + m) slots) (new : k + m ∈ T)
    (j : Fin (k + m + 1)) :
    (if (j : ℕ) < k then slots.set j (k + m) else slots).toFinset = T ↔
      ∃ inside : (j : ℕ) < slots.length,
        slots.toFinset.erase slots[(j : ℕ)] = T.erase (k + m) := by
  have fresh : k + m ∉ slots := fun member => Nat.lt_irrefl _ (full.inside _ member)
  have freshSet : k + m ∉ slots.toFinset := mt List.mem_toFinset.mp fresh
  by_cases slot : (j : ℕ) < k
  · have inside : (j : ℕ) < slots.length := by rwa [full.length]
    rw [if_pos slot, toFinset_set full.nodup inside fresh]
    have freshRest : k + m ∉ slots.toFinset.erase slots[(j : ℕ)] :=
      fun member => freshSet (mem_of_mem_erase member)
    constructor
    · rintro rfl
      exact ⟨inside, (erase_insert freshRest).symm⟩
    · rintro ⟨_, same⟩
      rw [same, insert_erase new]
  · rw [if_neg slot]
    refine iff_of_false ?_ ?_
    · rintro rfl
      exact freshSet new
    · rintro ⟨inside, -⟩
      rw [full.length] at inside
      exact slot inside

/-- A set with the newest position comes about from one that has all its other
positions, by the draw of the slot whose position it does not have. -/
theorem card_draws_new (full : Full k (k + m) slots) (new : k + m ∈ T) (size : #T = k) :
    #{j : Fin (k + m + 1) | (if (j : ℕ) < k then slots.set j (k + m) else slots).toFinset = T} =
      if T.erase (k + m) ⊆ slots.toFinset then 1 else 0 := by
  have slotsSize : slots.toFinset.card = k := by
    rw [List.toFinset_card_of_nodup full.nodup, full.length]
  rw [filter_congr fun j _ => toFinset_draw_eq_iff full new j]
  by_cases others : T.erase (k + m) ⊆ slots.toFinset
  · rw [if_pos others, card_eq_one]
    have one : #(slots.toFinset \ T.erase (k + m)) = 1 := by
      rw [card_sdiff_of_subset others, slotsSize, card_erase_of_mem new, size]
      have positive : 0 < k := by
        rw [← size]
        exact card_pos.mpr ⟨_, new⟩
      omega
    obtain ⟨p, only⟩ := card_eq_one.mp one
    have member : p ∈ slots.toFinset \ T.erase (k + m) := by
      rw [only]
      exact mem_singleton_self p
    obtain ⟨inSlots, notInT⟩ := mem_sdiff.mp member
    obtain ⟨i, bound, rfl⟩ := List.mem_iff_getElem.mp (List.mem_toFinset.mp inSlots)
    have erased : slots.toFinset.erase slots[i] = T.erase (k + m) := by
      rw [← sdiff_singleton_eq_erase, ← only, sdiff_sdiff_right_self]
      exact inf_eq_right.mpr others
    have room : i < k + m + 1 := by
      rw [full.length] at bound
      omega
    refine ⟨⟨i, room⟩, ?_⟩
    ext j
    rw [mem_filter, mem_singleton]
    constructor
    · rintro ⟨-, inside, same⟩
      rw [← erased] at same
      have slot : slots[(j : ℕ)] = slots[i] :=
        erase_injOn _ (List.mem_toFinset.mpr (List.getElem_mem inside)) inSlots same
      exact Fin.ext (full.nodup.getElem_inj_iff.mp slot)
    · rintro rfl
      exact ⟨mem_univ _, bound, erased⟩
  · rw [if_neg others, card_eq_zero]
    refine filter_false_of_mem ?_
    rintro j - ⟨_, same⟩
    exact others (same ▸ erase_subset _ _)

/-- The sets that have all positions of a set but one, and some other position. -/
theorem card_kept_superset {part : Finset ℕ} (inside : part ⊆ range (k + m))
    (size : part.card + 1 = k)
    (each : ∀ whole ⊆ range (k + m), whole.card = k →
      #{draws : Draws k m | (kept draws).toFinset = whole} = m.factorial) :
    #{draws : Draws k m | part ⊆ (kept draws).toFinset} = (m + 1) * m.factorial := by
  have others : #(range (k + m) \ part) = m + 1 := by
    rw [card_sdiff_of_subset inside, card_range]
    omega
  have split : ({draws : Draws k m | part ⊆ (kept draws).toFinset} : Finset _) =
      (range (k + m) \ part).biUnion fun p =>
        {draws : Draws k m | (kept draws).toFinset = insert p part} := by
    ext draws
    simp only [mem_filter, mem_univ, true_and, mem_biUnion]
    constructor
    · intro contained
      have wholeSize : #(kept draws).toFinset = k := by
        rw [List.toFinset_card_of_nodup (full_kept draws).nodup, (full_kept draws).length]
      have one : #((kept draws).toFinset \ part) = 1 := by
        rw [card_sdiff_of_subset contained, wholeSize]
        omega
      obtain ⟨p, only⟩ := card_eq_one.mp one
      have member : p ∈ (kept draws).toFinset \ part := by
        rw [only]
        exact mem_singleton_self p
      obtain ⟨inKept, notInPart⟩ := mem_sdiff.mp member
      refine ⟨p, mem_sdiff.mpr ⟨?_, notInPart⟩, ?_⟩
      · exact mem_range.mpr ((full_kept draws).inside p (List.mem_toFinset.mp inKept))
      · rw [insert_eq, ← only, sdiff_union_of_subset contained]
    · rintro ⟨p, -, same⟩
      rw [same]
      exact subset_insert p part
  rw [split, card_biUnion]
  · rw [sum_congr rfl fun p member => each (insert p part) ?_ ?_, sum_const, others,
      smul_eq_mul]
    · exact insert_subset (mem_sdiff.mp member).1 inside
    · rw [card_insert_of_notMem (mem_sdiff.mp member).2, size]
  · intro p inRange q _ different
    refine disjoint_filter.mpr fun draws _ same same' => different ?_
    have inQ : p ∈ insert q part := by
      rw [← same', same]
      exact mem_insert_self p part
    exact (mem_insert.mp inQ).resolve_right (mem_sdiff.mp inRange).2

/-- **Every set equally often.** -/
theorem card_kept {whole : Finset ℕ} (inside : whole ⊆ range (k + m)) (size : whole.card = k) :
    #{draws : Draws k m | (kept draws).toFinset = whole} = m.factorial := by
  induction m generalizing whole with
  | zero =>
      have all : whole = range k := eq_of_subset_of_card_le inside (by rw [card_range, size])
      have only : ∀ draws : Draws k 0, (kept draws).toFinset = whole := by
        intro draws
        rw [kept, Nat.add_zero, positions_filling _ _ (Nat.le_refl k), all, List.toFinset_range]
      rw [filter_true_of_mem fun draws _ => only draws]
      rfl
  | succ m ih =>
      rw [Draws.card_filter_succ]
      simp only [kept_snoc]
      by_cases newest : k + m ∈ whole
      · have part : whole.erase (k + m) ⊆ range (k + m) := by
          intro p member
          have below := mem_range.mp (inside (mem_of_mem_erase member))
          have other := ne_of_mem_erase member
          rw [mem_range]
          omega
        rw [sum_congr rfl fun draws _ => card_draws_new (full_kept draws) newest size,
          ← card_filter,
          card_kept_superset part (card_erase_add_one newest ▸ size) fun _ => ih,
          Nat.factorial_succ]
      · have older : whole ⊆ range (k + m) := by
          intro p member
          have below := mem_range.mp (inside member)
          have other : p ≠ k + m := by
            rintro rfl
            exact newest member
          rw [mem_range]
          omega
        rw [sum_congr rfl fun draws _ => card_draws_old (full_kept draws) newest, ← sum_filter,
          sum_const, ih older size, smul_eq_mul, Nat.mul_comm, Nat.factorial_succ]

theorem card_positions {n : ℕ} (more : k ≤ n) {whole : Finset ℕ} (inside : whole ⊆ range n)
    (size : whole.card = k) :
    #{draws : Draws k (n - k) | (positions k (randintOf draws) n).toFinset = whole} =
      (n - k).factorial := by
  obtain ⟨m, rfl⟩ := Nat.exists_eq_add_of_le more
  rw [Nat.add_sub_cancel_left]
  exact card_kept inside size

end Counting

/-- **Reservoir sampling is uniform.** Whatever the size of the sample and the
division of the file: if the rows fit, the sample is all of them in order.
Otherwise the sample has the rows at as many different positions as it has
slots, and every such set of positions comes about from the same number of
sequences of draws. -/
theorem reservoir_uniform (sampleSize : ℕ) (chunks : List (List α)) :
    (chunks.flatten.length ≤ sampleSize →
      ∀ randint, reservoirSample sampleSize randint chunks = chunks.flatten) ∧
    (sampleSize ≤ chunks.flatten.length →
      (∀ randint,
        Full sampleSize chunks.flatten.length
            (positions sampleSize randint chunks.flatten.length) ∧
          (reservoirSample sampleSize randint chunks).map some =
            (positions sampleSize randint chunks.flatten.length).map
              fun p => chunks.flatten[p]?) ∧
      ∀ whole ⊆ Finset.range chunks.flatten.length, whole.card = sampleSize →
        (Finset.univ.filter fun draws : Draws sampleSize (chunks.flatten.length - sampleSize) =>
          (positions sampleSize (randintOf draws) chunks.flatten.length).toFinset = whole).card =
            (chunks.flatten.length - sampleSize).factorial) := by
  constructor
  · intro room randint
    have rows := map_some_reservoirSample sampleSize randint chunks
    rw [positions_filling sampleSize randint room, ← map_some_eq_map_getElem?] at rows
    exact List.map_injective_iff.mpr (Option.some_injective α) rows
  · intro more
    refine ⟨fun randint => ⟨full_positions more, ?_⟩, fun whole => card_positions more⟩
    exact map_some_reservoirSample sampleSize randint chunks

/-- Two slots and three rows in two chunks: the first and the last row are kept
by one of the three sequences of draws. -/
theorem reservoir_uniform_three_rows :
    reservoirSample 3 (fun _ => 0) [[10], [20, 30]] = [10, 20, 30] ∧
      (Finset.univ.filter fun draws : Draws 2 1 =>
        (positions 2 (randintOf draws) 3).toFinset = {0, 2}).card = 1 :=
  ⟨(reservoir_uniform 3 [[10], [20, 30]]).1 (by decide) fun _ => 0,
    ((reservoir_uniform 2 [[10], [20, 30]]).2 (by decide)).2 {0, 2} (by decide) (by decide)⟩

end EbpfNids.Training
