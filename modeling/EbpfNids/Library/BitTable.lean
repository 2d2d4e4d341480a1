import Mathlib.Algebra.BigOperators.Fin
import Mathlib.Algebra.BigOperators.Intervals
import Mathlib.Logic.Function.Basic

/-!
# Sets of numbers as tables of words

A table of `n` words of `w` bits stands for a set of numbers below `n * w`:
the number `p` is bit `p % w` of word `p / w`. Setting that bit inserts the
number (`members_setBit`), and the population counts of the words add up to
the number of elements (`sum_cpop_eq_card`).
-/

set_option autoImplicit false

namespace Library.BitTable

open Finset

/-! ## The population count of one word -/

section Word

variable {w : ℕ}

theorem cpopNatRec_eq_sum (x : BitVec w) (n : ℕ) :
    x.cpopNatRec n 0 = ∑ b ∈ range n, (x.getLsbD b).toNat := by
  induction n with
  | zero => rfl
  | succ n ih =>
      rw [BitVec.cpopNatRec_succ, BitVec.cpopNatRec_eq, ih, sum_range_succ, Nat.zero_add]

/-- The population count is the number of set bits. -/
theorem toNat_cpop_eq_sum (x : BitVec w) :
    x.cpop.toNat = ∑ b ∈ range w, (x.getLsbD b).toNat := by
  rw [BitVec.toNat_cpop, cpopNatRec_eq_sum]

end Word

/-! ## The set of a table -/

variable {n w : ℕ}

/-- Whether the table has the bit of a number. -/
def testBit (table : Fin n → BitVec w) (p : ℕ) : Bool :=
  if inside : p / w < n then (table ⟨p / w, inside⟩).getLsbD (p % w) else false

/-- The numbers whose bit is set. -/
def members (table : Fin n → BitVec w) : Finset ℕ :=
  (range (n * w)).filter fun p => testBit table p = true

theorem mem_members {table : Fin n → BitVec w} {p : ℕ} :
    p ∈ members table ↔ p < n * w ∧ testBit table p = true := by
  rw [members, mem_filter, mem_range]

@[simp] theorem members_zero : members (fun _ => 0 : Fin n → BitVec w) = ∅ := by
  ext p
  simp [members, testBit]

theorem testBit_word {table : Fin n → BitVec w} {i b : ℕ} (inside : i < n) (bit : b < w) :
    testBit table (i * w + b) = (table ⟨i, inside⟩).getLsbD b := by
  have word : (i * w + b) / w = i := by
    rw [Nat.mul_comm, Nat.mul_add_div (by omega), Nat.div_eq_of_lt bit, Nat.add_zero]
  have place : (i * w + b) % w = b := by
    rw [Nat.mul_comm, Nat.mul_add_mod, Nat.mod_eq_of_lt bit]
  simp only [testBit, word, place, inside, dif_pos]

theorem card_members (table : Fin n → BitVec w) :
    (members table).card = ∑ p ∈ range (n * w), (testBit table p).toNat := by
  rw [members, card_filter]
  apply sum_congr rfl
  intro p _
  cases testBit table p <;> rfl

theorem sum_range_words (f : ℕ → ℕ) (k : ℕ) :
    ∑ p ∈ range (k * w), f p = ∑ i ∈ range k, ∑ b ∈ range w, f (i * w + b) := by
  induction k with
  | zero => simp
  | succ k ih => rw [Nat.succ_mul, sum_range_add, ih, sum_range_succ]

/-- **The population counts of the words add up to the size of the set.** -/
theorem sum_cpop_eq_card (table : Fin n → BitVec w) :
    ∑ i, (table i).cpop.toNat = (members table).card := by
  rw [card_members, sum_range_words, sum_range]
  apply sum_congr rfl
  intro i _
  rw [toNat_cpop_eq_sum]
  apply sum_congr rfl
  intro b inWord
  rw [testBit_word i.isLt (mem_range.mp inWord)]

/-! ## Setting a bit -/

/-- The table with the bit of a number set. -/
def setBit (table : Fin n → BitVec w) (word : Fin n) (bit : ℕ) : Fin n → BitVec w :=
  Function.update table word (table word ||| (1#w <<< bit))

theorem getLsbD_one_shiftLeft {k b : ℕ} (inWord : b < w) :
    (1#w <<< k).getLsbD b = decide (b = k) := by
  simp only [BitVec.getLsbD_shiftLeft, BitVec.getLsbD_one, inWord, decide_true, Bool.true_and]
  by_cases same : b = k
  · simp [same]
    omega
  · by_cases below : b < k
    · simp [same, below]
    · have positive : b - k ≠ 0 := by omega
      simp [same, positive]

theorem testBit_setBit {table : Fin n → BitVec w} {p q : ℕ} (inside : p / w < n) (wide : 0 < w) :
    testBit (setBit table ⟨p / w, inside⟩ (p % w)) q = (decide (q = p) || testBit table q) := by
  unfold testBit
  by_cases within : q / w < n
  · simp only [within, dif_pos]
    by_cases word : q / w = p / w
    · have bit : q % w < w := Nat.mod_lt q wide
      have same : q % w = p % w ↔ q = p := by
        constructor
        · intro places
          rw [← Nat.div_add_mod q w, ← Nat.div_add_mod p w, word, places]
        · rintro rfl
          rfl
      simp only [setBit, word, Function.update_self, BitVec.getLsbD_or,
        getLsbD_one_shiftLeft bit, same, Bool.or_comm]
    · have different : (⟨q / w, within⟩ : Fin n) ≠ ⟨p / w, inside⟩ := by
        simpa [Fin.ext_iff] using word
      have distinct : q ≠ p := by
        intro same
        exact word (by rw [same])
      simp [setBit, Function.update_of_ne different, distinct]
  · have distinct : q ≠ p := by
      intro same
      exact within (by rw [same]; exact inside)
    simp [within, distinct]

/-- **Setting the bit of a number inserts the number.** -/
theorem members_setBit {table : Fin n → BitVec w} {p : ℕ} (inside : p / w < n) (wide : 0 < w) :
    members (setBit table ⟨p / w, inside⟩ (p % w)) = insert p (members table) := by
  have below : p < n * w := (Nat.div_lt_iff_lt_mul wide).mp inside
  ext q
  rw [mem_members, testBit_setBit inside wide, mem_insert, mem_members]
  by_cases same : q = p
  · simp [same, below]
  · simp [same]

end Library.BitTable
