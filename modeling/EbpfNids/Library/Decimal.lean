import Mathlib.Data.Nat.Digits.Lemmas
import Mathlib.Data.List.TakeWhile

/-!
# Texts and decimal numerals

A text is the list of its code points. `decimal` writes a number without
leading zeros and `value` reads the number back (`value_decimal`). The digits of
Mathlib's `Nat.digits` are least significant first; a numeral is their reverse.
-/

set_option autoImplicit false

namespace Library

/-- A text, as its code points. -/
abbrev Text := List ℕ

/-- The text of a string literal. -/
def text (s : String) : Text := s.toList.map Char.toNat

/-- The bytes of a text of characters below 128. -/
def asciiBytes (t : Text) : List UInt8 := t.map UInt8.ofNat

theorem asciiBytes_append (s t : Text) : asciiBytes (s ++ t) = asciiBytes s ++ asciiBytes t :=
  List.map_append

namespace Decimal

def isDigit (c : ℕ) : Bool := 48 ≤ c && c ≤ 57

theorem isDigit_iff {c : ℕ} : isDigit c = true ↔ 48 ≤ c ∧ c ≤ 57 := by
  simp [isDigit]

/-- The number that digits stand for. -/
def value (l : Text) : ℕ := l.foldl (fun v c => 10 * v + (c - 48)) 0

/-- The numeral of a number. -/
def decimal (n : ℕ) : Text :=
  if n = 0 then [48] else ((Nat.digits 10 n).map (48 + ·)).reverse

/-- The numeral of an integer, with a sign when it is negative. -/
def decimalInt (z : ℤ) : Text :=
  if z < 0 then 45 :: decimal z.natAbs else decimal z.natAbs

theorem decimalInt_natCast (n : ℕ) : decimalInt n = decimal n := by
  rw [decimalInt, if_neg (by omega), Int.natAbs_natCast]

theorem isDigit_of_mem_decimal {n c : ℕ} (member : c ∈ decimal n) : isDigit c = true := by
  rw [decimal] at member
  split at member
  · obtain rfl := List.mem_singleton.mp member
    rfl
  · obtain ⟨d, digit, rfl⟩ := List.mem_map.mp (List.mem_reverse.mp member)
    have := Nat.digits_lt_base (by decide : 1 < 10) digit
    exact isDigit_iff.mpr (by omega)

/-- Reading a numeral gives the number back. -/
theorem value_decimal (n : ℕ) : value (decimal n) = n := by
  rw [decimal]
  split
  · rename_i zero
    rw [zero]
    rfl
  · rw [value, List.foldl_reverse, List.foldr_map]
    have reads : ∀ l : List ℕ,
        l.foldr (fun d v => 10 * v + (48 + d - 48)) 0 = Nat.ofDigits 10 l := by
      intro l
      induction l with
      | nil => rfl
      | cons d rest ih =>
          rw [List.foldr_cons, ih, Nat.ofDigits_cons]
          omega
    rw [reads, Nat.ofDigits_digits]

/-- A numeral is `0` or starts with another digit. -/
theorem decimal_cases (n : ℕ) :
    (n = 0 ∧ decimal n = [48]) ∨
      ∃ d ds, decimal n = d :: ds ∧ 49 ≤ d ∧ d ≤ 57 ∧ ∀ c ∈ ds, isDigit c = true := by
  by_cases zero : n = 0
  · exact Or.inl ⟨zero, by rw [decimal, if_pos zero]⟩
  · right
    have last := Nat.getLast_digit_ne_zero 10 zero
    have nonempty : Nat.digits 10 n ≠ [] := Nat.digits_ne_nil_iff_ne_zero.mpr zero
    have split : decimal n = (48 + (Nat.digits 10 n).getLast nonempty) ::
        ((Nat.digits 10 n).dropLast.map (48 + ·)).reverse := by
      rw [decimal, if_neg zero]
      conv_lhs => rw [← List.dropLast_append_getLast nonempty]
      simp
    refine ⟨_, _, split, ?_, ?_, ?_⟩
    · omega
    · have := Nat.digits_lt_base (by decide : 1 < 10) (List.getLast_mem nonempty)
      omega
    · intro c member
      exact isDigit_of_mem_decimal (n := n) (split ▸ List.mem_cons_of_mem _ member)

theorem length_decimal_le {n k : ℕ} (positive : 0 < k) (small : n < 10 ^ k) :
    (decimal n).length ≤ k := by
  rw [decimal]
  split
  · exact positive
  · rw [List.length_reverse, List.length_map]
    exact (Nat.digits_length_le_iff (by decide) n).mpr small

theorem length_decimalInt_le {z : ℤ} {k : ℕ} (positive : 0 < k) (small : z.natAbs < 10 ^ k) :
    (decimalInt z).length ≤ k + 1 := by
  have bound := length_decimal_le positive small
  rw [decimalInt]
  split
  · exact Nat.succ_le_succ bound
  · exact Nat.le_succ_of_le bound

/-- Digits end where something else follows. -/
theorem takeWhile_digits {l rest : Text} (digits : ∀ c ∈ l, isDigit c = true)
    (stop : ∀ c ∈ rest.head?, isDigit c = false) :
    (l ++ rest).takeWhile isDigit = l ∧ (l ++ rest).dropWhile isDigit = rest := by
  rw [List.takeWhile_append_of_pos digits, List.dropWhile_append_of_pos digits]
  cases rest with
  | nil => exact ⟨List.append_nil l, rfl⟩
  | cons c after =>
      have other := stop c rfl
      rw [List.takeWhile_cons_of_neg (by simp [other]),
        List.dropWhile_cons_of_neg (by simp [other])]
      exact ⟨List.append_nil l, rfl⟩

end Decimal

end Library
