import EbpfNids.Library.Decimal
import EbpfNids.Library.Endian

/-!
# Addresses as texts

An IPv4 address is four bytes in packet order. `inetNtoa` writes it as a dotted
quad, as `inet_ntoa` and `inet_ntop` do. `inetAton` reads what `inet_aton`
reads: one to four numbers, each in decimal, octal or hexadecimal as its prefix
says, the last of which fills the bytes that are left, and then nothing or
white space. A dotted quad is read as the address that it was written from
(`inetAton_inetNtoa`).
-/

set_option autoImplicit false

namespace EbpfNids.Net

open Library Library.Decimal

/-! ## Writing -/

def inetNtoa (q : Quad) : Text :=
  decimal q.b0.toNat ++ 46 :: (decimal q.b1.toNat ++ 46 :: (decimal q.b2.toNat ++ 46 ::
    decimal q.b3.toNat))

theorem inetNtoa_chars {q : Quad} {c : ℕ} (member : c ∈ inetNtoa q) :
    isDigit c = true ∨ c = 46 := by
  simp only [inetNtoa, List.mem_append, List.mem_cons] at member
  rcases member with digit | dot | digit | dot | digit | dot | digit
  · exact Or.inl (isDigit_of_mem_decimal digit)
  · exact Or.inr dot
  · exact Or.inl (isDigit_of_mem_decimal digit)
  · exact Or.inr dot
  · exact Or.inl (isDigit_of_mem_decimal digit)
  · exact Or.inr dot
  · exact Or.inl (isDigit_of_mem_decimal digit)

theorem length_inetNtoa_le (q : Quad) : (inetNtoa q).length ≤ 15 := by
  have byte : ∀ b : UInt8, (decimal b.toNat).length ≤ 3 := fun b =>
    length_decimal_le (by decide) (Nat.lt_trans b.toNat_lt (by decide))
  have := byte q.b0
  have := byte q.b1
  have := byte q.b2
  have := byte q.b3
  simp only [inetNtoa, List.length_append, List.length_cons]
  omega

/-! ## Reading -/

/-- The value of a digit, in any base. -/
def digitValue (c : ℕ) : Option ℕ :=
  if 48 ≤ c ∧ c ≤ 57 then some (c - 48)
  else if 97 ≤ c ∧ c ≤ 102 then some (c - 87)
  else if 65 ≤ c ∧ c ≤ 70 then some (c - 55)
  else none

def isDigitOf (base c : ℕ) : Bool := (digitValue c).any (· < base)

/-- The longest numeral in a base, and what follows it. -/
def numeral (base : ℕ) (t : Text) : ℕ × Text :=
  ((t.takeWhile (isDigitOf base)).foldl (fun v c => base * v + (digitValue c).getD 0) 0,
    t.dropWhile (isDigitOf base))

/-- `strtoul` with base 0, on a text that starts with a digit. -/
def strtoul (t : Text) : Option (ℕ × Text) :=
  match t with
  | 48 :: x :: rest =>
      if (x = 120 ∨ x = 88) ∧ (rest.head?.any (isDigitOf 16)) then some (numeral 16 rest)
      else some (numeral 8 t)
  | c :: _ => if isDigit c then some (numeral 10 t) else none
  | [] => none

/-- At most `k` numbers with dots between them, and what follows. -/
def inetParts : ℕ → Text → Option (List ℕ × Text)
  | 0, _ => none
  | k + 1, t =>
      match strtoul t with
      | none => none
      | some (v, 46 :: rest) => (inetParts k rest).map fun (parts, left) => (v :: parts, left)
      | some (v, rest) => some ([v], rest)

def isSpace (c : ℕ) : Bool := c == 32 || (9 ≤ c && c ≤ 13)

/-- The word that the parts stand for, the last one filling the bytes left. -/
def combine : List ℕ → Option ℕ
  | [a] => if a < 2 ^ 32 then some a else none
  | [a, b] => if a < 256 ∧ b < 2 ^ 24 then some (a * 2 ^ 24 + b) else none
  | [a, b, c] =>
      if a < 256 ∧ b < 256 ∧ c < 2 ^ 16 then some (a * 2 ^ 24 + b * 2 ^ 16 + c) else none
  | [a, b, c, d] =>
      if a < 256 ∧ b < 256 ∧ c < 256 ∧ d < 256 then
        some (a * 2 ^ 24 + b * 2 ^ 16 + c * 2 ^ 8 + d)
      else none
  | _ => none

def inetAton (t : Text) : Option Quad :=
  match inetParts 4 t with
  | none => none
  | some (parts, rest) =>
      if rest.head?.all isSpace then (combine parts).map fun word => Quad.ofBe (UInt32.ofNat word)
      else none

/-! ## The dotted quad is read back -/

theorem isDigitOf_ten (c : ℕ) : isDigitOf 10 c = isDigit c := by
  rw [Bool.eq_iff_iff, isDigit_iff, isDigitOf, digitValue]
  split_ifs with digit lower upper
  · simp only [Option.any_some, decide_eq_true_eq]
    omega
  · simp only [Option.any_some, decide_eq_true_eq]
    omega
  · simp only [Option.any_some, decide_eq_true_eq]
    omega
  · exact iff_of_false (by simp) digit

/-- A numeral followed by something that is no digit is read as its number. -/
theorem numeral_decimal (n : ℕ) {rest : Text} (stop : ∀ c ∈ rest.head?, isDigit c = false) :
    numeral 10 (decimal n ++ rest) = (n, rest) := by
  have same : isDigitOf 10 = isDigit := funext isDigitOf_ten
  obtain ⟨taken, dropped⟩ := takeWhile_digits
    (fun c member => isDigit_of_mem_decimal (n := n) member) stop
  rw [numeral, same, taken, dropped]
  refine Prod.ext ?_ rfl
  show (decimal n).foldl _ 0 = n
  have reads : (decimal n).foldl (fun v c => 10 * v + (digitValue c).getD 0) 0 =
      value (decimal n) := by
    apply List.foldl_ext _ _ _
    intro v c member
    have digit := isDigit_iff.mp (isDigit_of_mem_decimal member)
    rw [digitValue, if_pos digit]
    rfl
  rw [reads, value_decimal]

theorem strtoul_decimal (n : ℕ) {rest : Text}
    (stop : ∀ c ∈ rest.head?, isDigit c = false ∧ c ≠ 120 ∧ c ≠ 88) :
    strtoul (decimal n ++ rest) = some (n, rest) := by
  have stopDigit : ∀ c ∈ rest.head?, isDigit c = false := by
    intro c member
    exact (stop c member).1
  rcases decimal_cases n with ⟨rfl, zero⟩ | ⟨d, ds, split, low, high, -⟩
  · rw [zero]
    cases rest with
    | nil => rfl
    | cons c after =>
        obtain ⟨other, notX, notX'⟩ := stop c rfl
        have octal : isDigitOf 8 c = false := by
          have notDigit : ¬ (48 ≤ c ∧ c ≤ 57) := by simpa [isDigit] using other
          rw [isDigitOf, digitValue, if_neg notDigit]
          split
          · simp
            omega
          · split
            · simp
              omega
            · rfl
        simp only [List.singleton_append, strtoul, notX, notX', false_or, false_and, if_false]
        have first : isDigitOf 8 48 = true := by decide
        rw [numeral, List.takeWhile_cons_of_pos first, List.dropWhile_cons_of_pos first,
          List.takeWhile_cons_of_neg (by simp [octal]),
          List.dropWhile_cons_of_neg (by simp [octal])]
        rfl
  · have whole := numeral_decimal n stopDigit
    rw [split] at whole ⊢
    rw [List.cons_append] at whole ⊢
    have notZero : d ≠ 48 := by omega
    have digit : isDigit d = true := isDigit_iff.mpr (by omega)
    rw [strtoul.eq_def]
    split
    · rename_i same
      exact absurd (List.cons.inj same).1 notZero
    · rename_i same
      obtain ⟨rfl, -⟩ := List.cons.inj same
      rw [if_pos digit, whole]
    · rename_i same
      cases same

/-- **Round trip.** The dotted quad of an address is read as that address. -/
theorem inetAton_inetNtoa (q : Quad) : inetAton (inetNtoa q) = some q := by
  have dot : ∀ {rest : Text}, ∀ c ∈ (46 :: rest).head?, isDigit c = false ∧ c ≠ 120 ∧ c ≠ 88 := by
    rintro rest c ⟨⟩
    decide
  have last : ∀ c ∈ ([] : Text).head?, isDigit c = false ∧ c ≠ 120 ∧ c ≠ 88 := nofun
  have parts : inetParts 4 (inetNtoa q) =
      some ([q.b0.toNat, q.b1.toNat, q.b2.toNat, q.b3.toNat], []) := by
    have end_read := strtoul_decimal q.b3.toNat last
    rw [List.append_nil] at end_read
    simp only [inetNtoa, inetParts, strtoul_decimal _ dot, end_read, Option.map_some]
  obtain ⟨b0, b1, b2, b3⟩ := q
  have h0 := b0.toNat_lt
  have h1 := b1.toNat_lt
  have h2 := b2.toNat_lt
  have h3 := b3.toNat_lt
  rw [inetAton, parts]
  have word : combine [b0.toNat, b1.toNat, b2.toNat, b3.toNat] =
      some (Quad.leNat ⟨b3, b2, b1, b0⟩) := by
    rw [combine, if_pos ⟨h0, h1, h2, h3⟩, Quad.leNat]
    congr 1
    dsimp only
    omega
  dsimp only
  rw [word, if_pos (by rfl), Option.map_some]
  exact congrArg some (Quad.ofBe_be ⟨b0, b1, b2, b3⟩)

/-- Distinct addresses have distinct dotted quads. -/
theorem inetNtoa_injective : Function.Injective inetNtoa := by
  intro p q same
  have read := inetAton_inetNtoa p
  rw [same, inetAton_inetNtoa q] at read
  exact (Option.some.inj read).symm

end EbpfNids.Net
