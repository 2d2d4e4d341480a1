import EbpfNids.Net.Address

/-!
# Blocks of addresses

The block `net/len` holds the addresses that have the first `len` bits of
`net`. A block of 8 or 16 bits is a condition on whole bytes, and so on the
beginning of the dotted quad (`prefix_byte`, `prefix_two_bytes`). A block of 12
bits asks for half of the second byte, which no beginning of the text tells.
-/

set_option autoImplicit false

namespace EbpfNids.Net

open Library Library.Decimal

/-- The addresses with the first `len` bits of `net`. -/
def InBlock (net : Quad) (len : ℕ) (q : Quad) : Prop :=
  q.be.toNat / 2 ^ (32 - len) = net.be.toNat / 2 ^ (32 - len)

instance (net : Quad) (len : ℕ) (q : Quad) : Decidable (InBlock net len q) :=
  inferInstanceAs (Decidable (_ = _))

/-! ## Blocks as conditions on bytes -/

section Bytes

variable {net q : Quad}

theorem toNat_be (q : Quad) :
    q.be.toNat =
      q.b0.toNat * 2 ^ 24 + q.b1.toNat * 2 ^ 16 + q.b2.toNat * 2 ^ 8 + q.b3.toNat := by
  rw [Quad.be, Quad.toNat_le, Quad.leNat, Quad.reverse]
  dsimp only
  omega

theorem inBlock_byte : InBlock net 8 q ↔ q.b0 = net.b0 := by
  have := q.b1.toNat_lt
  have := q.b2.toNat_lt
  have := q.b3.toNat_lt
  have := net.b1.toNat_lt
  have := net.b2.toNat_lt
  have := net.b3.toNat_lt
  rw [InBlock, toNat_be, toNat_be, ← UInt8.toNat_inj]
  omega

theorem inBlock_two_bytes : InBlock net 16 q ↔ q.b0 = net.b0 ∧ q.b1 = net.b1 := by
  have := q.b1.toNat_lt
  have := q.b2.toNat_lt
  have := q.b3.toNat_lt
  have := net.b1.toNat_lt
  have := net.b2.toNat_lt
  have := net.b3.toNat_lt
  rw [InBlock, toNat_be, toNat_be, ← UInt8.toNat_inj, ← UInt8.toNat_inj]
  omega

theorem inBlock_byte_and_half :
    InBlock net 12 q ↔ q.b0 = net.b0 ∧ q.b1.toNat / 16 = net.b1.toNat / 16 := by
  have := q.b1.toNat_lt
  have := q.b2.toNat_lt
  have := q.b3.toNat_lt
  have := net.b1.toNat_lt
  have := net.b2.toNat_lt
  have := net.b3.toNat_lt
  rw [InBlock, toNat_be, toNat_be, ← UInt8.toNat_inj]
  omega

end Bytes

/-! ## Beginnings of dotted quads -/

/-- A numeral and a dot begin only what has the same numeral before its dot. -/
theorem decimal_dot_prefix {m n : ℕ} {pre rest : Text} :
    decimal m ++ 46 :: pre <+: decimal n ++ 46 :: rest ↔ m = n ∧ pre <+: rest := by
  constructor
  · rintro ⟨left, same⟩
    rw [List.append_assoc, List.cons_append] at same
    have digits : ∀ k, ∀ c ∈ decimal k, isDigit c = true := fun k c member =>
      isDigit_of_mem_decimal member
    have stop : ∀ {t : Text}, ∀ c ∈ (46 :: t).head?, isDigit c = false := by
      rintro t c ⟨⟩
      rfl
    obtain ⟨takenM, droppedM⟩ := takeWhile_digits (digits m) (stop (t := pre ++ left))
    obtain ⟨takenN, droppedN⟩ := takeWhile_digits (digits n) (stop (t := rest))
    have numerals : decimal m = decimal n := by rw [← takenM, same, takenN]
    have rests : 46 :: (pre ++ left) = 46 :: rest := by rw [← droppedM, same, droppedN]
    refine ⟨?_, left, (List.cons.inj rests).2⟩
    rw [← value_decimal m, numerals, value_decimal]
  · rintro ⟨rfl, begins⟩
    rw [List.prefix_append_right_inj, List.cons_prefix_cons]
    exact ⟨rfl, begins⟩

theorem prefix_byte {m : ℕ} {q : Quad} :
    decimal m ++ [46] <+: inetNtoa q ↔ m = q.b0.toNat := by
  rw [inetNtoa, decimal_dot_prefix]
  exact and_iff_left List.nil_prefix

theorem prefix_two_bytes {m k : ℕ} {q : Quad} :
    decimal m ++ 46 :: (decimal k ++ [46]) <+: inetNtoa q ↔
      m = q.b0.toNat ∧ k = q.b1.toNat := by
  rw [inetNtoa, decimal_dot_prefix, decimal_dot_prefix]
  exact and_congr_right fun _ => and_iff_left List.nil_prefix

end EbpfNids.Net
