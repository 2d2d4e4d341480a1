import Mathlib.Logic.Equiv.Defs
import Mathlib.Data.Nat.Notation

/-!
# Four bytes as one word

Four bytes in memory order are read as a 32-bit word from the low end
(`Quad.le`) or from the high end (`Quad.be`). Both readings lose nothing: a
word has one quadruple of bytes (`Quad.ofLe`), so words and quadruples are in
bijection (`leEquiv`), and the two readings differ by reversing the bytes.
-/

set_option autoImplicit false

namespace Library

/-- Four bytes in memory order. -/
structure Quad where
  b0 : UInt8
  b1 : UInt8
  b2 : UInt8
  b3 : UInt8
deriving DecidableEq, Repr

namespace Quad

/-- The bytes in the opposite order. -/
def reverse (q : Quad) : Quad := ⟨q.b3, q.b2, q.b1, q.b0⟩

@[simp] theorem reverse_reverse (q : Quad) : q.reverse.reverse = q := rfl

/-- The value of the bytes with the first one lowest. -/
def leNat (q : Quad) : ℕ :=
  q.b0.toNat + 256 * q.b1.toNat + 65536 * q.b2.toNat + 16777216 * q.b3.toNat

/-- The word read on a little-endian host. -/
def le (q : Quad) : UInt32 := UInt32.ofNat q.leNat

/-- The word read with the first byte highest. -/
def be (q : Quad) : UInt32 := q.reverse.le

/-- The bytes of a word, the lowest first. -/
def ofLe (x : UInt32) : Quad :=
  ⟨UInt8.ofNat x.toNat, UInt8.ofNat (x.toNat / 256), UInt8.ofNat (x.toNat / 65536),
    UInt8.ofNat (x.toNat / 16777216)⟩

/-- The bytes of a word, the highest first. -/
def ofBe (x : UInt32) : Quad := (ofLe x).reverse

theorem toNat_le (q : Quad) : q.le.toNat = q.leNat := by
  have := q.b0.toNat_lt
  have := q.b1.toNat_lt
  have := q.b2.toNat_lt
  have := q.b3.toNat_lt
  rw [le, UInt32.toNat_ofNat']
  unfold leNat
  omega

@[simp] theorem ofLe_le (q : Quad) : ofLe q.le = q := by
  obtain ⟨b0, b1, b2, b3⟩ := q
  have h0 := b0.toNat_lt
  have h1 := b1.toNat_lt
  have h2 := b2.toNat_lt
  have h3 := b3.toNat_lt
  simp only [ofLe, toNat_le, leNat, mk.injEq]
  refine ⟨?_, ?_, ?_, ?_⟩ <;> apply UInt8.toNat_inj.mp <;> rw [UInt8.toNat_ofNat'] <;> omega

@[simp] theorem le_ofLe (x : UInt32) : (ofLe x).le = x := by
  have bound := x.toNat_lt
  apply UInt32.toNat_inj.mp
  simp only [toNat_le, leNat, ofLe, UInt8.toNat_ofNat']
  omega

@[simp] theorem ofBe_be (q : Quad) : ofBe q.be = q := by
  rw [ofBe, be, ofLe_le, reverse_reverse]

@[simp] theorem be_ofBe (x : UInt32) : (ofBe x).be = x := by
  rw [ofBe, be, reverse_reverse, le_ofLe]

@[simp] theorem ofBe_le (q : Quad) : ofBe q.le = q.reverse := by
  rw [ofBe, ofLe_le]

/-- Words and quadruples of bytes determine each other. -/
def leEquiv : Quad ≃ UInt32 := ⟨le, ofLe, ofLe_le, le_ofLe⟩

end Quad

end Library
