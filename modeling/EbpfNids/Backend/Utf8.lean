import EbpfNids.Library.SelfSync
import EbpfNids.Backend.PyText

/-!
# Characters that come in pieces

UTF-8 is self-synchronizing for the decoder of the backend: a character is put
out with its last byte, and a decoder that starts at any other byte of it but
the first passes over the rest (`utf8_synchronizes`). So what the decoder makes
of a stream that comes in chunks, when every chunk is decoded on its own, is the
characters that no chunk starts inside of (`received_utf8`).
-/

set_option autoImplicit false

namespace EbpfNids.Backend

open Library Library.SelfSync

/-- The UTF-8 bytes of some characters. -/
def utf8 (chars : List Char) : List UInt8 := chars.flatMap String.utf8EncodeChar

/-- Characters as the code points that the model of a text holds. -/
def codePoints (chars : List Char) : Text := chars.map Char.toNat

/-- One step of the decoder. -/
def utf8Step (pending : Option Pending) (b : UInt8) : Option ℕ × Option Pending :=
  nextByte pending b.toNat

theorem decodeFrom_eq (pending : Option Pending) (bytes : List UInt8) :
    decodeFrom pending bytes = (transduce utf8Step pending bytes).1 := by
  induction bytes generalizing pending with
  | nil => rfl
  | cons b rest ih =>
      rw [decodeFrom, transduce_cons, ih]
      rfl

/-! ## The bytes of a character -/

theorem startByte_two {b : ℕ} (least : 0xC2 ≤ b) (most : b ≤ 0xDF) :
    startByte b = (none, some ⟨1, b - 0xC0, 0x80, 0xBF⟩) := by
  rw [startByte, if_neg (by omega), if_pos ⟨least, most⟩]

theorem startByte_three {b : ℕ} (least : 0xE0 ≤ b) (most : b ≤ 0xEF) :
    startByte b = (none, some ⟨2, b - 0xE0, if b = 0xE0 then 0xA0 else 0x80,
      if b = 0xED then 0x9F else 0xBF⟩) := by
  rw [startByte, if_neg (by omega), if_neg (by omega)]
  by_cases first : b = 0xE0
  · subst first
    rfl
  · by_cases surrogates : b = 0xED
    · subst surrogates
      rfl
    · rw [if_neg first, if_neg surrogates, if_pos (by omega), if_neg first, if_neg surrogates]

theorem startByte_four {b : ℕ} (least : 0xF0 ≤ b) (most : b ≤ 0xF4) :
    startByte b = (none, some ⟨3, b - 0xF0, if b = 0xF0 then 0x90 else 0x80,
      if b = 0xF4 then 0x8F else 0xBF⟩) := by
  rw [startByte, if_neg (by omega), if_neg (by omega), if_neg (by omega), if_neg (by omega),
    if_neg (by omega)]
  by_cases first : b = 0xF0
  · subst first
    rfl
  · by_cases last : b = 0xF4
    · subst last
      rfl
    · rw [if_neg first, if_pos (by omega), if_neg first, if_neg last]

theorem startByte_tail {b : ℕ} (least : 0x80 ≤ b) (most : b ≤ 0xBF) :
    startByte b = (none, none) := by
  rw [startByte, if_neg (by omega), if_neg (by omega), if_neg (by omega), if_neg (by omega),
    if_neg (by omega), if_neg (by omega), if_neg (by omega), if_neg (by omega)]

theorem nextByte_inside {p : Pending} {b : ℕ} (least : p.lo ≤ b) (most : b ≤ p.hi) :
    nextByte (some p) b =
      if p.need = 1 then (some (p.bits * 64 + (b - 0x80)), none)
      else (none, some ⟨p.need - 1, p.bits * 64 + (b - 0x80), 0x80, 0xBF⟩) := by
  rw [nextByte]
  dsimp only
  rw [if_pos ⟨least, most⟩]

/-- A character is a scalar value. -/
theorem scalar (c : Char) : c.toNat < 0xD800 ∨ 0xDFFF < c.toNat ∧ c.toNat < 0x110000 := c.valid

/-- The bytes of a character, by the number of them. -/
theorem utf8EncodeChar_cases (c : Char) :
    (c.toNat ≤ 0x7F ∧ String.utf8EncodeChar c = [UInt8.ofNat c.toNat]) ∨
    (0x7F < c.toNat ∧ c.toNat ≤ 0x7FF ∧ String.utf8EncodeChar c =
      [UInt8.ofNat (0xC0 + c.toNat / 64), UInt8.ofNat (0x80 + c.toNat % 64)]) ∨
    (0x7FF < c.toNat ∧ c.toNat ≤ 0xFFFF ∧ String.utf8EncodeChar c =
      [UInt8.ofNat (0xE0 + c.toNat / 4096), UInt8.ofNat (0x80 + c.toNat / 64 % 64),
        UInt8.ofNat (0x80 + c.toNat % 64)]) ∨
    (0xFFFF < c.toNat ∧ String.utf8EncodeChar c =
      [UInt8.ofNat (0xF0 + c.toNat / 262144), UInt8.ofNat (0x80 + c.toNat / 4096 % 64),
        UInt8.ofNat (0x80 + c.toNat / 64 % 64), UInt8.ofNat (0x80 + c.toNat % 64)]) := by
  have bounded := scalar c
  have same : c.val.toNat = c.toNat := rfl
  simp only [String.utf8EncodeChar, same]
  split
  · rename_i one
    exact Or.inl ⟨one, rfl⟩
  · split
    · rename_i one two
      refine Or.inr (Or.inl ⟨by omega, two, ?_⟩)
      rw [show c.toNat / 64 % 0x20 + 0xC0 = 0xC0 + c.toNat / 64 by omega,
        show c.toNat % 0x40 + 0x80 = 0x80 + c.toNat % 64 by omega]
    · split
      · rename_i one two three
        refine Or.inr (Or.inr (Or.inl ⟨by omega, three, ?_⟩))
        rw [show c.toNat / 4096 % 0x10 + 0xE0 = 0xE0 + c.toNat / 4096 by omega,
          show c.toNat / 64 % 0x40 + 0x80 = 0x80 + c.toNat / 64 % 64 by omega,
          show c.toNat % 0x40 + 0x80 = 0x80 + c.toNat % 64 by omega]
      · rename_i one two three
        refine Or.inr (Or.inr (Or.inr ⟨by omega, ?_⟩))
        rw [show c.toNat / 262144 % 0x08 + 0xF0 = 0xF0 + c.toNat / 262144 by omega,
          show c.toNat / 4096 % 0x40 + 0x80 = 0x80 + c.toNat / 4096 % 64 by omega,
          show c.toNat / 64 % 0x40 + 0x80 = 0x80 + c.toNat / 64 % 64 by omega,
          show c.toNat % 0x40 + 0x80 = 0x80 + c.toNat % 64 by omega]

/-! ## Synchronization -/

theorem toNat_ofNat_of_lt {n : ℕ} (small : n < 256) : (UInt8.ofNat n).toNat = n :=
  Nat.mod_eq_of_lt small

/-- A tail byte starts nothing. -/
theorem utf8Step_tail {n : ℕ} (small : n < 64) :
    utf8Step none (UInt8.ofNat (0x80 + n)) = (none, none) := by
  rw [utf8Step, toNat_ofNat_of_lt (by omega)]
  exact startByte_tail (by omega) (by omega)

/-- The last byte of a character puts it out. -/
theorem utf8Step_last {bits lo hi n code : ℕ} (small : n < 64) (least : lo ≤ 0x80 + n)
    (most : 0x80 + n ≤ hi) (sum : bits * 64 + n = code) :
    utf8Step (some ⟨1, bits, lo, hi⟩) (UInt8.ofNat (0x80 + n)) = (some code, none) := by
  rw [utf8Step, toNat_ofNat_of_lt (by omega), nextByte_inside least most, if_pos rfl,
    Nat.add_sub_cancel_left, sum]

/-- A byte inside a character adds six bits. -/
theorem utf8Step_more {need bits lo hi n bits' : ℕ} (small : n < 64) (least : lo ≤ 0x80 + n)
    (most : 0x80 + n ≤ hi) (sum : bits * 64 + n = bits') :
    utf8Step (some ⟨need + 2, bits, lo, hi⟩) (UInt8.ofNat (0x80 + n)) =
      (none, some ⟨need + 1, bits', 0x80, 0xBF⟩) := by
  rw [utf8Step, toNat_ofNat_of_lt (by omega), nextByte_inside least most,
    if_neg (by dsimp only; omega), Nat.add_sub_cancel_left, sum]
  rfl

/-- **Character lemma.** A character is put out with its last byte. -/
theorem transduce_utf8EncodeChar (c : Char) :
    transduce utf8Step none (String.utf8EncodeChar c) = ([c.toNat], none) ∧
      (transduce utf8Step none (String.utf8EncodeChar c).dropLast).1 = [] := by
  have bounded := scalar c
  have six : ∀ n, n % 64 < 64 := fun n => Nat.mod_lt n (by decide)
  have last : utf8Step (some ⟨1, c.toNat / 64, 0x80, 0xBF⟩) (UInt8.ofNat (0x80 + c.toNat % 64)) =
      (some c.toNat, none) :=
    utf8Step_last (six _) (Nat.le_add_right _ _) (by omega) (by omega)
  have more : ∀ lo hi, lo ≤ 0x80 + c.toNat / 64 % 64 → 0x80 + c.toNat / 64 % 64 ≤ hi →
      utf8Step (some ⟨2, c.toNat / 4096, lo, hi⟩) (UInt8.ofNat (0x80 + c.toNat / 64 % 64)) =
        (none, some ⟨1, c.toNat / 64, 0x80, 0xBF⟩) := fun _ _ least most =>
    utf8Step_more (six _) least most (by omega)
  rcases utf8EncodeChar_cases c with ⟨most, spelled⟩ | ⟨least, most, spelled⟩ |
    ⟨least, most, spelled⟩ | ⟨least, spelled⟩
  · have whole : utf8Step none (UInt8.ofNat c.toNat) = (some c.toNat, none) := by
      rw [utf8Step, toNat_ofNat_of_lt (by omega), nextByte, startByte, if_pos (by omega)]
    rw [spelled, transduce_cons, whole]
    exact ⟨rfl, rfl⟩
  · have first : utf8Step none (UInt8.ofNat (0xC0 + c.toNat / 64)) =
        (none, some ⟨1, c.toNat / 64, 0x80, 0xBF⟩) := by
      rw [utf8Step, toNat_ofNat_of_lt (by omega), nextByte,
        startByte_two (by omega) (by omega), Nat.add_sub_cancel_left]
    rw [spelled, List.dropLast_cons_cons, List.dropLast_singleton]
    simp only [transduce_cons, first, last]
    exact ⟨rfl, rfl⟩
  · -- the second byte after E0 and ED is restricted: no long forms, no surrogates
    have first : utf8Step none (UInt8.ofNat (0xE0 + c.toNat / 4096)) =
        (none, some ⟨2, c.toNat / 4096, if 0xE0 + c.toNat / 4096 = 0xE0 then 0xA0 else 0x80,
          if 0xE0 + c.toNat / 4096 = 0xED then 0x9F else 0xBF⟩) := by
      rw [utf8Step, toNat_ofNat_of_lt (by omega), nextByte,
        startByte_three (by omega) (by omega), Nat.add_sub_cancel_left]
    have second := more _ _
      (show (if 0xE0 + c.toNat / 4096 = 0xE0 then 0xA0 else 0x80) ≤ _ by split <;> omega)
      (show _ ≤ (if 0xE0 + c.toNat / 4096 = 0xED then 0x9F else 0xBF) by split <;> omega)
    rw [spelled, List.dropLast_cons_cons, List.dropLast_cons_cons, List.dropLast_singleton]
    simp only [transduce_cons, first, second, last]
    exact ⟨rfl, rfl⟩
  · -- the second byte after F0 and F4 is restricted: no long forms, nothing above 10FFFF
    have first : utf8Step none (UInt8.ofNat (0xF0 + c.toNat / 262144)) =
        (none, some ⟨3, c.toNat / 262144, if 0xF0 + c.toNat / 262144 = 0xF0 then 0x90 else 0x80,
          if 0xF0 + c.toNat / 262144 = 0xF4 then 0x8F else 0xBF⟩) := by
      rw [utf8Step, toNat_ofNat_of_lt (by omega), nextByte,
        startByte_four (by omega) (by omega), Nat.add_sub_cancel_left]
    have second : utf8Step (some ⟨3, c.toNat / 262144,
        if 0xF0 + c.toNat / 262144 = 0xF0 then 0x90 else 0x80,
        if 0xF0 + c.toNat / 262144 = 0xF4 then 0x8F else 0xBF⟩)
        (UInt8.ofNat (0x80 + c.toNat / 4096 % 64)) =
          (none, some ⟨2, c.toNat / 4096, 0x80, 0xBF⟩) :=
      utf8Step_more (six _) (by split <;> omega) (by split <;> omega) (by omega)
    have third := more 0x80 0xBF (Nat.le_add_right _ _) (by omega)
    rw [spelled, List.dropLast_cons_cons, List.dropLast_cons_cons, List.dropLast_cons_cons,
      List.dropLast_singleton]
    simp only [transduce_cons, first, second, third, last]
    exact ⟨rfl, rfl⟩

/-- **UTF-8 is self-synchronizing** for the decoder. -/
theorem utf8_synchronizes :
    Synchronizes utf8Step none String.utf8EncodeChar Char.toNat where
  nonempty c := String.utf8EncodeChar_ne_nil
  whole c := (transduce_utf8EncodeChar c).1
  silent c := (transduce_utf8EncodeChar c).2
  passes c b member := by
    have six : ∀ n, utf8Step none (UInt8.ofNat (0x80 + n % 64)) = (none, none) := fun n =>
      utf8Step_tail (Nat.mod_lt n (by decide))
    rcases utf8EncodeChar_cases c with ⟨-, spelled⟩ | ⟨-, -, spelled⟩ | ⟨-, -, spelled⟩ |
      ⟨-, spelled⟩
    all_goals
      rw [spelled, List.tail_cons] at member
      simp only [List.mem_cons, List.not_mem_nil, or_false] at member
    · rw [member]
      exact six _
    · rcases member with rfl | rfl
      · exact six _
      · exact six _
    · rcases member with rfl | rfl | rfl
      · exact six _
      · exact six _
      · exact six _

/-! ## Chunks -/

/-- **What is received.** The characters that no chunk starts inside of. -/
theorem received_utf8 {chunks : List (List UInt8)} {chars : List Char}
    (cut : chunks.flatten = utf8 chars) :
    (chunks.flatMap decodeIgnore) =
      codePoints (uncut String.utf8EncodeChar chars (starts chunks)) := by
  have each : ∀ chunk, decodeIgnore chunk = (transduce utf8Step none chunk).1 :=
    decodeFrom_eq none
  rw [funext each]
  exact utf8_synchronizes.decode_pieces cut

end EbpfNids.Backend
