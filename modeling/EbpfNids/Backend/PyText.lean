import EbpfNids.Library.Decimal
import Mathlib.Data.List.DropRight

/-!
# Python texts

What the backend uses of Python's strings: decoding UTF-8 with
`errors="ignore"`, `str.strip`, and the classes of exceptions that its handlers
tell apart.

The decoder holds the character it is in the middle of. A byte that does not
continue it makes the decoder forget it and start at that byte, and at the end
of the input it is forgotten too. Bytes below 128 are their own characters
(`decodeIgnore_ascii`).
-/

set_option autoImplicit false

namespace EbpfNids.Backend

open Library

/-- An exception, by the class that handlers tell apart. -/
inductive PyExn where
  | jsonDecodeError
  | valueError
  | typeError
  | attributeError
  | overflowError
  | importError
  | databaseError
  | other
deriving DecidableEq, Repr

/-! ## `bytes.decode("utf-8", errors="ignore")` -/

/-- A character of which some bytes have come: how many are still to come, the
bits so far, and the range of the next byte. -/
structure Pending where
  need : ℕ
  bits : ℕ
  lo : ℕ
  hi : ℕ
deriving DecidableEq, Repr

/-- A byte that starts a character: the character, if it is the whole of it, and
what is pending. -/
def startByte (b : ℕ) : Option ℕ × Option Pending :=
  if b < 0x80 then (some b, none)
  else if 0xC2 ≤ b ∧ b ≤ 0xDF then (none, some ⟨1, b - 0xC0, 0x80, 0xBF⟩)
  else if b = 0xE0 then (none, some ⟨2, 0, 0xA0, 0xBF⟩)
  else if b = 0xED then (none, some ⟨2, 0xD, 0x80, 0x9F⟩)
  else if 0xE1 ≤ b ∧ b ≤ 0xEF then (none, some ⟨2, b - 0xE0, 0x80, 0xBF⟩)
  else if b = 0xF0 then (none, some ⟨3, 0, 0x90, 0xBF⟩)
  else if 0xF1 ≤ b ∧ b ≤ 0xF3 then (none, some ⟨3, b - 0xF0, 0x80, 0xBF⟩)
  else if b = 0xF4 then (none, some ⟨3, 4, 0x80, 0x8F⟩)
  else (none, none)

def nextByte (pending : Option Pending) (b : ℕ) : Option ℕ × Option Pending :=
  match pending with
  | none => startByte b
  | some p =>
      if p.lo ≤ b ∧ b ≤ p.hi then
        let bits := p.bits * 64 + (b - 0x80)
        if p.need = 1 then (some bits, none) else (none, some ⟨p.need - 1, bits, 0x80, 0xBF⟩)
      else startByte b

def decodeFrom : Option Pending → List UInt8 → Text
  | _, [] => []
  | pending, b :: rest =>
      let next := nextByte pending b.toNat
      next.1.toList ++ decodeFrom next.2 rest

def decodeIgnore (bytes : List UInt8) : Text := decodeFrom none bytes

theorem decodeIgnore_ascii {bytes : List UInt8} (ascii : ∀ b ∈ bytes, b.toNat < 128) :
    decodeIgnore bytes = bytes.map UInt8.toNat := by
  induction bytes with
  | nil => rfl
  | cons b rest ih =>
      have small := ascii b List.mem_cons_self
      have later := ih fun c member => ascii c (List.mem_cons_of_mem _ member)
      have next : nextByte none b.toNat = (some b.toNat, none) := by
        rw [nextByte, startByte, if_pos small]
      rw [decodeIgnore, decodeFrom, next, List.map_cons, ← later]
      rfl

theorem decodeIgnore_asciiBytes {t : Text} (ascii : ∀ c ∈ t, c < 128) :
    decodeIgnore (asciiBytes t) = t := by
  have fits : ∀ c ∈ t, (UInt8.ofNat c).toNat = c := fun c member =>
    Nat.mod_eq_of_lt (Nat.lt_trans (ascii c member) (by decide))
  rw [asciiBytes, decodeIgnore_ascii, List.map_map]
  · exact (List.map_congr_left fits).trans (List.map_id t)
  · intro b member
    obtain ⟨c, inText, rfl⟩ := List.mem_map.mp member
    rw [fits c inText]
    exact ascii c inText

/-! ## `str.strip` -/

/-- The characters that `str.isspace` accepts. -/
def isPySpace (c : ℕ) : Bool :=
  (9 ≤ c && c ≤ 13) || (28 ≤ c && c ≤ 32) || c == 0x85 || c == 0xA0 || c == 0x1680 ||
    (0x2000 ≤ c && c ≤ 0x200A) || c == 0x2028 || c == 0x2029 || c == 0x202F || c == 0x205F ||
    c == 0x3000

def strip (t : Text) : Text := (t.dropWhile isPySpace).rdropWhile isPySpace

/-- A text that neither starts nor ends with white space is its own strip. -/
theorem strip_eq_self {t : Text} (first : ∀ c ∈ t.head?, isPySpace c = false)
    (last : ∀ c ∈ t.getLast?, isPySpace c = false) : strip t = t := by
  have front : t.dropWhile isPySpace = t := by
    cases t with
    | nil => rfl
    | cons c rest => exact List.dropWhile_cons_of_neg (by simp [first c rfl])
  rw [strip, front, List.rdropWhile_eq_self_iff]
  intro nonempty
  simp [last _ (List.getLast?_eq_getLast_of_ne_nil nonempty)]

end EbpfNids.Backend
