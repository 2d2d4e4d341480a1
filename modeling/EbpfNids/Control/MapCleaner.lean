import Mathlib.Algebra.Order.Ring.Nat
import EbpfNids.Library.BoundedMap
import EbpfNids.Library.Cursor

/-!
# The map cleaner

`clean_map` asks for the key after its cursor, deletes it, and makes it the
cursor. The cursor is then a key that the map does not hold, so the next key is
the first of those left, and the loop goes on until there is none.

Only the first step is different, because the cursor starts as the key 0, which
is 0.0.0.0. When the map holds that key as its last one, there is no key after
it, and nothing is deleted. That is the only content that `clean_map` does not
empty, and its count is right as far as an `int` goes (`cleanMap_iff`).

The loop of `main` in `examples/c/clean_maps.c` is the same.
-/

set_option autoImplicit false

namespace EbpfNids.Control

open Library

section Clean

variable {V : Type} {capacity : ℕ} (order : VisitOrder UInt32)

/-- The loop from a cursor and a count. Every deletion takes a key that the map
holds, so it ends. -/
def cleanLoop (m : BoundedMap UInt32 V capacity) (key : UInt32) (count : Int32) :
    BoundedMap UInt32 V capacity × Int32 :=
  match found : order.next m.keys key with
  | some nextKey => cleanLoop (m.erase nextKey) nextKey (count + 1)
  | none => (m, count)
termination_by m.size
decreasing_by exact BoundedMap.size_erase_lt (order.next_mem found)

/-- What `clean_map` returns, and the name and count that it prints. -/
structure CleanResult where
  returned : Int32
  printed : Option (String × Int32)
deriving DecidableEq, Repr

def cleanMap (m : BoundedMap UInt32 V capacity) (name : String) :
    BoundedMap UInt32 V capacity × CleanResult :=
  let cleaned := cleanLoop order m 0 0
  let count := cleaned.2
  (cleaned.1, ⟨count, if count > 0 then some (name, count) else none⟩)

theorem cleanLoop_none {m : BoundedMap UInt32 V capacity} {key : UInt32} (count : Int32)
    (ended : order.next m.keys key = none) : cleanLoop order m key count = (m, count) := by
  rw [cleanLoop]
  split
  · rename_i nextKey found
    rw [ended] at found
    cases found
  · rfl

theorem cleanLoop_some {m : BoundedMap UInt32 V capacity} {key nextKey : UInt32} (count : Int32)
    (found : order.next m.keys key = some nextKey) :
    cleanLoop order m key count = cleanLoop order (m.erase nextKey) nextKey (count + 1) := by
  rw [cleanLoop]
  split
  · rename_i other found'
    rw [found] at found'
    cases found'
    rfl
  · rename_i ended
    rw [found] at ended
    cases ended

/-- **Loop lemma.** From a cursor that the map does not hold the loop empties the
map and counts its entries. -/
theorem cleanLoop_absent {m : BoundedMap UInt32 V capacity} {key : UInt32} (count : Int32)
    (absent : key ∉ m.keys) :
    (cleanLoop order m key count).1.keys = [] ∧
      (cleanLoop order m key count).2 = count + Int32.ofNat m.size := by
  induction size : m.size generalizing m key count with
  | zero =>
      have empty : m.keys = [] := List.length_eq_zero_iff.mp size
      rw [cleanLoop_none order count (order.next_eq_none.mpr (Or.inl empty))]
      exact ⟨empty, (Int32.add_zero count).symm⟩
  | succ n ih =>
      have nonempty : m.keys ≠ [] := by
        intro empty
        rw [show m.size = m.keys.length from rfl, empty] at size
        cases size
      have first : order.next m.keys key ≠ none := by
        rw [order.next_of_not_mem absent]
        exact mt order.first_eq_none.mp nonempty
      obtain ⟨nextKey, found⟩ := Option.ne_none_iff_exists'.mp first
      have fewer : (m.erase nextKey).size = n := by
        rw [BoundedMap.size_erase (order.next_mem found), size, Nat.add_sub_cancel]
      rw [cleanLoop_some order count found]
      obtain ⟨empty, counted⟩ := ih (count + 1) BoundedMap.not_mem_keys_erase fewer
      refine ⟨empty, ?_⟩
      rw [counted, Int32.add_assoc, Int32.ofNat_add, Int32.add_comm 1]
      rfl

/-- Unless the cursor is the last key of the map, the loop empties the map and
counts its entries. -/
theorem cleanLoop_not_last {m : BoundedMap UInt32 V capacity} {key : UInt32} (count : Int32)
    (notLast : ¬ order.IsLast m.keys key) :
    (cleanLoop order m key count).1.keys = [] ∧
      (cleanLoop order m key count).2 = count + Int32.ofNat m.size := by
  by_cases present : key ∈ m.keys
  · have next : order.next m.keys key ≠ none := by
      intro ended
      rcases order.next_eq_none.mp ended with empty | last
      · exact List.ne_nil_of_mem present empty
      · exact notLast last
    obtain ⟨nextKey, found⟩ := Option.ne_none_iff_exists'.mp next
    have member := order.next_mem found
    obtain ⟨empty, counted⟩ := cleanLoop_absent order (count + 1)
      (BoundedMap.not_mem_keys_erase (m := m) (k := nextKey))
    have positive : 0 < m.size := List.length_pos_of_mem member
    rw [cleanLoop_some order count found]
    refine ⟨empty, ?_⟩
    rw [counted, BoundedMap.size_erase member, Int32.add_assoc, Int32.add_comm 1,
      show (1 : Int32) = Int32.ofNat 1 from rfl, ← Int32.ofNat_add, Nat.sub_add_cancel positive]
  · exact cleanLoop_absent order count present

/-- **Which maps are emptied.** `clean_map` empties the map and returns how many
entries it had exactly when the key 0 is not its last key, and an `int` holds
the number of its entries. -/
theorem cleanMap_iff (m : BoundedMap UInt32 V capacity) (name : String) :
    (cleanMap order m name).1.keys = [] ∧ (cleanMap order m name).2.returned.toInt = m.size ↔
      ¬ order.IsLast m.keys 0 ∧ m.size < 2 ^ 31 := by
  rw [cleanMap]
  dsimp only
  constructor
  · rintro ⟨empty, counted⟩
    constructor
    · intro last
      rw [cleanLoop_none order 0 (order.next_eq_none.mpr (Or.inr last))] at empty
      exact List.ne_nil_of_mem last.1 empty
    · have bounded := Int32.toInt_lt (cleanLoop order m 0 0).2
      rw [counted] at bounded
      exact_mod_cast bounded
  · rintro ⟨notLast, fits⟩
    obtain ⟨empty, counted⟩ := cleanLoop_not_last order 0 notLast
    refine ⟨empty, ?_⟩
    rw [counted, Int32.zero_add]
    exact Int32.toInt_ofNat_of_lt fits

end Clean

/-- The keys in their numerical order. -/
def numerical : VisitOrder UInt32 := ⟨UInt32.toNat, fun _ _ => UInt32.toNat_inj.mp⟩

/-- A map with the entry of 0.0.0.0 alone. -/
def onlyZero : BoundedMap UInt32 Unit 1 := (BoundedMap.empty.update 0 ()).getD .empty

/-- The entry stays, and `clean_map` returns 0. -/
theorem zero_not_cleaned :
    ¬ ((cleanMap numerical onlyZero "map").1.keys = [] ∧
      (cleanMap numerical onlyZero "map").2.returned.toInt = onlyZero.size) := by
  have ended : numerical.next onlyZero.keys 0 = none := by decide
  rintro ⟨empty, -⟩
  rw [cleanMap, cleanLoop_none numerical 0 ended] at empty
  revert empty
  decide

end EbpfNids.Control
