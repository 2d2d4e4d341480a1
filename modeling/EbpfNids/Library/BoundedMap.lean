import Mathlib.Data.List.AList

/-!
# Maps of a fixed capacity

A map that holds at most `capacity` entries and evicts none. An update of a key
it holds replaces the value; an update of a new key stores it while there is
room and is refused when the map is full. The capacity and the uniqueness of
keys are fields of the map, so no operation can leave them.

Every operation has one lemma for the key it names and one for the others, and
they are what the clients use. The entry of one key is changed by the
operations on that key alone, but whether a new key is stored depends on all
the others, through `size`.
-/

set_option autoImplicit false

namespace Library

/-- An association list with distinct keys and at most `capacity` entries. -/
structure BoundedMap (K V : Type*) (capacity : ℕ) where
  entries : AList fun _ : K => V
  bounded : entries.keys.length ≤ capacity

namespace BoundedMap

variable {K V : Type*} {capacity : ℕ}

/-- How many entries the map holds. -/
def size (m : BoundedMap K V capacity) : ℕ := m.entries.keys.length

/-- The keys of the map, without repetition. -/
def keys (m : BoundedMap K V capacity) : List K := m.entries.keys

theorem keys_nodup (m : BoundedMap K V capacity) : m.keys.Nodup := m.entries.keys_nodup

/-- The map without entries. -/
def empty : BoundedMap K V capacity := ⟨∅, Nat.zero_le _⟩

variable [DecidableEq K]

/-- The value stored for a key. -/
def lookup (m : BoundedMap K V capacity) (k : K) : Option V := m.entries.lookup k

@[simp] theorem lookup_empty (k : K) : (empty : BoundedMap K V capacity).lookup k = none := rfl

theorem lookup_eq_none {m : BoundedMap K V capacity} {k : K} :
    m.lookup k = none ↔ k ∉ m.keys := AList.lookup_eq_none

theorem lookup_isSome {m : BoundedMap K V capacity} {k : K} :
    (m.lookup k).isSome ↔ k ∈ m.keys := AList.lookup_isSome

theorem keys_insert_length {entries : AList fun _ : K => V} {k : K} (v : V) (absent : k ∉ entries) :
    (entries.insert k v).keys.length = entries.keys.length + 1 := by
  rw [AList.keys_insert, List.erase_of_not_mem (mt AList.mem_keys.mpr absent), List.length_cons]

theorem keys_insert_length_of_mem {entries : AList fun _ : K => V} {k : K} (v : V)
    (present : k ∈ entries) : (entries.insert k v).keys.length = entries.keys.length := by
  have member := AList.mem_keys.mp present
  rw [AList.keys_insert, List.length_cons, List.length_erase_of_mem member,
    Nat.sub_add_cancel (List.length_pos_of_mem member)]

/-! ## Storing -/

/-- Store a value for a key: refused when the key is new and the map is full. -/
def update (m : BoundedMap K V capacity) (k : K) (v : V) : Option (BoundedMap K V capacity) :=
  if present : k ∈ m.entries then
    some ⟨m.entries.insert k v, by rw [keys_insert_length_of_mem v present]; exact m.bounded⟩
  else if room : m.size < capacity then
    some ⟨m.entries.insert k v, by rw [keys_insert_length v present]; exact room⟩
  else none

theorem update_isSome {m : BoundedMap K V capacity} {k : K} {v : V} :
    (m.update k v).isSome ↔ k ∈ m.keys ∨ m.size < capacity := by
  unfold update
  split
  · rename_i present
    simp [show k ∈ m.keys from present]
  · rename_i absent
    have notKey : k ∉ m.keys := absent
    split <;> simp_all

/-- A stored entry is the insertion of the key in the association list. -/
theorem entries_of_update {m m' : BoundedMap K V capacity} {k : K} {v : V}
    (stored : m.update k v = some m') : m'.entries = m.entries.insert k v := by
  unfold update at stored
  split at stored
  · cases stored
    rfl
  · split at stored
    · cases stored
      rfl
    · cases stored

theorem lookup_update_self {m m' : BoundedMap K V capacity} {k : K} {v : V}
    (stored : m.update k v = some m') : m'.lookup k = some v := by
  rw [lookup, entries_of_update stored]
  exact AList.lookup_insert m.entries

theorem lookup_update_of_ne {m m' : BoundedMap K V capacity} {k other : K} {v : V}
    (stored : m.update k v = some m') (different : other ≠ k) :
    m'.lookup other = m.lookup other := by
  rw [lookup, entries_of_update stored]
  exact AList.lookup_insert_ne different

theorem mem_keys_update {m m' : BoundedMap K V capacity} {k other : K} {v : V}
    (stored : m.update k v = some m') : other ∈ m'.keys ↔ other = k ∨ other ∈ m.keys := by
  show other ∈ m'.entries ↔ _
  rw [entries_of_update stored]
  exact AList.mem_insert m.entries

/-- A new key takes one place. -/
theorem size_update {m m' : BoundedMap K V capacity} {k : K} {v : V}
    (stored : m.update k v = some m') (new : m.lookup k = none) : m'.size = m.size + 1 := by
  rw [size, entries_of_update stored]
  exact keys_insert_length v (AList.lookup_eq_none.mp new)

/-- A key that is there already takes none. -/
theorem size_update_of_mem {m m' : BoundedMap K V capacity} {k : K} {v : V}
    (stored : m.update k v = some m') (present : k ∈ m.keys) : m'.size = m.size := by
  rw [size, entries_of_update stored]
  exact keys_insert_length_of_mem v present

/-- Maps with entries for the same keys are equally large. -/
theorem size_congr {m m' : BoundedMap K V capacity}
    (same : ∀ k, (m.lookup k).isSome = (m'.lookup k).isSome) : m.size = m'.size := by
  apply List.Perm.length_eq
  refine (List.perm_ext_iff_of_nodup m.keys_nodup m'.keys_nodup).mpr fun k => ?_
  rw [← lookup_isSome, ← lookup_isSome, same]

/-! ## Changing in place -/

/-- Change the value of a key in place; nothing happens when the key is absent. -/
def modify (m : BoundedMap K V capacity) (k : K) (f : V → V) : BoundedMap K V capacity :=
  if present : k ∈ m.entries then
    match m.entries.lookup k with
    | some v =>
        ⟨m.entries.insert k (f v), by
          rw [keys_insert_length_of_mem (f v) present]
          exact m.bounded⟩
    | none => m
  else m

theorem lookup_modify_self {m : BoundedMap K V capacity} {k : K} {f : V → V} :
    (m.modify k f).lookup k = (m.lookup k).map f := by
  unfold modify
  split
  · cases found : m.entries.lookup k with
    | none => simp [lookup, found]
    | some v =>
        simp only [lookup, found, Option.map_some]
        exact AList.lookup_insert m.entries
  · rename_i absent
    simp [lookup, AList.lookup_eq_none.mpr absent]

theorem lookup_modify_of_ne {m : BoundedMap K V capacity} {k other : K} {f : V → V}
    (different : other ≠ k) : (m.modify k f).lookup other = m.lookup other := by
  unfold modify
  split
  · split
    · exact AList.lookup_insert_ne different
    · rfl
  · rfl

/-! ## Removing -/

/-- Remove the entry of a key. -/
def erase (m : BoundedMap K V capacity) (k : K) : BoundedMap K V capacity :=
  ⟨m.entries.erase k, by
    rw [AList.keys_erase]
    exact Nat.le_trans List.length_erase_le m.bounded⟩

theorem lookup_erase_self {m : BoundedMap K V capacity} {k : K} : (m.erase k).lookup k = none :=
  AList.lookup_erase k m.entries

theorem lookup_erase_of_ne {m : BoundedMap K V capacity} {k other : K} (different : other ≠ k) :
    (m.erase k).lookup other = m.lookup other :=
  AList.lookup_erase_ne different

theorem not_mem_keys_erase {m : BoundedMap K V capacity} {k : K} : k ∉ (m.erase k).keys :=
  lookup_eq_none.mp lookup_erase_self

/-- Removing a key frees one place. -/
theorem size_erase {m : BoundedMap K V capacity} {k : K} (present : k ∈ m.keys) :
    (m.erase k).size = m.size - 1 := by
  rw [size, erase, AList.keys_erase]
  exact List.length_erase_of_mem present

theorem size_erase_lt {m : BoundedMap K V capacity} {k : K} (present : k ∈ m.keys) :
    (m.erase k).size < m.size := by
  rw [size_erase present]
  exact Nat.sub_lt (List.length_pos_of_mem present) Nat.zero_lt_one

end BoundedMap

end Library
