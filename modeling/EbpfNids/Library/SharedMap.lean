import Mathlib.Data.List.Basic
import Mathlib.Logic.Function.Basic

/-!
# Maps whose elements are shared

A lookup gives the position of an element, and whoever holds it reads and writes
the element there. An update puts its key into another element, whether or not the
key has one already: who still holds the position of the old one writes where no
lookup of the key leads any more.

An element to which no lookup leads is free. It keeps its key and its value until
an insertion uses it again, for whatever key (`insert`). No two keys share an
element, so a write in place changes the value of one key at most. It is the value
of the key that was looked up as long as the element has not been used again for
another one (`key`).
-/

set_option autoImplicit false

namespace Library

structure SharedMap (K V : Type*) where
  index : K → Option ℕ
  elems : List (K × V)
  keyed : ∀ {k i}, index k = some i → elems[i]?.map Prod.fst = some k

/-- How an insertion is answered: it fails, or an element is used for the first
time, or again. -/
inductive Room where
  | refused
  | fresh
  | again (i : ℕ)
deriving DecidableEq, Repr

namespace SharedMap

variable {K V : Type*}

/-- The map without elements. -/
def empty : SharedMap K V where
  index := fun _ => none
  elems := []
  keyed := by
    intro k i found
    cases found

/-- The key that the element at a position has been given. -/
def key (m : SharedMap K V) (i : ℕ) : Option K := m.elems[i]?.map Prod.fst

/-- The value of the element at a position. -/
def read (m : SharedMap K V) (i : ℕ) : Option V := m.elems[i]?.map Prod.snd

/-- The element of a key. -/
def value (m : SharedMap K V) (k : K) : Option V := (m.index k).bind m.read

theorem inside (m : SharedMap K V) {k : K} {i : ℕ} (found : m.index k = some i) :
    i < m.elems.length := by
  obtain ⟨e, there, -⟩ := Option.map_eq_some_iff.mp (m.keyed found)
  exact (List.getElem?_eq_some_iff.mp there).1

theorem separate (m : SharedMap K V) {k l : K} {i : ℕ} (found : m.index k = some i)
    (found' : m.index l = some i) : k = l :=
  Option.some.inj ((m.keyed found).symm.trans (m.keyed found'))

/-- Write an element in place. It keeps its key. -/
def modify (m : SharedMap K V) (i : ℕ) (f : V → V) : SharedMap K V where
  index := m.index
  elems := m.elems.modify i fun e => (e.1, f e.2)
  keyed := by
    intro k j found
    have known := m.keyed found
    by_cases here : i = j
    · subst here
      rw [List.getElem?_modify_eq, Option.map_eq_map, Option.map_map]
      exact known
    · rwa [List.getElem?_modify_ne _ _ here]

@[simp] theorem index_modify (m : SharedMap K V) (i : ℕ) (f : V → V) (k : K) :
    (m.modify i f).index k = m.index k := rfl

theorem key_modify (m : SharedMap K V) (i : ℕ) (f : V → V) (j : ℕ) :
    (m.modify i f).key j = m.key j := by
  rw [key, key, modify]
  by_cases here : i = j
  · subst here
    rw [List.getElem?_modify_eq, Option.map_eq_map, Option.map_map]
    rfl
  · rw [List.getElem?_modify_ne _ _ here]

theorem read_modify_self (m : SharedMap K V) (i : ℕ) (f : V → V) :
    (m.modify i f).read i = (m.read i).map f := by
  rw [read, read, modify, List.getElem?_modify_eq, Option.map_eq_map, Option.map_map,
    Option.map_map]
  rfl

theorem read_modify_of_ne (m : SharedMap K V) {i j : ℕ} (f : V → V) (different : i ≠ j) :
    (m.modify i f).read j = m.read j := by
  rw [read, read, modify, List.getElem?_modify_ne _ _ different]

@[simp] theorem value_empty (k : K) : (empty : SharedMap K V).value k = none := rfl

theorem value_of_index {m : SharedMap K V} {k : K} {i : ℕ} (found : m.index k = some i) :
    m.value k = m.read i := by
  rw [value, found, Option.bind_some]

theorem value_eq_none {m : SharedMap K V} {k : K} : m.value k = none ↔ m.index k = none := by
  cases found : m.index k with
  | none => simp [value, found]
  | some i =>
      have := m.inside found
      simp only [value_of_index found, read, Option.map_eq_none_iff, List.getElem?_eq_none_iff,
        reduceCtorEq, iff_false]
      omega

/-- A write in place writes the value of the key whose element it is. -/
theorem value_modify_of_index {m : SharedMap K V} {k : K} {i : ℕ} (f : V → V)
    (found : m.index k = some i) : (m.modify i f).value k = (m.value k).map f := by
  have found' : (m.modify i f).index k = some i := found
  rw [value_of_index found', value_of_index found]
  exact read_modify_self m i f

theorem value_modify_of_ne {m : SharedMap K V} {k : K} {i : ℕ} (f : V → V)
    (other : m.index k ≠ some i) : (m.modify i f).value k = m.value k := by
  cases found : m.index k with
  | none =>
      have found' : (m.modify i f).index k = none := found
      rw [value_eq_none.mpr found, value_eq_none.mpr found']
  | some j =>
      have different : i ≠ j := by
        rintro rfl
        exact other found
      have found' : (m.modify i f).index k = some j := found
      rw [value_of_index found', value_of_index found]
      exact read_modify_of_ne m f different

/-- An element that no key has. -/
def isFree (m : SharedMap K V) (i : ℕ) : Bool :=
  match m.key i with
  | some k => m.index k ≠ some i
  | none => false

/-- No lookup leads to a free element. -/
theorem index_ne_of_isFree {m : SharedMap K V} {i : ℕ} (free : m.isFree i) (k : K) :
    m.index k ≠ some i := by
  intro found
  rw [isFree, key, m.keyed found] at free
  exact absurd found (of_decide_eq_true free)

variable [DecidableEq K]

/-- Store a new element for a key. -/
def update (m : SharedMap K V) (k : K) (v : V) : SharedMap K V where
  index := Function.update m.index k (some m.elems.length)
  elems := m.elems ++ [(k, v)]
  keyed := by
    intro l i found
    by_cases same : l = k
    · subst same
      rw [Function.update_self] at found
      rw [← Option.some.inj found, List.getElem?_concat_length, Option.map_some]
    · rw [Function.update_of_ne same] at found
      rw [List.getElem?_append_left (m.inside found)]
      exact m.keyed found

@[simp] theorem index_update_self (m : SharedMap K V) (k : K) (v : V) :
    (m.update k v).index k = some m.elems.length := Function.update_self ..

theorem index_update_of_ne {m : SharedMap K V} {k l : K} {v : V} (different : l ≠ k) :
    (m.update k v).index l = m.index l := Function.update_of_ne different ..

@[simp] theorem value_update_self (m : SharedMap K V) (k : K) (v : V) :
    (m.update k v).value k = some v := by
  rw [value_of_index (index_update_self m k v), read, update, List.getElem?_concat_length,
    Option.map_some]

theorem value_update_of_ne {m : SharedMap K V} {k l : K} {v : V} (different : l ≠ k) :
    (m.update k v).value l = m.value l := by
  have same := index_update_of_ne (m := m) (v := v) different
  cases found : m.index l with
  | none => rw [value_eq_none.mpr found, value_eq_none.mpr (same.trans found)]
  | some i =>
      rw [value_of_index (same.trans found), value_of_index found, read, read, update,
        List.getElem?_append_left (m.inside found)]

/-- Use a free element again, for this key. -/
def reuse (m : SharedMap K V) (k : K) (v : V) (i : ℕ) (free : m.isFree i) : SharedMap K V where
  index := Function.update m.index k (some i)
  elems := m.elems.set i (k, v)
  keyed := by
    have inList : i < m.elems.length := by
      rw [isFree, key] at free
      cases there : m.elems[i]? with
      | some e => exact (List.getElem?_eq_some_iff.mp there).1
      | none => simp [there] at free
    intro l j found
    by_cases same : l = k
    · subst same
      rw [Function.update_self] at found
      rw [← Option.some.inj found, List.getElem?_set_self inList, Option.map_some]
    · rw [Function.update_of_ne same] at found
      have different : i ≠ j := by
        rintro rfl
        exact index_ne_of_isFree free l found
      rw [List.getElem?_set_ne different]
      exact m.keyed found

/-- Store a value for a key in an element that is free, as it is answered. -/
def insert (m : SharedMap K V) (k : K) (v : V) (room : Room) : SharedMap K V :=
  match room with
  | .refused => m
  | .fresh => m.update k v
  | .again i => if free : m.isFree i then m.reuse k v i free else m

/-- Take a key out of the map. Its element stays for who holds the position. -/
def remove (m : SharedMap K V) (k : K) : SharedMap K V where
  index := Function.update m.index k none
  elems := m.elems
  keyed := by
    intro l i found
    by_cases same : l = k
    · rw [same, Function.update_self] at found
      cases found
    · rw [Function.update_of_ne same] at found
      exact m.keyed found

end SharedMap

/-! ## What holds of every element -/

namespace SharedMap

variable {K V : Type*} {m : SharedMap K V} {P Q : K → V → Prop} {k : K} {i : ℕ} {v : V}

/-- Every element satisfies what is asked of the elements of its key. Also an
element to which no lookup leads any more. -/
def All (m : SharedMap K V) (P : K → V → Prop) : Prop := ∀ e ∈ m.elems, P e.1 e.2

theorem all_empty (P : K → V → Prop) : (empty : SharedMap K V).All P :=
  fun _ member => by cases member

/-- The element at a position has its key and its value. -/
theorem getElem?_of_key (owns : m.key i = some k) (found : m.read i = some v) :
    m.elems[i]? = some (k, v) := by
  rw [key] at owns
  rw [read] at found
  obtain ⟨e, there, rfl⟩ := Option.map_eq_some_iff.mp owns
  rw [there, Option.map_some] at found
  rw [there, ← Option.some.inj found]

namespace All

theorem read (all : m.All P) (owns : m.key i = some k) (found : m.read i = some v) : P k v :=
  all _ (List.mem_of_getElem? (getElem?_of_key owns found))

theorem value (all : m.All P) (found : m.value k = some v) : P k v := by
  cases place : m.index k with
  | none => cases found.symm.trans (value_eq_none.mpr place)
  | some i =>
      rw [value_of_index place] at found
      exact all.read (m.keyed place) found

theorem mono (all : m.All P) (weaker : ∀ k v, P k v → Q k v) : m.All Q :=
  fun e member => weaker _ _ (all e member)

/-- A write in place, through a position that may be stale. -/
theorem modify (all : m.All P) {f : V → V}
    (keeps : ∀ k, m.key i = some k → ∀ v, P k v → P k (f v)) : (m.modify i f).All P := by
  intro e member
  obtain ⟨j, there⟩ := List.mem_iff_getElem?.mp member
  change (m.elems.modify i fun e => (e.1, f e.2))[j]? = some e at there
  by_cases here : i = j
  · subst here
    rw [List.getElem?_modify_eq] at there
    obtain ⟨old, before, rfl⟩ := Option.map_eq_some_iff.mp there
    have owns : m.key i = some old.1 := by rw [key, before, Option.map_some]
    exact keeps _ owns _ (all old (List.mem_of_getElem? before))
  · rw [List.getElem?_modify_ne _ _ here] at there
    exact all e (List.mem_of_getElem? there)

variable [DecidableEq K]

theorem insert (all : m.All P) (holds : P k v) (room : Room) : (m.insert k v room).All P := by
  cases room with
  | refused => exact all
  | fresh =>
      intro e member
      rcases List.mem_append.mp member with old | new
      · exact all e old
      · obtain rfl := List.mem_singleton.mp new
        exact holds
  | again i =>
      rw [SharedMap.insert]
      split
      · intro e member
        rcases List.mem_or_eq_of_mem_set member with old | rfl
        · exact all e old
        · exact holds
      · exact all

theorem remove (all : m.All P) (k : K) : (m.remove k).All P := all

end All

/-! ## Elements that are not used again -/

theorem key_of_index (found : m.index k = some i) : m.key i = some k := m.keyed found

variable [DecidableEq K]

/-- An insertion that uses no element again leaves the others to their keys. -/
theorem key_insert (owns : m.key i = some k) (l : K) (v : V) {room : Room}
    (first : ∀ j, room ≠ .again j) : (m.insert l v room).key i = some k := by
  cases room with
  | refused => exact owns
  | fresh =>
      rw [key] at owns ⊢
      obtain ⟨e, there, rfl⟩ := Option.map_eq_some_iff.mp owns
      rw [insert, update, List.getElem?_append_left (List.getElem?_eq_some_iff.mp there).1, there,
        Option.map_some]
  | again j => exact absurd rfl (first j)

end SharedMap

end Library
