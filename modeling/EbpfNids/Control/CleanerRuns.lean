import EbpfNids.Library.Runs
import EbpfNids.Control.MapCleaner

/-!
# The map cleaner beside the data plane

`clean_map` makes one call after the other, and between two of them the data
plane may insert entries, also the one that has just been deleted, and another
cleaner may delete some. Alone, its calls do what `cleanLoop` does
(`alone_cleanLoop`).

When 0.0.0.0 is not in the map at its first call, every entry that has been there
all the time is after the cursor. So on return the map holds only entries that
were inserted meanwhile, and in any case the loop goes round no more often than
there were entries at the start or inserted since (`entries_inserted`).
-/

set_option autoImplicit false

namespace EbpfNids.Control

open Library Library.Runs

variable {V : Type} {capacity : ℕ}

/-! ## One call after the other -/

/-- The call that `clean_map` makes next. -/
inductive CleanStage where
  | getNextKey (key : UInt32)
  | deleteElem (nextKey : UInt32)
  | returned
deriving DecidableEq, Repr

structure Cleaning (V : Type) (capacity : ℕ) where
  map : BoundedMap UInt32 V capacity
  stage : CleanStage
  count : Int32

def Cleaning.start (m : BoundedMap UInt32 V capacity) : Cleaning V capacity :=
  ⟨m, .getNextKey 0, 0⟩

/-- A call of `clean_map`, or one of another program. -/
inductive CleanEvent (V : Type) where
  | call
  | update (key : UInt32) (value : V)
  | delete (key : UInt32)
deriving DecidableEq, Repr

def cleanStep (order : VisitOrder UInt32) (s : Cleaning V capacity) :
    CleanEvent V → Cleaning V capacity
  | .call =>
      match s.stage with
      | .getNextKey key =>
          match order.next s.map.keys key with
          | some nextKey => { s with stage := .deleteElem nextKey }
          | none => { s with stage := .returned }
      | .deleteElem nextKey =>
          { map := s.map.erase nextKey, stage := .getNextKey nextKey, count := s.count + 1 }
      | .returned => s
  | .update key value => { s with map := (s.map.update key value).getD s.map }
  | .delete key => { s with map := s.map.erase key }

/-- Without any other program the calls are those of the loop. -/
theorem alone_cleanLoop (order : VisitOrder UInt32) (m : BoundedMap UInt32 V capacity)
    (key : UInt32) (count : Int32) :
    ∃ n, exec (cleanStep order) ⟨m, .getNextKey key, count⟩ (List.replicate n .call) =
      ⟨(cleanLoop order m key count).1, .returned, (cleanLoop order m key count).2⟩ := by
  induction m, key, count using cleanLoop.induct order with
  | case1 m key count nextKey found ih =>
      obtain ⟨n, rest⟩ := ih
      refine ⟨n + 2, ?_⟩
      rw [cleanLoop_some order count found, List.replicate_succ, List.replicate_succ, exec_cons,
        exec_cons, ← rest]
      simp only [cleanStep, found]
  | case2 m key count ended =>
      refine ⟨1, ?_⟩
      rw [cleanLoop_none order count ended, List.replicate_one, exec_cons, exec_nil]
      simp only [cleanStep, ended]

/-! ## What a run leaves -/

/-- The step inserts an entry for a key that the map does not hold. -/
def Inserts (key : UInt32) (p : Cleaning V capacity × CleanEvent V) : Prop :=
  ∃ value, p.2 = .update key value ∧ key ∉ p.1.map.keys ∧ (p.1.map.update key value).isSome = true

/-- The step inserts an entry. -/
def isInsertion (p : Cleaning V capacity × CleanEvent V) : Bool :=
  match p.2 with
  | .update key value => key ∉ p.1.map.keys && (p.1.map.update key value).isSome
  | _ => false

/-- The step is a deletion by `clean_map`. -/
def isRound (p : Cleaning V capacity × CleanEvent V) : Bool :=
  match p.2, p.1.stage with
  | .call, .deleteElem _ => true
  | _, _ => false

/-- Keys that are after the cursor. -/
def Ahead (order : VisitOrder UInt32) (old : UInt32 → Prop) : CleanStage → Prop
  | .getNextKey key => ∀ k, old k → order.place key < order.place k
  | .deleteElem nextKey => ∀ k, old k → k = nextKey ∨ order.place nextKey < order.place k
  | .returned => ∀ k, ¬ old k

theorem mem_keys_update_getD {m : BoundedMap UInt32 V capacity} {k other : UInt32} {v : V} :
    other ∈ ((m.update k v).getD m).keys ↔
      other ∈ m.keys ∨ other = k ∧ (m.update k v).isSome = true := by
  cases stored : m.update k v with
  | none => simp
  | some m' =>
      rw [Option.getD_some, BoundedMap.mem_keys_update stored]
      simp [or_comm]

theorem mem_keys_erase {m : BoundedMap UInt32 V capacity} {k other : UInt32} :
    other ∈ (m.erase k).keys ↔ other ∈ m.keys ∧ other ≠ k := by
  rw [← BoundedMap.lookup_isSome, ← BoundedMap.lookup_isSome]
  by_cases same : other = k
  · subst same
    simp [BoundedMap.lookup_erase_self]
  · rw [BoundedMap.lookup_erase_of_ne same]
    simp [same]

section Ahead

variable {order : VisitOrder UInt32} {old : UInt32 → Prop}

/-- The answer to `bpf_map_get_next_key`, if the cursor is not in the map or the
keys are after it. -/
theorem ahead_next {m : BoundedMap UInt32 V capacity} {key : UInt32} (count : Int32)
    (start : key ∉ m.keys ∨ ∀ k, old k ∧ k ∈ m.keys → order.place key < order.place k) :
    Ahead order (fun k => old k ∧ k ∈ m.keys)
      (cleanStep order ⟨m, .getNextKey key, count⟩ .call).stage := by
  simp only [cleanStep]
  cases found : order.next m.keys key with
  | none =>
      rintro k ⟨isOld, there⟩
      rcases order.next_eq_none.mp found with empty | last
      · exact List.ne_nil_of_mem there empty
      · rcases start with absent | later
        · exact absent last.1
        · exact Nat.not_le_of_lt (later k ⟨isOld, there⟩) (last.2 k there)
  | some nextKey =>
      rintro k ⟨isOld, there⟩
      have first : order.place nextKey ≤ order.place k := by
        rcases start with absent | later
        · rw [order.next_of_not_mem absent] at found
          exact order.place_first_le found there
        · exact order.place_next_le found there (later k ⟨isOld, there⟩)
      rcases Nat.eq_or_lt_of_le first with same | after
      · exact Or.inl (order.injective same).symm
      · exact Or.inr after

theorem map_getNextKey (m : BoundedMap UInt32 V capacity) (key : UInt32) (count : Int32) :
    (cleanStep order ⟨m, .getNextKey key, count⟩ .call).map = m := by
  simp only [cleanStep]
  split <;> rfl

/-- **Step lemma.** The entries that are never inserted stay ahead. -/
theorem ahead_step {p : Cleaning V capacity × CleanEvent V}
    (never : ∀ k, old k → ¬ Inserts k p)
    (ahead : Ahead order (fun k => old k ∧ k ∈ p.1.map.keys) p.1.stage) :
    Ahead order (fun k => old k ∧ k ∈ (cleanStep order p.1 p.2).map.keys)
      (cleanStep order p.1 p.2).stage := by
  obtain ⟨⟨m, stage, count⟩, event⟩ := p
  have fewer : ∀ {m' : BoundedMap UInt32 V capacity},
      (∀ k, old k → k ∈ m'.keys → k ∈ m.keys) →
      Ahead order (fun k => old k ∧ k ∈ m'.keys) stage := by
    intro m' among
    cases stage with
    | getNextKey key => exact fun k both => ahead k ⟨both.1, among k both.1 both.2⟩
    | deleteElem nextKey => exact fun k both => ahead k ⟨both.1, among k both.1 both.2⟩
    | returned => exact fun k both => ahead k ⟨both.1, among k both.1 both.2⟩
  cases event with
  | call =>
      cases stage with
      | getNextKey key =>
          rw [map_getNextKey]
          exact ahead_next count (Or.inr ahead)
      | deleteElem nextKey =>
          rintro k ⟨isOld, there⟩
          obtain ⟨before, other⟩ := mem_keys_erase.mp there
          exact (ahead k ⟨isOld, before⟩).resolve_left other
      | returned => exact ahead
  | update key value =>
      refine fewer fun k isOld there => ?_
      rcases mem_keys_update_getD.mp there with before | ⟨rfl, stored⟩
      · exact before
      · by_contra absent
        exact never k isOld ⟨value, rfl, absent, stored⟩
  | delete key => exact fewer fun k _ there => (mem_keys_erase.mp there).1

end Ahead

/-! ## How often the loop goes round -/

/-- The entries, and the one that is being deleted if another program has done so. -/
def Cleaning.toDelete (s : Cleaning V capacity) : ℕ :=
  match s.stage with
  | .deleteElem nextKey => s.map.size + if nextKey ∈ s.map.keys then 0 else 1
  | _ => s.map.size

theorem size_update_getD (m : BoundedMap UInt32 V capacity) (stage : CleanStage) (count : Int32)
    (k : UInt32) (v : V) :
    ((m.update k v).getD m).size =
      m.size + (isInsertion (⟨m, stage, count⟩, .update k v)).toNat := by
  dsimp only [isInsertion]
  cases stored : m.update k v with
  | none =>
      rw [Option.isSome_none, Bool.and_false]
      rfl
  | some m' =>
      rw [Option.isSome_some, Bool.and_true, Option.getD_some]
      by_cases present : k ∈ m.keys
      · rw [BoundedMap.size_update_of_mem stored present, decide_eq_false (not_not.mpr present)]
        rfl
      · rw [BoundedMap.size_update stored (BoundedMap.lookup_eq_none.mpr present),
          decide_eq_true present]
        rfl

theorem size_erase_of_not_mem {m : BoundedMap UInt32 V capacity} {k : UInt32}
    (absent : k ∉ m.keys) : (m.erase k).size = m.size := by
  have same : (m.erase k).keys = m.keys := by
    show (AList.erase k m.entries).keys = m.entries.keys
    rw [AList.keys_erase]
    exact List.erase_of_not_mem absent
  exact congrArg List.length same

/-- A deletion by another program leaves no more to delete, also of the entry that
is being deleted. -/
theorem toDelete_erase (m : BoundedMap UInt32 V capacity) (stage : CleanStage) (count : Int32)
    (k : UInt32) :
    (⟨m.erase k, stage, count⟩ : Cleaning V capacity).toDelete ≤
      (⟨m, stage, count⟩ : Cleaning V capacity).toDelete := by
  by_cases present : k ∈ m.keys
  · have smaller := BoundedMap.size_erase_lt present
    cases stage with
    | getNextKey cursor => exact Nat.le_of_lt smaller
    | returned => exact Nat.le_of_lt smaller
    | deleteElem nextKey =>
        show (m.erase k).size + (if nextKey ∈ (m.erase k).keys then 0 else 1) ≤
          m.size + if nextKey ∈ m.keys then 0 else 1
        split
        · omega
        · omega
  · have same := size_erase_of_not_mem present
    cases stage with
    | getNextKey cursor => exact Nat.le_of_eq same
    | returned => exact Nat.le_of_eq same
    | deleteElem nextKey =>
        show (m.erase k).size + (if nextKey ∈ (m.erase k).keys then 0 else 1) ≤
          m.size + if nextKey ∈ m.keys then 0 else 1
        by_cases there : nextKey ∈ m.keys
        · have other : nextKey ≠ k := fun same => present (same ▸ there)
          rw [if_pos there, if_pos (mem_keys_erase.mpr ⟨there, other⟩), same]
        · rw [if_neg there, if_neg fun still => there (mem_keys_erase.mp still).1, same]

/-- **Step lemma.** -/
theorem toDelete_step (order : VisitOrder UInt32) (p : Cleaning V capacity × CleanEvent V) :
    (cleanStep order p.1 p.2).toDelete + (isRound p).toNat ≤
      p.1.toDelete + (isInsertion p).toNat := by
  obtain ⟨⟨m, stage, count⟩, event⟩ := p
  cases event with
  | call =>
      cases stage with
      | getNextKey key =>
          dsimp only [cleanStep]
          cases found : order.next m.keys key with
          | none => exact Nat.le_refl _
          | some nextKey =>
              show m.size + (if nextKey ∈ m.keys then 0 else 1) ≤ m.size
              rw [if_pos (order.next_mem found)]
              exact Nat.le_refl _
      | deleteElem nextKey =>
          show (m.erase nextKey).size + 1 ≤ m.size + if nextKey ∈ m.keys then 0 else 1
          by_cases there : nextKey ∈ m.keys
          · rw [if_pos there]
            exact BoundedMap.size_erase_lt there
          · rw [if_neg there, size_erase_of_not_mem there]
      | returned => exact Nat.le_refl _
  | update key value =>
      have more := size_update_getD m stage count key value
      have kept : ∀ k, k ∈ m.keys → k ∈ ((m.update key value).getD m).keys :=
        fun k there => mem_keys_update_getD.mpr (Or.inl there)
      cases stage with
      | getNextKey cursor => exact Nat.le_of_eq more
      | returned => exact Nat.le_of_eq more
      | deleteElem nextKey =>
          show ((m.update key value).getD m).size +
              (if nextKey ∈ ((m.update key value).getD m).keys then 0 else 1) ≤
            m.size + (if nextKey ∈ m.keys then 0 else 1) + _
          rw [more]
          by_cases there : nextKey ∈ m.keys
          · rw [if_pos there, if_pos (kept nextKey there)]
            exact Nat.le_refl _
          · rw [if_neg there]
            split
            · omega
            · omega
  | delete key => exact toDelete_erase m stage count key

theorem count_run (order : VisitOrder UInt32) (s : Cleaning V capacity)
    (events : List (CleanEvent V)) :
    (exec (cleanStep order) s events).count =
      s.count + Int32.ofNat ((steps (cleanStep order) s events).countP isRound) := by
  induction events generalizing s with
  | nil => exact (Int32.add_zero _).symm
  | cons event rest ih =>
      have here : (cleanStep order s event).count =
          s.count + Int32.ofNat (isRound (s, event)).toNat := by
        obtain ⟨m, stage, count⟩ := s
        cases event with
        | call =>
            cases stage with
            | getNextKey key =>
                simp only [cleanStep]
                split <;> exact (Int32.add_zero _).symm
            | deleteElem nextKey => rfl
            | returned => exact (Int32.add_zero _).symm
        | update key value => exact (Int32.add_zero _).symm
        | delete key => exact (Int32.add_zero _).symm
      rw [exec_cons, ih, here, steps_cons, List.countP_cons, Int32.add_assoc, ← Int32.ofNat_add,
        Nat.add_comm]
      cases isRound (s, event) <;> rfl

/-- **What is inserted meanwhile is all that is left.** -/
theorem entries_inserted (order : VisitOrder UInt32) (m : BoundedMap UInt32 V capacity)
    (rest : List (CleanEvent V)) :
    let run := steps (cleanStep order) (.start m) (.call :: rest)
    let s := exec (cleanStep order) (.start m) (.call :: rest)
    (0 ∉ m.keys → s.stage = .returned → ∀ k ∈ s.map.keys, ∃ p ∈ run, Inserts k p) ∧
      s.count = Int32.ofNat (run.countP isRound) ∧
      run.countP isRound ≤ m.size + run.countP isInsertion := by
  intro run s
  refine ⟨?_, ?_, ?_⟩
  · intro absent returned k there
    by_contra none
    have first : Ahead order (fun k => (∀ p ∈ run, ¬ Inserts k p) ∧ k ∈ m.keys)
        (cleanStep order (.start m) .call).stage := ahead_next 0 (Or.inl absent)
    have kept : (cleanStep order (.start m) .call).map = m := map_getNextKey m 0 0
    have ahead := @exec_invariant _ _ (cleanStep order)
      (fun s => Ahead order (fun k => (∀ p ∈ run, ¬ Inserts k p) ∧ k ∈ s.map.keys) s.stage)
      (cleanStep order (.start m) .call) rest (by rwa [kept]) fun p member =>
        ahead_step fun k isOld => isOld p (List.mem_cons_of_mem _ member)
    have gone : Ahead order (fun k => (∀ p ∈ run, ¬ Inserts k p) ∧ k ∈ s.map.keys) s.stage := ahead
    rw [returned] at gone
    exact gone k ⟨fun p member inserts => none ⟨p, member, inserts⟩, there⟩
  · have counted := count_run order (.start m) (.call :: rest)
    rw [counted]
    exact Int32.zero_add _
  · have bound := @exec_bound _ _ (cleanStep order) Cleaning.toDelete
      (fun p => (isInsertion p).toNat) (fun p => (isRound p).toNat) (.start m) (.call :: rest)
      fun p _ => toDelete_step order p
    rw [sum_map_toNat, sum_map_toNat] at bound
    exact (Nat.le_add_left _ _).trans bound

end EbpfNids.Control
