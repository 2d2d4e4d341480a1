import Mathlib.Algebra.Order.Ring.Nat

/-!
# Paths in a tree of directories

In a tree without links a directory is the list of the names on the way to it,
the last one first, and a path is a list of steps. A path leads from a directory
to where it leads from the root exactly when the directory is the root or some
beginning of the path climbs out of it (`walk_eq_iff`).
-/

set_option autoImplicit false

namespace Library.Paths

variable {Name : Type*}

/-- A component of a path: `.`, `..` or a name. -/
inductive Component (Name : Type*) where
  | here
  | up
  | down (name : Name)
deriving DecidableEq, Repr

/-- Where a component leads from a directory. The root is above itself. -/
def step (dir : List Name) : Component Name → List Name
  | .here => dir
  | .up => dir.tail
  | .down name => name :: dir

def walk (dir : List Name) (path : List (Component Name)) : List Name := path.foldl step dir

/-- How many levels a path goes up. -/
def ups : List (Component Name) → ℕ
  | [] => 0
  | .here :: rest => ups rest
  | .up :: rest => ups rest + 1
  | .down _ :: rest => ups rest

/-- How many levels a path goes down. -/
def downs : List (Component Name) → ℕ
  | [] => 0
  | .here :: rest => downs rest
  | .up :: rest => downs rest
  | .down _ :: rest => downs rest + 1

@[simp]
theorem ups_up (path : List (Component Name)) : ups (.up :: path) = ups path + 1 := rfl

@[simp]
theorem ups_down (name : Name) (path : List (Component Name)) :
    ups (.down name :: path) = ups path := rfl

@[simp]
theorem ups_here (path : List (Component Name)) : ups (.here :: path) = ups path := rfl

@[simp]
theorem downs_up (path : List (Component Name)) : downs (.up :: path) = downs path := rfl

@[simp]
theorem downs_down (name : Name) (path : List (Component Name)) :
    downs (.down name :: path) = downs path + 1 := rfl

@[simp]
theorem downs_here (path : List (Component Name)) : downs (.here :: path) = downs path := rfl

/-- Some beginning of the path goes up at least `depth` levels more than down. -/
def Climbs (depth : ℕ) (path : List (Component Name)) : Prop :=
  ∃ start, start <+: path ∧ depth + downs start ≤ ups start

theorem climbs_nil {depth : ℕ} : Climbs depth ([] : List (Component Name)) ↔ depth = 0 := by
  constructor
  · rintro ⟨start, isPrefix, climbs⟩
    obtain rfl := List.prefix_nil.mp isPrefix
    exact Nat.le_zero.mp climbs
  · rintro rfl
    exact ⟨[], List.prefix_rfl, le_rfl⟩

/-- The beginnings of a path are the empty one and those of its rest. -/
theorem climbs_cons {depth : ℕ} (c : Component Name) (path : List (Component Name)) :
    Climbs depth (c :: path) ↔
      depth = 0 ∨ ∃ start, start <+: path ∧ depth + downs (c :: start) ≤ ups (c :: start) := by
  constructor
  · rintro ⟨start, isPrefix, climbs⟩
    cases start with
    | nil => exact Or.inl (Nat.le_zero.mp climbs)
    | cons first rest =>
        obtain ⟨rfl, restPrefix⟩ := List.cons_prefix_cons.mp isPrefix
        exact Or.inr ⟨rest, restPrefix, climbs⟩
  · rintro (rfl | ⟨start, isPrefix, climbs⟩)
    · exact ⟨[], List.nil_prefix, le_rfl⟩
    · exact ⟨c :: start, List.cons_prefix_cons.mpr ⟨rfl, isPrefix⟩, climbs⟩

theorem climbs_zero (path : List (Component Name)) : Climbs 0 path :=
  ⟨[], List.nil_prefix, le_rfl⟩

theorem climbs_here {depth : ℕ} (path : List (Component Name)) :
    Climbs depth (.here :: path) ↔ Climbs depth path := by
  rw [climbs_cons]
  constructor
  · rintro (rfl | climbs)
    · exact climbs_zero path
    · exact climbs
  · exact Or.inr

theorem climbs_up {depth : ℕ} (path : List (Component Name)) :
    Climbs (depth + 1) (.up :: path) ↔ Climbs depth path := by
  have shift : ∀ start : List (Component Name),
      depth + 1 + downs (.up :: start) ≤ ups (.up :: start) ↔ depth + downs start ≤ ups start := by
    intro start
    rw [ups_up, downs_up]
    omega
  rw [climbs_cons]
  simp only [shift, Nat.succ_ne_zero, false_or, Climbs]

theorem climbs_down {depth : ℕ} (name : Name) (path : List (Component Name)) :
    Climbs depth (.down name :: path) ↔ depth = 0 ∨ Climbs (depth + 1) path := by
  have shift : ∀ start : List (Component Name),
      depth + downs (.down name :: start) ≤ ups (.down name :: start) ↔
        depth + 1 + downs start ≤ ups start := by
    intro start
    rw [ups_down, downs_down]
    omega
  rw [climbs_cons]
  simp only [shift, Climbs]

/-- The way down from the directory that the path started in, and what is left of
the names above it. -/
theorem walk_append_eq_iff (path : List (Component Name)) (own above : List Name) :
    walk (own ++ above) path = walk own path ↔
      above = [] ∨ Climbs (above.length + own.length) path := by
  induction path generalizing own above with
  | nil =>
      rw [climbs_nil]
      show own ++ above = own ↔ _
      rw [List.append_right_eq_self, Nat.add_eq_zero_iff, List.length_eq_zero_iff]
      exact ⟨Or.inl, fun either => either.elim id And.left⟩
  | cons c rest ih =>
      cases above with
      | nil =>
          rw [List.append_nil]
          exact iff_of_true rfl (Or.inl rfl)
      | cons name outer =>
          have deep : name :: outer ≠ [] := List.cons_ne_nil _ _
          cases c with
          | here =>
              rw [climbs_here]
              exact ih own (name :: outer)
          | down below =>
              have inside : (name :: outer).length + own.length ≠ 0 :=
                (Nat.add_pos_left (Nat.succ_pos _) _).ne'
              rw [climbs_down, or_iff_right inside]
              exact ih (below :: own) (name :: outer)
          | up =>
              cases own with
              | cons last own =>
                  rw [show (last :: own).length = own.length + 1 from rfl, ← Nat.add_assoc,
                    climbs_up]
                  exact ih own (name :: outer)
              | nil =>
                  -- The path leaves the directory by one level.
                  rw [or_iff_right deep, List.length_cons, Nat.add_right_comm, climbs_up]
                  refine (ih [] outer).trans ?_
                  constructor
                  · rintro (rfl | climbs)
                    · exact climbs_zero rest
                    · exact climbs
                  · exact Or.inr

/-- **Where a path leads to the same place.** From a directory and from the root,
when the path climbs out of the directory. -/
theorem walk_eq_iff (dir : List Name) (path : List (Component Name)) :
    walk dir path = walk [] path ↔ Climbs dir.length path := by
  have whole := walk_append_eq_iff path [] dir
  rw [List.nil_append, List.length_nil, Nat.add_zero] at whole
  rw [whole]
  constructor
  · rintro (rfl | climbs)
    · exact climbs_zero path
    · exact climbs
  · exact Or.inr

end Library.Paths
