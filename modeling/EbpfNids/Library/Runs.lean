import Mathlib.Data.List.Basic
import Mathlib.Algebra.BigOperators.Ring.List
import Mathlib.Algebra.Order.Ring.Nat

/-!
# Runs of a step function

A system is a step function on states and events. A run is a list of events
from a start state, and its steps are its events, each with the state that
meets it.

Five rules carry the results about runs. A property that every step of the
run preserves holds at its end and before each of its steps
(`exec_invariant`, `steps_invariant`). A quantity that every step changes by
what comes in minus what goes out satisfies the same balance over the whole
run (`exec_balance`), and so a counter with carries counts its ticks
(`exec_counter`). A counter that wraps adds up its increases modulo its modulus
(`exec_wrapping`). When an attempt can only succeed or be repeated, and a
success is never undone, the success of the first attempt is the success of
every attempt (`FirstTime.forall_attempts`).
-/

set_option autoImplicit false

namespace Library.Runs

variable {σ ε : Type*}

section Exec

variable (step : σ → ε → σ)

/-- The state after a list of events. -/
def exec (start : σ) (events : List ε) : σ := events.foldl step start

/-- The steps of a run: every event with the state that meets it. -/
def steps : σ → List ε → List (σ × ε)
  | _, [] => []
  | state, event :: rest => (state, event) :: steps (step state event) rest

@[simp] theorem exec_nil (start : σ) : exec step start [] = start := rfl

@[simp] theorem exec_cons (start : σ) (event : ε) (rest : List ε) :
    exec step start (event :: rest) = exec step (step start event) rest := rfl

theorem exec_append (start : σ) (first second : List ε) :
    exec step start (first ++ second) = exec step (exec step start first) second :=
  List.foldl_append ..

@[simp] theorem steps_nil (start : σ) : steps step start [] = [] := rfl

@[simp] theorem steps_cons (start : σ) (event : ε) (rest : List ε) :
    steps step start (event :: rest) =
      (start, event) :: steps step (step start event) rest := rfl

theorem steps_append (start : σ) (first second : List ε) :
    steps step start (first ++ second) =
      steps step start first ++ steps step (exec step start first) second := by
  induction first generalizing start with
  | nil => rfl
  | cons event rest ih => simp [ih]

/-- The events of the steps are the events of the run. -/
theorem steps_events (start : σ) (events : List ε) :
    (steps step start events).map Prod.snd = events := by
  induction events generalizing start with
  | nil => rfl
  | cons event rest ih => simp [ih]

theorem event_mem_of_mem_steps {start : σ} {events : List ε} {p : σ × ε}
    (member : p ∈ steps step start events) : p.2 ∈ events := by
  have mapped := List.mem_map_of_mem (f := Prod.snd) member
  rwa [steps_events] at mapped

/-- A step of a run is an event of the run in the state that meets it. -/
theorem exists_split_of_mem_steps {start : σ} {events : List ε} {p : σ × ε}
    (member : p ∈ steps step start events) :
    ∃ before after, events = before ++ p.2 :: after ∧ p.1 = exec step start before := by
  induction events generalizing start with
  | nil => cases member
  | cons event rest ih =>
      rcases List.mem_cons.mp member with rfl | later
      · exact ⟨[], rest, rfl, rfl⟩
      · obtain ⟨before, after, split, state⟩ := ih later
        exact ⟨event :: before, after, by rw [split, List.cons_append], state⟩

/-- The steps before a step are those of the events before its event. -/
theorem steps_before {start : σ} {events : List ε} {before after : List (σ × ε)} {p : σ × ε}
    (split : steps step start events = before ++ p :: after) :
    ∃ first rest, events = first ++ p.2 :: rest ∧ before = steps step start first ∧
      p.1 = exec step start first := by
  induction before generalizing start events with
  | nil =>
      cases events with
      | nil => cases split
      | cons event rest =>
          obtain ⟨rfl, -⟩ := List.cons.inj split
          exact ⟨[], rest, rfl, rfl, rfl⟩
  | cons q before ih =>
      cases events with
      | nil => cases split
      | cons event rest =>
          obtain ⟨rfl, later⟩ := List.cons.inj split
          obtain ⟨first, rest', rfl, rfl, state⟩ := ih later
          exact ⟨event :: first, rest', rfl, rfl, state⟩

end Exec

section Invariants

variable {step : σ → ε → σ}

/-- **Invariant rule.** What the start satisfies and every step of the run
preserves holds at the end of the run. -/
theorem exec_invariant {P : σ → Prop} {start : σ} {events : List ε} (initial : P start)
    (preserved : ∀ p ∈ steps step start events, P p.1 → P (step p.1 p.2)) :
    P (exec step start events) := by
  induction events generalizing start with
  | nil => exact initial
  | cons event rest ih =>
      apply ih (preserved (start, event) List.mem_cons_self initial)
      intro p member
      exact preserved p (List.mem_cons_of_mem _ member)

/-- An invariant holds of the state that meets each event. -/
theorem steps_invariant {P : σ → Prop} {start : σ} {events : List ε} (initial : P start)
    (preserved : ∀ p ∈ steps step start events, P p.1 → P (step p.1 p.2)) :
    ∀ p ∈ steps step start events, P p.1 := by
  induction events generalizing start with
  | nil =>
      intro _ member
      cases member
  | cons event rest ih =>
      intro p member
      rcases List.mem_cons.mp member with rfl | later
      · exact initial
      · exact ih (preserved (start, event) List.mem_cons_self initial)
          (fun q inRest => preserved q (List.mem_cons_of_mem _ inRest)) p later

/-- **Balance rule.** A quantity that every step changes by `income` less
`outgo` changes by their totals over the run. -/
theorem exec_balance {value : σ → ℕ} {income outgo : σ × ε → ℕ} {start : σ} {events : List ε}
    (balanced : ∀ p ∈ steps step start events,
      value (step p.1 p.2) + outgo p = value p.1 + income p) :
    value (exec step start events) + ((steps step start events).map outgo).sum =
      value start + ((steps step start events).map income).sum := by
  induction events generalizing start with
  | nil => rfl
  | cons event rest ih =>
      have here := balanced (start, event) List.mem_cons_self
      have later := ih fun p member => balanced p (List.mem_cons_of_mem _ member)
      simp only [exec_cons, steps_cons, List.map_cons, List.sum_cons]
      simp only at here
      omega

/-- **Bound rule.** A quantity that no step increases by more than `income` less
`outgo` is bounded by their totals over the run. -/
theorem exec_bound {value : σ → ℕ} {income outgo : σ × ε → ℕ} {start : σ} {events : List ε}
    (bounded : ∀ p ∈ steps step start events,
      value (step p.1 p.2) + outgo p ≤ value p.1 + income p) :
    value (exec step start events) + ((steps step start events).map outgo).sum ≤
      value start + ((steps step start events).map income).sum := by
  induction events generalizing start with
  | nil => exact Nat.le_refl _
  | cons event rest ih =>
      have here := bounded (start, event) List.mem_cons_self
      have later := ih fun p member => bounded p (List.mem_cons_of_mem _ member)
      simp only [exec_cons, steps_cons, List.map_cons, List.sum_cons]
      simp only at here
      omega

theorem sum_map_toNat {α : Type*} (q : α → Bool) (l : List α) :
    (l.map fun a => (q a).toNat).sum = l.countP q := by
  induction l with
  | nil => rfl
  | cons a rest ih =>
      rw [List.map_cons, List.sum_cons, ih, List.countP_cons, Nat.add_comm]
      cases q a <;> rfl

/-- **Counter rule.** A counter that every tick increments and every carry takes
a whole modulus from ends at what it was and the number of ticks modulo the
modulus, after as many carries as moduli fit in that number. -/
theorem exec_counter_since (value : σ → ℕ) {modulus : ℕ} {tick : σ × ε → Bool}
    {carry : σ × ε → ℕ} {start : σ} {events : List ε}
    (bounded : value (exec step start events) < modulus)
    (counted : ∀ p ∈ steps step start events,
      value (step p.1 p.2) + modulus * carry p = value p.1 + (tick p).toNat) :
    value (exec step start events) =
        (value start + (steps step start events).countP tick) % modulus ∧
      ((steps step start events).map carry).sum =
        (value start + (steps step start events).countP tick) / modulus := by
  have balance := exec_balance counted
  rw [List.sum_map_mul_left, sum_map_toNat] at balance
  obtain ⟨quotient, remainder⟩ := (Nat.div_mod_unique (Nat.zero_lt_of_lt bounded)).mpr
    ⟨balance, bounded⟩
  exact ⟨remainder.symm, quotient.symm⟩

/-- The rule for a counter that starts at zero. -/
theorem exec_counter (value : σ → ℕ) {modulus : ℕ} {tick : σ × ε → Bool} {carry : σ × ε → ℕ}
    {start : σ} {events : List ε} (initial : value start = 0)
    (bounded : value (exec step start events) < modulus)
    (counted : ∀ p ∈ steps step start events,
      value (step p.1 p.2) + modulus * carry p = value p.1 + (tick p).toNat) :
    value (exec step start events) = (steps step start events).countP tick % modulus ∧
      ((steps step start events).map carry).sum =
        (steps step start events).countP tick / modulus := by
  have since := exec_counter_since value bounded counted
  rwa [initial, Nat.zero_add] at since

/-- **Wrapping rule.** A counter that every step increases modulo `modulus` is at
the end what it was and all increases, modulo `modulus`. -/
theorem exec_wrapping (value : σ → ℕ) {modulus : ℕ} {income : σ × ε → ℕ} {start : σ}
    {events : List ε} (bounded : value start < modulus)
    (counted : ∀ p ∈ steps step start events,
      value (step p.1 p.2) = (value p.1 + income p) % modulus) :
    value (exec step start events) =
      (value start + ((steps step start events).map income).sum) % modulus := by
  induction events generalizing start with
  | nil => exact (Nat.mod_eq_of_lt bounded).symm
  | cons event rest ih =>
      have here := counted (start, event) List.mem_cons_self
      have below : value (step start event) < modulus := by
        rw [here]
        exact Nat.mod_lt _ (Nat.zero_lt_of_lt bounded)
      rw [exec_cons, ih below fun p member => counted p (List.mem_cons_of_mem _ member), here,
        Nat.mod_add_mod, steps_cons, List.map_cons, List.sum_cons, Nat.add_assoc]

end Invariants

/-! ## The first attempt -/

section FirstTime

variable {α : Type*}

/-- The first element that is an attempt, if there is one, succeeds. -/
def FirstTime (attempt success : α → Prop) : List α → Prop
  | [] => True
  | p :: rest => (attempt p ∧ success p) ∨ (¬ attempt p ∧ FirstTime attempt success rest)

theorem FirstTime.of_append {attempt success : α → Prop} {first second : List α}
    (whole : FirstTime attempt success (first ++ second)) : FirstTime attempt success first := by
  induction first with
  | nil => trivial
  | cons p rest ih => exact whole.imp_right fun later => ⟨later.1, ih later.2⟩

variable {step : σ → ε → σ} {attempt success : σ × ε → Prop}

/-- **First-attempt rule.** No attempt is made once the matter is settled, a
success settles it, and no step of the run unsettles it. Then the success of
the first attempt is the success of every attempt. -/
theorem FirstTime.forall_attempts (settled : σ → Prop) {start : σ} {events : List ε}
    (first : FirstTime attempt success (steps step start events))
    (once : ∀ p, attempt p → ¬ settled p.1)
    (settles : ∀ p, attempt p → success p → settled (step p.1 p.2))
    (stays : ∀ p ∈ steps step start events, settled p.1 → settled (step p.1 p.2)) :
    ∀ p ∈ steps step start events, attempt p → success p := by
  induction events generalizing start with
  | nil => exact fun _ member => nomatch member
  | cons event rest ih =>
      have staysLater : ∀ p ∈ steps step (step start event) rest,
          settled p.1 → settled (step p.1 p.2) :=
        fun p member => stays p (List.mem_cons_of_mem _ member)
      intro p member tried
      rcases first with ⟨triedHere, succeeded⟩ | ⟨notTried, firstLater⟩
      · rcases List.mem_cons.mp member with rfl | later
        · exact succeeded
        · have settledLater := steps_invariant (P := settled)
            (settles _ triedHere succeeded) staysLater p later
          exact absurd settledLater (once p tried)
      · rcases List.mem_cons.mp member with rfl | later
        · exact absurd tried notTried
        · exact ih firstLater staysLater p later tried

end FirstTime

end Library.Runs
