import EbpfNids.Library.Window
import EbpfNids.Library.Runs
import EbpfNids.Backend.Messages

/-!
# The alerts of the demo backend

`background_data_generator` makes up a flow in every round, and an alert in some
of them, and keeps the last 50 alerts. `GET /api/alerts` answers with the slice
`sim_alerts[-limit:]`. For a limit of zero this is the slice from 0, the whole
list: the answer is the newest alerts, as many as the limit says, exactly when
the limit is not zero or there is no alert yet (`newest_served_iff`).
-/

set_option autoImplicit false

namespace EbpfNids.Demo

open Library Library.Runs Library.Window EbpfNids.Backend

variable {Flow Alert : Type*}

/-! ## The generator -/

/-- The globals, and what has been pushed to the web sockets. -/
structure Sim (Flow Alert : Type*) where
  simFlows : List Flow
  simTotalAlerts : ℕ
  simAlerts : List Alert
  emitted : List Alert
deriving DecidableEq, Repr

def Sim.init : Sim Flow Alert := ⟨[], 0, [], []⟩

/-- What a round makes up: a flow, an alert in about three rounds of ten, and
whether the web socket takes it. -/
structure Round (Flow Alert : Type*) where
  flow : Flow
  alert : Option Alert
  emits : Bool
deriving DecidableEq, Repr

/-- One round of `background_data_generator`, under the lock. An exception of
`emit` is caught and passed over. -/
def generate (sim : Sim Flow Alert) (round : Round Flow Alert) : Sim Flow Alert :=
  let sim := { sim with simFlows := push 8 sim.simFlows round.flow }
  match round.alert with
  | none => sim
  | some alert =>
      { sim with
        simAlerts := push 50 sim.simAlerts alert
        simTotalAlerts := sim.simTotalAlerts + 1
        emitted := if round.emits then sim.emitted ++ [alert] else sim.emitted }

/-- The alerts that were generated, in this order. -/
def generated (rounds : List (Round Flow Alert)) : List Alert := rounds.filterMap (·.alert)

/-! ## The request -/

/-- `list[start:]`, from the end when `start` is negative. -/
def sliceFrom {α : Type*} (start : ℤ) (list : List α) : List α :=
  if start < 0 then list.drop (list.length + start).toNat else list.drop start.toNat

section Request

variable (decimalDigit : ℕ → Option (Fin 10))

/-- `request.args.get('limit', 20, type=int)`, where `decimalDigit` gives the values of
the characters that are decimal digits. -/
def limitOf (arg : Option Text) : ℤ :=
  match arg with
  | none => 20
  | some value =>
      match intOfText decimalDigit value with
      | .ok limit => limit
      | .error _ => 20

/-- `GET /api/alerts`, under the lock. -/
def alerts (arg : Option Text) (sim : Sim Flow Alert) : List Alert :=
  sliceFrom (-limitOf decimalDigit arg) sim.simAlerts

/-- The answer has the newest alerts, as many as are asked for, but at most 50 and
all there are. -/
structure ServesNewest (arg : Option Text) (n : ℕ) (history : List Alert) (sim : Sim Flow Alert) :
    Prop where
  newest : alerts decimalDigit arg sim = history.rtake (min n (min 50 sim.simTotalAlerts))
  total : sim.simTotalAlerts = history.length

end Request

/-! ## What every run keeps -/

/-- The list has the newest 50 of the alerts so far, and the counter their
number. -/
structure Keeps (history : List Alert) (sim : Sim Flow Alert) : Prop where
  newest : sim.simAlerts = history.rtake 50
  total : sim.simTotalAlerts = history.length

/-- **Step lemma.** -/
theorem Keeps.generate {sim : Sim Flow Alert} {history : List Alert} (keeps : Keeps history sim)
    (round : Round Flow Alert) : Keeps (history ++ round.alert.toList) (generate sim round) := by
  rw [Demo.generate]
  cases round.alert with
  | none =>
      rw [Option.toList_none, List.append_nil]
      exact ⟨keeps.newest, keeps.total⟩
  | some alert =>
      refine ⟨?_, ?_⟩
      · show push 50 sim.simAlerts alert = _
        rw [keeps.newest, push_rtake]
        rfl
      · show sim.simTotalAlerts + 1 = _
        rw [keeps.total, Option.toList_some, List.length_append, List.length_singleton]

/-- **Run lemma.** -/
theorem Keeps.exec {sim : Sim Flow Alert} {history : List Alert} (keeps : Keeps history sim)
    (rounds : List (Round Flow Alert)) :
    Keeps (history ++ generated rounds) (exec Demo.generate sim rounds) := by
  induction rounds generalizing sim history with
  | nil =>
      rw [generated, List.filterMap_nil, List.append_nil]
      exact keeps
  | cons round rest ih =>
      have later := ih (keeps.generate round)
      have parts : round.alert.toList ++ generated rest = generated (round :: rest) := by
        rw [generated, generated, List.filterMap_cons]
        cases round.alert with
        | none => rfl
        | some alert => rfl
      rwa [List.append_assoc, parts] at later

theorem keeps_init : Keeps [] (Sim.init : Sim Flow Alert) := ⟨rfl, rfl⟩

/-! ## The slice -/

theorem sliceFrom_neg {α : Type*} {n : ℕ} (positive : n ≠ 0) (list : List α) :
    sliceFrom (-(n : ℤ)) list = list.rtake n := by
  rw [sliceFrom, if_pos (by omega), List.rtake]
  congr 1
  omega

/-- A slice from minus zero is the whole list. -/
theorem sliceFrom_zero {α : Type*} (list : List α) : sliceFrom (-((0 : ℕ) : ℤ)) list = list := rfl

/-- **The newest alerts are served.** After every run, a request whose limit is
the integer `n` is answered with the newest alerts that were generated, at most
`n` and at most 50 of them, and the counter has the number of all, exactly when
`n` is not zero or nothing has been generated. -/
theorem newest_served_iff (decimalDigit : ℕ → Option (Fin 10))
    (rounds : List (Round Flow Alert)) {arg : Option Text} {n : ℕ}
    (limit : limitOf decimalDigit arg = n) :
    ServesNewest decimalDigit arg n (generated rounds) (exec generate Sim.init rounds) ↔
      n ≠ 0 ∨ generated rounds = [] := by
  have keeps := keeps_init.exec rounds
  rw [List.nil_append] at keeps
  have answer : alerts decimalDigit arg (exec generate Sim.init rounds) =
      sliceFrom (-(n : ℤ)) ((generated rounds).rtake 50) := by
    rw [alerts, limit, keeps.newest]
  constructor
  · intro serves
    by_contra neither
    obtain ⟨zero, some⟩ := not_or.mp neither
    obtain rfl := not_not.mp zero
    have newest := serves.newest
    rw [answer, sliceFrom_zero, Nat.zero_min, List.rtake_zero] at newest
    have length := congrArg List.length newest
    rw [length_rtake, List.length_nil] at length
    have := List.length_pos_iff.mpr some
    omega
  · rintro (positive | nothing)
    · refine ⟨?_, keeps.total⟩
      rw [answer, sliceFrom_neg positive, rtake_rtake, keeps.total, ← Nat.min_assoc,
        rtake_min_length]
    · refine ⟨?_, keeps.total⟩
      rw [answer, nothing, List.rtake_nil, List.rtake_nil]
      cases n with
      | zero => rfl
      | succ n => rw [sliceFrom_neg (Nat.succ_ne_zero n), List.rtake_nil]

/-- The ten fullwidth digits. -/
def fullwidthDigit (c : ℕ) : Option (Fin 10) :=
  if h : 0xFF10 ≤ c ∧ c < 0xFF1A then some ⟨c - 0xFF10, by omega⟩ else none

/-- Three alerts, and a limit of zero. -/
theorem limit_zero_serves_all :
    let rounds : List (Round ℕ ℕ) := [⟨0, some 1, true⟩, ⟨0, some 2, true⟩, ⟨0, some 3, false⟩]
    alerts fullwidthDigit (some (text "0")) (exec generate Sim.init rounds) = [1, 2, 3] ∧
      ¬ServesNewest fullwidthDigit (some (text "0")) 0 (generated rounds)
        (exec generate Sim.init rounds) := by
  intro rounds
  have all : alerts fullwidthDigit (some (text "0")) (exec generate Sim.init rounds) =
      [1, 2, 3] := by
    decide +kernel
  refine ⟨all, fun serves => ?_⟩
  have newest := serves.newest
  rw [all, Nat.zero_min, List.rtake_zero] at newest
  cases newest

/-- The same alerts, and a limit of two that is written with a fullwidth digit. -/
theorem newest_two_served :
    let rounds : List (Round ℕ ℕ) := [⟨0, some 1, true⟩, ⟨0, some 2, true⟩, ⟨0, some 3, false⟩]
    ServesNewest fullwidthDigit (some [0xFF12]) 2 (generated rounds)
      (exec generate Sim.init rounds) := by
  intro rounds
  exact (newest_served_iff fullwidthDigit rounds (by decide +kernel)).mpr (Or.inl two_ne_zero)

end EbpfNids.Demo
