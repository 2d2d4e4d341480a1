import EbpfNids.Control.MapCleaner
import EbpfNids.Loader.StatsPass

/-!
# One pass over the sources

A pass of `read_and_report_stats` walks over `flow_stats` with the last key as
its cursor. A key that has been deleted sends it back to the first key, and it
then meets again what it has reported. As long as nothing that is left lies
before a source already reported when that happens, a pass reports no source
twice, and once every source whose entry is there all the time
(`pass_reports_once`).
-/

set_option autoImplicit false

namespace EbpfNids.Loader

open Library Library.Runs EbpfNids.DataPlane EbpfNids.Control

/-! ## A pass -/

variable (order : VisitOrder UInt32)

/-- `bpf_map_get_next_key` answers with the first key, or the key after the
cursor. -/
def answers (p : System × SysEvent) : Bool :=
  match p.2, p.1.stage with
  | .firstKey key, .idle => key = order.first p.1.maps.flowStats.keys
  | .nextKey key, .next cursor => key = order.next p.1.maps.flowStats.keys cursor
  | _, _ => true

/-- The steps of a pass: its first call, and then any steps of the data plane, of
the map cleaner and of the loader in any order. -/
def passSteps (sys : System) (key : Option UInt32) (events : List SysEvent) :
    List (System × SysEvent) :=
  steps sysStep sys (.firstKey key :: events)

/-- The events are those of one pass. -/
structure OnePass (sys : System) (key : Option UInt32) (events : List SysEvent) : Prop where
  begins : sys.stage = .idle
  single : ∀ event ∈ events, ∀ again, event ≠ .firstKey again
  answered : ∀ p ∈ passSteps sys key events, answers order p = true

/-- The sources that the steps report, in order. -/
def reported (run : List (System × SysEvent)) : List UInt32 :=
  run.filterMap fun p => (reportOf p).map (·.ip)

/-- No source is reported twice, and when the pass has ended, every source whose
entry has been there all the time has been reported once. -/
structure ReportsOnce (sys : System) (key : Option UInt32) (events : List SysEvent) : Prop where
  atMostOnce : (reported (passSteps sys key events)).Nodup
  exactlyOnce : (exec sysStep sys (.firstKey key :: events)).stage = .idle →
    ∀ ip, (∀ p ∈ passSteps sys key events, ip ∈ p.1.maps.flowStats.keys) →
      (reported (passSteps sys key events)).count ip = 1

/-- When the loader asks for the key after one that has been deleted, all the
keys left come after the sources reported so far; and it gets memory for the
node of a source. -/
def GoesOn (sofar : List UInt32) (p : System × SysEvent) : Prop :=
  match p.2, p.1.stage with
  | .nextKey _, .next cursor =>
      cursor ∉ p.1.maps.flowStats.keys →
        ∀ ip ∈ sofar, ∀ k ∈ p.1.maps.flowStats.keys, order.place ip < order.place k
  | .reportFlowRate allocated _, .report _ _ => allocated = true
  | _, _ => True

/-- Every step of the run goes on from what was reported before it. -/
def AllGoOn (run : List (System × SysEvent)) : Prop :=
  ∀ before p after, run = before ++ p :: after → GoesOn order (reported before) p

/-- The cursor has not been deleted, and there is memory. -/
def undisturbed (p : System × SysEvent) : Bool :=
  match p.2, p.1.stage with
  | .nextKey _, .next cursor => cursor ∈ p.1.maps.flowStats.keys
  | .reportFlowRate allocated _, .report _ _ => allocated
  | _, _ => true

/-- A pass without deletions goes on, whatever else happens. -/
theorem allGoOn_of_undisturbed {run : List (System × SysEvent)}
    (calm : ∀ p ∈ run, undisturbed p = true) : AllGoOn order run := by
  rintro before ⟨sys, event⟩ after rfl
  have here := calm (sys, event) (List.mem_append_right _ List.mem_cons_self)
  cases event with
  | nextKey key =>
      cases stage : sys.stage with
      | next cursor =>
          simp only [undisturbed, stage, decide_eq_true_eq] at here
          simp only [GoesOn, stage]
          exact fun absent => absurd here absent
      | _ => simp [GoesOn, stage]
  | reportFlowRate allocated now =>
      cases stage : sys.stage with
      | report key value => simpa [GoesOn, undisturbed, stage] using here
      | _ => simp [GoesOn, stage]
  | _ => trivial

/-! ## What a pass keeps -/

/-- The walk is past the sources reported, and not past a source that is there
all the time unless it has been reported. -/
structure Ahead (sofar : List UInt32) (sys : System) : Prop where
  ordered : sofar.Pairwise fun a b => order.place a < order.place b
  past : match sys.stage with
    | .idle => True
    | .lookup key | .report key _ => ∀ ip ∈ sofar, order.place ip < order.place key
    | .next cursor => ∀ ip ∈ sofar, order.place ip ≤ order.place cursor

/-- The source has been reported, or the walk will come to it. -/
def Awaits (ip : UInt32) (sofar : List UInt32) (sys : System) : Prop :=
  ip ∈ sofar ∨
    match sys.stage with
    | .idle => False
    | .lookup key | .report key _ => order.place key ≤ order.place ip
    | .next cursor => order.place cursor < order.place ip

/-! ## One step -/

theorem reportFlowRate_allocated (statsIntervalSec : ℤ) (now : Int64) (ip : UInt32)
    (cur : FlowStats) (cacheHead : List IpCache) :
    ∃ r, (reportFlowRate true statsIntervalSec now ip cur cacheHead).2 = some r ∧ r.ip = ip := by
  cases outcome : reportFlowRate true statsIntervalSec now ip cur cacheHead with
  | mk cacheHead' report =>
      cases report with
      | some r => exact ⟨r, rfl, (reportFlowRate_some outcome).1.1⟩
      | none =>
          rw [reportFlowRate, findOrCreateCache] at outcome
          cases found : findCache cacheHead ip with
          | some node => simp [found] at outcome
          | none => simp [found] at outcome

/-- **What a step of a pass can do** once its first call has been made, when
there is memory for its reports. -/
theorem passStep_cases {sys : System} {event : SysEvent} {sofar : List UInt32}
    (single : ∀ again, event ≠ .firstKey again) (goesOn : GoesOn order sofar (sys, event)) :
    (reportOf (sys, event) = none ∧ (sysStep sys event).stage = sys.stage) ∨
      (∃ key value, sys.stage = .lookup key ∧ reportOf (sys, event) = none ∧
        (sysStep sys event).stage = .report key value) ∨
      (∃ key, sys.stage = .lookup key ∧ key ∉ sys.maps.flowStats.keys ∧
        reportOf (sys, event) = none ∧ (sysStep sys event).stage = .next key) ∨
      (∃ key value r, sys.stage = .report key value ∧ reportOf (sys, event) = some r ∧
        r.ip = key ∧ (sysStep sys event).stage = .next key) ∨
      ∃ cursor key, event = .nextKey key ∧ sys.stage = .next cursor ∧
        reportOf (sys, event) = none ∧ (sysStep sys event).stage = .toKey key := by
  cases event with
  | data change => exact Or.inl ⟨rfl, rfl⟩
  | firstKey key => exact absurd rfl (single key)
  | lookupElem =>
      cases stage : sys.stage with
      | lookup key =>
          cases found : sys.maps.flowStats.lookup key with
          | some value =>
              exact Or.inr (Or.inl ⟨key, value, rfl, rfl, by simp [sysStep, stage, found]⟩)
          | none =>
              have absent := BoundedMap.lookup_eq_none.mp found
              exact Or.inr (Or.inr (Or.inl ⟨key, rfl, absent, rfl,
                by simp [sysStep, stage, found]⟩))
      | _ => exact Or.inl ⟨rfl, by simp [sysStep, stage]⟩
  | reportFlowRate allocated now =>
      cases stage : sys.stage with
      | report key value =>
          have memory : allocated = true := by simpa [GoesOn, stage] using goesOn
          subst memory
          obtain ⟨r, made, ip⟩ :=
            reportFlowRate_allocated sys.statsIntervalSec now key value sys.cacheHead
          refine Or.inr (Or.inr (Or.inr (Or.inl ⟨key, value, r, rfl, ?_, ip, ?_⟩)))
          · simpa [reportOf, stage] using made
          · simp [sysStep, stage]
      | _ => exact Or.inl ⟨by simp [reportOf, stage], by simp [sysStep, stage]⟩
  | nextKey key =>
      cases stage : sys.stage with
      | next cursor =>
          exact Or.inr (Or.inr (Or.inr (Or.inr ⟨cursor, key, rfl, rfl, rfl,
            by simp [sysStep, stage]⟩)))
      | _ => exact Or.inl ⟨rfl, by simp [sysStep, stage]⟩

/-- What the steps up to and with one report. -/
theorem reported_append (run : List (System × SysEvent)) (p : System × SysEvent) :
    reported (run ++ [p]) = reported run ++ ((reportOf p).map (·.ip)).toList := by
  rw [reported, List.filterMap_append, ← reported]
  cases made : reportOf p with
  | none => simp [made]
  | some r => simp [made]

/-- **Step lemma.** The walk stays past what has been reported. -/
theorem Ahead.step {sofar : List UInt32} {sys : System} {event : SysEvent}
    (ahead : Ahead order sofar sys) (single : ∀ again, event ≠ .firstKey again)
    (answered : answers order (sys, event) = true) (goesOn : GoesOn order sofar (sys, event)) :
    Ahead order (sofar ++ ((reportOf (sys, event)).map (·.ip)).toList) (sysStep sys event) := by
  obtain ⟨ordered, past⟩ := ahead
  rcases passStep_cases order single goesOn with ⟨silent, stage'⟩ |
    ⟨key, value, stage, silent, stage'⟩ | ⟨key, stage, -, silent, stage'⟩ |
    ⟨key, value, r, stage, made, rfl, stage'⟩ | ⟨cursor, key, rfl, stage, silent, stage'⟩
  · rw [silent, Option.map_none, Option.toList_none, List.append_nil]
    exact ⟨ordered, by rw [stage']; exact past⟩
  · rw [silent, Option.map_none, Option.toList_none, List.append_nil]
    rw [stage] at past
    exact ⟨ordered, by rw [stage']; exact past⟩
  · rw [silent, Option.map_none, Option.toList_none, List.append_nil]
    rw [stage] at past
    exact ⟨ordered, by rw [stage']; exact fun ip member => Nat.le_of_lt (past ip member)⟩
  · rw [made, Option.map_some, Option.toList_some]
    rw [stage] at past
    refine ⟨?_, ?_⟩
    · rw [List.pairwise_append]
      refine ⟨ordered, List.pairwise_singleton _ _, ?_⟩
      intro ip member other new
      rw [List.mem_singleton.mp new]
      exact past ip member
    · rw [stage']
      intro ip member
      rcases List.mem_append.mp member with earlier | new
      · exact Nat.le_of_lt (past ip earlier)
      · rw [List.mem_singleton.mp new]
  · rw [silent, Option.map_none, Option.toList_none, List.append_nil]
    rw [stage] at past
    refine ⟨ordered, ?_⟩
    rw [stage']
    cases key with
    | none => trivial
    | some key =>
        simp only [answers, stage, decide_eq_true_eq] at answered
        simp only [GoesOn, stage] at goesOn
        intro ip member
        by_cases present : cursor ∈ sys.maps.flowStats.keys
        · exact Nat.lt_of_le_of_lt (past ip member) (order.place_lt_next present answered.symm)
        · exact goesOn present ip member key (order.next_mem answered.symm)

/-- **Step lemma.** The walk does not miss a source that is there. -/
theorem Awaits.step {ip : UInt32} {sofar : List UInt32} {sys : System} {event : SysEvent}
    (awaits : Awaits order ip sofar sys) (single : ∀ again, event ≠ .firstKey again)
    (answered : answers order (sys, event) = true) (goesOn : GoesOn order sofar (sys, event))
    (present : ip ∈ sys.maps.flowStats.keys) :
    Awaits order ip (sofar ++ ((reportOf (sys, event)).map (·.ip)).toList)
      (sysStep sys event) := by
  rcases awaits with done | coming
  · exact Or.inl (List.mem_append_left _ done)
  · -- A key that the walk is at and that is not the source lies before it.
    have strict : ∀ key, order.place key ≤ order.place ip → key ≠ ip →
        order.place key < order.place ip :=
      fun key upTo other => Nat.lt_of_le_of_ne upTo fun same => other (order.injective same)
    rcases passStep_cases order single goesOn with ⟨silent, stage'⟩ |
      ⟨key, value, stage, silent, stage'⟩ | ⟨key, stage, absent, silent, stage'⟩ |
      ⟨key, value, r, stage, made, rfl, stage'⟩ | ⟨cursor, key, rfl, stage, silent, stage'⟩
    · exact Or.inr (by rw [stage']; exact coming)
    · rw [stage] at coming
      exact Or.inr (by rw [stage']; exact coming)
    · rw [stage] at coming
      refine Or.inr ?_
      rw [stage']
      exact strict key coming fun same => absent (same ▸ present)
    · rw [stage] at coming
      rw [made, Option.map_some, Option.toList_some]
      by_cases same : r.ip = ip
      · exact Or.inl (List.mem_append_right _ (List.mem_singleton.mpr same.symm))
      · refine Or.inr ?_
        rw [stage']
        exact strict r.ip coming same
    · rw [stage] at coming
      simp only [answers, stage, decide_eq_true_eq] at answered
      refine Or.inr ?_
      rw [stage']
      cases key with
      | none => exact absurd answered.symm (order.next_ne_none present coming)
      | some key => exact order.place_next_le answered.symm present coming

/-! ## The whole pass -/

theorem passSteps_append (sys : System) (key : Option UInt32) (events : List SysEvent)
    (event : SysEvent) :
    passSteps sys key (events ++ [event]) =
      passSteps sys key events ++ [(exec sysStep sys (.firstKey key :: events), event)] := by
  rw [passSteps, ← List.cons_append, steps_append]
  rfl

theorem OnePass.init {sys : System} {key : Option UInt32} {events : List SysEvent}
    {event : SysEvent} (pass : OnePass order sys key (events ++ [event])) :
    OnePass order sys key events where
  begins := pass.begins
  single earlier member := pass.single earlier (List.mem_append_left _ member)
  answered p member := pass.answered p (by
    rw [passSteps_append]
    exact List.mem_append_left _ member)

/-- **Run lemma.** -/
theorem pass_keeps {sys : System} {key : Option UInt32} {events : List SysEvent}
    (pass : OnePass order sys key events) (goOn : AllGoOn order (passSteps sys key events)) :
    Ahead order (reported (passSteps sys key events))
        (exec sysStep sys (.firstKey key :: events)) ∧
      ∀ ip, (∀ p ∈ passSteps sys key events, ip ∈ p.1.maps.flowStats.keys) →
        Awaits order ip (reported (passSteps sys key events))
          (exec sysStep sys (.firstKey key :: events)) := by
  induction events using List.reverseRecOn with
  | nil =>
      have stage : (sysStep sys (.firstKey key)).stage = .toKey key := by
        simp [sysStep, pass.begins]
      have answer := pass.answered (sys, .firstKey key) (List.mem_singleton_self _)
      simp only [answers, pass.begins, decide_eq_true_eq] at answer
      have none : reported (passSteps sys key []) = [] := rfl
      rw [none]
      constructor
      · refine ⟨List.Pairwise.nil, ?_⟩
        rw [exec_cons, exec_nil, stage]
        cases key with
        | none => trivial
        | some key => exact fun ip member => absurd member List.not_mem_nil
      · intro ip present
        have here := present (sys, .firstKey key) (List.mem_singleton_self _)
        refine Or.inr ?_
        rw [exec_cons, exec_nil, stage]
        cases key with
        | none => exact List.ne_nil_of_mem here (order.first_eq_none.mp answer.symm)
        | some key => exact order.place_first_le answer.symm here
  | append_singleton events event ih =>
      have single := pass.single event (List.mem_append_right _ (List.mem_singleton_self _))
      have steps := passSteps_append sys key events event
      have answered := pass.answered (exec sysStep sys (.firstKey key :: events), event) (by
        rw [steps]
        exact List.mem_append_right _ (List.mem_singleton_self _))
      have goesOn := goOn (passSteps sys key events) _ [] steps
      have goOnBefore : AllGoOn order (passSteps sys key events) := by
        intro before p after split
        exact goOn before p (after ++ [_]) (by rw [steps, split, List.append_assoc]; rfl)
      obtain ⟨ahead, awaits⟩ := ih (pass.init order) goOnBefore
      rw [← List.cons_append, exec_append, steps, reported_append]
      refine ⟨ahead.step order single answered goesOn, fun ip present => ?_⟩
      have presentBefore : ∀ p ∈ passSteps sys key events, ip ∈ p.1.maps.flowStats.keys :=
        fun p member => present p (List.mem_append_left _ member)
      exact (awaits ip presentBefore).step order single answered goesOn
        (present _ (List.mem_append_right _ (List.mem_singleton_self _)))

/-- **A pass reports each source once**, if it goes on from what it has reported
whenever its cursor has been deleted, and gets memory for every report. -/
theorem pass_reports_once {sys : System} {key : Option UInt32} {events : List SysEvent}
    (pass : OnePass order sys key events) (goOn : AllGoOn order (passSteps sys key events)) :
    ReportsOnce sys key events := by
  obtain ⟨ahead, awaits⟩ := pass_keeps order pass goOn
  have nodup : (reported (passSteps sys key events)).Nodup :=
    ahead.ordered.imp fun before same => Nat.ne_of_lt before (congrArg order.place same)
  refine ⟨nodup, fun ended ip present => ?_⟩
  rcases awaits ip present with done | coming
  · exact List.count_eq_one_of_mem nodup done
  · rw [ended] at coming
    exact coming.elim

/-! ## Deletions in a pass -/

/-- A packet of 10.0.0.`host`. -/
def packetOf (host : UInt8) : Event :=
  .packet 0 (Frame.ofTcp ⟨10, 0, 0, host⟩ ⟨10, 0, 0, 9⟩ 0 80 0x10) (.ready 0)

def addressOf (host : UInt8) : UInt32 := Quad.le ⟨10, 0, 0, host⟩

/-- A loader between passes, with an entry for each of two sources. -/
def twoSources : System :=
  { idleLoader with maps := exec step Maps.empty [packetOf 1, packetOf 2] }

/-- Both sources are reported; the map cleaner then deletes them one after the
other, and a packet of the first one comes between the two deletions. -/
def cleanedPass : List SysEvent :=
  [.lookupElem, .reportFlowRate true 0, .nextKey (some (addressOf 2)), .lookupElem,
    .reportFlowRate true 0, .data (.mapDelete .flowStats (addressOf 1)), .data (packetOf 1),
    .data (.mapDelete .flowStats (addressOf 2)), .nextKey (some (addressOf 1)), .lookupElem,
    .reportFlowRate true 0, .nextKey none]

/-- The first source is reported twice. -/
theorem cleaned_pass_reports_twice :
    OnePass numerical twoSources (some (addressOf 1)) cleanedPass ∧
      reported (passSteps twoSources (some (addressOf 1)) cleanedPass) =
        [addressOf 1, addressOf 2, addressOf 1] ∧
      ¬ReportsOnce twoSources (some (addressOf 1)) cleanedPass := by
  have twice : reported (passSteps twoSources (some (addressOf 1)) cleanedPass) =
      [addressOf 1, addressOf 2, addressOf 1] := by decide +kernel
  refine ⟨⟨rfl, ?_, ?_⟩, twice, ?_⟩
  · intro event member again same
    subst same
    revert member
    simp [cleanedPass]
  · decide +kernel
  · intro once
    have nodup := once.atMostOnce
    rw [twice] at nodup
    revert nodup
    decide

/-- The same pass when a packet of a third source comes, and nothing is
deleted. -/
def quietPass : List SysEvent :=
  [.lookupElem, .reportFlowRate true 0, .data (packetOf 3), .nextKey (some (addressOf 2)),
    .lookupElem, .reportFlowRate true 0, .nextKey (some (addressOf 3)), .lookupElem,
    .reportFlowRate true 0, .nextKey none]

theorem quiet_pass_reports_once : ReportsOnce twoSources (some (addressOf 1)) quietPass := by
  refine pass_reports_once numerical ⟨rfl, ?_, by decide +kernel⟩ ?_
  · intro event member again same
    subst same
    revert member
    simp [quietPass]
  · exact allGoOn_of_undisturbed numerical (by decide +kernel)

end EbpfNids.Loader
