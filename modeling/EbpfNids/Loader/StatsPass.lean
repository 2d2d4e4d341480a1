import EbpfNids.Library.Snapshots
import EbpfNids.DataPlane.Accounting
import EbpfNids.Loader.FlowCache

/-!
# Stats passes of the loader beside the data plane

The system is the maps of the data plane, the loader's cache, and where the
loader is in `read_and_report_stats`. Its steps are the events of the data
plane, deletions by the map cleaner among them, and the single calls of a pass:
`bpf_map_get_next_key`, with whatever key the kernel answers, the lookup, and
the report of what the lookup read. So packets arrive and entries are deleted
between any two of them.

A report gives the counters read at its lookup. Between the lookups of two
reports of a source its counter grows by at most what is counted for it
(`Snapshots.Follows`), whether or not the entry was deleted and grew again, and
from there the gains of all reports add up (`rates_conserve`).
-/

set_option autoImplicit false

namespace EbpfNids.Loader

open Library Library.Runs Library.Snapshots EbpfNids.DataPlane

/-! ## The system -/

/-- Where the loader is in a pass: between passes, about to look up a key, to
report the value that it read, or to ask for the key after one. -/
inductive Stage where
  | idle
  | lookup (key : UInt32)
  | report (key : UInt32) (value : FlowStats)
  | next (key : UInt32)
deriving DecidableEq, Repr

structure System where
  maps : Maps
  cacheHead : List IpCache
  stage : Stage
  statsIntervalSec : ℤ

/-- A step of the data plane or the map cleaner, or one call of the loader with
what it returns. -/
inductive SysEvent where
  | data (event : Event)
  | firstKey (key : Option UInt32)
  | lookupElem
  | reportFlowRate (allocated : Bool) (now : Int64)
  | nextKey (key : Option UInt32)
deriving DecidableEq, Repr

/-- The stage that the answer of `bpf_map_get_next_key` leads to. -/
def Stage.toKey : Option UInt32 → Stage
  | some key => .lookup key
  | none => .idle

def sysStep (sys : System) (event : SysEvent) : System :=
  match event, sys.stage with
  | .data event, _ => { sys with maps := step sys.maps event }
  | .firstKey key, .idle => { sys with stage := .toKey key }
  | .lookupElem, .lookup key =>
      match sys.maps.flowStats.lookup key with
      | some value => { sys with stage := .report key value }
      | none => { sys with stage := .next key }
  | .reportFlowRate allocated now, .report key value =>
      { sys with
        cacheHead := (reportFlowRate allocated sys.statsIntervalSec now key value sys.cacheHead).1
        stage := .next key }
  | .nextKey key, .next _ => { sys with stage := .toKey key }
  | _, _ => sys

/-- The report that a step makes. -/
def reportOf (p : System × SysEvent) : Option Report :=
  match p.2, p.1.stage with
  | .reportFlowRate allocated now, .report key value =>
      (reportFlowRate allocated p.1.statsIntervalSec now key value p.1.cacheHead).2
  | _, _ => none

/-! ## What is counted and what is reported -/

def delta : Meter → Report → UInt64
  | .packets, r => r.dpkts
  | .bytes, r => r.dbytes

def total : Meter → Report → UInt64
  | .packets, r => r.totalPkts
  | .bytes, r => r.totalBytes

def cached : Meter → IpCache → UInt64
  | .packets, node => node.pkts
  | .bytes, node => node.bytes

/-- What a step counts for a source. -/
def countedIn (meter : Meter) (ip : UInt32) (p : System × SysEvent) : ℕ :=
  match p.2 with
  | .data event => counted meter ip (p.1.maps, event)
  | _ => 0

/-- The report of a source that a step makes. -/
def ownReport (ip : UInt32) (p : System × SysEvent) : Option Report :=
  (reportOf p).filter fun r => r.ip == ip

/-- The step looks a key up. -/
def isLookup (p : System × SysEvent) : Bool :=
  match p.2, p.1.stage with
  | .lookupElem, .lookup _ => true
  | _, _ => false

/-- The reports of a source in a run. -/
def reportsOf (ip : UInt32) (run : List (System × SysEvent)) : List Report :=
  run.filterMap (ownReport ip)

/-- A report of a source: its total, and how much had been counted for the
source at the lookup that read it and at the report itself. -/
structure Reading where
  total : ℕ
  atLookup : ℕ
  atReport : ℕ
deriving DecidableEq, Repr

/-- The readings of a source in a run, after `counted` had been counted for it,
`atLookup` of that at the last lookup. -/
def readings (meter : Meter) (ip : UInt32) :
    ℕ → ℕ → List (System × SysEvent) → List Reading
  | _, _, [] => []
  | counted, atLookup, p :: rest =>
      let own := (ownReport ip p).map fun r =>
        (⟨(total meter r).toNat, atLookup, counted⟩ : Reading)
      own.toList ++ readings meter ip (counted + countedIn meter ip p)
        (if isLookup p then counted else atLookup) rest

/-- The reading as a snapshot of the counter. -/
def Reading.snapshot (r : Reading) : Snapshot := ⟨r.total, r.atLookup⟩

/-! ## One step -/

/-- **What a step can do**: an event of the data plane, a lookup that finds the
key, a report, or else a change of the stage at most. -/
theorem sysStep_cases (sys : System) (event : SysEvent) :
    (∃ change, event = .data change) ∨
      (∃ key value, event = .lookupElem ∧ sys.stage = .lookup key ∧
        sys.maps.flowStats.lookup key = some value ∧
        sysStep sys event = { sys with stage := .report key value }) ∨
      (∃ allocated now key value, event = .reportFlowRate allocated now ∧
        sys.stage = .report key value) ∨
      reportOf (sys, event) = none ∧ (∀ meter ip, countedIn meter ip (sys, event) = 0) ∧
        (sysStep sys event = sys ∧ isLookup (sys, event) = false ∨
          ∃ stage, (∀ key value, stage ≠ .report key value) ∧
            sysStep sys event = { sys with stage := stage }) := by
  have toKey : ∀ key, ∀ ip value, Stage.toKey key ≠ .report ip value := by
    intro key ip value
    cases key with
    | none => exact Stage.noConfusion
    | some key => exact Stage.noConfusion
  cases event with
  | data change => exact Or.inl ⟨change, rfl⟩
  | firstKey key =>
      refine Or.inr (Or.inr (Or.inr ⟨rfl, fun _ _ => rfl, ?_⟩))
      cases stage : sys.stage with
      | idle => exact Or.inr ⟨.toKey key, toKey key, by simp [sysStep, stage]⟩
      | _ => exact Or.inl ⟨by simp [sysStep, stage], rfl⟩
  | nextKey key =>
      refine Or.inr (Or.inr (Or.inr ⟨rfl, fun _ _ => rfl, ?_⟩))
      cases stage : sys.stage with
      | next after => exact Or.inr ⟨.toKey key, toKey key, by simp [sysStep, stage]⟩
      | _ => exact Or.inl ⟨by simp [sysStep, stage], rfl⟩
  | lookupElem =>
      cases stage : sys.stage with
      | lookup key =>
          cases found : sys.maps.flowStats.lookup key with
          | some value =>
              exact Or.inr (Or.inl ⟨key, value, rfl, rfl, found, by simp [sysStep, stage, found]⟩)
          | none =>
              refine Or.inr (Or.inr (Or.inr ⟨rfl, fun _ _ => rfl, Or.inr ⟨.next key, ?_, ?_⟩⟩))
              · intro ip value
                exact Stage.noConfusion
              · simp [sysStep, stage, found]
      | _ =>
          refine Or.inr (Or.inr (Or.inr ⟨rfl, fun _ _ => rfl, Or.inl ⟨?_, ?_⟩⟩))
          · simp [sysStep, stage]
          · simp [isLookup, stage]
  | reportFlowRate allocated now =>
      cases stage : sys.stage with
      | report key value => exact Or.inr (Or.inr (Or.inl ⟨_, _, key, value, rfl, rfl⟩))
      | _ =>
          refine Or.inr (Or.inr (Or.inr ⟨?_, fun _ _ => rfl, Or.inl ⟨?_, rfl⟩⟩))
          · simp [reportOf, stage]
          · simp [sysStep, stage]

/-- What the loader holds of a source, its last report and the value it has
read, is `R`-related to the counter in the map, and the node is that of the
last report. -/
structure Tracks (R : Snapshot → Snapshot → Prop) (meter : Meter) (ip : UInt32) (sys : System)
    (counted atLookup : ℕ) (last : Option Snapshot) : Prop where
  current : ∀ s ∈ last, R s ⟨flowTotal meter sys.maps.flowStats ip, counted⟩
  pending : ∀ value, sys.stage = .report ip value →
    R ⟨(meter.read value).toNat, atLookup⟩ ⟨flowTotal meter sys.maps.flowStats ip, counted⟩ ∧
      ∀ s ∈ last, R s ⟨(meter.read value).toNat, atLookup⟩
  node : (findCache sys.cacheHead ip).map (fun node => (cached meter node).toNat) =
    last.map Snapshot.total

/-- The counter moves along `R` in a step of the data plane. -/
def Moves (R : Snapshot → Snapshot → Prop) (meter : Meter) (ip : UInt32) (p : System × SysEvent) :
    Prop :=
  ∀ event, p.2 = .data event → ∀ sofar,
    R ⟨flowTotal meter p.1.maps.flowStats ip, sofar⟩
      ⟨flowTotal meter (step p.1.maps event).flowStats ip,
        sofar + counted meter ip (p.1.maps, event)⟩

section Step

variable {R : Snapshot → Snapshot → Prop} (reflexive : ∀ a, R a a)
  (transitive : ∀ a b c, R a b → R b c → R a c)
  {meter : Meter} {ip : UInt32} {sys : System} {event : SysEvent} {sofar atLookup : ℕ}
  {last : Option Snapshot}

/-- A stage that is not about to report the source pends nothing. -/
theorem Tracks.of_stage (tracks : Tracks R meter ip sys sofar atLookup last) {stage : Stage}
    (other : ∀ value, stage ≠ .report ip value) (atLookup' : ℕ) :
    Tracks R meter ip { sys with stage := stage } sofar atLookup' last :=
  ⟨tracks.current, fun value pends => absurd pends (other value), tracks.node⟩

include transitive in
theorem Tracks.data (tracks : Tracks R meter ip sys sofar atLookup last) {change : Event}
    (moves : Moves R meter ip (sys, .data change)) :
    Tracks R meter ip { sys with maps := step sys.maps change }
      (sofar + counted meter ip (sys.maps, change)) atLookup last := by
  have moved := moves change rfl sofar
  refine ⟨fun s held => transitive _ _ _ (tracks.current s held) moved, ?_,
    tracks.node⟩
  intro value pends
  obtain ⟨read, previous⟩ := tracks.pending value pends
  exact ⟨transitive _ _ _ read moved, previous⟩

include reflexive in
/-- The lookup of a key reads the counter as it is. -/
theorem Tracks.lookup (tracks : Tracks R meter ip sys sofar atLookup last) {key : UInt32}
    {value : FlowStats} (found : sys.maps.flowStats.lookup key = some value) :
    Tracks R meter ip { sys with stage := .report key value } sofar sofar last := by
  refine ⟨tracks.current, ?_, tracks.node⟩
  intro read pends
  obtain ⟨rfl, rfl⟩ := Stage.report.inj pends
  have total : flowTotal meter sys.maps.flowStats key = (meter.read value).toNat := by
    rw [flowTotal, found]
    rfl
  rw [← total]
  exact ⟨reflexive _, tracks.current⟩

/-- The report of what was read makes it the last report. -/
theorem Tracks.report (tracks : Tracks R meter ip sys sofar atLookup last)
    {value : FlowStats} (stage : sys.stage = .report ip value) {cacheHead : List IpCache}
    {allocated : Bool} {now : Int64} {r : Report}
    (outcome : reportFlowRate allocated sys.statsIntervalSec now ip value sys.cacheHead =
      (cacheHead, some r)) (atLookup' : ℕ) :
    Tracks R meter ip { sys with cacheHead := cacheHead, stage := .next ip } sofar atLookup'
        (some ⟨(total meter r).toNat, atLookup⟩) ∧
      (∀ s ∈ last, R s ⟨(total meter r).toNat, atLookup⟩) ∧
      (delta meter r).toNat =
        match last with
        | some s => (total meter r).toNat - s.total
        | none => 0 := by
  obtain ⟨⟨-, totalPkts, totalBytes⟩, dpkts, dbytes, written, -, -⟩ := reportFlowRate_some outcome
  obtain ⟨read, previous⟩ := tracks.pending value stage
  have totalEq : total meter r = meter.read value := by
    cases meter with
    | packets => exact totalPkts
    | bytes => exact totalBytes
  have growth : (delta meter r).toNat = (findCache sys.cacheHead ip).elim 0 fun node =>
      (meter.read value).toNat - (cached meter node).toNat := by
    cases meter with
    | packets => exact dpkts
    | bytes => exact dbytes
  have node := tracks.node
  rw [totalEq]
  refine ⟨⟨?_, fun _ pends => (by cases pends), ?_⟩, previous, ?_⟩
  · intro s held
    obtain rfl := Option.mem_some_iff.mp held
    exact read
  · rw [written]
    cases meter with
    | packets => rfl
    | bytes => rfl
  · rw [growth]
    cases found : findCache sys.cacheHead ip with
    | none =>
        rw [found] at node
        cases last with
        | none => rfl
        | some s => cases node
    | some cache =>
        rw [found] at node
        cases last with
        | none => cases node
        | some s =>
            have same : (cached meter cache).toNat = s.total := Option.some.inj node
            rw [Option.elim_some, same]

/-- The report of another source leaves the node alone. -/
theorem Tracks.report_other (tracks : Tracks R meter ip sys sofar atLookup last) {key : UInt32}
    (different : ip ≠ key) (allocated : Bool) (now : Int64) (value : FlowStats) (atLookup' : ℕ) :
    Tracks R meter ip
      { sys with
        cacheHead :=
          (reportFlowRate allocated sys.statsIntervalSec now key value sys.cacheHead).1
        stage := .next key } sofar atLookup' last := by
  refine ⟨tracks.current, fun _ pends => (by cases pends), ?_⟩
  have same : findCache
      (reportFlowRate allocated sys.statsIntervalSec now key value sys.cacheHead).1 ip =
        findCache sys.cacheHead ip := by
    cases outcome : reportFlowRate allocated sys.statsIntervalSec now key value sys.cacheHead with
    | mk cacheHead made =>
        cases made with
        | none => rw [reportFlowRate_none outcome]
        | some r => exact (reportFlowRate_some outcome).2.2.2.2.1 ip different
  rw [same]
  exact tracks.node

include reflexive transitive in
/-- **Step lemma.** A step that does not report the source keeps the relation.
One that does makes what was read the last report, related to the report before
it, with its growth. -/
theorem Tracks.step (tracks : Tracks R meter ip sys sofar atLookup last)
    (moves : Moves R meter ip (sys, event)) :
    (ownReport ip (sys, event) = none →
      Tracks R meter ip (sysStep sys event) (sofar + countedIn meter ip (sys, event))
        (if isLookup (sys, event) then sofar else atLookup) last) ∧
    (∀ r, ownReport ip (sys, event) = some r →
      Tracks R meter ip (sysStep sys event) (sofar + countedIn meter ip (sys, event))
          (if isLookup (sys, event) then sofar else atLookup)
          (some ⟨(total meter r).toNat, atLookup⟩) ∧
        (∀ s ∈ last, R s ⟨(total meter r).toNat, atLookup⟩) ∧
        (delta meter r).toNat =
          match last with
          | some s => (total meter r).toNat - s.total
          | none => 0) := by
  rcases sysStep_cases sys event with ⟨change, rfl⟩ | ⟨key, value, rfl, stage, found, next⟩ |
    ⟨allocated, now, key, value, rfl, stage⟩ | ⟨silent, nothing, kept⟩
  · refine ⟨fun _ => tracks.data transitive moves, ?_⟩
    intro r reported
    cases reported
  · constructor
    · intro _
      rw [next, isLookup, stage]
      exact tracks.lookup reflexive found
    · intro r reported
      cases reported
  · simp only [sysStep, isLookup, stage, ownReport, reportOf]
    by_cases own : ip = key
    · subst own
      cases outcome : reportFlowRate allocated sys.statsIntervalSec now ip value sys.cacheHead with
      | mk cacheHead made =>
          cases made with
          | none =>
              constructor
              · intro _
                obtain rfl := reportFlowRate_none outcome
                exact tracks.of_stage (fun _ => Stage.noConfusion) _
              · intro r reported
                cases reported
          | some r =>
              have source := (reportFlowRate_some outcome).1.1
              have kept : (some r).filter (fun r => r.ip == ip) = some r :=
                Option.filter_eq_some_iff.mpr ⟨rfl, beq_iff_eq.mpr source⟩
              rw [kept]
              constructor
              · intro none
                cases none
              · rintro r ⟨⟩
                exact tracks.report stage outcome _
    · refine ⟨fun _ => tracks.report_other own _ _ _ _, ?_⟩
      intro r reported
      obtain ⟨made, source⟩ := Option.filter_eq_some_iff.mp reported
      have outcome : reportFlowRate allocated sys.statsIntervalSec now key value
          sys.cacheHead = (_, some r) := Prod.ext rfl made
      have named := (reportFlowRate_some outcome).1.1
      exact absurd ((beq_iff_eq.mp source).symm.trans named) own
  · rw [ownReport, silent, nothing, Nat.add_zero]
    constructor
    · intro _
      rcases kept with ⟨same, noLookup⟩ | ⟨stage, other, next⟩
      · rw [same, noLookup]
        exact tracks
      · rw [next]
        exact tracks.of_stage (other ip) _
    · intro r reported
      cases reported

end Step

theorem ownReport_eq_some {ip : UInt32} {p : System × SysEvent} {r : Report}
    (made : ownReport ip p = some r) :
    ∃ allocated now value, p.2 = .reportFlowRate allocated now ∧ p.1.stage = .report ip value ∧
      reportFlowRate allocated p.1.statsIntervalSec now ip value p.1.cacheHead =
        ((sysStep p.1 p.2).cacheHead, some r) := by
  obtain ⟨reported, source⟩ := Option.filter_eq_some_iff.mp made
  obtain ⟨sys, event⟩ := p
  rcases sysStep_cases sys event with ⟨change, rfl⟩ | ⟨key, value, rfl, -⟩ |
    ⟨allocated, now, key, value, rfl, stage⟩ | ⟨silent, -⟩
  · cases reported
  · cases reported
  · simp only [reportOf, stage] at reported
    have outcome : reportFlowRate allocated sys.statsIntervalSec now key value
        sys.cacheHead = (_, some r) := Prod.ext rfl reported
    have named := (reportFlowRate_some outcome).1.1
    obtain rfl : key = ip := named.symm.trans (beq_iff_eq.mp source)
    refine ⟨allocated, now, value, rfl, stage, ?_⟩
    simp only [sysStep, stage]
    exact outcome
  · rw [silent] at reported
    cases reported

/-- A step keeps the nodes distinct. -/
theorem nodup_step {p : System × SysEvent} (nodup : (p.1.cacheHead.map IpCache.ip).Nodup) :
    ((sysStep p.1 p.2).cacheHead.map IpCache.ip).Nodup := by
  obtain ⟨sys, event⟩ := p
  rcases sysStep_cases sys event with ⟨change, rfl⟩ | ⟨key, value, -, -, -, next⟩ |
    ⟨allocated, now, key, value, rfl, stage⟩ | ⟨-, -, ⟨same, -⟩ | ⟨stage, -, next⟩⟩
  · exact nodup
  · rw [next]
    exact nodup
  · simp only [sysStep, stage]
    cases outcome : reportFlowRate allocated sys.statsIntervalSec now key value sys.cacheHead with
    | mk cacheHead made =>
        cases made with
        | none => rwa [reportFlowRate_none outcome]
        | some r => exact (reportFlowRate_some outcome).2.2.2.2.2 nodup
  · rw [same]
    exact nodup
  · rw [next]
    exact nodup

/-! ## Runs -/

section Run

variable {R : Snapshot → Snapshot → Prop} {meter : Meter} {ip : UInt32} {sys : System}
  {events : List SysEvent} {sofar atLookup : ℕ} {last : Option Snapshot}

/-- **Run lemma.** The readings of a run are a chain of `R` after the last
report before it, the growths reported are the gains of their totals, and the
node at the end is that of the last report. -/
theorem Tracks.run (reflexive : ∀ a, R a a) (transitive : ∀ a b c, R a b → R b c → R a c)
    (tracks : Tracks R meter ip sys sofar atLookup last)
    (moves : ∀ p ∈ steps sysStep sys events, Moves R meter ip p) :
    let run := steps sysStep sys events
    let snapshots := (readings meter ip sofar atLookup run).map Reading.snapshot
    List.IsChain R (last.toList ++ snapshots) ∧
      (reportsOf ip run).map (fun r => (delta meter r).toNat) =
        gains (last.map Snapshot.total) (snapshots.map Snapshot.total) ∧
      (reportsOf ip run).map (fun r => (total meter r).toNat) = snapshots.map Snapshot.total ∧
      (findCache (exec sysStep sys events).cacheHead ip).map
          (fun node => (cached meter node).toNat) =
        (last.toList ++ snapshots).getLast?.map Snapshot.total := by
  induction events generalizing sys sofar atLookup last with
  | nil =>
      refine ⟨?_, ?_, rfl, ?_⟩
      · cases last with
        | none => exact List.IsChain.nil
        | some s => exact List.IsChain.singleton s
      · cases last with
        | none => rfl
        | some s => rfl
      · rw [exec_nil, tracks.node]
        cases last with
        | none => rfl
        | some s => rfl
  | cons event rest ih =>
      have later : ∀ p ∈ steps sysStep (sysStep sys event) rest, Moves R meter ip p :=
        fun p member => moves p (List.mem_cons_of_mem _ member)
      obtain ⟨silent, reports⟩ := tracks.step reflexive transitive
        (moves (sys, event) List.mem_cons_self)
      dsimp only
      rw [steps_cons, exec_cons, readings, reportsOf]
      cases own : ownReport ip (sys, event) with
      | none =>
          rw [List.filterMap_cons_none own]
          exact ih (silent own) later
      | some r =>
          obtain ⟨next, related, growth⟩ := reports r own
          obtain ⟨chain, deltas, totals, node⟩ := ih next later
          rw [List.filterMap_cons_some own]
          refine ⟨?_, ?_, ?_, ?_⟩
          · cases last with
            | none => exact chain
            | some s => exact List.isChain_cons_cons.mpr ⟨related s rfl, chain⟩
          · rw [List.map_cons, growth]
            cases last with
            | none => exact congrArg (0 :: ·) deltas
            | some s => exact congrArg (((total meter r).toNat - s.total) :: ·) deltas
          · exact congrArg ((total meter r).toNat :: ·) totals
          · rw [node]
            cases last with
            | none => rfl
            | some s => rfl

/-- The counters of a source do not overflow in a run. -/
def CountersFitIn (ip : UInt32) (run : List (System × SysEvent)) : Prop :=
  ∀ p ∈ run, ∀ event, p.2 = .data event → CountersFit ip (p.1.maps, event)

theorem moves_follows {p : System × SysEvent}
    (fit : ∀ event, p.2 = .data event → CountersFit ip (p.1.maps, event)) :
    Moves Follows meter ip p := by
  intro event data sofar
  obtain ⟨kept, deleted⟩ := flowTotal_step meter (fit event data)
  refine ⟨Nat.le_add_right _ _, ?_⟩
  dsimp only at kept deleted ⊢
  by_cases removal : event = .mapDelete .flowStats ip
  · rw [deleted removal]
    omega
  · rw [kept removal]
    omega

theorem moves_grows {p : System × SysEvent}
    (fit : ∀ event, p.2 = .data event → CountersFit ip (p.1.maps, event))
    (kept : p.2 ≠ .data (.mapDelete .flowStats ip)) : Moves Grows meter ip p := by
  intro event data sofar
  have stays : event ≠ .mapDelete .flowStats ip := by
    rintro rfl
    exact kept data
  rw [Grows, (flowTotal_step meter (fit event data)).1 stays]
  exact Nat.le_add_right _ _

/-- Before any report nothing is held of a source. -/
theorem tracks_start (fresh : sys.cacheHead = []) (idle : sys.stage = .idle) :
    Tracks R meter ip sys 0 0 none :=
  ⟨fun _ held => (nomatch held), fun _ pends => (nomatch idle.symm.trans pends),
    by rw [fresh]; rfl⟩

end Run

/-- What holds of the reports of a source in a run, for packets or for bytes. -/
structure Conserves (meter : Meter) (ip : UInt32) (run : List (System × SysEvent)) : Prop where
  /-- The growth reported is that of the counter over the node, if it has grown. -/
  noWrap : ∀ p ∈ run, ∀ r, ownReport ip p = some r →
    (delta meter r).toNat = (findCache p.1.cacheHead ip).elim 0 fun node =>
      (total meter r).toNat - (cached meter node).toNat
  /-- The growths add up to at most what was counted for the source between the
  lookup of its first report and the lookup of its last. -/
  bounded : ((reportsOf ip run).map fun r => (delta meter r).toNat).sum ≤
    ((readings meter ip 0 0 run).getLast?.map Reading.atLookup).getD 0 -
      ((readings meter ip 0 0 run).head?.map Reading.atLookup).getD 0
  /-- If the entry was never deleted they add up to the last total less the first. -/
  exact : (∀ p ∈ run, p.2 ≠ .data (.mapDelete .flowStats ip)) →
    ((reportsOf ip run).map fun r => (delta meter r).toNat).sum =
      ((reportsOf ip run).getLast?.map fun r => (total meter r).toNat).getD 0 -
        ((reportsOf ip run).head?.map fun r => (total meter r).toNat).getD 0

theorem conserves_run {start : System} {events : List SysEvent} {ip : UInt32} (meter : Meter)
    (fresh : start.cacheHead = []) (idle : start.stage = .idle)
    (fit : CountersFitIn ip (steps sysStep start events)) :
    Conserves meter ip (steps sysStep start events) := by
  have atStart : ∀ {R : Snapshot → Snapshot → Prop}, Tracks R meter ip start 0 0 none :=
    tracks_start fresh idle
  obtain ⟨follows, deltas, totals, -⟩ := atStart.run follows_refl
    (fun _ _ _ => follows_trans) fun p member => moves_follows (fit p member)
  refine ⟨?_, ?_, ?_⟩
  · intro p member r own
    obtain ⟨allocated, now, value, -, -, outcome⟩ := ownReport_eq_some own
    obtain ⟨⟨-, totalPkts, totalBytes⟩, dpkts, dbytes, -⟩ := reportFlowRate_some outcome
    cases meter with
    | packets => exact dpkts.trans (by rw [← totalPkts]; rfl)
    | bytes => exact dbytes.trans (by rw [← totalBytes]; rfl)
  · rw [deltas]
    have bound := sum_gains_le follows
    simp only [Option.toList_none, List.nil_append, List.getLast?_map, List.head?_map,
      Option.map_map] at bound
    exact bound
  · intro kept
    obtain ⟨grows, -⟩ := (atStart (R := Grows)).run grows_refl (fun _ _ _ => grows_trans)
      fun p member => moves_grows (fit p member) (kept p member)
    rw [deltas, ← List.getLast?_map, ← List.head?_map, totals]
    have sum := sum_gains_eq grows
    simp only [Option.toList_none, List.nil_append, List.getLast?_map, List.head?_map,
      Option.map_map] at sum ⊢
    exact sum

/-- The node of a source holds the counters of its last report. -/
theorem node_of_last_report {start : System} {events : List SysEvent} {ip : UInt32}
    (fresh : start.cacheHead = []) (idle : start.stage = .idle)
    (fit : CountersFitIn ip (steps sysStep start events)) :
    (findCache (exec sysStep start events).cacheHead ip).map (fun node => (node.pkts, node.bytes)) =
      (reportsOf ip (steps sysStep start events)).getLast?.map
        fun r => (r.totalPkts, r.totalBytes) := by
  have counter : ∀ meter, (findCache (exec sysStep start events).cacheHead ip).map
      (fun node => (cached meter node).toNat) =
        (reportsOf ip (steps sysStep start events)).getLast?.map
          fun r => (total meter r).toNat := by
    intro meter
    have atStart : Tracks Follows meter ip start 0 0 none := tracks_start fresh idle
    obtain ⟨-, -, totals, node⟩ := atStart.run follows_refl
      (fun _ _ _ => follows_trans) fun p member => moves_follows (fit p member)
    rw [node, ← List.getLast?_map (f := fun r => (total meter r).toNat), totals]
    simp
  have packets := counter .packets
  have bytes := counter .bytes
  cases found : findCache (exec sysStep start events).cacheHead ip with
  | none =>
      cases last : (reportsOf ip (steps sysStep start events)).getLast? with
      | none => rfl
      | some r => simp [found, last] at packets
  | some node =>
      cases last : (reportsOf ip (steps sysStep start events)).getLast? with
      | none => simp [found, last] at packets
      | some r =>
          rw [found, last] at packets bytes
          have pkts : node.pkts = r.totalPkts := UInt64.toNat_inj.mp (Option.some.inj packets)
          have size : node.bytes = r.totalBytes := UInt64.toNat_inj.mp (Option.some.inj bytes)
          rw [Option.map_some, Option.map_some, pkts, size]

/-- **Rate accounting conserves packets and bytes.** In every run from a loader
with an empty cache, between passes, whose counters for a source do not
overflow: the nodes are distinct, the node of the source holds the counters of
its last report, and packets and bytes are conserved as `Conserves` says. -/
theorem rates_conserve (start : System) (events : List SysEvent) (ip : UInt32)
    (fresh : start.cacheHead = []) (idle : start.stage = .idle)
    (fit : CountersFitIn ip (steps sysStep start events)) :
    ((exec sysStep start events).cacheHead.map IpCache.ip).Nodup ∧
      (findCache (exec sysStep start events).cacheHead ip).map
          (fun node => (node.pkts, node.bytes)) =
        (reportsOf ip (steps sysStep start events)).getLast?.map
          (fun r => (r.totalPkts, r.totalBytes)) ∧
      ∀ meter, Conserves meter ip (steps sysStep start events) := by
  refine ⟨?_, node_of_last_report fresh idle fit, fun meter => conserves_run meter fresh idle fit⟩
  exact exec_invariant (P := fun sys : System => (sys.cacheHead.map IpCache.ip).Nodup)
    (by rw [fresh]; exact List.nodup_nil) fun p _ => nodup_step

/-- A loader before its first pass, over empty maps. -/
def idleLoader : System :=
  { maps := Maps.empty, cacheHead := [], stage := .idle, statsIntervalSec := 1 }

/-- A packet of 10.0.0.1 between the lookup and the report of a first pass, and a
second pass. -/
def racingPass : List SysEvent :=
  let packet := SysEvent.data
    (.packet 0 (Frame.ofTcp ⟨10, 0, 0, 1⟩ ⟨10, 0, 0, 2⟩ 0 80 0x02) (.ready 0))
  let key := Quad.le ⟨10, 0, 0, 1⟩
  [packet, .firstKey (some key), .lookupElem, packet, .reportFlowRate true 0, .nextKey none,
    .firstKey (some key), .lookupElem, .reportFlowRate true 1, .nextKey none]

/-- The growth reported is one packet, though none was counted between the two
reports: it was counted between the lookup and the report of the first. -/
theorem growth_before_first_report :
    let run := steps sysStep idleLoader racingPass
    let ip := Quad.le ⟨10, 0, 0, 1⟩
    ¬ ((reportsOf ip run).map fun r => (delta .packets r).toNat).sum ≤
      ((readings .packets ip 0 0 run).getLast?.map Reading.atReport).getD 0 -
        ((readings .packets ip 0 0 run).head?.map Reading.atReport).getD 0 := by
  decide

/-- In the same run it is one packet counted between the two lookups. -/
theorem rates_conserve_racing :
    Conserves .packets (Quad.le ⟨10, 0, 0, 1⟩) (steps sysStep idleLoader racingPass) :=
  have small : ∀ p ∈ steps sysStep idleLoader racingPass,
      (match p.2 with
      | .data event => [Meter.packets, .bytes].all fun meter =>
          decide (flowTotal meter p.1.maps.flowStats (Quad.le ⟨10, 0, 0, 1⟩) +
            counted meter (Quad.le ⟨10, 0, 0, 1⟩) (p.1.maps, event) < 2 ^ 64)
      | _ => true) = true := by
    decide
  have fit : CountersFitIn (Quad.le ⟨10, 0, 0, 1⟩) (steps sysStep idleLoader racingPass) := by
    intro p member event data meter
    have both := small p member
    rw [data] at both
    refine of_decide_eq_true (List.all_eq_true.mp both meter ?_)
    cases meter with
    | packets => exact List.mem_cons_self
    | bytes => exact List.mem_cons_of_mem _ List.mem_cons_self
  (rates_conserve idleLoader racingPass (Quad.le ⟨10, 0, 0, 1⟩) rfl rfl fit).2.2 .packets

end EbpfNids.Loader
