import EbpfNids.DataPlane.CpuSpread
import EbpfNids.DataPlane.ScanAccusation
import EbpfNids.DataPlane.SynRate

/-!
# The detections of a run

How often a run reports a source follows from the packets of the run and from
what the maps held before. On each CPU the counter goes on where it was, so there
is an alert for every 101 of what it held and the pure SYNs of the run
(`length_synEvents`). The set of ports goes on too, so the low ports of the run
are cut into blocks of 21 after those that are marked (`length_scanEvents`).

The maps may be any that a run from empty maps leads to. In such maps a counter
is below 101 (`countersBelow_exec`) and a set has at most 20 ports.
-/

set_option autoImplicit false

namespace EbpfNids.DataPlane

open Library Library.Runs

/-- The type-2 events that name the source in a run. -/
def scanEvents (s : UInt32) (run : List (Maps × Event)) : List AlertEvent :=
  run.flatMap (scanAlerts s)

/-- What the counter of a source on a CPU has counted since its last alert, in a
run that starts from some maps. -/
def synsCounted (s : UInt32) (c : Cpu) (start : Maps) (events : List Event) : ℕ :=
  (slot start.synCounter s c).toNat +
    (steps step start events).countP fun p => (pureSynOn s c p).isSome

theorem countersBelow_exec (s : UInt32) (events : List Event) :
    CountersBelow s (exec step Maps.empty events) :=
  exec_invariant (countersBelow_empty s) fun _ _ => countersBelow_step

section Run

variable {s : UInt32} {start : Maps} {events : List Event}

/-- The alerts of a CPU. -/
theorem sum_synAlerts (below : CountersBelow s start) (c : Cpu)
    (kept : .mapDelete .synCounter s ∉ events)
    (inserted : FirstTime (TriesSynInsert s) (SynInserted s) (steps step start events)) :
    ((steps step start events).map fun p => (synAlerts s c p).length).sum =
      synsCounted s c start events / 101 := by
  obtain ⟨bounded, counts⟩ := syn_run below kept inserted
  exact (exec_counter_since (fun maps : Maps => (slot maps.synCounter s c).toNat) (bounded c)
    fun p member => ((counts p member).2 c).balance ((counts p member).1 c)).2

/-- **The SYN floods of a run**, CPU by CPU. -/
theorem length_synEvents (below : CountersBelow s start)
    (kept : .mapDelete .synCounter s ∉ events)
    (inserted : FirstTime (TriesSynInsert s) (SynInserted s) (steps step start events)) :
    (synEvents s (steps step start events)).length =
      ∑ c ∈ cpusOf events, synsCounted s c start events / 101 := by
  have byCpu : ∀ p ∈ steps step start events,
      (alertsOf 1 s (acts p)).length = ∑ c ∈ cpusOf events, (synAlerts s c p).length :=
    fun p member => length_alertsOf fun cpu evt placed output =>
      mem_cpusOf (event_mem_of_mem_steps step member) output
  rw [synEvents, List.length_flatMap, List.map_congr_left byCpu, sum_map_sum]
  refine Finset.sum_congr rfl fun c _ => ?_
  exact sum_synAlerts below c kept inserted

/-- **The port scans of a run.** -/
theorem length_scanEvents (marked : List ℕ)
    (holds : portSet start.portScanMap s = marked.toFinset)
    (bounded : (portSet start.portScanMap s).card ≤ 20)
    (kept : .mapDelete .portScanMap s ∉ events)
    (inserted : FirstTime (TriesScanInsert s) (ScanInserted s) (steps step start events)) :
    (scanEvents s (steps step start events)).length =
      (Greedy.blocks 21 marked ((steps step start events).filterMap (lowPortFrom s))).length := by
  have marks := (marks_run bounded kept inserted).2
  rw [scanEvents, List.length_flatMap]
  exact Greedy.sum_marks_eq_blocks (fun maps : Maps => portSet maps.portScanMap s) marked holds
    fun p member => (marks p member).accumulates

end Run

end EbpfNids.DataPlane
