import EbpfNids.Library.Greedy
import EbpfNids.DataPlane.Firewall
import Mathlib.Data.List.DropRight

/-!
# The port-scan detector accumulates a set of ports

The sixteen words stored for a source stand for a set of ports below 1024
(`portSet`). A SYN of the source to such a port inserts it. The packet whose
port makes the set reach 21 elements outputs one alert and leaves the set
empty; repeats and higher ports change nothing. Between packets the set has at
most 20 elements, and it is the set of low ports since the last alert
(`portScan_refines`).

The refinement needs two facts about the words: setting bit `p % 64` of word
`p / 64` inserts `p`, and the population counts add up to the size of the set
(`Library.BitTable`).
-/

set_option autoImplicit false

namespace EbpfNids.DataPlane

open Library Library.Runs

/-- The bitmap stored for a source, empty while the source has no entry. -/
def storedBitmap (portScanMap : PortScanMap) (s : UInt32) : PortBitmap :=
  (portScanMap.lookup s).getD fun _ => 0

/-- The ports below 1024 whose bits are set for a source. -/
def portSet (portScanMap : PortScanMap) (s : UInt32) : Finset ℕ :=
  BitTable.members (storedBitmap portScanMap s)

theorem portSet_of_lookup_eq {m m' : PortScanMap} {s : UInt32} (same : m'.lookup s = m.lookup s) :
    portSet m' s = portSet m s := by
  rw [portSet, storedBitmap, same, portSet, storedBitmap]

theorem portSet_of_absent {m : PortScanMap} {s : UInt32} (absent : m.lookup s = none) :
    portSet m s = ∅ := by
  rw [portSet, storedBitmap, absent, Option.getD_none, BitTable.members_zero]

/-! ## One call of the detector -/

section Call

variable (kernel : Kernel) (cpu : Cpu) (srcIp dstIp : UInt32) (dstPort : UInt16)

/-- The map after the entry of the source has been looked up, and created if
it was missing. -/
def withEntry (m : PortScanMap) : PortScanMap :=
  match m.lookup srcIp with
  | some _ => m
  | none => bpfMapUpdateElem kernel.scanUpdate m srcIp fun _ => 0

theorem withEntry_of_ne {m : PortScanMap} {s : UInt32} (different : s ≠ srcIp) :
    (withEntry kernel srcIp m).lookup s = m.lookup s := by
  unfold withEntry
  split
  · rfl
  · exact bpfMapUpdateElem_of_ne different

/-- The created entry is empty, so it stands for the same set. -/
theorem withEntry_lookup {m : PortScanMap}
    (here : (m.lookup srcIp).isSome ∨ Stores kernel.scanUpdate m) :
    (withEntry kernel srcIp m).lookup srcIp = some (storedBitmap m srcIp) := by
  unfold withEntry storedBitmap
  cases found : m.lookup srcIp with
  | some bitmap => simp [found]
  | none =>
      have stores : Stores kernel.scanUpdate m := here.resolve_left (by simp [found])
      simp [bpfMapUpdateElem_stored stores found]

theorem withEntry_refused {m : PortScanMap} (absent : m.lookup srcIp = none)
    (refused : ¬ Stores kernel.scanUpdate m) : withEntry kernel srcIp m = m := by
  simp [withEntry, absent, bpfMapUpdateElem_refused refused absent]

theorem totalPorts_setBit (bitmap : PortBitmap) {port : ℕ} (low : port / 64 < 16) :
    totalPorts (BitTable.setBit bitmap ⟨port / 64, low⟩ (port % 64)) =
      (insert port (BitTable.members bitmap)).card := by
  rw [totalPorts, BitTable.sum_cpop_eq_card, BitTable.members_setBit low (by decide)]

/-- What the detector does once the entry has been looked up. -/
def markPort (m : PortScanMap) : PortScanMap × List Act :=
  match m.lookup srcIp with
  | none => (m, [.checkPortScan srcIp dstIp dstPort])
  | some bitmap =>
      if low : dstPort.toNat < 1024 then
        let marked := BitTable.setBit bitmap (wordIdx low) (dstPort.toNat % 64)
        if totalPorts marked > portScanThreshold then
          (m.modify srcIp fun _ => fun _ => 0,
            [.checkPortScan srcIp dstIp dstPort,
              .bpfRingbufOutput cpu ⟨srcIp, dstIp, 2, kernel.scanTime⟩ kernel.scanOutput,
              .bitmapClear srcIp])
        else (m.modify srcIp fun _ => marked, [.checkPortScan srcIp dstIp dstPort])
      else (m, [.checkPortScan srcIp dstIp dstPort])

theorem checkPortScan_eq (m : PortScanMap) :
    checkPortScan kernel cpu srcIp dstIp dstPort m =
      markPort kernel cpu srcIp dstIp dstPort (withEntry kernel srcIp m) := rfl

/-- The entries of other sources are left alone. -/
theorem checkPortScan_of_ne {m : PortScanMap} {s : UInt32} (different : s ≠ srcIp) :
    (checkPortScan kernel cpu srcIp dstIp dstPort m).1.lookup s = m.lookup s := by
  have entry := withEntry_of_ne kernel srcIp (m := m) different
  rw [checkPortScan_eq, markPort]
  dsimp only
  repeat' split
  all_goals first
    | exact entry
    | exact (BoundedMap.lookup_modify_of_ne different).trans entry

/-- A refused insertion ends the call. -/
theorem checkPortScan_refused {m : PortScanMap} (absent : m.lookup srcIp = none)
    (refused : ¬ Stores kernel.scanUpdate m) :
    checkPortScan kernel cpu srcIp dstIp dstPort m = (m, [.checkPortScan srcIp dstIp dstPort]) := by
  rw [checkPortScan_eq, withEntry_refused kernel srcIp absent refused, markPort]
  simp [absent]

/-- A low port is inserted in the set of the source; the port that makes it
reach 21 elements outputs the alert and empties it. -/
theorem checkPortScan_low {m : PortScanMap}
    (here : (m.lookup srcIp).isSome ∨ Stores kernel.scanUpdate m) (low : dstPort.toNat < 1024) :
    portSet (checkPortScan kernel cpu srcIp dstIp dstPort m).1 srcIp =
        (if (insert dstPort.toNat (portSet m srcIp)).card > portScanThreshold then ∅
          else insert dstPort.toNat (portSet m srcIp)) ∧
      (checkPortScan kernel cpu srcIp dstIp dstPort m).2 =
        .checkPortScan srcIp dstIp dstPort ::
          (if (insert dstPort.toNat (portSet m srcIp)).card > portScanThreshold then
            [.bpfRingbufOutput cpu ⟨srcIp, dstIp, 2, kernel.scanTime⟩ kernel.scanOutput,
              .bitmapClear srcIp]
          else []) := by
  have found := withEntry_lookup kernel srcIp here
  have word : dstPort.toNat / 64 < 16 := by omega
  have total : totalPorts (BitTable.setBit (storedBitmap m srcIp) ⟨dstPort.toNat / 64, word⟩
      (dstPort.toNat % 64)) = (insert dstPort.toNat (portSet m srcIp)).card :=
    totalPorts_setBit (storedBitmap m srcIp) word
  rw [checkPortScan_eq, markPort]
  simp only [found, low, dif_pos, total]
  by_cases exceeds : (insert dstPort.toNat (portSet m srcIp)).card > portScanThreshold
  · simp only [exceeds, if_true, and_true]
    rw [portSet, storedBitmap, BoundedMap.lookup_modify_self, found]
    exact BitTable.members_zero
  · simp only [exceeds, if_false, and_true]
    rw [portSet, storedBitmap, BoundedMap.lookup_modify_self, found]
    exact BitTable.members_setBit word (by decide)

/-- A port from 1024 on changes no set. -/
theorem checkPortScan_high {m : PortScanMap}
    (here : (m.lookup srcIp).isSome ∨ Stores kernel.scanUpdate m) (high : ¬ dstPort.toNat < 1024) :
    portSet (checkPortScan kernel cpu srcIp dstIp dstPort m).1 srcIp = portSet m srcIp ∧
      (checkPortScan kernel cpu srcIp dstIp dstPort m).2 =
        [.checkPortScan srcIp dstIp dstPort] := by
  have found := withEntry_lookup kernel srcIp here
  rw [checkPortScan_eq, markPort]
  simp only [found, high, dif_neg, not_false_eq_true, and_true]
  simp [portSet, storedBitmap, found]

/-- The source has an entry after the call, unless its insertion was refused. -/
theorem checkPortScan_lookup_isSome {m : PortScanMap}
    (here : (m.lookup srcIp).isSome ∨ Stores kernel.scanUpdate m) :
    ((checkPortScan kernel cpu srcIp dstIp dstPort m).1.lookup srcIp).isSome := by
  have found := withEntry_lookup kernel srcIp here
  rw [checkPortScan_eq, markPort]
  simp only [found]
  repeat' split
  all_goals simp [BoundedMap.lookup_modify_self, found]

end Call

/-! ## Ports and alerts of a step -/

/-- The packet of a source that reaches the detectors with SYN set. -/
def synFrom (s : UInt32) (p : Maps × Event) : Option Arrival :=
  (arrival p).filter fun a => a.seg.syn && a.seg.srcIp == s

theorem synFrom_eq_some {s : UInt32} {p : Maps × Event} {a : Arrival} :
    synFrom s p = some a ↔ arrival p = some a ∧ a.seg.syn = true ∧ a.seg.srcIp = s := by
  simp [synFrom, Option.filter_eq_some_iff]

/-- The port below 1024 to which such a packet goes. -/
def lowPortFrom (s : UInt32) (p : Maps × Event) : Option ℕ :=
  (synFrom s p).bind fun a => a.seg.lowPort

/-- A SYN of the source finds no entry, and tries to insert one. -/
def TriesScanInsert (s : UInt32) (p : Maps × Event) : Prop :=
  (∃ a, synFrom s p = some a) ∧ p.1.portScanMap.lookup s = none

/-- The source has an entry after the step. -/
def ScanInserted (s : UInt32) (p : Maps × Event) : Prop :=
  ((step p.1 p.2).portScanMap.lookup s).isSome

/-- The type-2 events naming a source that a step outputs. -/
def scanAlerts (s : UInt32) (p : Maps × Event) : List AlertEvent := alertsOf 2 s (acts p)

/-- The low ports of a source in a run, from after the last step that outputs a
type-2 event for it. -/
def portsSinceAlert (s : UInt32) (run : List (Maps × Event)) : Finset ℕ :=
  ((run.rtakeWhile fun p => (scanAlerts s p).isEmpty).filterMap (lowPortFrom s)).toFinset

/-- What the detector does to the set of a source in one step: a low port joins
it, the one that makes it reach 21 elements outputs the alert that names the
packet's source and destination and empties it, and no other step changes it or
outputs an alert. -/
structure MarksPort (s : UInt32) (p : Maps × Event) : Prop where
  marked : ∀ a port, synFrom s p = some a → a.seg.lowPort = some port →
    portSet (step p.1 p.2).portScanMap s =
        (if (insert port (portSet p.1.portScanMap s)).card = 21 then ∅
          else insert port (portSet p.1.portScanMap s)) ∧
      scanAlerts s p =
        if (insert port (portSet p.1.portScanMap s)).card = 21 then
          [⟨s, a.seg.dstIp, 2, a.kernel.scanTime⟩]
        else []
  unchanged : lowPortFrom s p = none →
    portSet (step p.1 p.2).portScanMap s = portSet p.1.portScanMap s ∧ scanAlerts s p = []

/-! ## One step -/

/-- The detector as it is run on a segment that is no SYN of a source leaves the
source's entry alone and outputs no alert that names it. -/
theorem detectScan_other (kernel : Kernel) (cpu : Cpu) {seg : Segment} {s : UInt32}
    (m : PortScanMap) (other : ¬ (seg.syn = true ∧ seg.srcIp = s)) :
    (detectScan kernel cpu seg m).1.lookup s = m.lookup s ∧
      alertsOf 2 s (detectScan kernel cpu seg m).2 = [] := by
  by_cases syn : seg.syn = true
  · have different : seg.srcIp ≠ s := by
      intro same
      exact other ⟨syn, same⟩
    simp only [detectScan, syn, if_true]
    refine ⟨checkPortScan_of_ne kernel cpu seg.srcIp seg.dstIp seg.dstPort (Ne.symm different), ?_⟩
    rw [checkPortScan_eq, markPort]
    dsimp only
    repeat' split
    all_goals simp [alertsOf, different]
  · simp [detectScan, syn, alertsOf]

/-- The SYN-flood detector outputs no type-2 event. -/
theorem alertsOf_detectSyn (kernel : Kernel) (cpu : Cpu) (seg : Segment) (m : SynCounter)
    (s : UInt32) : alertsOf 2 s (detectSyn kernel cpu seg m).2 = [] := by
  unfold detectSyn checkSynFlood
  dsimp only
  repeat' split
  all_goals simp [alertsOf]

/-- A SYN of the source finds an entry or room for one. -/
theorem scanHere_of_inserted {s : UInt32} {p : Maps × Event} {a : Arrival}
    (arrives : arrival p = some a) (syn : a.seg.syn = true) (source : a.seg.srcIp = s)
    (inserted : TriesScanInsert s p → ScanInserted s p) :
    (p.1.portScanMap.lookup s).isSome ∨ Stores a.kernel.scanUpdate p.1.portScanMap := by
  cases found : p.1.portScanMap.lookup s with
  | some _ => exact Or.inl rfl
  | none =>
      right
      by_contra refused
      have left := inserted ⟨⟨a, synFrom_eq_some.mpr ⟨arrives, syn, source⟩⟩, found⟩
      subst source
      rw [ScanInserted, (step_of_arrival arrives).2.1] at left
      simp only [detectScan, syn, if_true] at left
      rw [checkPortScan_refused a.kernel a.cpu _ _ _ found refused, found] at left
      cases left

theorem lowPort_eq_some {seg : Segment} {port : ℕ} :
    seg.lowPort = some port ↔
      seg.syn = true ∧ seg.dstPort.toNat < 1024 ∧ seg.dstPort.toNat = port := by
  simp only [Segment.lowPort]
  split
  · rename_i both
    simp_all
  · rename_i either
    simp_all

theorem overThreshold_iff {S : Finset ℕ} (bounded : S.card ≤ 20) (port : ℕ) :
    (insert port S).card > portScanThreshold ↔ (insert port S).card = 21 := by
  have most := Finset.card_insert_le port S
  rw [portScanThreshold]
  omega

/-- **Step lemma.** While the set of a source has at most 20 elements and its
insertion, if it is tried, leaves an entry, a step marks exactly. -/
theorem scan_step {s : UInt32} {p : Maps × Event}
    (bounded : (portSet p.1.portScanMap s).card ≤ 20) (kept : p.2 ≠ .mapDelete .portScanMap s)
    (inserted : TriesScanInsert s p → ScanInserted s p) : MarksPort s p := by
  cases arrives : arrival p with
  | none =>
      obtain ⟨silent, -, same⟩ := step_of_no_arrival arrives s
      refine ⟨?_, fun _ => ⟨portSet_of_lookup_eq (same kept), ?_⟩⟩
      · intro a port counted
        rw [(synFrom_eq_some.mp counted).1] at arrives
        cases arrives
      · rw [scanAlerts, silent]
        rfl
  | some a =>
      obtain ⟨-, scanEq, actsEq⟩ := step_of_arrival arrives
      have alertsEq : scanAlerts s p =
          alertsOf 2 s (detectScan a.kernel a.cpu a.seg p.1.portScanMap).2 := by
        rw [scanAlerts, actsEq, alertsOf_append, alertsOf_detectSyn, List.nil_append]
      have same : ∀ {b}, synFrom s p = some b → b = a := fun counted =>
        Option.some.inj ((synFrom_eq_some.mp counted).1.symm.trans arrives)
      by_cases own : a.seg.syn = true ∧ a.seg.srcIp = s
      · obtain ⟨syn, source⟩ := own
        have here := scanHere_of_inserted arrives syn source inserted
        have from_s : synFrom s p = some a := synFrom_eq_some.mpr ⟨arrives, syn, source⟩
        simp only [detectScan, syn, source, if_true] at scanEq alertsEq
        by_cases low : a.seg.dstPort.toNat < 1024
        · obtain ⟨set, record⟩ := checkPortScan_low a.kernel a.cpu s a.seg.dstIp _ here low
          rw [← scanEq] at set
          rw [record] at alertsEq
          constructor
          · intro b port counted atPort
            obtain rfl := same counted
            obtain ⟨-, -, rfl⟩ := lowPort_eq_some.mp atPort
            have exceeds := overThreshold_iff bounded b.seg.dstPort.toNat
            by_cases full : (insert b.seg.dstPort.toNat (portSet p.1.portScanMap s)).card = 21
            · rw [if_pos (exceeds.mpr full)] at set alertsEq
              rw [if_pos full, if_pos full]
              exact ⟨set, by simp [alertsEq, alertsOf]⟩
            · rw [if_neg (mt exceeds.mp full)] at set alertsEq
              rw [if_neg full, if_neg full]
              exact ⟨set, by simp [alertsEq, alertsOf]⟩
          · intro other
            have atPort : lowPortFrom s p = some a.seg.dstPort.toNat := by
              simp [lowPortFrom, from_s, lowPort_eq_some, syn, low]
            rw [atPort] at other
            cases other
        · obtain ⟨set, record⟩ := checkPortScan_high a.kernel a.cpu s a.seg.dstIp _ here low
          rw [← scanEq] at set
          rw [record] at alertsEq
          refine ⟨?_, fun _ => ⟨set, by simp [alertsEq, alertsOf]⟩⟩
          intro b port counted atPort
          obtain rfl := same counted
          exact absurd (lowPort_eq_some.mp atPort).2.1 low
      · obtain ⟨entry, silent⟩ := detectScan_other a.kernel a.cpu p.1.portScanMap own
        refine ⟨?_, fun _ => ⟨?_, alertsEq.trans silent⟩⟩
        · intro b port counted
          obtain rfl := same counted
          exact absurd (synFrom_eq_some.mp counted).2 own
        · exact portSet_of_lookup_eq (by rw [scanEq, entry])

/-! ## Runs -/

/-- An entry stays until it is deleted from outside. -/
theorem scan_entry_stays {s : UInt32} {p : Maps × Event} (kept : p.2 ≠ .mapDelete .portScanMap s)
    (present : (p.1.portScanMap.lookup s).isSome) :
    ((step p.1 p.2).portScanMap.lookup s).isSome := by
  cases arrives : arrival p with
  | none => rwa [(step_of_no_arrival arrives s).2.2 kept]
  | some a =>
      rw [(step_of_arrival arrives).2.1]
      by_cases own : a.seg.syn = true ∧ a.seg.srcIp = s
      · obtain ⟨syn, rfl⟩ := own
        simp only [detectScan, syn, if_true]
        exact checkPortScan_lookup_isSome a.kernel a.cpu _ _ _ (Or.inl present)
      · rwa [(detectScan_other a.kernel a.cpu p.1.portScanMap own).1]

/-- A step that marks exactly keeps the bound of the set. -/
theorem MarksPort.card_le {s : UInt32} {p : Maps × Event} (marks : MarksPort s p)
    (bounded : (portSet p.1.portScanMap s).card ≤ 20) :
    (portSet (step p.1 p.2).portScanMap s).card ≤ 20 := by
  cases marked : lowPortFrom s p with
  | none => rwa [(marks.unchanged marked).1]
  | some port =>
      obtain ⟨a, counted, atPort⟩ := Option.bind_eq_some_iff.mp marked
      rw [(marks.marked a port counted atPort).1]
      have most := Finset.card_insert_le port (portSet p.1.portScanMap s)
      split
      · exact Nat.zero_le _
      · omega

/-- A step that marks exactly accumulates its low port up to 21 elements, with
one mark for every alert. -/
theorem MarksPort.accumulates {s : UInt32} {p : Maps × Event} (marks : MarksPort s p) :
    Greedy.Accumulates 21 step (fun maps => portSet maps.portScanMap s) (lowPortFrom s)
      (fun q => (scanAlerts s q).length) p := by
  rw [Greedy.Accumulates]
  cases marked : lowPortFrom s p with
  | none =>
      obtain ⟨set, silent⟩ := marks.unchanged marked
      exact ⟨set, by rw [silent]; rfl⟩
  | some port =>
      obtain ⟨a, counted, atPort⟩ := Option.bind_eq_some_iff.mp marked
      obtain ⟨set, alerts⟩ := marks.marked a port counted atPort
      refine ⟨set, ?_⟩
      rw [alerts]
      split
      · rfl
      · rfl

section Run

variable {s : UInt32} {start : Maps} {events : List Event}

/-- **Run lemma.** From a state in which the set of a source has at most 20
elements it stays so, and every step of a run marks exactly. -/
theorem marks_run (initial : (portSet start.portScanMap s).card ≤ 20)
    (kept : .mapDelete .portScanMap s ∉ events)
    (inserted : FirstTime (TriesScanInsert s) (ScanInserted s) (steps step start events)) :
    (portSet (exec step start events).portScanMap s).card ≤ 20 ∧
      ∀ p ∈ steps step start events, MarksPort s p := by
  have keptStep : ∀ p ∈ steps step start events, p.2 ≠ .mapDelete .portScanMap s := by
    intro p member deleted
    exact kept (deleted ▸ event_mem_of_mem_steps step member)
  have every := FirstTime.forall_attempts
    (fun maps : Maps => (maps.portScanMap.lookup s).isSome) inserted
    (fun p tries settled => by simp [tries.2] at settled) (fun _ _ success => success)
    (fun p member => scan_entry_stays (keptStep p member))
  have marksStep : ∀ p ∈ steps step start events,
      (portSet p.1.portScanMap s).card ≤ 20 → MarksPort s p :=
    fun p member bounded => scan_step bounded (keptStep p member) (every p member)
  have preserved : ∀ p ∈ steps step start events, (portSet p.1.portScanMap s).card ≤ 20 →
      (portSet (step p.1 p.2).portScanMap s).card ≤ 20 :=
    fun p member bounded => (marksStep p member bounded).card_le bounded
  exact ⟨exec_invariant (P := fun maps : Maps => (portSet maps.portScanMap s).card ≤ 20)
      initial preserved,
    fun p member => marksStep p member
      (steps_invariant (P := fun maps : Maps => (portSet maps.portScanMap s).card ≤ 20)
        initial preserved p member)⟩

/-- The run lemma for a source without an entry. -/
theorem scan_run (absent : start.portScanMap.lookup s = none)
    (kept : .mapDelete .portScanMap s ∉ events)
    (inserted : FirstTime (TriesScanInsert s) (ScanInserted s) (steps step start events)) :
    (portSet (exec step start events).portScanMap s).card ≤ 20 ∧
      ∀ p ∈ steps step start events, MarksPort s p := by
  refine marks_run ?_ kept inserted
  rw [portSet_of_absent absent]
  exact Nat.zero_le _

/-- The set is the set of low ports since the last alert. -/
theorem portSet_eq_portsSinceAlert (absent : start.portScanMap.lookup s = none)
    (marks : ∀ p ∈ steps step start events, MarksPort s p) :
    portSet (exec step start events).portScanMap s =
      portsSinceAlert s (steps step start events) := by
  refine Greedy.view_eq_since (fun maps : Maps => portSet maps.portScanMap s)
    (portSet_of_absent absent) ?_
  intro p member
  cases marked : lowPortFrom s p with
  | none =>
      obtain ⟨set, silent⟩ := (marks p member).unchanged marked
      rw [silent, Option.toFinset_none, Finset.union_empty]
      exact set
  | some port =>
      obtain ⟨a, counted, atPort⟩ := Option.bind_eq_some_iff.mp marked
      obtain ⟨set, alerts⟩ := (marks p member).marked a port counted atPort
      by_cases full : (insert port (portSet p.1.portScanMap s)).card = 21
      · rw [if_pos full] at set alerts
        rw [alerts]
        exact set
      · rw [if_neg full] at set alerts
        rw [alerts, Option.toFinset_some, Finset.union_singleton]
        exact set

end Run

/-- **The detector refines a set of ports.** For a source without an entry at
the start, whose first insertion succeeds and whose entry is not deleted from
outside: after every prefix of the run the stored bitmap stands for the low
ports of the source since its last type-2 event, at most 20 of them; every step
marks as `MarksPort` says; and the number of type-2 events is the number of
blocks into which the low ports are cut when 21 distinct ones have
accumulated. -/
theorem portScan_refines (s : UInt32) (start : Maps) (events : List Event)
    (absent : start.portScanMap.lookup s = none) (kept : .mapDelete .portScanMap s ∉ events)
    (inserted : FirstTime (TriesScanInsert s) (ScanInserted s) (steps step start events)) :
    (∀ before after, events = before ++ after →
      portSet (exec step start before).portScanMap s =
          portsSinceAlert s (steps step start before) ∧
        (portSet (exec step start before).portScanMap s).card ≤ 20) ∧
      (∀ p ∈ steps step start events, MarksPort s p) ∧
      ((steps step start events).flatMap (scanAlerts s)).length =
        (Greedy.blocks 21 [] ((steps step start events).filterMap (lowPortFrom s))).length := by
  refine ⟨?_, (scan_run absent kept inserted).2, ?_⟩
  · intro before after split
    subst split
    rw [steps_append] at inserted
    obtain ⟨bounded, marks⟩ := scan_run absent (fun member => kept (List.mem_append_left _ member))
      inserted.of_append
    exact ⟨portSet_eq_portsSinceAlert absent marks, bounded⟩
  · have marks := (scan_run absent kept inserted).2
    have initial : portSet start.portScanMap s = ([] : List ℕ).toFinset :=
      portSet_of_absent absent
    rw [List.length_flatMap]
    exact Greedy.sum_marks_eq_blocks (fun maps : Maps => portSet maps.portScanMap s) []
      initial fun p member => (marks p member).accumulates

/-- A SYN and a SYN with ACK set from 10.0.0.1 to ports 22 and 80, with a
packet to port 8080 between them: the set is 22 and 80. -/
theorem portScan_refines_two_ports :
    let syn := fun (high low flags : UInt8) =>
      Event.packet 0 (Frame.ofTcp ⟨10, 0, 0, 1⟩ ⟨10, 0, 0, 2⟩ high low flags) (.ready 0)
    let events := [syn 0 22 0x02, syn 31 144 0x02, syn 0 80 0x12]
    portSet (exec step Maps.empty events).portScanMap (Quad.le ⟨10, 0, 0, 1⟩) =
        portsSinceAlert (Quad.le ⟨10, 0, 0, 1⟩) (steps step Maps.empty events) ∧
      (steps step Maps.empty events).filterMap (lowPortFrom (Quad.le ⟨10, 0, 0, 1⟩)) =
        [22, 80] := by
  intro syn events
  have inserted : FirstTime (TriesScanInsert (Quad.le ⟨10, 0, 0, 1⟩))
      (ScanInserted (Quad.le ⟨10, 0, 0, 1⟩)) (steps step Maps.empty events) :=
    Or.inl ⟨⟨⟨_, rfl⟩, rfl⟩, rfl⟩
  exact ⟨((portScan_refines _ Maps.empty events rfl (by decide) inserted).1 events []
    (List.append_nil _).symm).1, by decide⟩

end EbpfNids.DataPlane
