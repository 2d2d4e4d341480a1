import EbpfNids.DataPlane.RealHeader

/-!
# Whom the port-scan detector accuses

A connection attempt is a TCP packet with SYN set and ACK clear. The SYN-flood
detector looks at both flags. The port-scan detector looks at SYN alone, so a
host that answers attempts, with SYN and ACK set, marks the ports it answers
to, and a peer that chooses low source ports gets it accused
(`answers_are_accused`).

The set stored for a source holds only ports it has attempted as long as no
packet marks another one. In every run in which that is so, each type-2 event
comes after attempts to at least 21 ports since the one before it, and a host
that attempts nothing is never named (`accuses_scanners_only`).
-/

set_option autoImplicit false

namespace EbpfNids.DataPlane

open Library Library.Runs Library.Greedy

open EbpfNids.DataPlane.Frame

/-! ## Connection attempts -/

instance (frame : Frame) : Decidable frame.WellFormed :=
  decidable_of_iff (frame.isIp = true ∧ frame.version = 4 ∧ 5 ≤ frame.ihl ∧
      ethhdrSize + 4 * frame.ihl ≤ frame.length)
    ⟨fun h => ⟨h.1, h.2.1, h.2.2.1, h.2.2.2⟩, fun h => ⟨h.ip, h.version, h.minimal, h.inside⟩⟩

instance (frame : Frame) (tcp : ℕ) : Decidable (frame.ShowsSyn tcp) :=
  inferInstanceAs (Decidable (_ ∧ _))

/-- A TCP packet whose header, where it really is, has SYN set and ACK clear. -/
def Frame.IsAttempt (frame : Frame) : Prop :=
  frame.WellFormed ∧ frame.protocol = 6 ∧ frame.fragOffset = 0 ∧
    frame.ShowsSyn frame.realTcp ∧ frame.ack frame.realTcp = false

instance (frame : Frame) : Decidable frame.IsAttempt :=
  inferInstanceAs (Decidable (_ ∧ _ ∧ _ ∧ _ ∧ _))

/-- The port below 1024 to which a source attempts to connect. The attempt
counts whether or not the handler drops the packet. -/
def attemptFrom (s : UInt32) (p : Maps × Event) : Option ℕ :=
  match p.2 with
  | .packet _ frame _ =>
      if frame.saddr = s ∧ frame.IsAttempt ∧ (frame.dest frame.realTcp).toNat < 1024 then
        some (frame.dest frame.realTcp).toNat
      else none
  | _ => none

/-- The ports below 1024 that a source has attempted in a run, from after the
last step that outputs a type-2 event for it. -/
def attemptsSinceAlert (s : UInt32) (run : List (Maps × Event)) : Finset ℕ :=
  since (fun p => (scanAlerts s p).isEmpty) (attemptFrom s) run

/-- The port that the detector marks for a source in a step, if it marks one, is
a port that the source attempts in this step or has attempted since its last
type-2 event. -/
def MarksAttempt (s : UInt32) (run : List (Maps × Event)) (p : Maps × Event) : Prop :=
  ∀ port, lowPortFrom s p = some port →
    attemptFrom s p = some port ∨ port ∈ attemptsSinceAlert s run

/-- A SYN without ACK in a packet without IP options and fragmentation is an
attempt to the port that it marks. -/
theorem attemptFrom_of_plain {s : UInt32} {maps : Maps} {cpu : Cpu} {frame : Frame}
    {kernel : Kernel} {port : ℕ} (version : frame.version = 4) (plain : frame.ihl = 5)
    (whole : frame.fragOffset = 0) (clear : frame.ack assumedTcp = false)
    (marked : lowPortFrom s (maps, .packet cpu frame kernel) = some port) :
    attemptFrom s (maps, .packet cpu frame kernel) = some port := by
  obtain ⟨a, counted, atPort⟩ := Option.bind_eq_some_iff.mp marked
  obtain ⟨arrives, syn, source⟩ := synFrom_eq_some.mp counted
  obtain ⟨seg, inside, rfl⟩ := Option.map_eq_some_iff.mp arrives
  obtain ⟨-, low, same⟩ := lowPort_eq_some.mp atPort
  have real : frame.realTcp = assumedTcp := by
    rw [realTcp, plain]
    rfl
  unfold inspected at inside
  split at inside
  · rename_i inspects
    obtain ⟨ip, -, tcp, complete⟩ := inspects
    cases inside
    have formed : frame.WellFormed := by
      refine ⟨ip, version, plain.ge, ?_⟩
      rw [plain]
      exact le_trans (by decide) complete
    have attempt : frame.IsAttempt := by
      refine ⟨formed, tcp, whole, ?_, ?_⟩
      · rw [real]
        exact ⟨complete, syn⟩
      · rw [real]
        exact clear
    have counts : frame.saddr = s ∧ frame.IsAttempt ∧ (frame.dest frame.realTcp).toNat < 1024 := by
      rw [real]
      exact ⟨source, attempt, low⟩
    rw [← same, attemptFrom]
    dsimp only
    rw [if_pos counts, real]
    rfl
  · cases inside

/-! ## One step -/

/-- A step marks exactly, or it outputs no alert and leaves nothing: the entry
is deleted from outside, or its insertion is refused. -/
theorem scan_step_or_forgets {s : UInt32} {p : Maps × Event}
    (bounded : (portSet p.1.portScanMap s).card ≤ 20) :
    MarksPort s p ∨ scanAlerts s p = [] ∧ portSet (step p.1 p.2).portScanMap s = ∅ := by
  by_cases kept : p.2 = .mapDelete .portScanMap s
  · obtain ⟨maps, event⟩ := p
    obtain rfl : event = .mapDelete .portScanMap s := kept
    exact Or.inr ⟨rfl, portSet_of_absent BoundedMap.lookup_erase_self⟩
  · by_cases inserted : TriesScanInsert s p → ScanInserted s p
    · exact Or.inl (scan_step bounded kept inserted)
    · right
      obtain ⟨⟨⟨a, counted⟩, absent⟩, missing⟩ := Classical.not_imp.mp inserted
      obtain ⟨arrives, syn, source⟩ := synFrom_eq_some.mp counted
      rw [ScanInserted, Bool.not_eq_true, Option.isSome_eq_false_iff,
        Option.isNone_iff_eq_none] at missing
      refine ⟨?_, portSet_of_absent missing⟩
      obtain ⟨-, scanEq, actsEq⟩ := step_of_arrival arrives
      simp only [detectScan, syn, source, if_true] at scanEq actsEq
      have refused : ¬ Stores a.kernel.scanUpdate p.1.portScanMap := by
        intro stores
        have present := checkPortScan_lookup_isSome a.kernel a.cpu s a.seg.dstIp a.seg.dstPort
          (Or.inr stores)
        rw [← scanEq, missing] at present
        cases present
      rw [scanAlerts, actsEq, alertsOf_append, alertsOf_detectSyn,
        checkPortScan_refused a.kernel a.cpu s _ _ absent refused]
      rfl

/-! ## Runs from empty maps -/

section Run

variable (s : UInt32) (events : List Event)

theorem portSet_empty : portSet Maps.empty.portScanMap s = ∅ :=
  portSet_of_absent rfl

/-- The set of a source never holds more than 20 ports between two steps. -/
theorem portSet_card_le :
    (portSet (exec step Maps.empty events).portScanMap s).card ≤ 20 := by
  refine exec_invariant (P := fun maps : Maps => (portSet maps.portScanMap s).card ≤ 20) ?_ ?_
  · rw [portSet_empty]
    exact Nat.zero_le _
  · intro p _ bounded
    rcases scan_step_or_forgets bounded with marks | ⟨-, forgotten⟩
    · exact marks.card_le bounded
    · rw [forgotten]
      exact Nat.zero_le _

variable {s events}

/-- **Step lemma.** A step that marks an attempt adds to the set of the source
its attempt and earlier ones only, and empties the set with an alert. -/
theorem portSet_adds_attempts {run : List (Maps × Event)} {p : Maps × Event}
    (bounded : (portSet p.1.portScanMap s).card ≤ 20) (attempted : MarksAttempt s run p) :
    portSet (step p.1 p.2).portScanMap s ⊆
      if (scanAlerts s p).isEmpty then
        portSet p.1.portScanMap s ∪ ((attemptFrom s p).toFinset ∪ attemptsSinceAlert s run)
      else ∅ := by
  rcases scan_step_or_forgets bounded with marks | ⟨-, forgotten⟩
  · cases marked : lowPortFrom s p with
    | none =>
        obtain ⟨set, silent⟩ := marks.unchanged marked
        rw [set, silent]
        exact Finset.subset_union_left
    | some port =>
        obtain ⟨a, counted, atPort⟩ := Option.bind_eq_some_iff.mp marked
        obtain ⟨set, alerts⟩ := marks.marked a port counted atPort
        by_cases full : (insert port (portSet p.1.portScanMap s)).card = 21
        · rw [if_pos full] at set
          rw [set]
          exact Finset.empty_subset _
        · rw [if_neg full] at set alerts
          rw [set, alerts]
          refine Finset.insert_subset ?_ Finset.subset_union_left
          refine Finset.mem_union_right _ (Finset.mem_union.mpr ?_)
          exact (attempted port marked).imp Option.mem_toFinset.mpr id
  · rw [forgotten]
    exact Finset.empty_subset _

/-- **Run lemma.** The set of a source holds only ports that it has attempted
since its last type-2 event. -/
theorem portSet_subset_attempts
    (attempted : ∀ before event after, events = before ++ event :: after →
      MarksAttempt s (steps step Maps.empty before) (exec step Maps.empty before, event)) :
    portSet (exec step Maps.empty events).portScanMap s ⊆
      attemptsSinceAlert s (steps step Maps.empty events) := by
  refine view_subset_since (fun maps : Maps => portSet maps.portScanMap s) (portSet_empty s) ?_
  intro before event after split
  exact portSet_adds_attempts (p := (exec step Maps.empty before, event))
    (portSet_card_le s before) (attempted before event after split)

/-- A step with an alert has a port that makes the set reach 21 elements, and
all of them have been attempted. -/
theorem attempts_of_alert {run : List (Maps × Event)} {p : Maps × Event}
    (bounded : (portSet p.1.portScanMap s).card ≤ 20)
    (held : portSet p.1.portScanMap s ⊆ attemptsSinceAlert s run)
    (attempted : MarksAttempt s run p) (alert : scanAlerts s p ≠ []) :
    21 ≤ ((attemptFrom s p).toFinset ∪ attemptsSinceAlert s run).card := by
  rcases scan_step_or_forgets bounded with marks | ⟨silent, -⟩
  · cases marked : lowPortFrom s p with
    | none => exact absurd (marks.unchanged marked).2 alert
    | some port =>
        obtain ⟨a, counted, atPort⟩ := Option.bind_eq_some_iff.mp marked
        obtain ⟨-, alerts⟩ := marks.marked a port counted atPort
        have full : (insert port (portSet p.1.portScanMap s)).card = 21 := by
          by_contra small
          rw [if_neg small] at alerts
          exact alert alerts
        rw [← full]
        refine Finset.card_le_card (Finset.insert_subset ?_ ?_)
        · exact Finset.mem_union.mpr ((attempted port marked).imp Option.mem_toFinset.mpr id)
        · exact held.trans Finset.subset_union_right
  · exact absurd silent alert

/-- A source that attempts nothing in a run has no attempts since its last
type-2 event. -/
theorem attemptsSinceAlert_eq_empty {run : List (Maps × Event)}
    (nothing : ∀ p ∈ run, attemptFrom s p = none) : attemptsSinceAlert s run = ∅ := by
  refine Finset.eq_empty_of_forall_notMem fun port held => ?_
  obtain ⟨p, inRun, found⟩ := exists_of_mem_since _ _ held
  rw [nothing p inRun] at found
  cases found

end Run

/-- **Whom the alerts accuse.** In every run from empty maps in which each port
that the detector marks for a source is one that the source attempts with that
packet or has attempted since its last type-2 event: whenever a type-2 event
names the source, it has attempted at least 21 ports below 1024 since the one
before, and a source that attempts none is never named. -/
theorem accuses_scanners_only (s : UInt32) (events : List Event)
    (attempted : ∀ before event after, events = before ++ event :: after →
      MarksAttempt s (steps step Maps.empty before) (exec step Maps.empty before, event)) :
    (∀ before event after, events = before ++ event :: after →
      scanAlerts s (exec step Maps.empty before, event) ≠ [] →
      21 ≤ ((attemptFrom s (exec step Maps.empty before, event)).toFinset ∪
        attemptsSinceAlert s (steps step Maps.empty before)).card) ∧
      ((∀ p ∈ steps step Maps.empty events, attemptFrom s p = none) →
        ∀ p ∈ steps step Maps.empty events, scanAlerts s p = []) := by
  have every : ∀ before event after, events = before ++ event :: after →
      scanAlerts s (exec step Maps.empty before, event) ≠ [] →
      21 ≤ ((attemptFrom s (exec step Maps.empty before, event)).toFinset ∪
        attemptsSinceAlert s (steps step Maps.empty before)).card := by
    intro before event after split alert
    have sofar : ∀ first e rest, before = first ++ e :: rest →
        MarksAttempt s (steps step Maps.empty first) (exec step Maps.empty first, e) := by
      intro first e rest inner
      refine attempted first e (rest ++ event :: after) ?_
      rw [split, inner, List.append_assoc, List.cons_append]
    exact attempts_of_alert (p := (exec step Maps.empty before, event)) (portSet_card_le s before)
      (portSet_subset_attempts sofar) (attempted before event after split) alert
  refine ⟨every, fun nothing p member => ?_⟩
  by_contra alert
  obtain ⟨before, after, split, state⟩ := exists_split_of_mem_steps step member
  obtain ⟨maps, event⟩ := p
  obtain rfl : maps = exec step Maps.empty before := state
  have enough := every before event after split alert
  have earlier : ∀ p ∈ steps step Maps.empty before, attemptFrom s p = none := by
    intro q inBefore
    refine nothing q ?_
    rw [split, steps_append]
    exact List.mem_append_left _ inBefore
  rw [nothing _ member, attemptsSinceAlert_eq_empty earlier] at enough
  exact absurd enough (by decide)

/-! ## Scanners and hosts that answer -/

/-- Frames from 10.0.0.1 to the ports 1 to `n` of 10.0.0.2, with given flags. -/
def sweep (flags : UInt8) (n : ℕ) : List Event :=
  (List.range n).map fun i =>
    .packet 0 (Frame.ofTcp ⟨10, 0, 0, 1⟩ ⟨10, 0, 0, 2⟩ 0 (UInt8.ofNat (i + 1)) flags) (.ready 0)

/-- Every packet of a scan is an attempt to the port that it marks. -/
theorem marksAttempt_of_scan {s : UInt32} {run : List (Maps × Event)} {maps : Maps} {event : Event}
    {n : ℕ} (member : event ∈ sweep 0x02 n) : MarksAttempt s run (maps, event) := by
  obtain ⟨i, -, rfl⟩ := List.mem_map.mp member
  have version : (0x45 : UInt8).toNat / 16 = 4 := by decide
  have plain : (0x45 : UInt8).toNat % 16 = 5 := by decide
  have clear : (0x02 : UInt8).toNat.testBit 4 = false := by decide
  intro port marked
  exact Or.inl (attemptFrom_of_plain version plain rfl clear marked)

/-- A scan of 21 ports is accused by its last packet, and has attempted all of
them. -/
theorem scanner_is_accused :
    let s := Quad.le ⟨10, 0, 0, 1⟩
    let before := sweep 0x02 20
    let last := Event.packet 0 (Frame.ofTcp ⟨10, 0, 0, 1⟩ ⟨10, 0, 0, 2⟩ 0 21 0x02) (.ready 0)
    scanAlerts s (exec step Maps.empty before, last) ≠ [] ∧
      21 ≤ ((attemptFrom s (exec step Maps.empty before, last)).toFinset ∪
        attemptsSinceAlert s (steps step Maps.empty before)).card := by
  intro s before last
  have alert : scanAlerts s (exec step Maps.empty before, last) ≠ [] := by decide +kernel
  refine ⟨alert, (accuses_scanners_only s (before ++ [last]) ?_).1 before last [] rfl alert⟩
  intro first event after split
  have member : event ∈ sweep 0x02 21 := by
    rw [show sweep 0x02 21 = before ++ [last] from rfl, split]
    exact List.mem_append_right _ List.mem_cons_self
  exact marksAttempt_of_scan member

/-- A host that answers 21 attempts, made from the ports 1 to 21 of its peer, is
named by a type-2 event and has attempted nothing. -/
theorem answers_are_accused :
    let s := Quad.le ⟨10, 0, 0, 1⟩
    let run := steps step Maps.empty (sweep 0x12 21)
    (∀ p ∈ run, attemptFrom s p = none) ∧
      run.flatMap (scanAlerts s) = [⟨s, Quad.le ⟨10, 0, 0, 2⟩, 2, 0⟩] := by
  decide +kernel

end EbpfNids.DataPlane
