import EbpfNids.DataPlane.SynFlood
import EbpfNids.DataPlane.PortScan

/-!
# What a full ring buffer loses

Both detectors output their alert and then start over, and neither reads what
`bpf_ringbuf_output` returned. When the ring buffer does not take the record,
the detection is gone: the counter is zero, the bitmap is empty, and nothing
says that the threshold was exceeded.

`acts_of_arrival` says which of these records a packet leaves. It follows that
the detections of a run are all placed exactly when the ring buffer takes the
record of every packet that crosses a threshold (`detections_placed_iff`).
-/

set_option autoImplicit false

namespace EbpfNids.DataPlane

open Library Library.Runs

/-! ## Crossing a threshold -/

/-- The packet is a pure SYN that takes the counter of its source over the
threshold. -/
def SynCrosses (m : SynCounter) (a : Arrival) : Prop :=
  a.seg.pureSyn = true ∧ slot m a.seg.srcIp a.cpu + 1 > synThreshold

/-- The packet is a SYN to a low port that takes the set of its source over the
threshold. -/
def ScanCrosses (m : PortScanMap) (a : Arrival) : Prop :=
  ∃ port, a.seg.lowPort = some port ∧
    (insert port (portSet m a.seg.srcIp)).card > portScanThreshold

/-- The alert that the SYN-flood detector outputs for a packet. -/
def synAlert (a : Arrival) : AlertEvent := ⟨a.seg.srcIp, a.seg.dstIp, 1, a.kernel.synTime⟩

/-- The alert that the port-scan detector outputs for a packet. -/
def scanAlert (a : Arrival) : AlertEvent := ⟨a.seg.srcIp, a.seg.dstIp, 2, a.kernel.scanTime⟩

/-! ## The records of one packet -/

/-- The SYN-flood detector outputs its alert and starts over when the packet
crosses the threshold, and does neither otherwise. -/
theorem mem_detectSyn_acts {a : Arrival} {m : SynCounter} {act : Act}
    (notCall : ∀ srcIp dstIp, act ≠ .checkSynFlood srcIp dstIp) :
    act ∈ (detectSyn a.kernel a.cpu a.seg m).2 ↔
      SynCrosses m a ∧ (act = .bpfRingbufOutput a.cpu (synAlert a) a.kernel.synOutput ∨
        act = .counterReset a.cpu a.seg.srcIp) := by
  rw [SynCrosses, detectSyn]
  cases pure : a.seg.pureSyn with
  | false => simp
  | true =>
      simp only [if_true, true_and]
      cases found : m.lookup a.seg.srcIp with
      | none =>
          rw [(checkSynFlood_absent a.kernel a.cpu _ a.seg.dstIp found).2]
          have zero : slot m a.seg.srcIp a.cpu = 0 := by simp [slot, found]
          have short : ¬ (0 : UInt64) + 1 > synThreshold := by decide
          rw [zero, List.mem_singleton]
          exact iff_of_false (notCall _ _) fun crossed => short crossed.1
      | some counts =>
          rw [(checkSynFlood_present a.kernel a.cpu _ a.seg.dstIp found).2]
          have stored : slot m a.seg.srcIp a.cpu = counts a.cpu := by simp [slot, found]
          rw [stored]
          by_cases exceeds : counts a.cpu + 1 > synThreshold
          · simp [exceeds, notCall, synAlert]
          · simp [exceeds, notCall]

theorem detectScan_refused_acts {a : Arrival} {m : PortScanMap} {port : ℕ}
    (absent : m.lookup a.seg.srcIp = none) :
    ¬ (insert port (portSet m a.seg.srcIp)).card > portScanThreshold := by
  have one : (insert port (portSet m a.seg.srcIp)).card ≤ (portSet m a.seg.srcIp).card + 1 :=
    Finset.card_insert_le ..
  have zero : (portSet m a.seg.srcIp).card = 0 := by
    rw [portSet_of_absent absent, Finset.card_empty]
  rw [portScanThreshold]
  omega

/-- The port-scan detector outputs its alert and starts over when the packet
crosses the threshold, and does neither otherwise. -/
theorem mem_detectScan_acts {a : Arrival} {m : PortScanMap} {act : Act}
    (notCall : ∀ srcIp dstIp dstPort, act ≠ .checkPortScan srcIp dstIp dstPort) :
    act ∈ (detectScan a.kernel a.cpu a.seg m).2 ↔
      ScanCrosses m a ∧ (act = .bpfRingbufOutput a.cpu (scanAlert a) a.kernel.scanOutput ∨
        act = .bitmapClear a.seg.srcIp) := by
  rw [ScanCrosses, detectScan]
  cases syn : a.seg.syn with
  | false => simp [lowPort_eq_some, syn]
  | true =>
      simp only [if_true, lowPort_eq_some, syn, true_and]
      by_cases here : (m.lookup a.seg.srcIp).isSome ∨ Stores a.kernel.scanUpdate m
      · by_cases low : a.seg.dstPort.toNat < 1024
        · rw [(checkPortScan_low a.kernel a.cpu _ a.seg.dstIp _ here low).2]
          by_cases exceeds : (insert a.seg.dstPort.toNat (portSet m a.seg.srcIp)).card >
              portScanThreshold
          · rw [if_pos exceeds]
            simp only [List.mem_cons, notCall, false_or, List.not_mem_nil, or_false]
            exact ⟨fun member => ⟨⟨_, ⟨low, rfl⟩, exceeds⟩, member⟩, And.right⟩
          · rw [if_neg exceeds]
            constructor
            · intro member
              exact absurd (List.mem_singleton.mp member) (notCall _ _ _)
            · rintro ⟨⟨port, ⟨-, rfl⟩, crossed⟩, -⟩
              exact absurd crossed exceeds
        · rw [(checkPortScan_high a.kernel a.cpu _ a.seg.dstIp _ here low).2]
          simp [notCall, low]
      · obtain ⟨absent, refused⟩ := not_or.mp here
        have absent := Option.not_isSome_iff_eq_none.mp absent
        rw [checkPortScan_refused a.kernel a.cpu _ _ _ absent refused]
        constructor
        · intro member
          exact absurd (List.mem_singleton.mp member) (notCall _ _ _)
        · rintro ⟨⟨port, -, crossed⟩, -⟩
          exact absurd crossed (detectScan_refused_acts absent)

/-- **The records of a packet.** A detector outputs its alert, with the answer
of the ring buffer, and starts over when the packet crosses its threshold. -/
theorem acts_of_arrival {p : Maps × Event} {a : Arrival} (arrives : arrival p = some a) :
    (∀ cpu evt placed, .bpfRingbufOutput cpu evt placed ∈ acts p ↔
      (SynCrosses p.1.synCounter a ∧ cpu = a.cpu ∧ evt = synAlert a ∧
          placed = a.kernel.synOutput) ∨
        (ScanCrosses p.1.portScanMap a ∧ cpu = a.cpu ∧ evt = scanAlert a ∧
          placed = a.kernel.scanOutput)) ∧
      (∀ cpu src, .counterReset cpu src ∈ acts p ↔
        SynCrosses p.1.synCounter a ∧ cpu = a.cpu ∧ src = a.seg.srcIp) ∧
      (∀ src, .bitmapClear src ∈ acts p ↔
        ScanCrosses p.1.portScanMap a ∧ src = a.seg.srcIp) := by
  rw [(step_of_arrival arrives).2.2]
  refine ⟨?_, ?_, ?_⟩
  · intro cpu evt placed
    rw [List.mem_append, mem_detectSyn_acts (by simp), mem_detectScan_acts (by simp)]
    simp
  · intro cpu src
    rw [List.mem_append, mem_detectSyn_acts (by simp), mem_detectScan_acts (by simp)]
    simp
  · intro src
    rw [List.mem_append, mem_detectSyn_acts (by simp), mem_detectScan_acts (by simp)]
    simp

/-! ## Detections in a run -/

/-- Whenever the step resets a counter or clears a bitmap, it has placed the
alert that names the source in the ring buffer. -/
def DetectionsPlaced (p : Maps × Event) : Prop :=
  (∀ cpu src, .counterReset cpu src ∈ acts p →
    ∃ evt, .bpfRingbufOutput cpu evt true ∈ acts p ∧ evt.alertType = 1 ∧ evt.srcIp = src) ∧
  (∀ src, .bitmapClear src ∈ acts p →
    ∃ cpu evt, .bpfRingbufOutput cpu evt true ∈ acts p ∧ evt.alertType = 2 ∧ evt.srcIp = src)

/-- The ring buffer has room for every alert that the packet is about to cause. -/
def RingHasRoom (p : Maps × Event) : Prop :=
  ∀ a, arrival p = some a →
    (SynCrosses p.1.synCounter a → a.kernel.synOutput = true) ∧
      (ScanCrosses p.1.portScanMap a → a.kernel.scanOutput = true)

/-- One step. -/
theorem detectionsPlaced_iff_ringHasRoom (p : Maps × Event) :
    DetectionsPlaced p ↔ RingHasRoom p := by
  cases arrives : arrival p with
  | none =>
      have silent := (step_of_no_arrival arrives 0).1
      simp [DetectionsPlaced, RingHasRoom, arrives, silent]
  | some a =>
      obtain ⟨outputs, resets, clears⟩ := acts_of_arrival arrives
      constructor
      · rintro ⟨counters, bitmaps⟩ b arrivesToo
        obtain rfl : a = b := Option.some.inj (arrives.symm.trans arrivesToo)
        constructor
        · intro crosses
          obtain ⟨evt, placed, type, -⟩ := counters a.cpu a.seg.srcIp
            ((resets _ _).mpr ⟨crosses, rfl, rfl⟩)
          rcases (outputs _ _ _).mp placed with ⟨-, -, -, room⟩ | ⟨-, -, rfl, -⟩
          · exact room.symm
          · cases type
        · intro crosses
          obtain ⟨cpu, evt, placed, type, -⟩ := bitmaps a.seg.srcIp
            ((clears _).mpr ⟨crosses, rfl⟩)
          rcases (outputs _ _ _).mp placed with ⟨-, -, rfl, -⟩ | ⟨-, -, -, room⟩
          · cases type
          · exact room.symm
      · intro room
        obtain ⟨synRoom, scanRoom⟩ := room a arrives
        refine ⟨fun cpu src reset => ?_, fun src cleared => ?_⟩
        · obtain ⟨crosses, rfl, rfl⟩ := (resets cpu src).mp reset
          exact ⟨synAlert a,
            (outputs _ _ _).mpr (Or.inl ⟨crosses, rfl, rfl, (synRoom crosses).symm⟩), rfl, rfl⟩
        · obtain ⟨crosses, rfl⟩ := (clears src).mp cleared
          exact ⟨a.cpu, scanAlert a,
            (outputs _ _ _).mpr (Or.inr ⟨crosses, rfl, rfl, (scanRoom crosses).symm⟩), rfl, rfl⟩

/-- **No detection of a run is lost exactly when the ring buffer has room
whenever a packet crosses a threshold.** -/
theorem detections_placed_iff (start : Maps) (events : List Event) :
    (∀ p ∈ steps step start events, DetectionsPlaced p) ↔
      ∀ p ∈ steps step start events, RingHasRoom p := by
  constructor
  · intro placed p member
    exact (detectionsPlaced_iff_ringHasRoom p).mp (placed p member)
  · intro room p member
    exact (detectionsPlaced_iff_ringHasRoom p).mpr (room p member)

/-- The 101st of a run of pure SYNs from one source crosses the threshold,
wherever the records go. -/
theorem flood_crosses {kernel : Kernel} (allocates : kernel.synUpdate = true) :
    ∃ p ∈ steps step Maps.empty (List.replicate 101 (Event.packet 0 synFrame kernel)),
      arrival p = some ⟨0, kernel, synSegment⟩ ∧
        SynCrosses p.1.synCounter ⟨0, kernel, synSegment⟩ := by
  let before := List.replicate 100 (Event.packet 0 synFrame kernel)
  have split : List.replicate 101 (Event.packet 0 synFrame kernel) =
      before ++ [Event.packet 0 synFrame kernel] := List.replicate_succ' (n := 100)
  have hundred : slot (exec step Maps.empty before).synCounter synSegment.srcIp 0 = 100 :=
    UInt64.toNat_inj.mp (flood_counts 0 100 inspected_synFrame rfl allocates).1
  have noEntry : (exec step Maps.empty before).blacklist = .empty := by
    apply exec_invariant (P := fun maps : Maps => maps.blacklist = .empty) rfl
    intro p member same
    have packet := List.eq_of_mem_replicate (event_mem_of_mem_steps step member)
    rw [packet, step, xdpFirewall_blacklist, same]
  refine ⟨(exec step Maps.empty before, .packet 0 synFrame kernel), ?_, ?_, rfl, ?_⟩
  · rw [split, steps_append]
    exact List.mem_append_right _ List.mem_cons_self
  · exact arrival_synFrame 0 kernel noEntry
  · rw [hundred]
    decide

/-- A kernel whose ring buffer is full. -/
def Kernel.ringFull (time : UInt64) : Kernel :=
  { Kernel.ready time with synOutput := false, scanOutput := false }

/-- The 101st pure SYN of 10.0.0.1 resets the counter while the ring buffer is
full: the counter is zero again and no alert has been placed in the whole run. -/
theorem detection_lost_in_flood :
    let events := List.replicate 101 (Event.packet 0 synFrame (.ringFull 0))
    ¬ (∀ p ∈ steps step Maps.empty events, DetectionsPlaced p) ∧
      slot (exec step Maps.empty events).synCounter synSegment.srcIp 0 = 0 ∧
      ∀ p ∈ steps step Maps.empty events, ∀ cpu evt, .bpfRingbufOutput cpu evt true ∉ acts p := by
  intro events
  have allocates : (Kernel.ringFull 0).synUpdate = true := rfl
  have neverPlaced : ∀ p ∈ steps step Maps.empty events,
      ∀ cpu evt, .bpfRingbufOutput cpu evt true ∉ acts p := by
    intro p member cpu evt output
    have isPacket := List.eq_of_mem_replicate (event_mem_of_mem_steps step member)
    cases arrives : arrival p with
    | none =>
        rw [(step_of_no_arrival arrives 0).1] at output
        cases output
    | some a =>
        have kernelEq : a.kernel = .ringFull 0 := by
          rw [arrival, isPacket] at arrives
          obtain ⟨seg, -, rfl⟩ := Option.map_eq_some_iff.mp arrives
          rfl
        rcases ((acts_of_arrival arrives).1 _ _ _).mp output with
          ⟨-, -, -, room⟩ | ⟨-, -, -, room⟩
        · rw [kernelEq] at room
          cases room
        · rw [kernelEq] at room
          cases room
  refine ⟨?_, ?_, neverPlaced⟩
  · intro placed
    obtain ⟨p, member, arrives, crosses⟩ := flood_crosses allocates
    have reset := ((acts_of_arrival arrives).2.1 0 _).mpr ⟨crosses, rfl, rfl⟩
    obtain ⟨evt, output, -⟩ := (placed p member).1 _ _ reset
    exact neverPlaced p member _ _ output
  · exact UInt64.toNat_inj.mp (flood_counts 0 101 inspected_synFrame rfl allocates).1

end EbpfNids.DataPlane
