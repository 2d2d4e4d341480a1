import EbpfNids.Library.TwoRuns
import EbpfNids.DataPlane.RingLoss

/-!
# What other sources can do to the alerts of one

The alerts that name a source are determined by the packets of the source, its
`blacklist` entry when they arrive, and one thing more: which of them had the
insertion of the source refused. Everything else that other sources do is
hidden from the two entries of the source (`alerts_of_same_sightings`).

A refusal is how other sources reach it. `syn_counter` and `port_scan_map` hold
at most `STATS_SIZE` entries and evict none, so once that many other sources
have an entry a new source is never counted. With fewer of them nothing is
refused (`not_refused_of_fewSources`).
-/

set_option autoImplicit false

namespace EbpfNids.DataPlane

open Library Library.Runs

/-! ## What is seen of a source -/

/-- The source address of a frame with a complete IPv4 header. -/
def sourceOf (frame : Frame) : Option UInt32 :=
  if frame.isIp = true ∧ Frame.ethhdrSize + Frame.iphdrSize ≤ frame.length then some frame.saddr
  else none

/-- A pure SYN of the source finds no entry in `syn_counter`, and leaves none. -/
def synRefused (s : UInt32) (p : Maps × Event) : Bool :=
  (arrival p).any fun a => a.seg.pureSyn && a.seg.srcIp == s &&
    (p.1.synCounter.lookup s).isNone && ((step p.1 p.2).synCounter.lookup s).isNone

/-- A SYN of the source finds no entry in `port_scan_map`, and leaves none. -/
def scanRefused (s : UInt32) (p : Maps × Event) : Bool :=
  (arrival p).any fun a => a.seg.syn && a.seg.srcIp == s &&
    (p.1.portScanMap.lookup s).isNone && ((step p.1 p.2).portScanMap.lookup s).isNone

/-- A packet of a source: the frame, the `blacklist` entry of the source when it
arrives, and whether the insertion of the source was refused. -/
structure Sighting where
  frame : Frame
  entry : Option UInt8
  synRefused : Bool
  scanRefused : Bool
deriving DecidableEq, Repr

def sighting (s : UInt32) (p : Maps × Event) : Option Sighting :=
  match p.2 with
  | .packet _ frame _ =>
      if sourceOf frame = some s then
        some ⟨frame, p.1.blacklist.lookup s, synRefused s p, scanRefused s p⟩
      else none
  | _ => none

/-- The source, the destination and the type of the events of a record that name
a source. -/
def keysOf (s : UInt32) (record : List Act) : List (UInt32 × UInt32 × UInt8) :=
  record.filterMap fun act =>
    match act with
    | .bpfRingbufOutput _ evt _ =>
        if evt.srcIp = s then some (evt.srcIp, evt.dstIp, evt.alertType) else none
    | _ => none

def alertKeys (s : UInt32) (p : Maps × Event) : List (UInt32 × UInt32 × UInt8) :=
  keysOf s (acts p)

/-- The counter of a source on a CPU and its bitmap. -/
def entriesOf (s : UInt32) (c : Cpu) (maps : Maps) : Option UInt64 × Option PortBitmap :=
  ((maps.synCounter.lookup s).map fun counts => counts c, maps.portScanMap.lookup s)

/-- The packets of a source in a run, each with the `blacklist` entry it meets. -/
def packetsOf (s : UInt32) (run : List (Maps × Event)) : List (Frame × Option UInt8) :=
  (run.filterMap (sighting s)).map fun o => (o.frame, o.entry)

/-- For each of them, whether `syn_counter` and `port_scan_map` refused the source. -/
def refusalsOf (s : UInt32) (run : List (Maps × Event)) : List (Bool × Bool) :=
  (run.filterMap (sighting s)).map fun o => (o.synRefused, o.scanRefused)

/-- Packets on one CPU, and changes of `blacklist`. -/
def PacketRun (c : Cpu) (events : List Event) : Prop :=
  ∀ event ∈ events,
    match event with
    | .packet cpu _ _ => cpu = c
    | .blacklistUpdate _ _ => True
    | .mapDelete map _ => map = .blacklist

/-! ## The detectors on equal entries -/

section Detectors

variable {k₁ k₂ : Kernel} {c : Cpu} {seg : Segment} {s : UInt32}

/-- The SYN-flood detector on two maps with the same counter of the source, both
of which take it or refuse it. -/
theorem detectSyn_determined {m₁ m₂ : SynCounter} (own : seg.srcIp = s)
    (same : ((m₁.lookup s).map fun counts => counts c) =
      (m₂.lookup s).map fun counts => counts c)
    (stored : seg.pureSyn = true → m₁.lookup s = none →
      (Stores k₁.synUpdate m₁ ↔ Stores k₂.synUpdate m₂)) :
    (((detectSyn k₁ c seg m₁).1.lookup s).map fun counts => counts c) =
        (((detectSyn k₂ c seg m₂).1.lookup s).map fun counts => counts c) ∧
      keysOf s (detectSyn k₁ c seg m₁).2 = keysOf s (detectSyn k₂ c seg m₂).2 := by
  cases pure : seg.pureSyn with
  | false => simpa [detectSyn, pure] using same
  | true =>
      subst own
      simp only [detectSyn, pure, if_true]
      cases found₁ : m₁.lookup seg.srcIp with
      | none =>
          have found₂ : m₂.lookup seg.srcIp = none := by simpa [found₁] using same.symm
          obtain ⟨map₁, acts₁⟩ := checkSynFlood_absent k₁ c _ seg.dstIp found₁
          obtain ⟨map₂, acts₂⟩ := checkSynFlood_absent k₂ c _ seg.dstIp found₂
          rw [map₁, map₂, acts₁, acts₂,
            bpfMapUpdateElem_determined _ found₁ found₂ (stored pure found₁)]
          exact ⟨rfl, rfl⟩
      | some counts₁ =>
          obtain ⟨counts₂, found₂, value⟩ : ∃ counts, m₂.lookup seg.srcIp = some counts ∧
              counts c = counts₁ c := by
            simpa [found₁] using same.symm
          obtain ⟨map₁, acts₁⟩ := checkSynFlood_present k₁ c _ seg.dstIp found₁
          obtain ⟨map₂, acts₂⟩ := checkSynFlood_present k₂ c _ seg.dstIp found₂
          rw [map₁, map₂, acts₁, acts₂, value]
          refine ⟨by simp, ?_⟩
          split
          · simp [keysOf]
          · rfl

/-- The port-scan detector on two maps with the same bitmap of the source, both
of which take it or refuse it. -/
theorem detectScan_determined {m₁ m₂ : PortScanMap} (own : seg.srcIp = s)
    (same : m₁.lookup s = m₂.lookup s)
    (stored : seg.syn = true → m₁.lookup s = none →
      (Stores k₁.scanUpdate m₁ ↔ Stores k₂.scanUpdate m₂)) :
    (detectScan k₁ c seg m₁).1.lookup s = (detectScan k₂ c seg m₂).1.lookup s ∧
      keysOf s (detectScan k₁ c seg m₁).2 = keysOf s (detectScan k₂ c seg m₂).2 := by
  cases syn : seg.syn with
  | false => simpa [detectScan, syn, keysOf] using same
  | true =>
      subst own
      simp only [detectScan, syn, if_true]
      have entry : (withEntry k₁ seg.srcIp m₁).lookup seg.srcIp =
          (withEntry k₂ seg.srcIp m₂).lookup seg.srcIp := by
        rw [withEntry, withEntry, ← same]
        cases found₁ : m₁.lookup seg.srcIp with
        | some bitmap => rw [found₁, ← same, found₁]
        | none =>
            have found₂ : m₂.lookup seg.srcIp = none := same ▸ found₁
            exact bpfMapUpdateElem_determined _ found₁ found₂ (stored syn found₁)
      rw [checkPortScan_eq, checkPortScan_eq, markPort, markPort, ← entry]
      cases found : (withEntry k₁ seg.srcIp m₁).lookup seg.srcIp with
      | none => exact ⟨by rw [← entry], rfl⟩
      | some bitmap =>
          dsimp only
          split
          · split
            · exact ⟨by rw [BoundedMap.lookup_modify_self, BoundedMap.lookup_modify_self, entry],
                by simp [keysOf]⟩
            · exact ⟨by rw [BoundedMap.lookup_modify_self, BoundedMap.lookup_modify_self, entry],
                rfl⟩
          · exact ⟨entry, rfl⟩

end Detectors

/-! ## One step -/

theorem arrival_eq_some {p : Maps × Event} {a : Arrival} (arrives : arrival p = some a) :
    ∃ frame, p.2 = .packet a.cpu frame a.kernel ∧
      inspected p.1.blacklist frame = some a.seg ∧ sourceOf frame = some a.seg.srcIp := by
  obtain ⟨maps, event⟩ := p
  cases event with
  | packet cpu frame kernel =>
      obtain ⟨seg, inside, rfl⟩ := Option.map_eq_some_iff.mp arrives
      refine ⟨frame, rfl, inside, ?_⟩
      rw [inspected] at inside
      split at inside
      · rename_i inspects
        obtain ⟨ip, -, -, complete⟩ := inspects
        cases inside
        exact if_pos ⟨ip, by omega⟩
      · cases inside
  | blacklistUpdate key value => cases arrives
  | mapDelete map key => cases arrives

theorem sighting_eq_some {s : UInt32} {p : Maps × Event} {o : Sighting}
    (seen : sighting s p = some o) :
    ∃ cpu kernel, p.2 = .packet cpu o.frame kernel ∧ sourceOf o.frame = some s ∧
      p.1.blacklist.lookup s = o.entry ∧ synRefused s p = o.synRefused ∧
        scanRefused s p = o.scanRefused := by
  obtain ⟨maps, event⟩ := p
  cases event with
  | packet cpu frame kernel =>
      simp only [sighting] at seen
      split at seen
      · rename_i source
        cases seen
        exact ⟨cpu, kernel, rfl, source, rfl, rfl, rfl⟩
      · cases seen
  | blacklistUpdate key value => cases seen
  | mapDelete map key => cases seen

/-- The detectors of a packet of another source do not touch the entries of a
source, and no event of the packet names it. -/
theorem step_of_other_source {s : UInt32} {p : Maps × Event} {a : Arrival} (c : Cpu)
    (arrives : arrival p = some a) (different : a.seg.srcIp ≠ s) :
    entriesOf s c (step p.1 p.2) = entriesOf s c p.1 ∧ alertKeys s p = [] := by
  obtain ⟨synEq, scanEq, -⟩ := step_of_arrival arrives
  have synEntry := (detectSyn_other a.kernel a.cpu c p.1.synCounter
    fun own => different own.2).1
  have scanEntry := (detectScan_other a.kernel a.cpu p.1.portScanMap
    fun own => different own.2).1
  refine ⟨by rw [entriesOf, synEq, scanEq, synEntry, scanEntry, entriesOf], ?_⟩
  apply List.filterMap_eq_nil_iff.mpr
  intro act member
  cases act with
  | bpfRingbufOutput cpu evt placed =>
      have source : evt.srcIp = a.seg.srcIp := by
        rcases ((acts_of_arrival arrives).1 _ _ _).mp member with
          ⟨-, -, rfl, -⟩ | ⟨-, -, rfl, -⟩
        · rfl
        · rfl
      exact if_neg (source ▸ different)
  | _ => rfl

/-- A step that no packet takes to the detectors keeps the entries of a source. -/
theorem step_of_no_packet {s : UInt32} {p : Maps × Event} (c : Cpu) (outside : arrival p = none)
    (kept : p.2 ≠ .mapDelete .synCounter s ∧ p.2 ≠ .mapDelete .portScanMap s) :
    entriesOf s c (step p.1 p.2) = entriesOf s c p.1 ∧ alertKeys s p = [] := by
  obtain ⟨silent, syn, scan⟩ := step_of_no_arrival outside s
  constructor
  · rw [entriesOf, syn kept.1, scan kept.2, entriesOf]
  · rw [alertKeys, silent]
    rfl

/-- A step that is no packet of the source is hidden from its entries. -/
theorem hidden_step {s : UInt32} {c : Cpu} {p : Maps × Event}
    (kept : p.2 ≠ .mapDelete .synCounter s ∧ p.2 ≠ .mapDelete .portScanMap s) :
    TwoRuns.Hidden step (entriesOf s c) (sighting s) (alertKeys s) p := by
  intro unseen
  cases arrives : arrival p with
  | none => exact step_of_no_packet c arrives kept
  | some a =>
      obtain ⟨frame, packet, -, source⟩ := arrival_eq_some arrives
      apply step_of_other_source c arrives
      intro own
      rw [sighting, packet] at unseen
      simp [source, own] at unseen

theorem synRefused_iff {s : UInt32} {p : Maps × Event} {a : Arrival}
    (arrives : arrival p = some a) (pure : a.seg.pureSyn = true) (source : a.seg.srcIp = s)
    (absent : p.1.synCounter.lookup s = none) :
    synRefused s p = true ↔ ¬ Stores a.kernel.synUpdate p.1.synCounter := by
  subst source
  have after := (step_of_arrival arrives).1
  simp only [detectSyn, pure, if_true] at after
  rw [(checkSynFlood_absent a.kernel a.cpu _ a.seg.dstIp absent).1] at after
  simp only [synRefused, arrives, Option.any_some, pure, absent, after, beq_self_eq_true,
    Option.isNone_none, Bool.and_true, Bool.true_and]
  by_cases room : Stores a.kernel.synUpdate p.1.synCounter
  · simp [bpfMapUpdateElem_stored room absent, room]
  · simp [bpfMapUpdateElem_refused room absent, absent, room]

theorem scanRefused_iff {s : UInt32} {p : Maps × Event} {a : Arrival}
    (arrives : arrival p = some a) (syn : a.seg.syn = true) (source : a.seg.srcIp = s)
    (absent : p.1.portScanMap.lookup s = none) :
    scanRefused s p = true ↔ ¬ Stores a.kernel.scanUpdate p.1.portScanMap := by
  subst source
  have after := (step_of_arrival arrives).2.1
  simp only [detectScan, syn, if_true] at after
  simp only [scanRefused, arrives, Option.any_some, syn, absent, after, beq_self_eq_true,
    Option.isNone_none, Bool.and_true, Bool.true_and]
  by_cases room : Stores a.kernel.scanUpdate p.1.portScanMap
  · have present := checkPortScan_lookup_isSome a.kernel a.cpu a.seg.srcIp a.seg.dstIp
      a.seg.dstPort (Or.inr room)
    simp [Option.isSome_iff_ne_none.mp present, room]
  · rw [checkPortScan_refused a.kernel a.cpu _ _ _ absent room]
    simp [absent, room]

theorem inspected_congr {b₁ b₂ : Blacklist} {frame : Frame}
    (same : b₁.lookup frame.saddr = b₂.lookup frame.saddr) :
    inspected b₁ frame = inspected b₂ frame := by
  have inspects : Inspects b₁ frame ↔ Inspects b₂ frame := by rw [Inspects, same, Inspects]
  by_cases yes : Inspects b₁ frame
  · rw [inspected, if_pos yes, inspected, if_pos (inspects.mp yes)]
  · rw [inspected, if_neg yes, inspected, if_neg (mt inspects.mpr yes)]

/-- A packet of the source does the same from equal entries. -/
theorem determined_step {s : UInt32} {c : Cpu} {p q : Maps × Event}
    (onCpu : ∀ cpu frame kernel, p.2 = .packet cpu frame kernel → cpu = c)
    (onCpu' : ∀ cpu frame kernel, q.2 = .packet cpu frame kernel → cpu = c) :
    TwoRuns.Determined step (entriesOf s c) (sighting s) (alertKeys s) p q := by
  intro o seen seen' entries
  obtain ⟨cpu, kernel, packet, source, entry, syn, scan⟩ := sighting_eq_some seen
  obtain ⟨cpu', kernel', packet', -, entry', syn', scan'⟩ := sighting_eq_some seen'
  obtain rfl := onCpu _ _ _ packet
  obtain rfl := onCpu' _ _ _ packet'
  have address : o.frame.saddr = s := by
    rw [sourceOf] at source
    split at source
    · exact Option.some.inj source
    · cases source
  have same : inspected p.1.blacklist o.frame = inspected q.1.blacklist o.frame :=
    inspected_congr (by rw [address, entry, entry'])
  obtain ⟨synSame, scanSame⟩ := Prod.mk.inj entries
  cases inside : inspected p.1.blacklist o.frame with
  | none =>
      have outside : arrival p = none := by rw [arrival, packet]; simp [inside]
      have outside' : arrival q = none := by rw [arrival, packet']; simp [← same, inside]
      have noDelete : ∀ {event cpu frame answers map}, event = Event.packet cpu frame answers →
          event ≠ .mapDelete map s := by
        rintro _ cpu frame answers map rfl deleted
        cases deleted
      obtain ⟨kept, silent⟩ := step_of_no_packet cpu' outside ⟨noDelete packet, noDelete packet⟩
      obtain ⟨kept', silent'⟩ :=
        step_of_no_packet cpu' outside' ⟨noDelete packet', noDelete packet'⟩
      exact ⟨kept.trans (entries.trans kept'.symm), silent.trans silent'.symm⟩
  | some seg =>
      have arrives : arrival p = some ⟨cpu', kernel, seg⟩ := by rw [arrival, packet]; simp [inside]
      have arrives' : arrival q = some ⟨cpu', kernel', seg⟩ := by
        rw [arrival, packet']
        simp [← same, inside]
      obtain ⟨frame, packetEq, -, sourceEq⟩ := arrival_eq_some arrives
      have own : seg.srcIp = s := by
        rw [packet] at packetEq
        cases packetEq
        exact Option.some.inj (sourceEq.symm.trans source)
      obtain ⟨synEq, scanEq, record⟩ := step_of_arrival arrives
      obtain ⟨synEq', scanEq', record'⟩ := step_of_arrival arrives'
      have synStored : seg.pureSyn = true → p.1.synCounter.lookup s = none →
          (Stores kernel.synUpdate p.1.synCounter ↔ Stores kernel'.synUpdate q.1.synCounter) := by
        intro pure absent
        have absent' : q.1.synCounter.lookup s = none := by simpa [absent] using synSame.symm
        rw [← not_iff_not, ← synRefused_iff arrives pure own absent,
          ← synRefused_iff arrives' pure own absent', syn, syn']
      have scanStored : seg.syn = true → p.1.portScanMap.lookup s = none →
          (Stores kernel.scanUpdate p.1.portScanMap ↔
            Stores kernel'.scanUpdate q.1.portScanMap) := by
        intro synSet absent
        rw [← not_iff_not, ← scanRefused_iff arrives synSet own absent,
          ← scanRefused_iff arrives' synSet own (scanSame ▸ absent), scan, scan']
      obtain ⟨synNext, synKeys⟩ := detectSyn_determined own synSame synStored
      obtain ⟨scanNext, scanKeys⟩ := detectScan_determined (c := cpu') own scanSame scanStored
      constructor
      · rw [entriesOf, entriesOf, synEq, scanEq, synEq', scanEq']
        exact Prod.ext synNext scanNext
      · rw [alertKeys, alertKeys, record, record', keysOf, List.filterMap_append, keysOf,
          List.filterMap_append]
        exact congrArg₂ (· ++ ·) synKeys scanKeys

/-! ## Runs with few sources -/

/-- The source addresses of the frames of a run. -/
def sourcesOf (events : List Event) : Finset UInt32 :=
  (events.filterMap fun event =>
    match event with
    | .packet _ frame _ => sourceOf frame
    | _ => none).toFinset

/-- Every element can be allocated and the ring buffer takes every record. -/
def Served (events : List Event) : Prop :=
  ∀ cpu frame kernel, .packet cpu frame kernel ∈ events →
    kernel.synUpdate = true ∧ kernel.scanUpdate = true ∧
      kernel.synOutput = true ∧ kernel.scanOutput = true

/-- Fewer than `STATS_SIZE` sources other than `s` send in the run. -/
def FewSources (s : UInt32) (events : List Event) : Prop :=
  ((sourcesOf events).erase s).card < statsSize

theorem size_lt_of_keys {V : Type} {m : BoundedMap UInt32 V statsSize} {s : UInt32}
    {sources : Finset UInt32} (few : (sources.erase s).card < statsSize)
    (keys : ∀ k ∈ m.keys, k ∈ sources) (absent : m.lookup s = none) : m.size < statsSize := by
  have nodup : m.keys.toFinset.card = m.size := List.toFinset_card_of_nodup m.keys_nodup
  have others : m.keys.toFinset ⊆ sources.erase s := by
    intro k member
    have inKeys := List.mem_toFinset.mp member
    refine Finset.mem_erase.mpr ⟨?_, keys k inKeys⟩
    rintro rfl
    exact BoundedMap.lookup_eq_none.mp absent inKeys
  calc m.size = m.keys.toFinset.card := nodup.symm
    _ ≤ (sources.erase s).card := Finset.card_le_card others
    _ < statsSize := few

theorem kept_of_packetRun {c : Cpu} {events : List Event} (packets : PacketRun c events)
    (s : UInt32) {event : Event} (member : event ∈ events) :
    event ≠ .mapDelete .synCounter s ∧ event ≠ .mapDelete .portScanMap s := by
  have allowed := packets event member
  constructor
  · rintro rfl
    cases allowed
  · rintro rfl
    cases allowed

section FewSources

variable {s : UInt32} {c : Cpu} {events : List Event}

theorem mem_sourcesOf {k : UInt32} {cpu : Cpu} {frame : Frame} {kernel : Kernel}
    (member : .packet cpu frame kernel ∈ events) (source : sourceOf frame = some k) :
    k ∈ sourcesOf events :=
  List.mem_toFinset.mpr (List.mem_filterMap.mpr ⟨_, member, source⟩)

/-- Only sources of the run have entries. -/
theorem entries_of_sources (packets : PacketRun c events) :
    ∀ p ∈ steps step Maps.empty events, ∀ k,
      (p.1.synCounter.lookup k).isSome ∨ (p.1.portScanMap.lookup k).isSome →
        k ∈ sourcesOf events := by
  refine steps_invariant (P := fun maps : Maps => ∀ k,
    (maps.synCounter.lookup k).isSome ∨ (maps.portScanMap.lookup k).isSome →
      k ∈ sourcesOf events) ?_ ?_
  · rintro k (syn | scan)
    · cases syn
    · cases scan
  · intro p member known k present
    have inRun := event_mem_of_mem_steps step member
    cases seen : sighting k p with
    | some o =>
        obtain ⟨cpu, kernel, packet, source, -⟩ := sighting_eq_some seen
        exact mem_sourcesOf (packet ▸ inRun) source
    | none =>
        have same := (hidden_step (c := c) (kept_of_packetRun packets k inRun) seen).1
        obtain ⟨syn, scan⟩ := Prod.mk.inj same
        refine known k (present.imp (fun left => ?_) fun left => ?_)
        · have isSome := congrArg Option.isSome syn
          rw [Option.isSome_map, Option.isSome_map] at isSome
          exact isSome ▸ left
        · exact scan ▸ left

/-- With fewer than `STATS_SIZE` other sources and elements to allocate, the
source is not refused. -/
theorem not_refused_of_fewSources (packets : PacketRun c events) (served : Served events)
    (few : FewSources s events) :
    ∀ p ∈ steps step Maps.empty events, synRefused s p = false ∧ scanRefused s p = false := by
  intro p member
  have known := entries_of_sources packets p member
  have inRun := event_mem_of_mem_steps step member
  constructor
  · by_contra refused
    have refused := Bool.not_eq_false _ ▸ refused
    obtain ⟨a, arrives, conditions⟩ := (Option.any_eq_true ..).mp refused
    simp only [Bool.and_eq_true, beq_iff_eq, Option.isNone_iff_eq_none] at conditions
    obtain ⟨⟨⟨pure, source⟩, absent⟩, -⟩ := conditions
    obtain ⟨frame, packet, -⟩ := arrival_eq_some arrives
    refine (synRefused_iff arrives pure source absent).mp refused
      ⟨(served _ _ _ (packet ▸ inRun)).1, size_lt_of_keys few (fun k key => ?_) absent⟩
    exact known k (Or.inl (BoundedMap.lookup_isSome.mpr key))
  · by_contra refused
    have refused := Bool.not_eq_false _ ▸ refused
    obtain ⟨a, arrives, conditions⟩ := (Option.any_eq_true ..).mp refused
    simp only [Bool.and_eq_true, beq_iff_eq, Option.isNone_iff_eq_none] at conditions
    obtain ⟨⟨⟨syn, source⟩, absent⟩, -⟩ := conditions
    obtain ⟨frame, packet, -⟩ := arrival_eq_some arrives
    refine (scanRefused_iff arrives syn source absent).mp refused
      ⟨(served _ _ _ (packet ▸ inRun)).2.1, size_lt_of_keys few (fun k key => ?_) absent⟩
    exact known k (Or.inr (BoundedMap.lookup_isSome.mpr key))

end FewSources

/-! ## Two runs -/

section TwoRuns

variable {s : UInt32} {c : Cpu} {events₁ events₂ : List Event}

/-- Runs with the same packets of a source, refused alike, output the same
alerts that name it. -/
theorem alerts_of_same_sightings (packets₁ : PacketRun c events₁) (packets₂ : PacketRun c events₂)
    (sightings : (steps step Maps.empty events₁).filterMap (sighting s) =
      (steps step Maps.empty events₂).filterMap (sighting s)) :
    (steps step Maps.empty events₁).flatMap (alertKeys s) =
      (steps step Maps.empty events₂).flatMap (alertKeys s) := by
  have onCpu : ∀ {events : List Event}, PacketRun c events → ∀ p ∈ steps step Maps.empty events,
      ∀ cpu frame kernel, p.2 = .packet cpu frame kernel → cpu = c := by
    intro events packets p member cpu frame kernel packet
    have allowed := packets p.2 (event_mem_of_mem_steps step member)
    rw [packet] at allowed
    exact allowed
  refine TwoRuns.outputs_eq (entriesOf s c) rfl ?_ ?_ ?_ sightings
  · intro p member
    exact hidden_step (kept_of_packetRun packets₁ s (event_mem_of_mem_steps step member))
  · intro q member
    exact hidden_step (kept_of_packetRun packets₂ s (event_mem_of_mem_steps step member))
  · intro p inFirst q inSecond
    exact determined_step (onCpu packets₁ p inFirst) (onCpu packets₂ q inSecond)

theorem eq_of_map_eq {l₁ l₂ : List Sighting}
    (packets : (l₁.map fun o => (o.frame, o.entry)) = l₂.map fun o => (o.frame, o.entry))
    (refusals : (l₁.map fun o => (o.synRefused, o.scanRefused)) =
      l₂.map fun o => (o.synRefused, o.scanRefused)) : l₁ = l₂ := by
  induction l₁ generalizing l₂ with
  | nil => exact (List.map_eq_nil_iff.mp packets.symm).symm
  | cons o rest ih =>
      cases l₂ with
      | nil => cases packets
      | cons o₂ rest₂ =>
          obtain ⟨frame, packetsLater⟩ := List.cons.inj packets
          obtain ⟨refused, refusalsLater⟩ := List.cons.inj refusals
          obtain ⟨frameEq, entryEq⟩ := Prod.mk.inj frame
          obtain ⟨synEq, scanEq⟩ := Prod.mk.inj refused
          rw [ih packetsLater refusalsLater, show o = o₂ from by
            cases o
            cases o₂
            simp_all]

theorem refusalsOf_of_fewSources {events : List Event} (packets : PacketRun c events)
    (served : Served events) (few : FewSources s events) :
    refusalsOf s (steps step Maps.empty events) =
      (packetsOf s (steps step Maps.empty events)).map fun _ => (false, false) := by
  rw [refusalsOf, packetsOf, List.map_map]
  apply List.map_congr_left
  intro o seen
  obtain ⟨p, member, sighted⟩ := List.mem_filterMap.mp seen
  obtain ⟨-, -, -, -, -, syn, scan⟩ := sighting_eq_some sighted
  obtain ⟨synKept, scanKept⟩ := not_refused_of_fewSources packets served few p member
  exact Prod.ext (syn.symm.trans synKept) (scan.symm.trans scanKept)

end TwoRuns

/-- **Other sources reach a source only by having its insertion refused.** Two
runs on one CPU with the same packets of a source and the same `blacklist`
entries for it output the same alerts that name it, if the same packets of the
source are refused in both. Nothing is refused, and so they do, when everything
can be allocated and fewer than `STATS_SIZE` other sources send in each. -/
theorem alerts_isolated (s : UInt32) (c : Cpu) (events₁ events₂ : List Event)
    (packets₁ : PacketRun c events₁) (packets₂ : PacketRun c events₂)
    (same : packetsOf s (steps step Maps.empty events₁) =
      packetsOf s (steps step Maps.empty events₂)) :
    (refusalsOf s (steps step Maps.empty events₁) = refusalsOf s (steps step Maps.empty events₂) →
      (steps step Maps.empty events₁).flatMap (alertKeys s) =
        (steps step Maps.empty events₂).flatMap (alertKeys s)) ∧
      (Served events₁ ∧ FewSources s events₁ → Served events₂ ∧ FewSources s events₂ →
        (steps step Maps.empty events₁).flatMap (alertKeys s) =
          (steps step Maps.empty events₂).flatMap (alertKeys s)) := by
  have alike : refusalsOf s (steps step Maps.empty events₁) =
      refusalsOf s (steps step Maps.empty events₂) →
        (steps step Maps.empty events₁).flatMap (alertKeys s) =
          (steps step Maps.empty events₂).flatMap (alertKeys s) :=
    fun refusals => alerts_of_same_sightings packets₁ packets₂ (eq_of_map_eq same refusals)
  refine ⟨alike, ?_⟩
  rintro ⟨served₁, few₁⟩ ⟨served₂, few₂⟩
  apply alike
  rw [refusalsOf_of_fewSources packets₁ served₁ few₁,
    refusalsOf_of_fewSources packets₂ served₂ few₂, same]

/-- SYNs of 10.0.0.1 to 21 ports of 10.0.0.2. -/
def ownScan : List Event :=
  (List.range 21).map fun i =>
    .packet 0 (Frame.ofTcp ⟨10, 0, 0, 1⟩ ⟨10, 0, 0, 2⟩ 0 (UInt8.ofNat (i + 1)) 0x02) (.ready 0)

/-- A pure SYN of 10.0.0.9. -/
def otherSyn : Event :=
  .packet 0 (Frame.ofTcp ⟨10, 0, 0, 9⟩ ⟨10, 0, 0, 2⟩ 0 80 0x02) (.ready 0)

/-- The scan of 10.0.0.1 is reported, alone and after a SYN of 10.0.0.9. -/
theorem alerts_isolated_two_sources :
    (steps step Maps.empty ownScan).flatMap (alertKeys synSegment.srcIp) =
        (steps step Maps.empty (otherSyn :: ownScan)).flatMap (alertKeys synSegment.srcIp) ∧
      (steps step Maps.empty ownScan).flatMap (alertKeys synSegment.srcIp) =
        [(synSegment.srcIp, synSegment.dstIp, 2)] := by
  have packets₁ : PacketRun 0 ownScan := by
    intro event member
    obtain ⟨i, -, rfl⟩ := List.mem_map.mp member
    rfl
  have packets₂ : PacketRun 0 (otherSyn :: ownScan) := by
    intro event member
    rcases List.mem_cons.mp member with rfl | own
    · rfl
    · exact packets₁ event own
  exact ⟨(alerts_isolated synSegment.srcIp 0 ownScan (otherSyn :: ownScan) packets₁ packets₂
    (by decide +kernel)).1 (by decide +kernel), by decide +kernel⟩

/-! ## A full `syn_counter` -/

/-- A pure SYN from the source whose address is `i`. -/
def fillFrame (i : ℕ) : Frame :=
  Frame.ofTcp (Quad.ofLe (UInt32.ofNat i)) ⟨10, 0, 0, 2⟩ 0 80 0x02

/-- One pure SYN from each of the first `n` addresses. -/
def fill (n : ℕ) : List Event :=
  (List.range n).map fun i => .packet 0 (fillFrame i) (.ready 0)

theorem sourceOf_fillFrame (i : ℕ) : sourceOf (fillFrame i) = some (UInt32.ofNat i) := by
  rw [fillFrame, sourceOf, if_pos ⟨rfl, by rw [Frame.length_ofTcp]; decide⟩, Frame.saddr_ofTcp,
    Quad.le_ofLe]

theorem inspected_fillFrame (i : ℕ) :
    inspected .empty (fillFrame i) =
      some ⟨UInt32.ofNat i, Quad.le ⟨10, 0, 0, 2⟩, 80, true, false⟩ := by
  rw [fillFrame, inspected_ofTcp _ _ _ _ (by simp), Quad.le_ofLe]
  rfl

/-- After it the map holds these `n` sources and no other. -/
theorem exec_fill {n : ℕ} (room : n ≤ statsSize) :
    (exec step Maps.empty (fill n)).synCounter.size = n ∧
      (exec step Maps.empty (fill n)).blacklist = .empty ∧
      ∀ k, ((exec step Maps.empty (fill n)).synCounter.lookup k).isSome →
        ∃ i < n, k = UInt32.ofNat i := by
  induction n with
  | zero => exact ⟨rfl, rfl, fun _ present => nomatch present⟩
  | succ i ih =>
      obtain ⟨size, entries, known⟩ := ih (Nat.le_of_succ_le room)
      have more : fill (i + 1) = fill i ++ [.packet 0 (fillFrame i) (.ready 0)] := by
        rw [fill, List.range_succ, List.map_append]
        rfl
      rw [more, exec_append, exec_cons, exec_nil]
      have arrives : arrival (exec step Maps.empty (fill i), .packet 0 (fillFrame i) (.ready 0)) =
          some ⟨0, .ready 0, ⟨UInt32.ofNat i, Quad.le ⟨10, 0, 0, 2⟩, 80, true, false⟩⟩ := by
        rw [arrival]
        simp only [entries, inspected_fillFrame, Option.map_some]
      have absent : (exec step Maps.empty (fill i)).synCounter.lookup (UInt32.ofNat i) = none := by
        by_contra present
        obtain ⟨j, below, same⟩ := known _ (Option.isSome_iff_ne_none.mpr present)
        have values := congrArg UInt32.toNat same
        rw [UInt32.toNat_ofNat', UInt32.toNat_ofNat'] at values
        rw [statsSize] at room
        omega
      have stores : Stores true (exec step Maps.empty (fill i)).synCounter :=
        ⟨rfl, by rw [size]; exact room⟩
      have after := (step_of_arrival arrives).1
      simp only [detectSyn, Segment.pureSyn, Bool.not_false, Bool.and_self, if_true] at after
      rw [(checkSynFlood_absent _ _ _ _ absent).1] at after
      obtain ⟨m, stored⟩ : ∃ m, (exec step Maps.empty (fill i)).synCounter.update
          (UInt32.ofNat i) (perCpuInit 0 1) = some m :=
        Option.isSome_iff_exists.mp (BoundedMap.update_isSome.mpr (Or.inr stores.2))
      have result : (step (exec step Maps.empty (fill i))
          (.packet 0 (fillFrame i) (.ready 0))).synCounter = m := by
        rw [after, bpfMapUpdateElem, if_pos (show (Kernel.ready 0).synUpdate = true from rfl),
          stored]
        rfl
      refine ⟨?_, ?_, ?_⟩
      · rw [result, BoundedMap.size_update stored absent, size]
      · rw [step, xdpFirewall_blacklist, entries]
      · intro k present
        rw [result, BoundedMap.lookup_isSome, BoundedMap.mem_keys_update stored] at present
        rcases present with rfl | earlier
        · exact ⟨i, Nat.lt_succ_self i, rfl⟩
        · obtain ⟨j, below, same⟩ := known k (BoundedMap.lookup_isSome.mpr earlier)
          exact ⟨j, Nat.lt_succ_of_lt below, same⟩

section Full

variable {full : Maps} (size : full.synCounter.size = statsSize)
  (entries : full.blacklist = .empty) (absent : full.synCounter.lookup synSegment.srcIp = none)

include size entries absent

/-- From a full map without the source, its pure SYNs leave the map alone. -/
theorem refused_while_full (n : ℕ) :
    ∀ p ∈ steps step full (List.replicate n (Event.packet 0 synFrame (.ready 0))),
      p.1.blacklist = .empty ∧ p.1.synCounter.lookup synSegment.srcIp = none := by
  have same : ∀ p ∈ steps step full (List.replicate n (Event.packet 0 synFrame (.ready 0))),
      p.1.blacklist = .empty ∧ p.1.synCounter = full.synCounter := by
    refine steps_invariant (P := fun maps : Maps =>
      maps.blacklist = .empty ∧ maps.synCounter = full.synCounter) ⟨entries, rfl⟩ ?_
    rintro ⟨maps, event⟩ member ⟨noEntries, kept⟩
    obtain rfl := List.eq_of_mem_replicate (event_mem_of_mem_steps step member)
    have after := (step_of_arrival (arrival_synFrame 0 (.ready 0) noEntries)).1
    have refused : ¬ Stores (Kernel.ready 0).synUpdate full.synCounter :=
      fun stores => absurd stores.2 (by rw [size]; exact Nat.lt_irrefl _)
    have unchanged := (checkSynFlood_absent (.ready 0) 0 _ synSegment.dstIp absent).1
    rw [bpfMapUpdateElem_refused refused absent] at unchanged
    refine ⟨by rw [step, xdpFirewall_blacklist, noEntries], after.trans ?_⟩
    rw [kept]
    exact unchanged
  intro p member
  exact ⟨(same p member).1, by rw [(same p member).2, absent]⟩

end Full

/-- The packets of the source in a flood of its own. -/
theorem packetsOf_flood {start : Maps} (n : ℕ) (entries : start.blacklist = .empty) :
    packetsOf synSegment.srcIp
        (steps step start (List.replicate n (Event.packet 0 synFrame (.ready 0)))) =
      List.replicate n (synFrame, none) := by
  induction n generalizing start with
  | zero => rfl
  | succ n ih =>
      have next : (step start (.packet 0 synFrame (.ready 0))).blacklist = .empty := by
        rw [step, xdpFirewall_blacklist, entries]
      have seen : sighting synSegment.srcIp (start, .packet 0 synFrame (.ready 0)) =
          some ⟨synFrame, none, synRefused synSegment.srcIp (start, .packet 0 synFrame (.ready 0)),
            scanRefused synSegment.srcIp (start, .packet 0 synFrame (.ready 0))⟩ := by
        rw [sighting]
        simp only [entries]
        rfl
      have later := ih next
      rw [packetsOf] at later ⊢
      rw [List.replicate_succ, steps_cons, List.filterMap_cons_some seen, List.map_cons, later]
      rfl

/-- A type-1 event that names a source is output by a packet of the source that
crosses the threshold. -/
theorem synCrosses_of_key {s dst : UInt32} {p : Maps × Event} (key : (s, dst, 1) ∈ alertKeys s p) :
    ∃ a, arrival p = some a ∧ a.seg.srcIp = s ∧ SynCrosses p.1.synCounter a := by
  obtain ⟨act, member, shown⟩ := List.mem_filterMap.mp key
  cases act with
  | bpfRingbufOutput cpu evt placed =>
      by_cases source : evt.srcIp = s
      · have shown := Option.some.inj ((if_pos source).symm.trans shown)
        have type : evt.alertType = 1 := congrArg (fun key => key.2.2) shown
        cases arrives : arrival p with
        | none =>
            rw [(step_of_no_arrival arrives s).1] at member
            cases member
        | some a =>
            rcases ((acts_of_arrival arrives).1 _ _ _).mp member with
              ⟨crosses, -, rfl, -⟩ | ⟨-, -, rfl, -⟩
            · exact ⟨a, rfl, source, crosses⟩
            · cases type
      · cases (if_neg source).symm.trans shown
  | _ => cases shown

/-- The sources that fill the map do not include 10.0.0.1. -/
theorem fillSource_ne {i : ℕ} (below : i < statsSize) : UInt32.ofNat i ≠ synSegment.srcIp := by
  intro same
  have values := congrArg UInt32.toNat same
  rw [UInt32.toNat_ofNat', show synSegment.srcIp.toNat = 16777226 from rfl] at values
  rw [statsSize] at below
  omega

theorem fill_unseen :
    ∀ p ∈ steps step Maps.empty (fill statsSize), sighting synSegment.srcIp p = none := by
  rintro ⟨maps, event⟩ member
  obtain ⟨i, inRange, rfl⟩ := List.mem_map.mp (event_mem_of_mem_steps step member)
  apply if_neg
  intro own
  rw [sourceOf_fillFrame] at own
  exact fillSource_ne (List.mem_range.mp inRange) (Option.some.inj own)

/-- The sources that fill the map, and 101 pure SYNs of 10.0.0.1. -/
theorem ready_of_mem_flood {n : ℕ} {event : Event}
    (member : event ∈ fill n ++ List.replicate 101 (.packet 0 synFrame (.ready 0))) :
    ∃ frame, event = .packet 0 frame (.ready 0) := by
  rcases List.mem_append.mp member with filling | flooding
  · obtain ⟨i, -, rfl⟩ := List.mem_map.mp filling
    exact ⟨_, rfl⟩
  · exact ⟨_, List.eq_of_mem_replicate flooding⟩

theorem packetRun_flood (n : ℕ) :
    PacketRun 0 (fill n ++ List.replicate 101 (.packet 0 synFrame (.ready 0))) := by
  intro event member
  obtain ⟨frame, rfl⟩ := ready_of_mem_flood member
  rfl

theorem served_flood (n : ℕ) :
    Served (fill n ++ List.replicate 101 (.packet 0 synFrame (.ready 0))) := by
  intro cpu frame kernel member
  obtain ⟨_, same⟩ := ready_of_mem_flood member
  cases same
  exact ⟨rfl, rfl, rfl, rfl⟩

/-- **Other sources can hide a flood.** 101 pure SYNs of 10.0.0.1 output an
alert alone, and none after `STATS_SIZE` other sources have each sent one. -/
theorem other_sources_hide_flood :
    ¬ ∀ (s : UInt32) (c : Cpu) (events₁ events₂ : List Event),
      PacketRun c events₁ → PacketRun c events₂ → Served events₁ → Served events₂ →
      packetsOf s (steps step Maps.empty events₁) = packetsOf s (steps step Maps.empty events₂) →
        (steps step Maps.empty events₁).flatMap (alertKeys s) =
          (steps step Maps.empty events₂).flatMap (alertKeys s) := by
  intro isolated
  obtain ⟨size, entries, known⟩ := exec_fill (Nat.le_refl statsSize)
  have absent : (exec step Maps.empty (fill statsSize)).synCounter.lookup synSegment.srcIp =
      none := by
    by_contra present
    obtain ⟨i, below, same⟩ := known _ (Option.isSome_iff_ne_none.mpr present)
    exact fillSource_ne below same.symm
  let flood := List.replicate 101 (Event.packet 0 synFrame (.ready 0))
  have samePackets : packetsOf synSegment.srcIp (steps step Maps.empty flood) =
      packetsOf synSegment.srcIp (steps step Maps.empty (fill statsSize ++ flood)) := by
    rw [steps_append, packetsOf_flood 101 rfl, packetsOf, List.filterMap_append,
      List.filterMap_eq_nil_iff.mpr fill_unseen, List.nil_append]
    exact (packetsOf_flood 101 entries).symm
  have same := isolated synSegment.srcIp 0 flood (fill statsSize ++ flood)
    (packetRun_flood 0) (packetRun_flood _) (served_flood 0) (served_flood _) samePackets
  obtain ⟨p, member, arrives, crosses⟩ := flood_crosses (rfl : (Kernel.ready 0).synUpdate = true)
  have output := ((acts_of_arrival arrives).1 0 _ _).mpr (Or.inl ⟨crosses, rfl, rfl, rfl⟩)
  have key : (synSegment.srcIp, synSegment.dstIp, 1) ∈
      (steps step Maps.empty flood).flatMap (alertKeys synSegment.srcIp) :=
    List.mem_flatMap.mpr ⟨p, member, List.mem_filterMap.mpr ⟨_, output, if_pos rfl⟩⟩
  rw [same, steps_append] at key
  obtain ⟨q, inSecond, shown⟩ := List.mem_flatMap.mp key
  obtain ⟨a, arrives, source, pure, exceeds⟩ := synCrosses_of_key shown
  rcases List.mem_append.mp inSecond with filling | flooding
  · obtain ⟨frame, packet, -, sourceEq⟩ := arrival_eq_some arrives
    have unseen := fill_unseen q filling
    rw [sighting, packet] at unseen
    simp [sourceEq, source] at unseen
  · have none := (refused_while_full size entries absent 101 q flooding).2
    rw [source, slot, none] at exceeds
    exact absurd exceeds (show ¬ (0 : UInt64) + 1 > synThreshold by decide)

end EbpfNids.DataPlane
