import EbpfNids.DataPlane.Firewall

/-!
# The SYN-flood detector counts modulo 101

The counter of a source on a CPU goes up by one with every pure SYN of the
source on that CPU. The increment that brings it to 101 outputs one alert and
starts over at zero. So after `n` pure SYNs the counter is `n % 101` and
`n / 101` alerts have been output (`synCounter_counts`), whichever of the three
paths each packet took: the insertion of the entry, which stores 1 for the CPU
that inserts and 0 for the others, the increment, and the reset.

The step lemma is `syn_step`. The run is its balance: every step adds one for a
pure SYN and takes 101 for an alert (`exec_balance`).
-/

set_option autoImplicit false

namespace EbpfNids.DataPlane

open Library Library.Runs

/-- The counter of a source on a CPU, zero while the source has no entry. -/
def slot (synCounter : SynCounter) (s : UInt32) (c : Cpu) : UInt64 :=
  ((synCounter.lookup s).map fun counts => counts c).getD 0

/-! ## One call of the detector -/

section Call

variable (kernel : Kernel) (cpu : Cpu) (srcIp dstIp : UInt32)

theorem checkSynFlood_present {m : SynCounter} {counts : Cpu → UInt64}
    (present : m.lookup srcIp = some counts) :
    (checkSynFlood kernel cpu srcIp dstIp m).1.lookup srcIp =
        some (Function.update counts cpu
          (if counts cpu + 1 > synThreshold then 0 else counts cpu + 1)) ∧
      (checkSynFlood kernel cpu srcIp dstIp m).2 =
        .checkSynFlood srcIp dstIp ::
          if counts cpu + 1 > synThreshold then
            [.bpfRingbufOutput cpu ⟨srcIp, dstIp, 1, kernel.synTime⟩ kernel.synOutput,
              .counterReset cpu srcIp]
          else [] := by
  simp only [checkSynFlood, present]
  by_cases exceeds : counts cpu + 1 > synThreshold
  · simp [exceeds, BoundedMap.lookup_modify_self, present]
  · simp [exceeds, BoundedMap.lookup_modify_self, present]

theorem checkSynFlood_absent {m : SynCounter} (absent : m.lookup srcIp = none) :
    (checkSynFlood kernel cpu srcIp dstIp m).1 =
        bpfMapUpdateElem kernel.synUpdate m srcIp (perCpuInit cpu 1) ∧
      (checkSynFlood kernel cpu srcIp dstIp m).2 = [.checkSynFlood srcIp dstIp] := by
  simp [checkSynFlood, absent]

/-- The entries of other sources are left alone. -/
theorem checkSynFlood_of_ne {m : SynCounter} {s : UInt32} (different : s ≠ srcIp) :
    (checkSynFlood kernel cpu srcIp dstIp m).1.lookup s = m.lookup s := by
  cases found : m.lookup srcIp with
  | none =>
      rw [(checkSynFlood_absent kernel cpu srcIp dstIp found).1]
      exact bpfMapUpdateElem_of_ne different
  | some counts =>
      simp only [checkSynFlood, found]
      by_cases exceeds : counts cpu + 1 > synThreshold
      · simp only [exceeds, if_true]
        exact BoundedMap.lookup_modify_of_ne different
      · simp only [exceeds, if_false]
        exact BoundedMap.lookup_modify_of_ne different

/-- The entry is there after the call, or the insertion was refused. -/
theorem checkSynFlood_lookup_isSome {m : SynCounter}
    (here : (m.lookup srcIp).isSome ∨ Stores kernel.synUpdate m) :
    ((checkSynFlood kernel cpu srcIp dstIp m).1.lookup srcIp).isSome := by
  cases found : m.lookup srcIp with
  | some counts => simp [(checkSynFlood_present kernel cpu srcIp dstIp found).1]
  | none =>
      have stores : Stores kernel.synUpdate m := here.resolve_left (by simp [found])
      rw [(checkSynFlood_absent kernel cpu srcIp dstIp found).1,
        bpfMapUpdateElem_stored stores found]
      rfl

end Call

/-- The counters of a source are below 101, as they are between packets. -/
def CountersBelow (s : UInt32) (maps : Maps) : Prop := ∀ c, (slot maps.synCounter s c).toNat < 101

theorem countersBelow_empty (s : UInt32) : CountersBelow s Maps.empty := by
  intro c
  rw [show slot Maps.empty.synCounter s c = 0 from rfl]
  decide

/-! ## Pure SYNs and alerts of a step -/

/-- The packet of a source on a CPU that reaches the detector with SYN set and
ACK clear. -/
def pureSynOn (s : UInt32) (c : Cpu) (p : Maps × Event) : Option Arrival :=
  (arrival p).filter fun a => a.seg.pureSyn && a.seg.srcIp == s && a.cpu == c

theorem pureSynOn_eq_some {s : UInt32} {c : Cpu} {p : Maps × Event} {a : Arrival} :
    pureSynOn s c p = some a ↔
      arrival p = some a ∧ a.seg.pureSyn = true ∧ a.seg.srcIp = s ∧ a.cpu = c := by
  simp [pureSynOn, Option.filter_eq_some_iff, and_assoc]

/-- A pure SYN of the source finds no entry, and tries to insert one. -/
def TriesSynInsert (s : UInt32) (p : Maps × Event) : Prop :=
  (∃ c a, pureSynOn s c p = some a) ∧ p.1.synCounter.lookup s = none

/-- The source has an entry after the step. -/
def SynInserted (s : UInt32) (p : Maps × Event) : Prop :=
  ((step p.1 p.2).synCounter.lookup s).isSome

/-- The type-1 events naming a source that a step outputs on a CPU. -/
def synAlerts (s : UInt32) (c : Cpu) (p : Maps × Event) : List AlertEvent :=
  alertsBy 1 s c (acts p)

/-- What the detector does to the counter of a source on a CPU in one step: a
pure SYN of the source on that CPU adds one, the one that reaches 101 outputs
the alert that names the packet's source and destination and starts over, and
no other step changes the counter or outputs an alert. -/
structure CountsSyn (s : UInt32) (c : Cpu) (p : Maps × Event) : Prop where
  counted : ∀ a, pureSynOn s c p = some a →
    (slot (step p.1 p.2).synCounter s c).toNat = ((slot p.1.synCounter s c).toNat + 1) % 101 ∧
      synAlerts s c p =
        if (slot p.1.synCounter s c).toNat + 1 = 101 then
          [⟨s, a.seg.dstIp, 1, a.kernel.synTime⟩]
        else []
  unchanged : pureSynOn s c p = none →
    slot (step p.1 p.2).synCounter s c = slot p.1.synCounter s c ∧ synAlerts s c p = []

/-! ## One step -/

/-- The detector as it is run on a segment that is no pure SYN of a source
leaves the source's entry alone and outputs no alert that names it. -/
theorem detectSyn_other (kernel : Kernel) (cpu : Cpu) {seg : Segment} {s : UInt32} (c : Cpu)
    (m : SynCounter) (other : ¬ (seg.pureSyn = true ∧ seg.srcIp = s)) :
    (detectSyn kernel cpu seg m).1.lookup s = m.lookup s ∧
      alertsBy 1 s c (detectSyn kernel cpu seg m).2 = [] := by
  by_cases pure : seg.pureSyn = true
  · have different : seg.srcIp ≠ s := by
      intro same
      exact other ⟨pure, same⟩
    simp only [detectSyn, pure, if_true]
    refine ⟨checkSynFlood_of_ne kernel cpu seg.srcIp seg.dstIp (Ne.symm different), ?_⟩
    cases found : m.lookup seg.srcIp with
    | some counts =>
        rw [(checkSynFlood_present kernel cpu seg.srcIp seg.dstIp found).2]
        split <;> simp [alertsBy, different]
    | none =>
        rw [(checkSynFlood_absent kernel cpu seg.srcIp seg.dstIp found).2]
        rfl
  · simp [detectSyn, pure, alertsBy]

theorem over_iff {x : UInt64} (bounded : x.toNat < 101) :
    x + 1 > synThreshold ↔ x.toNat + 1 = 101 := by
  rw [gt_iff_lt, UInt64.lt_iff_toNat_lt, UInt64.toNat_add]
  show 100 < (x.toNat + 1) % 2 ^ 64 ↔ _
  omega

theorem toNat_bumped {x : UInt64} (bounded : x.toNat < 101) :
    (if x + 1 > synThreshold then 0 else x + 1).toNat = (x.toNat + 1) % 101 := by
  by_cases full : x.toNat + 1 = 101
  · rw [if_pos ((over_iff bounded).mpr full), full]
    rfl
  · rw [if_neg (mt (over_iff bounded).mp full), UInt64.toNat_add]
    show (x.toNat + 1) % 2 ^ 64 = _
    omega

/-- The counters of the source of the call. -/
theorem slot_checkSynFlood (kernel : Kernel) (cpu : Cpu) (s dstIp : UInt32) (c : Cpu)
    {m : SynCounter} (here : (m.lookup s).isSome ∨ Stores kernel.synUpdate m)
    (bounded : (slot m s cpu).toNat < 101) :
    (slot (checkSynFlood kernel cpu s dstIp m).1 s c).toNat =
      if cpu = c then ((slot m s c).toNat + 1) % 101 else (slot m s c).toNat := by
  cases found : m.lookup s with
  | some counts =>
      have before : ∀ d, slot m s d = counts d := fun d => by simp [slot, found]
      rw [slot, (checkSynFlood_present kernel cpu s dstIp found).1]
      simp only [Option.map_some, Option.getD_some]
      by_cases same : cpu = c
      · subst same
        rw [before] at bounded
        rw [Function.update_self, if_pos rfl, before, toNat_bumped bounded]
      · rw [Function.update_of_ne (Ne.symm same), if_neg same, before]
  | none =>
      have stores : Stores kernel.synUpdate m := here.resolve_left (by simp [found])
      have before : slot m s c = 0 := by simp [slot, found]
      rw [slot, (checkSynFlood_absent kernel cpu s dstIp found).1,
        bpfMapUpdateElem_stored stores found, before]
      by_cases same : cpu = c
      · simp [perCpuInit, same]
      · simp [perCpuInit, same, Ne.symm same]

/-- The alerts that name the source of the call. -/
theorem alertsBy_checkSynFlood (kernel : Kernel) (cpu : Cpu) (s dstIp : UInt32) (c : Cpu)
    {m : SynCounter} (bounded : (slot m s cpu).toNat < 101) :
    alertsBy 1 s c (checkSynFlood kernel cpu s dstIp m).2 =
      if cpu = c ∧ (slot m s cpu).toNat + 1 = 101 then [⟨s, dstIp, 1, kernel.synTime⟩] else [] := by
  cases found : m.lookup s with
  | some counts =>
      have before : slot m s cpu = counts cpu := by simp [slot, found]
      rw [before] at bounded ⊢
      rw [(checkSynFlood_present kernel cpu s dstIp found).2]
      by_cases full : (counts cpu).toNat + 1 = 101
      · rw [if_pos ((over_iff bounded).mpr full)]
        by_cases same : cpu = c
        · rw [if_pos ⟨same, full⟩]
          simp [alertsBy, same]
        · rw [if_neg fun both => same both.1]
          simp [alertsBy, same]
      · rw [if_neg (mt (over_iff bounded).mp full), if_neg fun both => full both.2]
        rfl
  | none =>
      have before : slot m s cpu = 0 := by simp [slot, found]
      rw [(checkSynFlood_absent kernel cpu s dstIp found).2, before]
      simp [alertsBy]

/-- The port-scan detector outputs no type-1 event. -/
theorem alertsBy_detectScan (kernel : Kernel) (cpu : Cpu) (seg : Segment) (m : PortScanMap)
    (s : UInt32) (c : Cpu) : alertsBy 1 s c (detectScan kernel cpu seg m).2 = [] := by
  unfold detectScan checkPortScan
  dsimp only
  repeat' split
  all_goals simp [alertsBy]

/-- An insertion that left an entry had room for it. -/
theorem stores_of_synInserted {s : UInt32} {p : Maps × Event} {a : Arrival}
    (arrives : arrival p = some a) (pure : a.seg.pureSyn = true) (source : a.seg.srcIp = s)
    (absent : p.1.synCounter.lookup s = none) (inserted : SynInserted s p) :
    Stores a.kernel.synUpdate p.1.synCounter := by
  subst source
  by_contra refused
  rw [SynInserted, (step_of_arrival arrives).1] at inserted
  simp only [detectSyn, pure, if_true] at inserted
  rw [(checkSynFlood_absent a.kernel a.cpu a.seg.srcIp a.seg.dstIp absent).1,
    bpfMapUpdateElem_refused refused absent, absent] at inserted
  cases inserted

/-- A pure SYN of the source finds an entry or room for one. -/
theorem here_of_inserted {s : UInt32} {p : Maps × Event} {a : Arrival}
    (arrives : arrival p = some a) (pure : a.seg.pureSyn = true) (source : a.seg.srcIp = s)
    (inserted : TriesSynInsert s p → SynInserted s p) :
    (p.1.synCounter.lookup s).isSome ∨ Stores a.kernel.synUpdate p.1.synCounter := by
  cases found : p.1.synCounter.lookup s with
  | some _ => exact Or.inl rfl
  | none =>
      have tries : TriesSynInsert s p :=
        ⟨⟨a.cpu, a, pureSynOn_eq_some.mpr ⟨arrives, pure, source, rfl⟩⟩, found⟩
      exact Or.inr (stores_of_synInserted arrives pure source found (inserted tries))

/-- **Step lemma.** While the counters of a source are below 101 and its
insertion, if it is tried, leaves an entry, a step counts exactly. -/
theorem syn_step {s : UInt32} {p : Maps × Event}
    (bounded : CountersBelow s p.1) (kept : p.2 ≠ .mapDelete .synCounter s)
    (inserted : TriesSynInsert s p → SynInserted s p) (c : Cpu) : CountsSyn s c p := by
  cases arrives : arrival p with
  | none =>
      obtain ⟨silent, same, -⟩ := step_of_no_arrival arrives s
      refine ⟨?_, fun _ => ⟨?_, ?_⟩⟩
      · intro a counted
        rw [(pureSynOn_eq_some.mp counted).1] at arrives
        cases arrives
      · rw [slot, same kept, slot]
      · rw [synAlerts, silent]
        rfl
  | some a =>
      obtain ⟨synEq, -, actsEq⟩ := step_of_arrival arrives
      have alertsEq : synAlerts s c p =
          alertsBy 1 s c (detectSyn a.kernel a.cpu a.seg p.1.synCounter).2 := by
        rw [synAlerts, actsEq, alertsBy_append, alertsBy_detectScan, List.append_nil]
      have same : ∀ {b}, pureSynOn s c p = some b → b = a := fun counted =>
        Option.some.inj ((pureSynOn_eq_some.mp counted).1.symm.trans arrives)
      by_cases own : a.seg.pureSyn = true ∧ a.seg.srcIp = s
      · obtain ⟨pure, source⟩ := own
        have here := here_of_inserted arrives pure source inserted
        simp only [detectSyn, pure, source, if_true] at synEq alertsEq
        have slotEq := slot_checkSynFlood a.kernel a.cpu s a.seg.dstIp c here (bounded a.cpu)
        rw [← synEq] at slotEq
        rw [alertsBy_checkSynFlood a.kernel a.cpu s a.seg.dstIp c (bounded a.cpu)] at alertsEq
        constructor
        · intro b counted
          obtain rfl := same counted
          have cpuEq := (pureSynOn_eq_some.mp counted).2.2.2
          subst cpuEq
          exact ⟨by rw [slotEq, if_pos rfl], by simp [alertsEq]⟩
        · intro other
          have cpuNe : a.cpu ≠ c := fun cpuEq => by
            rw [pureSynOn_eq_some.mpr ⟨arrives, pure, source, cpuEq⟩] at other
            cases other
          exact ⟨UInt64.toNat_inj.mp (by rw [slotEq, if_neg cpuNe]), by simp [alertsEq, cpuNe]⟩
      · obtain ⟨entry, silent⟩ := detectSyn_other a.kernel a.cpu c p.1.synCounter own
        refine ⟨?_, fun _ => ⟨?_, alertsEq.trans silent⟩⟩
        · intro b counted
          obtain rfl := same counted
          obtain ⟨-, pure, source, -⟩ := pureSynOn_eq_some.mp counted
          exact absurd ⟨pure, source⟩ own
        · rw [slot, synEq, entry, slot]

/-! ## Runs -/

/-- An entry stays until it is deleted from outside. -/
theorem syn_entry_stays {s : UInt32} {p : Maps × Event} (kept : p.2 ≠ .mapDelete .synCounter s)
    (present : (p.1.synCounter.lookup s).isSome) :
    ((step p.1 p.2).synCounter.lookup s).isSome := by
  cases arrives : arrival p with
  | none => rwa [(step_of_no_arrival arrives s).2.1 kept]
  | some a =>
      rw [(step_of_arrival arrives).1]
      by_cases own : a.seg.pureSyn = true ∧ a.seg.srcIp = s
      · obtain ⟨pure, rfl⟩ := own
        simp only [detectSyn, pure, if_true]
        exact checkSynFlood_lookup_isSome a.kernel a.cpu _ _ (Or.inl present)
      · rwa [(detectSyn_other a.kernel a.cpu a.cpu p.1.synCounter own).1]

section Run

variable {s : UInt32} {start : Maps} {events : List Event}

/-- **Run lemma.** From a state where the counters of a source are below 101
they stay so, and every step of a run counts exactly. -/
theorem syn_run (bounded : CountersBelow s start) (kept : .mapDelete .synCounter s ∉ events)
    (inserted : FirstTime (TriesSynInsert s) (SynInserted s) (steps step start events)) :
    CountersBelow s (exec step start events) ∧
      ∀ p ∈ steps step start events, CountersBelow s p.1 ∧ ∀ c, CountsSyn s c p := by
  have keptStep : ∀ p ∈ steps step start events, p.2 ≠ .mapDelete .synCounter s := by
    intro p member deleted
    exact kept (deleted ▸ event_mem_of_mem_steps step member)
  have every := FirstTime.forall_attempts
    (fun maps : Maps => (maps.synCounter.lookup s).isSome) inserted
    (fun p tries settled => by simp [tries.2] at settled) (fun _ _ success => success)
    (fun p member => syn_entry_stays (keptStep p member))
  have countsStep : ∀ p ∈ steps step start events, CountersBelow s p.1 → ∀ c, CountsSyn s c p :=
    fun p member below => syn_step below (keptStep p member) (every p member)
  have preserved : ∀ p ∈ steps step start events,
      CountersBelow s p.1 → CountersBelow s (step p.1 p.2) := by
    intro p member below c
    have counts := countsStep p member below c
    cases counted : pureSynOn s c p with
    | some a =>
        rw [(counts.counted a counted).1]
        exact Nat.mod_lt _ (by decide)
    | none =>
        rw [(counts.unchanged counted).1]
        exact below c
  refine ⟨exec_invariant bounded preserved, ?_⟩
  intro p member
  have below := steps_invariant bounded preserved p member
  exact ⟨below, countsStep p member below⟩

/-- A step that counts exactly adds its pure SYN and takes 101 for its alert. -/
theorem CountsSyn.balance {c : Cpu} {p : Maps × Event} (counts : CountsSyn s c p)
    (below : (slot p.1.synCounter s c).toNat < 101) :
    (slot (step p.1 p.2).synCounter s c).toNat + 101 * (synAlerts s c p).length =
      (slot p.1.synCounter s c).toNat + ((pureSynOn s c p).isSome).toNat := by
  cases counted : pureSynOn s c p with
  | some a =>
      obtain ⟨next, alerts⟩ := counts.counted a counted
      rw [next, alerts]
      split
      · rename_i full
        simp [full]
      · rename_i short
        simp only [List.length_nil, Option.isSome_some, Bool.toNat_true]
        omega
  | none =>
      obtain ⟨next, alerts⟩ := counts.unchanged counted
      rw [next, alerts]
      rfl

end Run

/-- The counter of a source on a CPU, and its alerts there, after a run from
empty maps. -/
theorem syn_totals {s : UInt32} {events : List Event} (c : Cpu)
    (kept : .mapDelete .synCounter s ∉ events)
    (inserted : FirstTime (TriesSynInsert s) (SynInserted s) (steps step Maps.empty events)) :
    (slot (exec step Maps.empty events).synCounter s c).toNat =
        ((steps step Maps.empty events).countP fun p => (pureSynOn s c p).isSome) % 101 ∧
      ((steps step Maps.empty events).map fun p => (synAlerts s c p).length).sum =
        ((steps step Maps.empty events).countP fun p => (pureSynOn s c p).isSome) / 101 := by
  obtain ⟨bounded, counts⟩ := syn_run (countersBelow_empty s) kept inserted
  exact exec_counter (fun maps : Maps => (slot maps.synCounter s c).toNat) rfl (bounded c)
    fun p member => ((counts p member).2 c).balance ((counts p member).1 c)

/-- In a run of pure SYNs of one source on one CPU, each of which could insert
the source, the counter is the length of the run modulo 101, and one alert has
been output for every 101 packets. -/
theorem flood_run {frame : Frame} {seg : Segment} (cpu : Cpu) {events : List Event}
    (inside : inspected .empty frame = some seg) (pure : seg.pureSyn = true)
    (packets : ∀ e ∈ events, ∃ kernel : Kernel, e = .packet cpu frame kernel ∧
      kernel.synUpdate = true) :
    (slot (exec step Maps.empty events).synCounter seg.srcIp cpu).toNat = events.length % 101 ∧
      ((steps step Maps.empty events).map fun p => (synAlerts seg.srcIp cpu p).length).sum =
        events.length / 101 := by
  have isPacket : ∀ p ∈ steps step Maps.empty events, ∃ kernel : Kernel,
      p.2 = .packet cpu frame kernel ∧ kernel.synUpdate = true :=
    fun p member => packets p.2 (event_mem_of_mem_steps step member)
  have noEntries : ∀ p ∈ steps step Maps.empty events, p.1.blacklist = .empty := by
    apply steps_invariant (P := fun maps : Maps => maps.blacklist = .empty) rfl
    intro p member same
    obtain ⟨kernel, packet, -⟩ := isPacket p member
    rw [packet, step, xdpFirewall_blacklist, same]
  have counted : ∀ p ∈ steps step Maps.empty events, ∀ kernel,
      p.2 = .packet cpu frame kernel → pureSynOn seg.srcIp cpu p = some ⟨cpu, kernel, seg⟩ := by
    intro p member kernel packet
    refine pureSynOn_eq_some.mpr ⟨?_, pure, rfl, rfl⟩
    rw [arrival, packet]
    simp only [noEntries p member, inside, Option.map_some]
  have inserted : FirstTime (TriesSynInsert seg.srcIp) (SynInserted seg.srcIp)
      (steps step Maps.empty events) := by
    cases events with
    | nil => trivial
    | cons event rest =>
        obtain ⟨kernel, rfl, allocates⟩ := packets event List.mem_cons_self
        have first := counted (Maps.empty, .packet cpu frame kernel) List.mem_cons_self kernel rfl
        refine Or.inl ⟨⟨⟨cpu, _, first⟩, rfl⟩, ?_⟩
        rw [SynInserted, (step_of_arrival (pureSynOn_eq_some.mp first).1).1]
        simp only [detectSyn, pure, if_true]
        exact checkSynFlood_lookup_isSome kernel cpu _ _ (Or.inr ⟨allocates, by decide⟩)
  have kept : .mapDelete .synCounter seg.srcIp ∉ events := by
    intro member
    obtain ⟨kernel, packet, -⟩ := packets _ member
    cases packet
  have total : (steps step Maps.empty events).countP
      (fun p => (pureSynOn seg.srcIp cpu p).isSome) = events.length := by
    rw [List.countP_eq_length.mpr]
    · have lengths := congrArg List.length (steps_events step Maps.empty events)
      rwa [List.length_map] at lengths
    · intro p member
      obtain ⟨kernel, packet, -⟩ := isPacket p member
      rw [counted p member kernel packet]
      rfl
  have totals := syn_totals cpu kept inserted
  rwa [total] at totals

/-- The same for a packet repeated. -/
theorem flood_counts {frame : Frame} {seg : Segment} {kernel : Kernel} (cpu : Cpu) (n : ℕ)
    (inside : inspected .empty frame = some seg) (pure : seg.pureSyn = true)
    (allocates : kernel.synUpdate = true) :
    let events := List.replicate n (Event.packet cpu frame kernel)
    (slot (exec step Maps.empty events).synCounter seg.srcIp cpu).toNat = n % 101 ∧
      ((steps step Maps.empty events).map fun p => (synAlerts seg.srcIp cpu p).length).sum =
        n / 101 := by
  intro events
  have packets : ∀ e ∈ events, ∃ kernel : Kernel, e = .packet cpu frame kernel ∧
      kernel.synUpdate = true :=
    fun e member => ⟨kernel, List.eq_of_mem_replicate member, allocates⟩
  have run := flood_run cpu inside pure packets
  rwa [List.length_replicate] at run

/-- **The detector counts exactly over whole runs.** From empty maps, for a
source whose first insertion succeeds and whose entry is not deleted from
outside, the counter on a CPU is the number of its pure SYNs there modulo 101,
one alert has been output there for every 101 of them, and every step of the
run counts as `CountsSyn` says. -/
theorem synCounter_counts (s : UInt32) (c : Cpu) (events : List Event)
    (kept : .mapDelete .synCounter s ∉ events)
    (inserted : FirstTime (TriesSynInsert s) (SynInserted s) (steps step Maps.empty events)) :
    (slot (exec step Maps.empty events).synCounter s c).toNat =
        ((steps step Maps.empty events).countP fun p => (pureSynOn s c p).isSome) % 101 ∧
      ((steps step Maps.empty events).flatMap (synAlerts s c)).length =
        ((steps step Maps.empty events).countP fun p => (pureSynOn s c p).isSome) / 101 ∧
      ∀ p ∈ steps step Maps.empty events, CountsSyn s c p := by
  have counts := (syn_run (countersBelow_empty s) kept inserted).2
  obtain ⟨value, total⟩ := syn_totals c kept inserted
  exact ⟨value, by rw [List.length_flatMap]; exact total, fun p member => (counts p member).2 c⟩

/-- A pure SYN from 10.0.0.1 to port 80 of 10.0.0.2. -/
def synFrame : Frame := Frame.ofTcp ⟨10, 0, 0, 1⟩ ⟨10, 0, 0, 2⟩ 0 80 0x02

/-- The fields that the detectors see of it. -/
def synSegment : Segment := ⟨Quad.le ⟨10, 0, 0, 1⟩, Quad.le ⟨10, 0, 0, 2⟩, 80, true, false⟩

theorem inspected_synFrame : inspected .empty synFrame = some synSegment := rfl

theorem arrival_synFrame {maps : Maps} (cpu : Cpu) (kernel : Kernel)
    (entries : maps.blacklist = .empty) :
    arrival (maps, .packet cpu synFrame kernel) = some ⟨cpu, kernel, synSegment⟩ := by
  rw [arrival]
  simp only [entries, inspected_synFrame, Option.map_some]

/-- One pure SYN on CPU 0 and one on CPU 1: the first inserts, the second
increments the zero that the insertion left for CPU 1. -/
theorem synCounter_counts_two_cpus :
    let events := [Event.packet 0 synFrame (.ready 0), .packet 1 synFrame (.ready 1)]
    (slot (exec step Maps.empty events).synCounter (Quad.le ⟨10, 0, 0, 1⟩) 1).toNat =
        ((steps step Maps.empty events).countP
          fun p => (pureSynOn (Quad.le ⟨10, 0, 0, 1⟩) 1 p).isSome) % 101 ∧
      ((steps step Maps.empty events).countP
          fun p => (pureSynOn (Quad.le ⟨10, 0, 0, 1⟩) 1 p).isSome) = 1 := by
  intro events
  have inserted : FirstTime (TriesSynInsert (Quad.le ⟨10, 0, 0, 1⟩))
      (SynInserted (Quad.le ⟨10, 0, 0, 1⟩)) (steps step Maps.empty events) :=
    Or.inl ⟨⟨⟨0, ⟨0, .ready 0, _⟩, rfl⟩, rfl⟩, rfl⟩
  exact ⟨(synCounter_counts _ 1 events (by decide) inserted).1, by decide⟩

end EbpfNids.DataPlane
