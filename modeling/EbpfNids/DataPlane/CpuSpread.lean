import EbpfNids.DataPlane.RingLoss

/-!
# One counter for every CPU

`syn_counter` is a per-CPU map, and the threshold is compared with the counter
of the CPU that handles the packet. So how many alerts a source gets depends on
how its packets are spread over the CPUs: for every CPU the number of its pure
SYNs there divided by 101, rounded down (`synEvents_eq_sum`). It does not
depend on which CPUs these are, and on each CPU the source is reported before
its 101st pure SYN since the last report there is over (`alerts_by_cpu`).
-/

set_option autoImplicit false

namespace EbpfNids.DataPlane

open Library Library.Runs

/-! ## Packets and their CPUs -/

/-- A frame, with the answers of the kernel to the calls made for it. -/
structure Packet where
  frame : Frame
  kernel : Kernel
deriving DecidableEq, Repr

/-- The packets in order, each on the CPU that an assignment gives it. -/
def assign (cpuOf : ℕ → Cpu) (packets : List Packet) : List Event :=
  packets.mapIdx fun i packet => .packet (cpuOf i) packet.frame packet.kernel

/-- A pure SYN of the source, on the CPU. -/
def isSynOn (s : UInt32) (c : Cpu) : Event → Bool
  | .packet cpu frame _ =>
      (inspected .empty frame).any fun seg => seg.pureSyn && seg.srcIp == s && cpu == c
  | _ => false

/-- How many pure SYNs of the source there are on the CPU. -/
def synsOn (s : UInt32) (c : Cpu) (events : List Event) : ℕ := events.countP (isSynOn s c)

/-- The CPUs of a run. -/
def cpusOf (events : List Event) : Finset Cpu :=
  (events.filterMap fun event =>
    match event with
    | .packet cpu _ _ => some cpu
    | _ => none).toFinset

/-- The type-1 events that name the source in a run. -/
def synEvents (s : UInt32) (run : List (Maps × Event)) : List AlertEvent :=
  run.flatMap fun p => alertsOf 1 s (acts p)

/-- The pure SYNs of the source on a CPU since its last type-1 event there. -/
def synsSinceAlert (s : UInt32) (c : Cpu) (run : List (Maps × Event)) : ℕ :=
  (run.rtakeWhile fun p => (synAlerts s c p).isEmpty).countP fun p => (pureSynOn s c p).isSome

/-! ## Alerts by CPU -/

theorem length_alertsOf {alertType : UInt8} {s : UInt32} {cpus : Finset Cpu} {record : List Act}
    (onCpus : ∀ cpu evt placed, .bpfRingbufOutput cpu evt placed ∈ record → cpu ∈ cpus) :
    (alertsOf alertType s record).length =
      ∑ c ∈ cpus, (alertsBy alertType s c record).length := by
  induction record with
  | nil => simp [alertsOf, alertsBy]
  | cons act rest ih =>
      have later := ih fun cpu evt placed member =>
        onCpus cpu evt placed (List.mem_cons_of_mem _ member)
      rw [← List.singleton_append, alertsOf_append, List.length_append, later]
      simp only [alertsBy_append, List.length_append, Finset.sum_add_distrib]
      congr 1
      cases act with
      | bpfRingbufOutput cpu evt placed =>
          have inCpus := onCpus cpu evt placed List.mem_cons_self
          by_cases named : evt.alertType = alertType ∧ evt.srcIp = s
          · rw [Finset.sum_eq_single_of_mem cpu inCpus]
            · simp [alertsOf, alertsBy, named]
            · intro c _ different
              simp [alertsBy, Ne.symm different]
          · have none : ∀ c ∈ cpus,
                (alertsBy alertType s c [.bpfRingbufOutput cpu evt placed]).length = 0 := by
              intro c _
              have other : ¬ (evt.alertType = alertType ∧ evt.srcIp = s ∧ cpu = c) := fun all =>
                named ⟨all.1, all.2.1⟩
              simp [alertsBy, other]
            rw [Finset.sum_eq_zero none]
            simp [alertsOf, named]
      | _ => simp [alertsOf, alertsBy]

/-- An alert is output on the CPU of the packet. -/
theorem mem_cpusOf {p : Maps × Event} {events : List Event} (member : p.2 ∈ events) {cpu : Cpu}
    {evt : AlertEvent} {placed : Bool} (output : .bpfRingbufOutput cpu evt placed ∈ acts p) :
    cpu ∈ cpusOf events := by
  cases arrives : arrival p with
  | none =>
      rw [(step_of_no_arrival arrives 0).1] at output
      cases output
  | some a =>
      have onCpu : cpu = a.cpu := by
        rcases ((acts_of_arrival arrives).1 cpu evt placed).mp output with syn | scan
        · exact syn.2.1
        · exact scan.2.1
      obtain ⟨maps, event⟩ := p
      cases event with
      | packet c frame kernel =>
          obtain ⟨seg, -, rfl⟩ := Option.map_eq_some_iff.mp arrives
          subst onCpu
          exact List.mem_toFinset.mpr (List.mem_filterMap.mpr ⟨_, member, rfl⟩)
      | blacklistUpdate key value => cases arrives
      | mapDelete map key => cases arrives

theorem sum_map_sum {α : Type*} (cpus : Finset Cpu) (f : α → Cpu → ℕ) (l : List α) :
    (l.map fun a => ∑ c ∈ cpus, f a c).sum = ∑ c ∈ cpus, (l.map fun a => f a c).sum := by
  induction l with
  | nil => simp
  | cons a rest ih => simp [ih, Finset.sum_add_distrib]

/-! ## Runs of packets -/

section Run

variable {s : UInt32} {cpuOf : ℕ → Cpu} {packets : List Packet}

theorem packet_of_mem_assign {event : Event} (member : event ∈ assign cpuOf packets) :
    ∃ cpu frame kernel, event = .packet cpu frame kernel := by
  obtain ⟨i, inside, rfl⟩ := List.mem_mapIdx.mp member
  exact ⟨_, _, _, rfl⟩

/-- Packets leave `blacklist` empty. -/
theorem blacklist_empty_of_packets {events : List Event}
    (packets : ∀ e ∈ events, ∃ cpu frame kernel, e = .packet cpu frame kernel) :
    ∀ p ∈ steps step Maps.empty events, p.1.blacklist = .empty := by
  apply steps_invariant (P := fun maps : Maps => maps.blacklist = .empty) rfl
  intro p member same
  obtain ⟨cpu, frame, kernel, packet⟩ := packets p.2 (event_mem_of_mem_steps step member)
  rw [packet, step, xdpFirewall_blacklist, same]

theorem countP_pureSynOn (s : UInt32) (c : Cpu) {events : List Event}
    (packets : ∀ e ∈ events, ∃ cpu frame kernel, e = .packet cpu frame kernel) :
    ((steps step Maps.empty events).countP fun p => (pureSynOn s c p).isSome) =
      synsOn s c events := by
  rw [synsOn]
  conv_rhs => rw [← steps_events step Maps.empty events, List.countP_map]
  apply List.countP_congr
  rintro ⟨maps, event⟩ member
  have entries : maps.blacklist = .empty := blacklist_empty_of_packets packets _ member
  obtain ⟨cpu, frame, kernel, rfl⟩ := packets event (event_mem_of_mem_steps step member)
  simp only [pureSynOn, arrival, entries, Function.comp_apply, isSynOn]
  cases inspected .empty frame with
  | none => simp
  | some seg => simp [Option.filter]

/-- **The alerts of a source, CPU by CPU.** -/
theorem synEvents_eq_sum
    (inserted : FirstTime (TriesSynInsert s) (SynInserted s)
      (steps step Maps.empty (assign cpuOf packets))) :
    (synEvents s (steps step Maps.empty (assign cpuOf packets))).length =
      ∑ c ∈ cpusOf (assign cpuOf packets), synsOn s c (assign cpuOf packets) / 101 := by
  have kept : .mapDelete .synCounter s ∉ assign cpuOf packets := by
    intro member
    obtain ⟨cpu, frame, kernel, packet⟩ := packet_of_mem_assign member
    cases packet
  have byCpu : ∀ p ∈ steps step Maps.empty (assign cpuOf packets),
      (alertsOf 1 s (acts p)).length =
        ∑ c ∈ cpusOf (assign cpuOf packets), (synAlerts s c p).length :=
    fun p member => length_alertsOf fun cpu evt placed output =>
      mem_cpusOf (event_mem_of_mem_steps step member) output
  rw [synEvents, List.length_flatMap, List.map_congr_left byCpu, sum_map_sum]
  apply Finset.sum_congr rfl
  intro c _
  rw [(syn_totals c kept inserted).2, countP_pureSynOn s c fun e => packet_of_mem_assign]

/-- A CPU without packets has no pure SYNs. -/
theorem synsOn_eq_zero {c : Cpu} {events : List Event} (absent : c ∉ cpusOf events) :
    synsOn s c events = 0 := by
  rw [synsOn, List.countP_eq_zero]
  intro event member isSyn
  cases event with
  | packet cpu frame kernel =>
      obtain ⟨seg, -, onCpu⟩ := (Option.any_eq_true ..).mp isSyn
      simp only [Bool.and_eq_true, beq_iff_eq] at onCpu
      apply absent
      exact List.mem_toFinset.mpr (List.mem_filterMap.mpr ⟨_, member, by rw [onCpu.2]⟩)
  | blacklistUpdate key value => cases isSyn
  | mapDelete map key => cases isSyn

/-- The CPUs may be renamed. -/
theorem sum_synsOn_rename {events₁ events₂ : List Event} (rename : Equiv.Perm Cpu)
    (same : ∀ c, synsOn s (rename c) events₂ = synsOn s c events₁) :
    ∑ c ∈ cpusOf events₁, synsOn s c events₁ / 101 =
      ∑ c ∈ cpusOf events₂, synsOn s c events₂ / 101 := by
  have widen : ∀ (events : List Event) {cpus : Finset Cpu}, cpusOf events ⊆ cpus →
      ∑ c ∈ cpusOf events, synsOn s c events / 101 = ∑ c ∈ cpus, synsOn s c events / 101 := by
    intro events cpus included
    apply Finset.sum_subset included
    intro c _ absent
    rw [synsOn_eq_zero absent, Nat.zero_div]
  have images : (cpusOf events₁ ∪ (cpusOf events₂).map rename.symm.toEmbedding).map
      rename.toEmbedding = (cpusOf events₁).map rename.toEmbedding ∪ cpusOf events₂ := by
    rw [Finset.map_union, Finset.map_map]
    congr 1
    ext c
    simp
  have left : cpusOf events₁ ⊆
      cpusOf events₁ ∪ (cpusOf events₂).map rename.symm.toEmbedding := Finset.subset_union_left
  have right : cpusOf events₂ ⊆
      (cpusOf events₁).map rename.toEmbedding ∪ cpusOf events₂ := Finset.subset_union_right
  rw [widen events₁ left, widen events₂ right, ← images, Finset.sum_map]
  apply Finset.sum_congr rfl
  intro c _
  rw [Equiv.coe_toEmbedding, same]

/-- The counter on a CPU is the number of pure SYNs since the last alert. -/
theorem slot_eq_synsSinceAlert {events : List Event} (c : Cpu)
    (counts : ∀ p ∈ steps step Maps.empty events, CountersBelow s p.1 ∧ ∀ c, CountsSyn s c p) :
    (slot (exec step Maps.empty events).synCounter s c).toNat =
      synsSinceAlert s c (steps step Maps.empty events) := by
  induction events using List.reverseRecOn with
  | nil => rfl
  | append_singleton before event ih =>
      rw [steps_append] at counts
      have earlier := ih fun p member => counts p (List.mem_append_left _ member)
      obtain ⟨below, countsLast⟩ := counts (exec step Maps.empty before, event)
        (List.mem_append_right _ List.mem_cons_self)
      have last := countsLast c
      rw [exec_append, steps_append, exec_cons, exec_nil, steps_cons, steps_nil, synsSinceAlert]
      cases counted : pureSynOn s c (exec step Maps.empty before, event) with
      | none =>
          obtain ⟨next, silent⟩ := last.unchanged counted
          rw [List.rtakeWhile_concat_pos _ _ _ (by rw [silent]; rfl), List.countP_append, next,
            earlier, synsSinceAlert]
          simp [counted]
      | some a =>
          obtain ⟨next, alerts⟩ := last.counted a counted
          rw [next]
          by_cases full : (slot (exec step Maps.empty before).synCounter s c).toNat + 1 = 101
          · rw [if_pos full] at alerts
            rw [List.rtakeWhile_concat_neg _ _ _ (by simp [alerts]), full]
            rfl
          · rw [if_neg full] at alerts
            rw [List.rtakeWhile_concat_pos _ _ _ (by rw [alerts]; rfl), List.countP_append]
            have bounded : (slot (exec step Maps.empty before).synCounter s c).toNat < 101 :=
              below c
            have short : (slot (exec step Maps.empty before).synCounter s c).toNat + 1 < 101 := by
              omega
            rw [Nat.mod_eq_of_lt short, earlier, synsSinceAlert]
            simp [counted]

end Run

/-- **The alerts of a source depend on how many of its packets each CPU gets.**
From empty maps, when the first insertion of the source succeeds, the number of
its type-1 events is the sum over the CPUs of its pure SYNs there divided by
101. Two assignments that give every CPU as many of them, up to a renaming of
the CPUs, lead to the same number. And after every prefix of the run the source
has sent at most 100 pure SYNs on a CPU since its last type-1 event there. -/
theorem alerts_by_cpu (s : UInt32) (packets : List Packet) (cpuOf₁ cpuOf₂ : ℕ → Cpu)
    (inserted₁ : FirstTime (TriesSynInsert s) (SynInserted s)
      (steps step Maps.empty (assign cpuOf₁ packets)))
    (inserted₂ : FirstTime (TriesSynInsert s) (SynInserted s)
      (steps step Maps.empty (assign cpuOf₂ packets))) :
    (synEvents s (steps step Maps.empty (assign cpuOf₁ packets))).length =
        ∑ c ∈ cpusOf (assign cpuOf₁ packets), synsOn s c (assign cpuOf₁ packets) / 101 ∧
      ((∃ rename : Equiv.Perm Cpu, ∀ c,
          synsOn s (rename c) (assign cpuOf₂ packets) = synsOn s c (assign cpuOf₁ packets)) →
        (synEvents s (steps step Maps.empty (assign cpuOf₁ packets))).length =
          (synEvents s (steps step Maps.empty (assign cpuOf₂ packets))).length) ∧
      ∀ before after, assign cpuOf₁ packets = before ++ after → ∀ c,
        synsSinceAlert s c (steps step Maps.empty before) ≤ synThreshold.toNat := by
  refine ⟨synEvents_eq_sum inserted₁, ?_, ?_⟩
  · rintro ⟨rename, same⟩
    rw [synEvents_eq_sum inserted₁, synEvents_eq_sum inserted₂, sum_synsOn_rename rename same]
  · intro before after split c
    have kept : .mapDelete .synCounter s ∉ before := by
      intro member
      have inRun : Event.mapDelete .synCounter s ∈ assign cpuOf₁ packets := by
        rw [split]
        exact List.mem_append_left after member
      obtain ⟨cpu, frame, kernel, packet⟩ := packet_of_mem_assign inRun
      cases packet
    rw [split, steps_append] at inserted₁
    obtain ⟨below, counts⟩ := syn_run (countersBelow_empty s) kept inserted₁.of_append
    rw [← slot_eq_synsSinceAlert c counts]
    exact Nat.lt_succ_iff.mp (below c)

/-- Copies of a pure SYN of 10.0.0.1. -/
def synBurst (n : ℕ) : List Packet := List.replicate n ⟨synFrame, .ready 0⟩

theorem assign_synBurst_succ (cpuOf : ℕ → Cpu) (n : ℕ) :
    assign cpuOf (synBurst (n + 1)) =
      .packet (cpuOf 0) synFrame (.ready 0) :: assign (fun i => cpuOf (i + 1)) (synBurst n) := by
  rw [synBurst, List.replicate_succ, assign, List.mapIdx_cons]
  rfl

theorem inserted_synBurst (cpuOf : ℕ → Cpu) (n : ℕ) :
    FirstTime (TriesSynInsert synSegment.srcIp) (SynInserted synSegment.srcIp)
      (steps step Maps.empty (assign cpuOf (synBurst n))) := by
  cases n with
  | zero => trivial
  | succ n =>
      rw [assign_synBurst_succ]
      exact Or.inl ⟨⟨⟨cpuOf 0, ⟨cpuOf 0, .ready 0, synSegment⟩,
        pureSynOn_eq_some.mpr ⟨rfl, rfl, rfl, rfl⟩⟩, rfl⟩, rfl⟩

theorem synsOn_synBurst (c : Cpu) (cpuOf : ℕ → Cpu) (n : ℕ) :
    synsOn synSegment.srcIp c (assign cpuOf (synBurst n)) =
      (List.range n).countP fun i => cpuOf i == c := by
  induction n generalizing cpuOf with
  | zero => rfl
  | succ n ih =>
      rw [assign_synBurst_succ, synsOn, List.countP_cons, ← synsOn, ih, List.range_succ_eq_map,
        List.countP_cons, List.countP_map]
      congr 1

/-- The CPUs of a burst are those that the assignment names. -/
theorem cpusOf_synBurst (cpuOf : ℕ → Cpu) (n : ℕ) :
    cpusOf (assign cpuOf (synBurst n)) = ((List.range n).map cpuOf).toFinset := by
  induction n generalizing cpuOf with
  | zero => rfl
  | succ n ih =>
      rw [assign_synBurst_succ, List.range_succ_eq_map, List.map_cons, List.map_map,
        List.toFinset_cons]
      have later := ih fun i => cpuOf (i + 1)
      rw [cpusOf] at later ⊢
      simp only [List.filterMap_cons, List.toFinset_cons]
      exact congrArg (insert (cpuOf 0)) later

theorem length_synEvents_synBurst (cpuOf : ℕ → Cpu) (n : ℕ) :
    (synEvents synSegment.srcIp (steps step Maps.empty (assign cpuOf (synBurst n)))).length =
      ∑ c ∈ ((List.range n).map cpuOf).toFinset,
        ((List.range n).countP fun i => cpuOf i == c) / 101 := by
  rw [synEvents_eq_sum (inserted_synBurst cpuOf n), cpusOf_synBurst]
  simp only [synsOn_synBurst]

/-- A hundred and one pure SYNs on one CPU are reported, and the same packets
with the last on another CPU are not. -/
theorem spread_hides_flood :
    (synEvents synSegment.srcIp
        (steps step Maps.empty (assign (fun _ => 0) (synBurst 101)))).length ≠
      (synEvents synSegment.srcIp
        (steps step Maps.empty
          (assign (fun i => if i = 100 then 1 else 0) (synBurst 101)))).length := by
  rw [length_synEvents_synBurst, length_synEvents_synBurst]
  decide +kernel

/-- Two pure SYNs, on CPUs 0 and 1 and the other way round. -/
theorem alerts_by_cpu_two_syns :
    (synEvents synSegment.srcIp (steps step Maps.empty (assign id (synBurst 2)))).length =
      (synEvents synSegment.srcIp
        (steps step Maps.empty (assign (Equiv.swap 0 1) (synBurst 2)))).length :=
  (alerts_by_cpu synSegment.srcIp (synBurst 2) id (Equiv.swap 0 1) (inserted_synBurst _ 2)
    (inserted_synBurst _ 2)).2.1 ⟨Equiv.swap 0 1, fun c => by
      rw [synsOn_synBurst, synsOn_synBurst]
      simp only [beq_eq_decide, EmbeddingLike.apply_eq_iff_eq, id]⟩

end EbpfNids.DataPlane
