import EbpfNids.DataPlane.SynFlood

/-!
# The SYN threshold and the rate of SYNs

`SYN_THRESHOLD` is documented in packets per second. A threshold on a rate
(`RateThreshold`) would report a source only when more than 100 of its pure
SYNs have been handled within the second that ends at the report. The detector
has no clock in its counter: it reports when a pure SYN meets a counter of 100,
however long the counter has taken to get there (`synAlerts_eq`). So the
threshold is a rate exactly in the runs in which every such counter has filled
up fast enough. Where entries are made at the first attempt and are not deleted,
these are the runs in which every 101st pure SYN of a source on a CPU comes within
the second of more than 100 of them (`rateThreshold_iff`).

The runs here are all runs from empty maps, with insertions that are refused
and entries that are deleted from outside.
-/

set_option autoImplicit false

namespace EbpfNids.DataPlane

open Library Library.Runs

/-! ## Windows of one second -/

/-- A second, in the nanoseconds of `bpf_ktime_get_ns`. -/
def nsPerSecond : ℕ := 1000000000

/-- When a pure SYN of the source was handled, if the step handles one. -/
def pureSynTime (s : UInt32) (p : Maps × Event) : Option ℕ :=
  ((arrival p).filter fun a => a.seg.pureSyn && a.seg.srcIp == s).map
    fun a => a.kernel.synTime.toNat

/-- The time lies in the second that ends at `t`. -/
def inSecond (t u : ℕ) : Bool := u ≤ t && t < u + nsPerSecond

/-- The pure SYNs of the source handled in the second that ends at `t`. -/
def synsInSecond (s : UInt32) (t : ℕ) (run : List (Maps × Event)) : ℕ :=
  run.countP fun p => (pureSynTime s p).any (inSecond t)

/-- The threshold of the run is a rate. -/
structure RateThreshold (run : List (Maps × Event)) : Prop where
  /-- A type-1 event follows more than 100 pure SYNs of its source in the second
  that ends at its time. -/
  window : ∀ before p after, run = before ++ p :: after → ∀ s c, ∀ evt ∈ synAlerts s c p,
    synThreshold.toNat < synsInSecond s evt.timestamp.toNat (before ++ [p])
  /-- A source with at most 100 pure SYNs in any second is never reported. -/
  slow : ∀ s, (∀ t, synsInSecond s t run ≤ synThreshold.toNat) →
    ∀ p ∈ run, ∀ c, synAlerts s c p = []

/-- A pure SYN that meets a counter of 100 comes with more than 100 pure SYNs of
its source in the second that ends at it. -/
def FillsInSecond (run : List (Maps × Event)) : Prop :=
  ∀ before p after, run = before ++ p :: after → ∀ s c a, pureSynOn s c p = some a →
    slot p.1.synCounter s c = synThreshold →
      synThreshold.toNat < synsInSecond s a.kernel.synTime.toNat (before ++ [p])

/-- The pure SYNs of a source on a CPU. -/
def pureSynsOn (s : UInt32) (c : Cpu) (run : List (Maps × Event)) : ℕ :=
  run.countP fun p => (pureSynOn s c p).isSome

/-- Every 101st pure SYN of a source on a CPU comes with more than 100 pure SYNs of
the source in the second that ends at it. -/
def RoundsInSecond (run : List (Maps × Event)) : Prop :=
  ∀ before p after, run = before ++ p :: after → ∀ s c a, pureSynOn s c p = some a →
    101 ∣ pureSynsOn s c (before ++ [p]) →
      synThreshold.toNat < synsInSecond s a.kernel.synTime.toNat (before ++ [p])

/-! ## When the detector reports -/

/-- A counter below 101 stays below 101 whatever happens. -/
theorem countersBelow_step {s : UInt32} {p : Maps × Event} (below : CountersBelow s p.1) :
    CountersBelow s (step p.1 p.2) := by
  intro c
  cases arrives : arrival p with
  | none =>
      by_cases deleted : p.2 = .mapDelete .synCounter s
      · rw [slot, deleted, step, Maps.delete, BoundedMap.lookup_erase_self]
        exact Nat.zero_lt_succ _
      · rw [slot, (step_of_no_arrival arrives s).2.1 deleted]
        exact below c
  | some a =>
      rw [(step_of_arrival arrives).1]
      by_cases own : a.seg.pureSyn = true ∧ a.seg.srcIp = s
      · obtain ⟨pure, rfl⟩ := own
        simp only [detectSyn, pure, if_true]
        by_cases here : (p.1.synCounter.lookup a.seg.srcIp).isSome ∨
            Stores a.kernel.synUpdate p.1.synCounter
        · rw [slot_checkSynFlood a.kernel a.cpu _ a.seg.dstIp c here (below a.cpu)]
          split
          · exact Nat.mod_lt _ (by decide)
          · exact below c
        · obtain ⟨absent, refused⟩ := not_or.mp here
          have absent := Option.not_isSome_iff_eq_none.mp absent
          rw [(checkSynFlood_absent a.kernel a.cpu _ a.seg.dstIp absent).1,
            bpfMapUpdateElem_refused refused absent]
          exact below c
      · rw [slot, (detectSyn_other a.kernel a.cpu c p.1.synCounter own).1]
        exact below c

/-- **Alert lemma.** The detector reports a source on a CPU when a pure SYN of it
meets a counter of 100 there. -/
theorem synAlerts_eq {s : UInt32} {p : Maps × Event} (below : CountersBelow s p.1) (c : Cpu) :
    synAlerts s c p =
      match pureSynOn s c p with
      | some a =>
          if slot p.1.synCounter s c = synThreshold then [⟨s, a.seg.dstIp, 1, a.kernel.synTime⟩]
          else []
      | none => [] := by
  cases arrives : arrival p with
  | none => rw [synAlerts, (step_of_no_arrival arrives s).1, pureSynOn, arrives]; rfl
  | some a =>
      rw [synAlerts, (step_of_arrival arrives).2.2, alertsBy_append, alertsBy_detectScan,
        List.append_nil]
      by_cases own : a.seg.pureSyn = true ∧ a.seg.srcIp = s
      · obtain ⟨pure, source⟩ := own
        have full : (slot p.1.synCounter s a.cpu).toNat + 1 = 101 ↔
            slot p.1.synCounter s a.cpu = synThreshold := by
          rw [← UInt64.toNat_inj]
          exact Nat.succ_inj
        simp only [detectSyn, pure, source, if_true]
        rw [alertsBy_checkSynFlood a.kernel a.cpu s a.seg.dstIp c (below a.cpu)]
        by_cases same : a.cpu = c
        · subst same
          rw [pureSynOn_eq_some.mpr ⟨arrives, pure, source, rfl⟩]
          simp only [full, true_and]
        · have other : pureSynOn s c p = none := by
            rw [Option.eq_none_iff_forall_ne_some]
            intro b counted
            obtain ⟨arrived, -, -, onCpu⟩ := pureSynOn_eq_some.mp counted
            exact same (Option.some.inj (arrives.symm.trans arrived) ▸ onCpu)
          rw [other, if_neg fun both => same both.1]
      · have other : pureSynOn s c p = none := by
          rw [Option.eq_none_iff_forall_ne_some]
          intro b counted
          obtain ⟨arrived, pure, source, -⟩ := pureSynOn_eq_some.mp counted
          cases Option.some.inj (arrives.symm.trans arrived)
          exact own ⟨pure, source⟩
        rw [other]
        exact (detectSyn_other a.kernel a.cpu c p.1.synCounter own).2

/-- A longer run has more pure SYNs in a second. -/
theorem synsInSecond_le {s : UInt32} {t : ℕ} {before after : List (Maps × Event)}
    {p : Maps × Event} :
    synsInSecond s t (before ++ [p]) ≤ synsInSecond s t (before ++ p :: after) := by
  apply List.Sublist.countP_le
  exact (List.singleton_sublist.mpr List.mem_cons_self).append_left before

/-- The threshold is a rate exactly when every pure SYN that meets a counter of 100
comes with more than 100 pure SYNs of its source within the second. -/
theorem rateThreshold_iff_fills (events : List Event) :
    RateThreshold (steps step Maps.empty events) ↔
      FillsInSecond (steps step Maps.empty events) := by
  have below : ∀ s, ∀ p ∈ steps step Maps.empty events, CountersBelow s p.1 := fun s =>
    steps_invariant (countersBelow_empty s) fun p _ => countersBelow_step
  constructor
  · intro rate before p after split s c a counted full
    have member : p ∈ steps step Maps.empty events := by
      rw [split]
      exact List.mem_append_right _ List.mem_cons_self
    apply rate.window before p after split s c ⟨s, a.seg.dstIp, 1, a.kernel.synTime⟩
    rw [synAlerts_eq (below s p member), counted]
    simp [full]
  · intro fills
    have window : ∀ before p after, steps step Maps.empty events = before ++ p :: after →
        ∀ s c, ∀ evt ∈ synAlerts s c p,
          synThreshold.toNat < synsInSecond s evt.timestamp.toNat (before ++ [p]) := by
      intro before p after split s c evt reported
      have member : p ∈ steps step Maps.empty events := by
        rw [split]
        exact List.mem_append_right _ List.mem_cons_self
      rw [synAlerts_eq (below s p member)] at reported
      cases counted : pureSynOn s c p with
      | none =>
          rw [counted] at reported
          cases reported
      | some a =>
          simp only [counted] at reported
          split at reported
          · rename_i full
            cases List.mem_singleton.mp reported
            exact fills before p after split s c a counted full
          · cases reported
    refine ⟨window, ?_⟩
    intro s slow p member c
    obtain ⟨before, after, split⟩ := List.append_of_mem member
    rw [List.eq_nil_iff_forall_not_mem]
    intro evt reported
    have many := window before p after split s c evt reported
    have few := slow evt.timestamp.toNat
    rw [split] at few
    exact absurd (Nat.lt_of_lt_of_le many synsInSecond_le) (Nat.not_lt.mpr few)

/-- A pure SYN that meets a counter of 100 is a 101st one. -/
theorem slot_full_iff {events : List Event} {before after : List (Maps × Event)}
    {p : Maps × Event} {s : UInt32} {c : Cpu} {a : Arrival}
    (split : steps step Maps.empty events = before ++ p :: after)
    (kept : .mapDelete .synCounter s ∉ events)
    (inserted : FirstTime (TriesSynInsert s) (SynInserted s) (steps step Maps.empty events))
    (counted : pureSynOn s c p = some a) :
    slot p.1.synCounter s c = synThreshold ↔ 101 ∣ pureSynsOn s c (before ++ [p]) := by
  rw [split] at inserted
  obtain ⟨first, rest, rfl, rfl, state⟩ := steps_before step split
  have value := (syn_totals c (fun deleted => kept (List.mem_append_left _ deleted))
    inserted.of_append).1
  rw [← state] at value
  have more : pureSynsOn s c (steps step Maps.empty first ++ [p]) =
      pureSynsOn s c (steps step Maps.empty first) + 1 := by
    rw [pureSynsOn, List.countP_append, List.countP_singleton, counted]
    rfl
  rw [← UInt64.toNat_inj, value, more, ← pureSynsOn]
  change pureSynsOn s c (steps step Maps.empty first) % 101 = 100 ↔ _
  omega

/-- **When the threshold is a rate.** In a run from empty maps the threshold is a
rate exactly when every pure SYN that meets a counter of 100 comes with more
than 100 pure SYNs of its source within the second. In a run in which the first
insertion of every source succeeds and no entry is deleted, these are the 101st
pure SYNs of a source on a CPU, the 202nd, and so on. -/
theorem rateThreshold_iff (events : List Event) :
    (RateThreshold (steps step Maps.empty events) ↔
        FillsInSecond (steps step Maps.empty events)) ∧
      ((∀ s, .mapDelete .synCounter s ∉ events) →
        (∀ s, FirstTime (TriesSynInsert s) (SynInserted s) (steps step Maps.empty events)) →
        (RateThreshold (steps step Maps.empty events) ↔
          RoundsInSecond (steps step Maps.empty events))) := by
  refine ⟨rateThreshold_iff_fills events, ?_⟩
  intro kept inserted
  rw [rateThreshold_iff_fills]
  constructor
  · intro fills before p after split s c a counted round
    exact fills before p after split s c a counted
      ((slot_full_iff split (kept s) (inserted s) counted).mpr round)
  · intro rounds before p after split s c a counted full
    exact rounds before p after split s c a counted
      ((slot_full_iff split (kept s) (inserted s) counted).mp full)

/-- Fifty pure SYNs of 10.0.0.1, and fifty-one more ten seconds later. -/
def slowSyns : List Event :=
  List.replicate 50 (.packet 0 synFrame (.ready 0)) ++
    List.replicate 51 (.packet 0 synFrame (.ready 10000000000))

/-- The packets of a run that were handled in the second that ends at `t`. -/
def packetsInSecond (t : ℕ) (events : List Event) : ℕ :=
  events.countP fun event =>
    match event with
    | .packet _ _ kernel => inSecond t kernel.synTime.toNat
    | _ => false

theorem synsInSecond_le_packets (s : UInt32) (t : ℕ) (start : Maps) (events : List Event) :
    synsInSecond s t (steps step start events) ≤ packetsInSecond t events := by
  rw [← steps_events step start events, packetsInSecond, List.countP_map, steps_events]
  apply List.countP_mono_left
  rintro ⟨maps, event⟩ - inside
  obtain ⟨u, time, within⟩ := (Option.any_eq_true ..).mp inside
  obtain ⟨a, arrived, rfl⟩ := Option.map_eq_some_iff.mp time
  have arrives := (Option.filter_eq_some_iff.mp arrived).1
  cases event with
  | packet cpu frame kernel =>
      obtain ⟨seg, -, rfl⟩ := Option.map_eq_some_iff.mp arrives
      exact within
  | blacklistUpdate key value => cases arrives
  | mapDelete map key => cases arrives

theorem packetsInSecond_slowSyns (t : ℕ) : packetsInSecond t slowSyns ≤ 51 := by
  rw [packetsInSecond, slowSyns, List.countP_append, List.countP_replicate, List.countP_replicate]
  show (if inSecond t 0 = true then 50 else 0) + (if inSecond t 10000000000 = true then 51 else 0) ≤
    51
  by_cases early : t < nsPerSecond
  · have notLate : inSecond t 10000000000 = false := by
      simp only [inSecond, nsPerSecond] at early ⊢
      simp
      omega
    rw [notLate, if_neg Bool.false_ne_true]
    split <;> decide
  · have notEarly : inSecond t 0 = false := by
      simp [inSecond, early]
    rw [notEarly, if_neg Bool.false_ne_true]
    split <;> decide

/-- The source is reported, with at most 51 of its SYNs in any second. -/
theorem slow_syns_reported : ¬ RateThreshold (steps step Maps.empty slowSyns) := by
  intro rate
  have packets : ∀ e ∈ slowSyns, ∃ kernel : Kernel, e = .packet 0 synFrame kernel ∧
      kernel.synUpdate = true := by
    intro e member
    rcases List.mem_append.mp member with early | late
    · exact ⟨_, List.eq_of_mem_replicate early, rfl⟩
    · exact ⟨_, List.eq_of_mem_replicate late, rfl⟩
  have silent := rate.slow synSegment.srcIp fun t =>
    calc synsInSecond synSegment.srcIp t (steps step Maps.empty slowSyns)
        ≤ packetsInSecond t slowSyns := synsInSecond_le_packets ..
      _ ≤ 51 := packetsInSecond_slowSyns t
      _ ≤ synThreshold.toNat := by decide
  have total := (flood_run 0 inspected_synFrame rfl packets).2
  have nothing : ((steps step Maps.empty slowSyns).map fun p =>
      (synAlerts synSegment.srcIp 0 p).length).sum = 0 := by
    apply List.sum_eq_zero
    intro n member
    obtain ⟨p, inRun, rfl⟩ := List.mem_map.mp member
    rw [silent p inRun 0, List.length_nil]
  rw [nothing] at total
  revert total
  decide

end EbpfNids.DataPlane
