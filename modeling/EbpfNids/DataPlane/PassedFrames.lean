import EbpfNids.DataPlane.Verdicts

/-!
# Which passed frames are accounted

The statistics are updated after the detectors have been run, and a TCP frame
that ends before its 20-byte header does is passed before either. So an IPv4
frame is passed without being accounted exactly when it is such a `ShortTcp`
frame, and the counters of a source are right exactly when it has sent none
(`passed_accounted_iff`).
-/

set_option autoImplicit false

namespace EbpfNids.DataPlane

open Library Library.Runs

/-! ## Passed frames and accounted frames -/

/-- The length of the frame, when the step passes a frame of the source with a
complete IPv4 header. -/
def passedFrom (s : UInt32) (p : Maps × Event) : Option ℕ :=
  match p.2 with
  | .packet cpu frame kernel =>
      if frame.HasIpHeader ∧ frame.saddr = s ∧
          (xdpFirewall kernel cpu frame p.1).verdict = .pass then
        some frame.length
      else none
  | _ => none

/-- A TCP frame of the source that is passed and ends before its TCP header
does. -/
def ShortTcp (s : UInt32) (p : Maps × Event) : Prop :=
  match p.2 with
  | .packet _ frame _ =>
      (passedFrom s p).isSome ∧ frame.protocol = 6 ∧
        frame.length < Frame.ethhdrSize + Frame.iphdrSize + Frame.tcphdrSize
  | _ => False

instance (s : UInt32) (p : Maps × Event) : Decidable (ShortTcp s p) := by
  unfold ShortTcp
  split
  · infer_instance
  · infer_instance

/-- The lengths of the frames of the source that a run passes. -/
def passedLengths (s : UInt32) (run : List (Maps × Event)) : List ℕ :=
  run.filterMap (passedFrom s)

/-- `update_flow_stats` is run for a frame of the source that has no entry. -/
def TriesFlowInsert (s : UInt32) (p : Maps × Event) : Prop :=
  (∃ cpu frame kernel size, p.2 = .packet cpu frame kernel ∧
    accounted p.1.blacklist frame = some (s, size)) ∧ p.1.flowStats.lookup s = none

/-- The source has an entry in `flow_stats` after the step. -/
def FlowInserted (s : UInt32) (p : Maps × Event) : Prop :=
  ((step p.1 p.2).flowStats.lookup s).isSome

/-- The counters of a source give the frames that the run has passed, and their
bytes as 64 bits hold them. -/
def CountersRight (s : UInt32) (run : List (Maps × Event)) (flowStats : FlowStatsMap) : Prop :=
  flowTotal .packets flowStats s = (passedLengths s run).length ∧
    flowTotal .bytes flowStats s = (passedLengths s run).sum % 2 ^ 64

/-! ## One step -/

section Step

variable {s : UInt32}

theorem passedFrom_packet (cpu : Cpu) (frame : Frame) (kernel : Kernel) (maps : Maps) :
    passedFrom s (maps, .packet cpu frame kernel) =
      if frame.HasIpHeader ∧ frame.saddr = s ∧ maps.blacklist.lookup s ≠ some 1 then
        some frame.length
      else none := by
  simp only [passedFrom, xdpFirewall_verdict, Blocked]
  by_cases header : frame.HasIpHeader
  · by_cases source : frame.saddr = s
    · subst source
      by_cases listed : maps.blacklist.lookup frame.saddr = some 1
      · simp [header, listed]
      · simp [header, listed]
    · simp [source]
  · simp [header]

theorem accounted_eq (blacklist : Blacklist) (frame : Frame) :
    accounted blacklist frame =
      if (frame.HasIpHeader ∧ blacklist.lookup frame.saddr ≠ some 1) ∧
          ¬ (frame.protocol = 6 ∧
            frame.length < Frame.ethhdrSize + Frame.iphdrSize + Frame.tcphdrSize) then
        some (frame.saddr, UInt64.ofNat frame.length)
      else none := by
  rw [accounted]
  apply if_congr _ rfl rfl
  rw [Frame.HasIpHeader, not_and, Nat.not_lt]
  constructor
  · rintro ⟨ip, complete, allowed, tcp⟩
    exact ⟨⟨⟨ip, complete⟩, allowed⟩, tcp⟩
  · rintro ⟨⟨⟨ip, complete⟩, allowed⟩, tcp⟩
    exact ⟨ip, complete, allowed, tcp⟩

variable {cpu : Cpu} {frame : Frame} {kernel : Kernel} {maps : Maps} {length : ℕ}

theorem accounted_of_passed (passed : passedFrom s (maps, .packet cpu frame kernel) = some length)
    (long : ¬ ShortTcp s (maps, .packet cpu frame kernel)) :
    accounted maps.blacklist frame = some (s, UInt64.ofNat length) := by
  have complete : ¬ (frame.protocol = 6 ∧
      frame.length < Frame.ethhdrSize + Frame.iphdrSize + Frame.tcphdrSize) := by
    intro short
    exact long ⟨by rw [passed]; rfl, short⟩
  rw [passedFrom_packet] at passed
  split at passed
  · rename_i conditions
    obtain ⟨header, rfl, allowed⟩ := conditions
    cases passed
    rw [accounted_eq, if_pos ⟨⟨header, allowed⟩, complete⟩]
  · cases passed

theorem accounted_of_shortTcp (short : ShortTcp s (maps, .packet cpu frame kernel)) :
    accounted maps.blacklist frame = none := by
  rw [accounted_eq, if_neg]
  intro conditions
  exact conditions.2 short.2

theorem accounted_ne_of_not_passed (passed : passedFrom s (maps, .packet cpu frame kernel) = none)
    (size : UInt64) : accounted maps.blacklist frame ≠ some (s, size) := by
  rw [passedFrom_packet] at passed
  rw [accounted_eq]
  split
  · rename_i conditions
    obtain ⟨⟨header, allowed⟩, -⟩ := conditions
    intro same
    obtain ⟨source, -⟩ := Prod.mk.inj (Option.some.inj same)
    rw [if_pos ⟨header, source, source ▸ allowed⟩] at passed
    cases passed
  · intro same
    cases same

/-- What a frame of a length adds to a counter. -/
def Meter.ofLength : Meter → ℕ → ℕ
  | packets, _ => 1
  | bytes, length => length

/-- What a step adds to a counter of the source. -/
def income (meter : Meter) (s : UInt32) (p : Maps × Event) : ℕ :=
  if ShortTcp s p then 0 else ((passedFrom s p).map meter.ofLength).getD 0

/-- A step counts its income for the source, if the first insertion of the source
succeeds. -/
theorem counted_eq_income {p : Maps × Event} (meter : Meter)
    (inserted : TriesFlowInsert s p → FlowInserted s p) :
    counted meter s p = income meter s p % 2 ^ 64 := by
  obtain ⟨maps, event⟩ := p
  cases event with
  | blacklistUpdate key value => simp [counted, income, passedFrom, ShortTcp]
  | mapDelete map key => simp [counted, income, passedFrom, ShortTcp]
  | packet cpu frame kernel =>
      by_cases short : ShortTcp s (maps, .packet cpu frame kernel)
      · simp only [counted, accounted_of_shortTcp short]
        rw [income, if_pos short, Nat.zero_mod]
      · cases passed : passedFrom s (maps, .packet cpu frame kernel) with
        | none =>
            rw [income, if_neg short, passed, Option.map_none, Option.getD_none, Nat.zero_mod]
            cases account : accounted maps.blacklist frame with
            | none => simp only [counted, account]
            | some entry =>
                have other : entry.1 ≠ s := by
                  rintro rfl
                  exact accounted_ne_of_not_passed passed entry.2 account
                simp only [counted, account]
                exact if_neg fun both => other both.1
        | some length =>
            have account := accounted_of_passed passed short
            have present : ((step maps (.packet cpu frame kernel)).flowStats.lookup s).isSome := by
              have flowStats : (step maps (.packet cpu frame kernel)).flowStats = _ :=
                xdpFirewall_flowStats kernel cpu frame maps
              rw [account] at flowStats
              simp only at flowStats
              rcases updateFlowStats_self kernel s (UInt64.ofNat length) maps.flowStats meter with
                ⟨-, absent⟩ | ⟨stats, stored, -⟩
              · exact inserted ⟨⟨cpu, frame, kernel, _, rfl, account⟩, absent⟩
              · rw [flowStats, stored, Option.isSome_some]
            rw [income, if_neg short, passed, Option.map_some, Option.getD_some]
            simp only [counted, account]
            rw [if_pos ⟨trivial, present⟩]
            cases meter with
            | packets => rfl
            | bytes => exact UInt64.toNat_ofNat'

/-- **Step lemma.** The counters of a source take in the frame that the step
passes, unless it is a `ShortTcp` frame. -/
theorem flowTotal_income {p : Maps × Event} (meter : Meter) (kept : p.2 ≠ .mapDelete .flowStats s)
    (inserted : TriesFlowInsert s p → FlowInserted s p) :
    flowTotal meter (step p.1 p.2).flowStats s =
      (flowTotal meter p.1.flowStats s + income meter s p) % 2 ^ 64 := by
  rw [(flowTotal_wraps meter s p).1 kept, counted_eq_income meter inserted, Nat.add_mod_mod]

theorem flow_entry_stays {p : Maps × Event} (kept : p.2 ≠ .mapDelete .flowStats s)
    (present : (p.1.flowStats.lookup s).isSome) : ((step p.1 p.2).flowStats.lookup s).isSome := by
  obtain ⟨maps, event⟩ := p
  cases event with
  | blacklistUpdate key value => exact present
  | mapDelete map key =>
      cases map <;> try exact present
      have different : s ≠ key := by
        rintro rfl
        exact kept rfl
      rw [show (step maps (.mapDelete .flowStats key)).flowStats =
          maps.flowStats.erase key from rfl, BoundedMap.lookup_erase_of_ne different]
      exact present
  | packet cpu frame kernel =>
      rw [show (step maps (.packet cpu frame kernel)).flowStats = _ from
        xdpFirewall_flowStats kernel cpu frame maps]
      cases account : accounted maps.blacklist frame with
      | none => exact present
      | some entry =>
          obtain ⟨srcIp, size⟩ := entry
          by_cases own : s = srcIp
          · subst own
            rcases updateFlowStats_self kernel s size maps.flowStats .packets with
              ⟨-, absent⟩ | ⟨stats, stored, -⟩
            · rw [absent] at present
              cases present
            · simp only [stored, Option.isSome_some]
          · simp only [updateFlowStats_of_ne own]
            exact present

end Step

/-! ## Runs -/

section Run

variable {s : UInt32} {events : List Event}

/-- **Run lemma.** The counters of a source are the incomes of the run. -/
theorem flowTotal_run (meter : Meter) (kept : .mapDelete .flowStats s ∉ events)
    (inserted : FirstTime (TriesFlowInsert s) (FlowInserted s) (steps step Maps.empty events)) :
    flowTotal meter (exec step Maps.empty events).flowStats s =
      ((steps step Maps.empty events).map (income meter s)).sum % 2 ^ 64 := by
  have keptStep : ∀ p ∈ steps step Maps.empty events, p.2 ≠ .mapDelete .flowStats s := by
    intro p member deleted
    exact kept (deleted ▸ event_mem_of_mem_steps step member)
  have every := FirstTime.forall_attempts
    (fun maps : Maps => (maps.flowStats.lookup s).isSome) inserted
    (fun p tries settled => by simp [tries.2] at settled) (fun _ _ success => success)
    (fun p member => flow_entry_stays (keptStep p member))
  have total := exec_wrapping (fun maps : Maps => flowTotal meter maps.flowStats s)
    (show flowTotal meter Maps.empty.flowStats s < 2 ^ 64 from Nat.two_pow_pos 64)
    fun p member => flowTotal_income meter (keptStep p member) (every p member)
  rwa [show flowTotal meter Maps.empty.flowStats s = 0 from rfl, Nat.zero_add] at total

theorem income_le (run : List (Maps × Event)) :
    (run.map (income .packets s)).sum + run.countP (fun p => ShortTcp s p) =
      (passedLengths s run).length := by
  induction run with
  | nil => rfl
  | cons p rest ih =>
      rw [List.map_cons, List.sum_cons, List.countP_cons, passedLengths, List.filterMap_cons,
        income]
      by_cases short : ShortTcp s p
      · have passed : (passedFrom s p).isSome := by
          obtain ⟨maps, event⟩ := p
          cases event with
          | packet cpu frame kernel => exact short.1
          | blacklistUpdate key value => exact short.elim
          | mapDelete map key => exact short.elim
        obtain ⟨length, passed⟩ := Option.isSome_iff_exists.mp passed
        rw [if_pos short, passed, List.length_cons, ← passedLengths, ← ih]
        simp [short]
        omega
      · rw [if_neg short]
        cases passed : passedFrom s p with
        | none =>
            rw [← passedLengths, ← ih]
            simp [short]
        | some length =>
            rw [List.length_cons, ← passedLengths, ← ih]
            simp [short, Meter.ofLength]
            omega

/-- Without `ShortTcp` frames the bytes are the lengths of the passed frames. -/
theorem income_bytes {run : List (Maps × Event)} (long : ∀ p ∈ run, ¬ ShortTcp s p) :
    (run.map (income .bytes s)).sum = (passedLengths s run).sum := by
  induction run with
  | nil => rfl
  | cons p rest ih =>
      have later := ih fun q member => long q (List.mem_cons_of_mem _ member)
      rw [List.map_cons, List.sum_cons, later, passedLengths, passedLengths, List.filterMap_cons,
        income, if_neg (long p List.mem_cons_self)]
      cases passed : passedFrom s p with
      | none => simp
      | some length => simp [Meter.ofLength]

end Run

/-- **Which sources are accounted right.** From empty maps, for a source whose
first insertion into `flow_stats` succeeds and whose entry is not deleted from
outside, the counters are right exactly when no TCP frame of the source that
ends before its header was passed, and 64 bits hold the number of its frames. -/
theorem passed_accounted_iff (s : UInt32) (events : List Event)
    (kept : .mapDelete .flowStats s ∉ events)
    (inserted : FirstTime (TriesFlowInsert s) (FlowInserted s) (steps step Maps.empty events)) :
    CountersRight s (steps step Maps.empty events) (exec step Maps.empty events).flowStats ↔
      (∀ p ∈ steps step Maps.empty events, ¬ ShortTcp s p) ∧
        (passedLengths s (steps step Maps.empty events)).length < 2 ^ 64 := by
  have parts := income_le (s := s) (steps step Maps.empty events)
  rw [CountersRight, flowTotal_run .packets kept inserted, flowTotal_run .bytes kept inserted]
  constructor
  · rintro ⟨packets, -⟩
    have wrapped := Nat.mod_le
      ((steps step Maps.empty events).map (income .packets s)).sum (2 ^ 64)
    have none : (steps step Maps.empty events).countP (fun p => ShortTcp s p) = 0 := by omega
    refine ⟨?_, ?_⟩
    · intro p member short
      exact List.countP_eq_zero.mp none p member (decide_eq_true short)
    · rw [← packets]
      exact Nat.mod_lt _ (Nat.two_pow_pos 64)
  · rintro ⟨long, fits⟩
    have none : (steps step Maps.empty events).countP (fun p => ShortTcp s p) = 0 := by
      rw [List.countP_eq_zero]
      intro p member short
      exact long p member (of_decide_eq_true short)
    rw [none, Nat.add_zero] at parts
    exact ⟨by rw [parts, Nat.mod_eq_of_lt fits], by rw [income_bytes long]⟩

/-- A pure SYN of 10.0.0.1, and its first 34 bytes, which end where the TCP
header should start. -/
def shortTcpRun : List Event :=
  [.packet 0 synFrame (.ready 0), .packet 0 (synFrame.take 34) (.ready 1)]

/-- The second frame is passed and not accounted. -/
theorem short_tcp_unaccounted :
    ¬ CountersRight (Quad.le ⟨10, 0, 0, 1⟩) (steps step Maps.empty shortTcpRun)
      (exec step Maps.empty shortTcpRun).flowStats := by
  rintro ⟨packets, -⟩
  revert packets
  decide

/-- Two whole frames are accounted: the first makes the entry, the second adds to it. -/
theorem passed_accounted_syn :
    let events := [Event.packet 0 synFrame (.ready 0), .packet 0 synFrame (.ready 1)]
    CountersRight (Quad.le ⟨10, 0, 0, 1⟩) (steps step Maps.empty events)
        (exec step Maps.empty events).flowStats ∧
      (passedLengths (Quad.le ⟨10, 0, 0, 1⟩) (steps step Maps.empty events)).length = 2 := by
  intro events
  have inserted : FirstTime (TriesFlowInsert (Quad.le ⟨10, 0, 0, 1⟩))
      (FlowInserted (Quad.le ⟨10, 0, 0, 1⟩)) (steps step Maps.empty events) :=
    Or.inl ⟨⟨⟨0, synFrame, .ready 0, _, rfl, rfl⟩, rfl⟩, rfl⟩
  exact ⟨(passed_accounted_iff (Quad.le ⟨10, 0, 0, 1⟩) events (by decide) inserted).mpr
    ⟨by decide, by decide⟩, by decide⟩

end EbpfNids.DataPlane
