import EbpfNids.DataPlane.Firewall

/-!
# What `flow_stats` counts

The handler runs `update_flow_stats` for the frames that `accounted` names. A
source's total of packets or of bytes then goes up by what the frame counts
for, if the source has or gets an entry, and only a deletion from outside takes
it down (`flowTotal_step`).
-/

set_option autoImplicit false

namespace EbpfNids.DataPlane

open Library Library.Runs

/-- The source and the size with which `update_flow_stats` is run for a frame. -/
def accounted (blacklist : Blacklist) (frame : Frame) : Option (UInt32 × UInt64) :=
  if frame.isIp = true ∧ Frame.ethhdrSize + Frame.iphdrSize ≤ frame.length ∧
      blacklist.lookup frame.saddr ≠ some 1 ∧
      (frame.protocol = 6 →
        Frame.ethhdrSize + Frame.iphdrSize + Frame.tcphdrSize ≤ frame.length) then
    some (frame.saddr, UInt64.ofNat frame.length)
  else none

theorem xdpFirewall_flowStats (kernel : Kernel) (cpu : Cpu) (frame : Frame) (maps : Maps) :
    (xdpFirewall kernel cpu frame maps).maps.flowStats =
      match accounted maps.blacklist frame with
      | some (srcIp, size) => updateFlowStats kernel srcIp size maps.flowStats
      | none => maps.flowStats := by
  rw [xdpFirewall, accounted]
  by_cases short : frame.length < Frame.ethhdrSize
  · have incomplete : ¬ Frame.ethhdrSize + Frame.iphdrSize ≤ frame.length := by omega
    simp [short, incomplete]
  · cases ip : frame.isIp with
    | false => simp [short]
    | true =>
        by_cases shortIp : frame.length < Frame.ethhdrSize + Frame.iphdrSize
        · simp [short, shortIp, Nat.not_le.mpr shortIp]
        · by_cases blocked : maps.blacklist.lookup frame.saddr = some 1
          · simp [short, shortIp, blocked]
          · by_cases tcp : frame.protocol = 6
            · by_cases shortTcp : frame.length <
                  Frame.ethhdrSize + Frame.iphdrSize + Frame.tcphdrSize
              · simp [short, shortIp, blocked, tcp, shortTcp, Nat.not_le.mpr shortTcp]
              · simp [short, shortIp, blocked, tcp, shortTcp, Nat.not_lt.mp shortIp,
                  Nat.not_lt.mp shortTcp]
            · simp [short, shortIp, blocked, tcp, Nat.not_lt.mp shortIp]

/-! ## Packets and bytes -/

/-- The two counters of an entry. -/
inductive Meter where
  | packets
  | bytes
deriving DecidableEq, Repr

namespace Meter

def read : Meter → FlowStats → UInt64
  | packets, stats => stats.pktCount
  | bytes, stats => stats.byteCount

/-- What a frame of a size counts for. -/
def amount : Meter → UInt64 → UInt64
  | packets, _ => 1
  | bytes, size => size

end Meter

/-- The total of a source, zero while it has no entry. -/
def flowTotal (meter : Meter) (flowStats : FlowStatsMap) (ip : UInt32) : ℕ :=
  ((flowStats.lookup ip).map fun stats => (meter.read stats).toNat).getD 0

/-- What a step counts for a source: the amount of its frame, if the source has
an entry afterwards. -/
def counted (meter : Meter) (ip : UInt32) (p : Maps × Event) : ℕ :=
  match p.2 with
  | .packet _ frame _ =>
      match accounted p.1.blacklist frame with
      | some (srcIp, size) =>
          if srcIp = ip ∧ ((step p.1 p.2).flowStats.lookup ip).isSome then
            (meter.amount size).toNat
          else 0
      | none => 0
  | _ => 0

/-- The counters of a source do not overflow in a step. -/
def CountersFit (ip : UInt32) (p : Maps × Event) : Prop :=
  ∀ meter, flowTotal meter p.1.flowStats ip + counted meter ip p < 2 ^ 64

theorem flowTotal_of_lookup_eq {meter : Meter} {m m' : FlowStatsMap} {ip : UInt32}
    (same : m'.lookup ip = m.lookup ip) : flowTotal meter m' ip = flowTotal meter m ip := by
  rw [flowTotal, same, flowTotal]

section Update

variable {kernel : Kernel} {srcIp : UInt32} {size : UInt64} {m : FlowStatsMap}

theorem updateFlowStats_of_ne {ip : UInt32} (different : ip ≠ srcIp) :
    (updateFlowStats kernel srcIp size m).lookup ip = m.lookup ip := by
  rw [updateFlowStats]
  split
  · exact BoundedMap.lookup_modify_of_ne different
  · exact bpfMapUpdateElem_of_ne different

/-- The entry of the source of the call takes in the frame, or there is none. -/
theorem updateFlowStats_self (kernel : Kernel) (srcIp : UInt32) (size : UInt64)
    (m : FlowStatsMap) (meter : Meter) :
    (updateFlowStats kernel srcIp size m).lookup srcIp = none ∧ m.lookup srcIp = none ∨
      ∃ stats, (updateFlowStats kernel srcIp size m).lookup srcIp = some stats ∧
        meter.read stats =
          ((m.lookup srcIp).map meter.read).getD 0 + meter.amount size := by
  rw [updateFlowStats]
  cases found : m.lookup srcIp with
  | some stats =>
      right
      refine ⟨_, by rw [BoundedMap.lookup_modify_self, found]; rfl, ?_⟩
      cases meter with
      | packets => rfl
      | bytes => rfl
  | none =>
      by_cases room : Stores kernel.flowUpdate m
      · right
        refine ⟨_, bpfMapUpdateElem_stored room found, ?_⟩
        cases meter with
        | packets => rfl
        | bytes => exact (UInt64.zero_add size).symm
      · exact Or.inl ⟨by dsimp only; rw [bpfMapUpdateElem_refused room found, found], rfl⟩

end Update

theorem flowTotal_lt (meter : Meter) (flowStats : FlowStatsMap) (ip : UInt32) :
    flowTotal meter flowStats ip < 2 ^ 64 := by
  rw [flowTotal]
  cases flowStats.lookup ip with
  | none => exact Nat.two_pow_pos 64
  | some stats => exact (meter.read stats).toNat_lt

/-- **Step lemma.** The total of a source goes up by what the step counts for
it, modulo `2 ^ 64`, unless its entry is deleted from outside, which leaves
zero. -/
theorem flowTotal_wraps (meter : Meter) (ip : UInt32) (p : Maps × Event) :
    (p.2 ≠ .mapDelete .flowStats ip →
      flowTotal meter (step p.1 p.2).flowStats ip =
        (flowTotal meter p.1.flowStats ip + counted meter ip p) % 2 ^ 64) ∧
      (p.2 = .mapDelete .flowStats ip → flowTotal meter (step p.1 p.2).flowStats ip = 0) := by
  obtain ⟨maps, event⟩ := p
  have unchanged : (step maps event).flowStats.lookup ip = maps.flowStats.lookup ip →
      flowTotal meter (step maps event).flowStats ip =
        (flowTotal meter maps.flowStats ip + 0) % 2 ^ 64 := by
    intro same
    rw [flowTotal_of_lookup_eq same, Nat.add_zero, Nat.mod_eq_of_lt (flowTotal_lt ..)]
  cases event with
  | blacklistUpdate key value =>
      refine ⟨fun _ => unchanged rfl, ?_⟩
      intro deletes
      cases deletes
  | mapDelete map key =>
      constructor
      · intro kept
        apply unchanged
        cases map <;> try rfl
        apply BoundedMap.lookup_erase_of_ne
        rintro rfl
        exact kept rfl
      · rintro ⟨⟩
        rw [flowTotal, step, Maps.delete, BoundedMap.lookup_erase_self]
        rfl
  | packet cpu frame kernel =>
      refine ⟨?_, fun deletes => by cases deletes⟩
      intro _
      have flowStats := xdpFirewall_flowStats kernel cpu frame maps
      simp only [counted, step, flowStats] at unchanged ⊢
      cases account : accounted maps.blacklist frame with
      | none =>
          rw [account] at unchanged
          exact unchanged rfl
      | some entry =>
          obtain ⟨srcIp, size⟩ := entry
          simp only [account] at unchanged ⊢
          by_cases own : srcIp = ip
          · subst own
            rcases updateFlowStats_self kernel srcIp size maps.flowStats meter with
              ⟨refused, absent⟩ | ⟨stats, stored, value⟩
            · simp [flowTotal, refused, absent]
            · simp only [stored, Option.isSome_some, and_self, if_true]
              rw [flowTotal, stored, Option.map_some, Option.getD_some, value, UInt64.toNat_add]
              have before : (((maps.flowStats.lookup srcIp).map meter.read).getD 0).toNat =
                  flowTotal meter maps.flowStats srcIp := by
                rw [flowTotal]
                cases maps.flowStats.lookup srcIp with
                | none => rfl
                | some stats => rfl
              rw [before]
          · rw [if_neg fun both => own both.1]
            exact unchanged (updateFlowStats_of_ne (Ne.symm own))

/-- In a step that does not overflow them the counters add up. -/
theorem flowTotal_step (meter : Meter) {ip : UInt32} {p : Maps × Event} (fits : CountersFit ip p) :
    (p.2 ≠ .mapDelete .flowStats ip →
      flowTotal meter (step p.1 p.2).flowStats ip =
        flowTotal meter p.1.flowStats ip + counted meter ip p) ∧
      (p.2 = .mapDelete .flowStats ip → flowTotal meter (step p.1 p.2).flowStats ip = 0) := by
  obtain ⟨kept, deleted⟩ := flowTotal_wraps meter ip p
  exact ⟨fun stays => (kept stays).trans (Nat.mod_eq_of_lt (fits meter)), deleted⟩

end EbpfNids.DataPlane
