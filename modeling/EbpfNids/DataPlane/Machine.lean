import EbpfNids.Library.SharedMap
import EbpfNids.DataPlane.Accounting
import EbpfNids.DataPlane.PortScan

/-!
# The handler step by step on several CPUs

Every CPU runs the handler for one frame at a time. An execution is a sequence
of helper calls and writes in place, each of them atomic, and the steps of
different CPUs come in any order. `flow_stats` and `port_scan_map` never fill
up, and an insertion takes an element that has not been used before: an element
that has been replaced is not used again while a pointer still leads to it.
`check_syn_flood` has a map of its own and is left out.

An execution that no other CPU interrupts does to the two maps what
`xdpFirewall` does (`alone_refines`).
-/

set_option autoImplicit false

namespace EbpfNids.DataPlane

open Library Library.Runs

/-! ## Executions -/

/-- The next step of an execution, with the pointer that it holds. -/
inductive Pc where
  | scanLookup
  | scanUpdate
  | scanRelookup
  | scanMark (bitmap : ℕ)
  | scanCount (bitmap : ℕ)
  | scanOutput (bitmap : ℕ)
  | scanClear (bitmap : ℕ)
  | flowLookup
  | flowUpdate
  | flowBump (stats : ℕ)
deriving DecidableEq, Repr

structure Execution where
  srcIp : UInt32
  dstPort : UInt16
  pktSize : UInt64
  pc : Pc
deriving DecidableEq, Repr

/-- The execution for a frame, at its first step that uses one of the two maps.
There is none for a frame that is dropped or returned early. -/
def Execution.entry (blacklist : Blacklist) (frame : Frame) : Option Execution :=
  (accounted blacklist frame).map fun (srcIp, size) =>
    match inspected blacklist frame with
    | some seg => ⟨srcIp, seg.dstPort, size, if seg.syn then .scanLookup else .flowLookup⟩
    | none => ⟨srcIp, 0, size, .flowLookup⟩

/-- Where `check_port_scan` goes on with the bitmap of its source. -/
def Execution.onBitmap (e : Execution) (bitmap : ℕ) : Pc :=
  if e.dstPort.toNat < 1024 then .scanMark bitmap else .flowLookup

/-- Where it goes on with the count of the bits. -/
def Execution.onCount (bitmap : ℕ) (totalPorts : ℕ) : Pc :=
  if totalPorts > portScanThreshold then .scanOutput bitmap else .flowLookup

/-- Set the bit of a port below 1024. -/
def markPortBit (port : UInt16) (words : PortBitmap) : PortBitmap :=
  if low : port.toNat < 1024 then BitTable.setBit words (wordIdx low) (port.toNat % 64) else words

/-- The maps and the CPUs. The record, which no step reads, has the low ports
that were passed to `check_port_scan` for a source since its last type-2 event,
and the sizes of the executions of `update_flow_stats` for a source, the latest
first. -/
structure Machine where
  blacklist : Blacklist
  flowStats : SharedMap UInt32 FlowStats
  portScanMap : SharedMap UInt32 PortBitmap
  running : Cpu → Option Execution
  passed : UInt32 → List ℕ
  updates : UInt32 → List UInt64

namespace Machine

/-- Before any packet. -/
def start (blacklist : Blacklist) : Machine where
  blacklist := blacklist
  flowStats := .empty
  portScanMap := .empty
  running := fun _ => none
  passed := fun _ => []
  updates := fun _ => []

def goto (m : Machine) (cpu : Cpu) (e : Execution) (pc : Pc) : Machine :=
  { m with running := Function.update m.running cpu (some { e with pc := pc }) }

def finish (m : Machine) (cpu : Cpu) : Machine :=
  { m with running := Function.update m.running cpu none }

def pass (m : Machine) (e : Execution) : Machine :=
  { m with
    passed :=
      if e.dstPort.toNat < 1024 then
        Function.update m.passed e.srcIp (e.dstPort.toNat :: m.passed e.srcIp)
      else m.passed }

def updated (m : Machine) (e : Execution) : Machine :=
  { m with updates := Function.update m.updates e.srcIp (e.pktSize :: m.updates e.srcIp) }

/-- One step of an execution. -/
def advance (m : Machine) (cpu : Cpu) (e : Execution) : Machine :=
  match e.pc with
  | .scanLookup =>
      match m.portScanMap.index e.srcIp with
      | some bitmap => (m.pass e).goto cpu e (e.onBitmap bitmap)
      | none => (m.pass e).goto cpu e .scanUpdate
  | .scanUpdate =>
      { m with portScanMap := m.portScanMap.update e.srcIp fun _ => 0 }.goto cpu e .scanRelookup
  | .scanRelookup =>
      match m.portScanMap.index e.srcIp with
      | some bitmap => m.goto cpu e (e.onBitmap bitmap)
      | none => m.goto cpu e .flowLookup
  | .scanMark bitmap =>
      { m with portScanMap := m.portScanMap.modify bitmap (markPortBit e.dstPort) }.goto cpu e
        (.scanCount bitmap)
  | .scanCount bitmap =>
      match m.portScanMap.read bitmap with
      | some words => m.goto cpu e (Execution.onCount bitmap (totalPorts words))
      | none => m.goto cpu e .flowLookup
  | .scanOutput bitmap =>
      { m with passed := Function.update m.passed e.srcIp [] }.goto cpu e (.scanClear bitmap)
  | .scanClear bitmap =>
      { m with portScanMap := m.portScanMap.modify bitmap fun _ => fun _ => 0 }.goto cpu e
        .flowLookup
  | .flowLookup =>
      match m.flowStats.index e.srcIp with
      | some stats => m.goto cpu e (.flowBump stats)
      | none => m.goto cpu e .flowUpdate
  | .flowUpdate =>
      ({ m with flowStats := m.flowStats.update e.srcIp ⟨1, e.pktSize⟩ }.updated e).finish cpu
  | .flowBump stats =>
      ({ m with
        flowStats := m.flowStats.modify stats fun value =>
          ⟨value.pktCount + 1, value.byteCount + e.pktSize⟩ }.updated e).finish cpu

end Machine

/-- A CPU that is idle takes a frame, or one that is not makes a step. -/
inductive MachineEvent where
  | enter (cpu : Cpu) (frame : Frame)
  | advance (cpu : Cpu)
deriving DecidableEq, Repr

def machineStep (m : Machine) : MachineEvent → Machine
  | .enter cpu frame =>
      match m.running cpu with
      | none =>
          { m with running := Function.update m.running cpu (Execution.entry m.blacklist frame) }
      | some _ => m
  | .advance cpu =>
      match m.running cpu with
      | some e => m.advance cpu e
      | none => m

/-! ## An execution that is not interrupted -/

/-- The maps have the same entries. -/
def Agrees {V : Type} {capacity : ℕ} (m : SharedMap UInt32 V)
    (m' : BoundedMap UInt32 V capacity) : Prop :=
  ∀ key, m.value key = m'.lookup key

/-- Some steps of one CPU lead from `m` to `m'`. -/
def ReachesAlone (cpu : Cpu) (m m' : Machine) : Prop :=
  ∃ n, exec machineStep m (List.replicate n (.advance cpu)) = m'

namespace ReachesAlone

variable {cpu : Cpu} {m m' m'' : Machine} {e : Execution}

theorem refl (cpu : Cpu) (m : Machine) : ReachesAlone cpu m m := ⟨0, rfl⟩

theorem head (here : m.running cpu = some e) (later : ReachesAlone cpu (m.advance cpu e) m') :
    ReachesAlone cpu m m' := by
  obtain ⟨n, reached⟩ := later
  refine ⟨n + 1, ?_⟩
  rw [List.replicate_succ, exec_cons, machineStep, here]
  exact reached

theorem trans (first : ReachesAlone cpu m m') (second : ReachesAlone cpu m' m'') :
    ReachesAlone cpu m m'' := by
  obtain ⟨n, rfl⟩ := first
  obtain ⟨k, rfl⟩ := second
  exact ⟨n + k, by rw [List.replicate_add, exec_append]⟩

end ReachesAlone

section Alone

variable {kernel : Kernel} {cpu : Cpu} {m : Machine} {e : Execution}

/-- A step that goes on to `pc`, from a machine that may have changed. -/
theorem ReachesAlone.goto {m₁ m' : Machine} {pc : Pc} (here : m.running cpu = some e)
    (step : m.advance cpu e = m₁.goto cpu e pc)
    (later : ReachesAlone cpu (m₁.goto cpu e pc) m') : ReachesAlone cpu m m' :=
  .head here (step ▸ later)

@[simp] theorem goto_running (m : Machine) (cpu : Cpu) (e : Execution) (pc : Pc) :
    (m.goto cpu e pc).running cpu = some { e with pc := pc } := Function.update_self ..

/-- The steps of `update_flow_stats`. -/
theorem flow_alone {flowStats : FlowStatsMap} (here : m.running cpu = some e)
    (pc : e.pc = .flowLookup) (agrees : Agrees m.flowStats flowStats)
    (stores : Stores kernel.flowUpdate flowStats) :
    ∃ m', ReachesAlone cpu m m' ∧ m'.running cpu = none ∧
      Agrees m'.flowStats (updateFlowStats kernel e.srcIp e.pktSize flowStats) ∧
      m'.portScanMap = m.portScanMap := by
  have value := agrees e.srcIp
  cases found : m.flowStats.index e.srcIp with
  | some stats =>
      have step : m.advance cpu e = m.goto cpu e (.flowBump stats) := by
        rw [Machine.advance, pc]
        dsimp only
        rw [found]
      refine ⟨_, .goto here step (.head (goto_running ..) (.refl _ _)), Function.update_self ..,
        ?_, rfl⟩
      have present : m.flowStats.value e.srcIp ≠ none := by
        rw [Ne, SharedMap.value_eq_none, found]
        exact Option.some_ne_none _
      cases stored : flowStats.lookup e.srcIp with
      | none => exact absurd (value.trans stored) present
      | some old =>
          intro key
          rw [updateFlowStats, stored]
          by_cases own : key = e.srcIp
          · subst own
            rw [BoundedMap.lookup_modify_self, ← value]
            exact SharedMap.value_modify_of_index _ found
          · rw [BoundedMap.lookup_modify_of_ne own, ← agrees key]
            exact SharedMap.value_modify_of_ne _ fun shared =>
              own (m.flowStats.separate shared found)
  | none =>
      have step : m.advance cpu e = m.goto cpu e .flowUpdate := by
        rw [Machine.advance, pc]
        dsimp only
        rw [found]
      refine ⟨_, .goto here step (.head (goto_running ..) (.refl _ _)), Function.update_self ..,
        ?_, rfl⟩
      have absent : flowStats.lookup e.srcIp = none := by
        rw [← value, SharedMap.value_eq_none, found]
      intro key
      rw [updateFlowStats, absent]
      by_cases own : key = e.srcIp
      · subst own
        rw [bpfMapUpdateElem_stored stores absent]
        exact SharedMap.value_update_self ..
      · rw [bpfMapUpdateElem_of_ne own, ← agrees key]
        exact SharedMap.value_update_of_ne own

/-- What `check_port_scan` leaves of a bitmap. -/
def scanned (port : UInt16) (words : PortBitmap) : PortBitmap :=
  if port.toNat < 1024 then
    if totalPorts (markPortBit port words) > portScanThreshold then fun _ => 0
    else markPortBit port words
  else words

/-- The execution has come to `update_flow_stats`, and only the bitmap of its
source has changed, to `words`. -/
structure Scanned (cpu : Cpu) (e : Execution) (words : PortBitmap) (m m' : Machine) : Prop where
  running : m'.running cpu = some { e with pc := .flowLookup }
  flowStats : m'.flowStats = m.flowStats
  own : m'.portScanMap.value e.srcIp = some words
  others : ∀ key, key ≠ e.srcIp → m'.portScanMap.value key = m.portScanMap.value key

/-- A write in place to the bitmap of the source. -/
theorem modify_own {bitmap : ℕ} {words : PortBitmap} {portScanMap : SharedMap UInt32 PortBitmap}
    (f : PortBitmap → PortBitmap) (found : portScanMap.index e.srcIp = some bitmap)
    (value : portScanMap.value e.srcIp = some words) :
    (portScanMap.modify bitmap f).value e.srcIp = some (f words) ∧
      ∀ key, key ≠ e.srcIp → (portScanMap.modify bitmap f).value key = portScanMap.value key := by
  refine ⟨?_, ?_⟩
  · rw [SharedMap.value_modify_of_index _ found, value, Option.map_some]
  · intro key different
    exact SharedMap.value_modify_of_ne _ fun shared =>
      different (portScanMap.separate shared found)

/-- The count of the bits, and the alert. -/
theorem count_alone {bitmap : ℕ} {words : PortBitmap} (here : m.running cpu = some e)
    (pc : e.pc = .scanCount bitmap) (found : m.portScanMap.index e.srcIp = some bitmap)
    (value : m.portScanMap.value e.srcIp = some words) :
    ∃ m', ReachesAlone cpu m m' ∧
      Scanned cpu e (if totalPorts words > portScanThreshold then fun _ => 0 else words) m m' := by
  have step : m.advance cpu e = m.goto cpu e (Execution.onCount bitmap (totalPorts words)) := by
    rw [Machine.advance, pc]
    dsimp only
    rw [← SharedMap.value_of_index found, value]
  by_cases exceeds : totalPorts words > portScanThreshold
  · rw [Execution.onCount, if_pos exceeds] at step
    rw [if_pos exceeds]
    obtain ⟨own, others⟩ := modify_own (fun _ => fun _ => 0) found value
    exact ⟨_, .goto here step (.head (goto_running ..) (.head (goto_running ..) (.refl _ _))),
      ⟨goto_running .., rfl, own, others⟩⟩
  · rw [Execution.onCount, if_neg exceeds] at step
    rw [if_neg exceeds]
    exact ⟨_, .goto here step (.refl _ _), ⟨goto_running .., rfl, value, fun _ _ => rfl⟩⟩

/-- What follows a lookup that has found the bitmap. -/
theorem onBitmap_alone {bitmap : ℕ} {words : PortBitmap}
    (here : m.running cpu = some { e with pc := e.onBitmap bitmap })
    (found : m.portScanMap.index e.srcIp = some bitmap)
    (value : m.portScanMap.value e.srcIp = some words) :
    ∃ m', ReachesAlone cpu m m' ∧ Scanned cpu e (scanned e.dstPort words) m m' := by
  rw [scanned]
  by_cases low : e.dstPort.toNat < 1024
  · rw [Execution.onBitmap, if_pos low] at here
    rw [if_pos low]
    obtain ⟨own, others⟩ := modify_own (markPortBit e.dstPort) found value
    obtain ⟨m', reaches, done⟩ := count_alone (goto_running { m with
      portScanMap := m.portScanMap.modify bitmap (markPortBit e.dstPort) } cpu e
      (.scanCount bitmap)) rfl found own
    exact ⟨m', .goto here rfl reaches, ⟨done.running, done.flowStats, done.own,
      fun key different => (done.others key different).trans (others key different)⟩⟩
  · rw [Execution.onBitmap, if_neg low] at here
    rw [if_neg low]
    exact ⟨m, .refl _ _, ⟨here, rfl, value, fun _ _ => rfl⟩⟩

/-- The steps of `check_port_scan`. -/
theorem scan_alone (here : m.running cpu = some e) (pc : e.pc = .scanLookup) :
    ∃ m', ReachesAlone cpu m m' ∧
      Scanned cpu e (scanned e.dstPort ((m.portScanMap.value e.srcIp).getD fun _ => 0)) m m' := by
  cases found : m.portScanMap.index e.srcIp with
  | some bitmap =>
      have step : m.advance cpu e = (m.pass e).goto cpu e (e.onBitmap bitmap) := by
        rw [Machine.advance, pc]
        dsimp only
        rw [found]
      cases value : m.portScanMap.value e.srcIp with
      | none => cases found.symm.trans (SharedMap.value_eq_none.mp value)
      | some words =>
          obtain ⟨m', reaches, done⟩ := onBitmap_alone
            (goto_running (m.pass e) cpu e (e.onBitmap bitmap)) found value
          exact ⟨m', .goto here step reaches, done.running, done.flowStats, done.own, done.others⟩
  | none =>
      have step : m.advance cpu e = (m.pass e).goto cpu e .scanUpdate := by
        rw [Machine.advance, pc]
        dsimp only
        rw [found]
      rw [SharedMap.value_eq_none.mpr found, Option.getD_none]
      let made : Machine := { (m.pass e).goto cpu e .scanUpdate with
        portScanMap := m.portScanMap.update e.srcIp fun _ => 0 }
      let relooks : Machine := made.goto cpu e .scanRelookup
      have again : relooks.advance cpu { e with pc := .scanRelookup } =
          relooks.goto cpu e (e.onBitmap m.portScanMap.elems.length) := by
        rw [Machine.advance]
        dsimp only [relooks, made, Machine.goto]
        rw [SharedMap.index_update_self]
        rfl
      obtain ⟨m', reaches, done⟩ := onBitmap_alone
        (goto_running relooks cpu e (e.onBitmap m.portScanMap.elems.length))
        (SharedMap.index_update_self ..) (SharedMap.value_update_self ..)
      have updates : ReachesAlone cpu (made.goto cpu e .scanRelookup) m' :=
        .goto (goto_running ..) again reaches
      have inserts : ReachesAlone cpu ((m.pass e).goto cpu e .scanUpdate) m' :=
        .goto (goto_running ..) rfl updates
      refine ⟨m', .goto here step inserts, done.running, done.flowStats, done.own, ?_⟩
      intro key different
      exact (done.others key different).trans (SharedMap.value_update_of_ne different)

theorem checkPortScan_scanned (dstIp : UInt32) (dstPort : UInt16) (srcIp : UInt32)
    {portScanMap : PortScanMap} (stores : Stores kernel.scanUpdate portScanMap) :
    (checkPortScan kernel cpu srcIp dstIp dstPort portScanMap).1.lookup srcIp =
      some (scanned dstPort (storedBitmap portScanMap srcIp)) := by
  have found := withEntry_lookup kernel srcIp (Or.inr stores)
  rw [checkPortScan_eq, markPort, scanned]
  simp only [found, markPortBit]
  by_cases low : dstPort.toNat < 1024
  · simp only [low, dif_pos, if_true]
    split
    · rw [BoundedMap.lookup_modify_self, found]
      rfl
    · rw [BoundedMap.lookup_modify_self, found]
      rfl
  · simp only [low, dif_neg, not_false_eq_true, if_false]
    exact found

theorem machineStep_enter {frame : Frame} (idle : m.running cpu = none)
    (entry : Execution.entry m.blacklist frame = some e) :
    machineStep m (.enter cpu frame) = m.goto cpu e e.pc := by
  rw [machineStep, idle, entry]
  rfl

/-- A frame that reaches the detectors is accounted. -/
theorem accounted_of_inspected {blacklist : Blacklist} {frame : Frame} {seg : Segment}
    (inside : inspected blacklist frame = some seg) :
    accounted blacklist frame = some (seg.srcIp, UInt64.ofNat frame.length) := by
  rw [inspected] at inside
  split at inside
  · rename_i inspects
    obtain ⟨ip, allowed, -, complete⟩ := inspects
    obtain rfl := Option.some.inj inside
    exact if_pos ⟨ip, by omega, allowed, fun _ => complete⟩
  · cases inside

/-- `check_port_scan` and then `update_flow_stats`. -/
theorem scan_flow_alone {flowStats : FlowStatsMap} {portScanMap : PortScanMap}
    (here : m.running cpu = some e) (pc : e.pc = .scanLookup)
    (flows : Agrees m.flowStats flowStats) (scans : Agrees m.portScanMap portScanMap)
    (flowRoom : Stores kernel.flowUpdate flowStats)
    (scanRoom : Stores kernel.scanUpdate portScanMap) (dstIp : UInt32) :
    ∃ m', ReachesAlone cpu m m' ∧ m'.running cpu = none ∧
      Agrees m'.flowStats (updateFlowStats kernel e.srcIp e.pktSize flowStats) ∧
      Agrees m'.portScanMap (checkPortScan kernel cpu e.srcIp dstIp e.dstPort portScanMap).1 := by
  obtain ⟨m₁, first, done⟩ := scan_alone here pc
  have flows₁ : Agrees m₁.flowStats flowStats := by
    rw [done.flowStats]
    exact flows
  obtain ⟨m₂, second, finished, flows₂, kept⟩ := flow_alone done.running rfl flows₁ flowRoom
  refine ⟨m₂, first.trans second, finished, flows₂, ?_⟩
  intro key
  rw [kept]
  by_cases own : key = e.srcIp
  · subst own
    rw [checkPortScan_scanned dstIp e.dstPort e.srcIp scanRoom, done.own, scans e.srcIp]
    rfl
  · rw [checkPortScan_of_ne _ _ _ _ _ own, done.others key own]
    exact scans key

/-- **An execution that is not interrupted does what `xdpFirewall` does.** On an
idle CPU, over the same entries and with room for new ones, the frame is taken
and handled to its end, with the same entries afterwards. -/
theorem alone_refines {maps : Maps} (blacklist : m.blacklist = maps.blacklist)
    (flows : Agrees m.flowStats maps.flowStats) (scans : Agrees m.portScanMap maps.portScanMap)
    (idle : m.running cpu = none) (flowRoom : Stores kernel.flowUpdate maps.flowStats)
    (scanRoom : Stores kernel.scanUpdate maps.portScanMap) (frame : Frame) :
    ∃ m', ReachesAlone cpu (machineStep m (.enter cpu frame)) m' ∧ m'.running cpu = none ∧
      Agrees m'.flowStats (xdpFirewall kernel cpu frame maps).maps.flowStats ∧
      Agrees m'.portScanMap (xdpFirewall kernel cpu frame maps).maps.portScanMap := by
  have flowStats := xdpFirewall_flowStats kernel cpu frame maps
  cases inside : inspected maps.blacklist frame with
  | none =>
      rw [(xdpFirewall_uninspected kernel cpu frame maps inside).2.1]
      cases account : accounted maps.blacklist frame with
      | none =>
          rw [account] at flowStats
          have entry : Execution.entry m.blacklist frame = none := by
            rw [Execution.entry, blacklist, account, Option.map_none]
          rw [machineStep, idle, entry, flowStats]
          exact ⟨_, .refl _ _, Function.update_self .., flows, scans⟩
      | some call =>
          rw [account] at flowStats
          have entry : Execution.entry m.blacklist frame =
              some ⟨call.1, 0, call.2, .flowLookup⟩ := by
            rw [Execution.entry, blacklist, account, Option.map_some, inside]
          rw [machineStep_enter idle entry, flowStats]
          obtain ⟨m', reaches, finished, flows', kept⟩ := flow_alone
            (goto_running m cpu ⟨call.1, 0, call.2, .flowLookup⟩ .flowLookup) rfl flows flowRoom
          exact ⟨m', reaches, finished, flows', kept ▸ scans⟩
  | some seg =>
      have account := accounted_of_inspected inside
      have entry : Execution.entry m.blacklist frame = some ⟨seg.srcIp, seg.dstPort,
          UInt64.ofNat frame.length, if seg.syn then .scanLookup else .flowLookup⟩ := by
        rw [Execution.entry, blacklist, account, Option.map_some, inside]
      rw [account] at flowStats
      rw [machineStep_enter idle entry, flowStats,
        (xdpFirewall_inspected kernel cpu frame maps inside).2.1, detectScan]
      by_cases syn : seg.syn = true
      · rw [if_pos syn, if_pos syn]
        exact scan_flow_alone (goto_running ..) rfl flows scans flowRoom scanRoom seg.dstIp
      · rw [if_neg syn, if_neg syn]
        obtain ⟨m', reaches, finished, flows', kept⟩ := flow_alone
          (goto_running m cpu ⟨seg.srcIp, seg.dstPort, UInt64.ofNat frame.length, .flowLookup⟩
            .flowLookup) rfl flows flowRoom
        exact ⟨m', reaches, finished, flows', kept ▸ scans⟩

end Alone

end EbpfNids.DataPlane
