import EbpfNids.Library.Runs
import EbpfNids.DataPlane.Frame
import EbpfNids.DataPlane.Detectors

/-!
# The packet handler and its runs

`xdpFirewall` handles one frame on one CPU. It drops the frames of blacklisted
sources, runs the detectors on complete TCP headers, and accounts what it
passes. `inspected` says which frames get as far as the detectors and with
which header fields; the maps of the detectors after a packet, and the record of
the packet, are then given by one equation each (`xdpFirewall_inspected`,
`xdpFirewall_uninspected`).

A run interleaves packets on any CPUs with what happens to the maps from
outside: the control plane writes `blacklist`, and the map cleaner deletes
entries of any map.
-/

set_option autoImplicit false

namespace EbpfNids.DataPlane

open Library Library.Runs

/-! ## The handler -/

inductive Verdict where
  | pass
  | drop
deriving DecidableEq, Repr

structure Maps where
  blacklist : Blacklist
  flowStats : FlowStatsMap
  synCounter : SynCounter
  portScanMap : PortScanMap

/-- What the handler leaves behind: its verdict, the maps, and its record. -/
structure Outcome where
  verdict : Verdict
  maps : Maps
  acts : List Act

def xdpFirewall (kernel : Kernel) (cpu : Cpu) (frame : Frame) (maps : Maps) : Outcome :=
  if frame.length < Frame.ethhdrSize then ⟨.pass, maps, []⟩
  else if !frame.isIp then ⟨.pass, maps, []⟩
  else
    let ip := Frame.ethhdrSize
    if frame.length < ip + Frame.iphdrSize then ⟨.pass, maps, []⟩
    else
      let srcIp := frame.saddr
      let dstIp := frame.daddr
      if maps.blacklist.lookup srcIp = some 1 then ⟨.drop, maps, []⟩
      else if frame.protocol = 6 then
        -- `ip + 1`: the 20 bytes of `struct iphdr`, whatever the header length field says
        let tcp := ip + Frame.iphdrSize
        if frame.length < tcp + Frame.tcphdrSize then ⟨.pass, maps, []⟩
        else
          let dstPort := frame.dest tcp
          let syn :=
            if frame.syn tcp && !frame.ack tcp then
              checkSynFlood kernel cpu srcIp dstIp maps.synCounter
            else (maps.synCounter, [])
          let scan :=
            if frame.syn tcp then
              checkPortScan kernel cpu srcIp dstIp dstPort maps.portScanMap
            else (maps.portScanMap, [])
          let flowStats :=
            updateFlowStats kernel srcIp (UInt64.ofNat frame.length) maps.flowStats
          ⟨.pass, { maps with synCounter := syn.1, portScanMap := scan.1, flowStats := flowStats },
            syn.2 ++ scan.2⟩
      else
        let flowStats :=
          updateFlowStats kernel srcIp (UInt64.ofNat frame.length) maps.flowStats
        ⟨.pass, { maps with flowStats := flowStats }, []⟩

/-! ## The frames that reach the detectors -/

/-- The header fields the detectors are run with. -/
structure Segment where
  srcIp : UInt32
  dstIp : UInt32
  dstPort : UInt16
  syn : Bool
  ack : Bool
deriving DecidableEq, Repr

namespace Segment

/-- SYN set and ACK clear. -/
def pureSyn (seg : Segment) : Bool := seg.syn && !seg.ack

/-- The destination port, when the port-scan detector marks it. -/
def lowPort (seg : Segment) : Option ℕ :=
  if seg.syn && decide (seg.dstPort.toNat < 1024) then some seg.dstPort.toNat else none

end Segment

/-- The frame has complete Ethernet, IPv4 and TCP headers as the code checks
them, and its source is not blacklisted. -/
def Inspects (blacklist : Blacklist) (frame : Frame) : Prop :=
  frame.isIp = true ∧ blacklist.lookup frame.saddr ≠ some 1 ∧ frame.protocol = 6 ∧
    Frame.ethhdrSize + Frame.iphdrSize + Frame.tcphdrSize ≤ frame.length

instance (blacklist : Blacklist) (frame : Frame) : Decidable (Inspects blacklist frame) :=
  inferInstanceAs (Decidable (_ ∧ _ ∧ _ ∧ _))

/-- The fields the detectors see of a frame that reaches them. -/
def inspected (blacklist : Blacklist) (frame : Frame) : Option Segment :=
  if Inspects blacklist frame then
    let tcp := Frame.ethhdrSize + Frame.iphdrSize
    some ⟨frame.saddr, frame.daddr, frame.dest tcp, frame.syn tcp, frame.ack tcp⟩
  else none

/-- Every segment without IP options from a source that is not blacklisted
reaches the detectors. -/
theorem inspected_ofTcp {blacklist : Blacklist} {src : Quad} (dst : Quad)
    (portHigh portLow flags : UInt8) (allowed : blacklist.lookup src.le ≠ some 1) :
    inspected blacklist (Frame.ofTcp src dst portHigh portLow flags) =
      some ⟨src.le, dst.le, UInt16.ofNat (256 * portHigh.toNat + portLow.toNat),
        flags.toNat.testBit 1, flags.toNat.testBit 4⟩ := by
  have inspects : Inspects blacklist (Frame.ofTcp src dst portHigh portLow flags) := by
    refine ⟨rfl, by simpa using allowed, rfl, ?_⟩
    simp [Frame.ethhdrSize, Frame.iphdrSize, Frame.tcphdrSize]
  rw [inspected, if_pos inspects]
  rfl

section Handler

variable (kernel : Kernel) (cpu : Cpu) (frame : Frame) (maps : Maps)

/-- The SYN-flood detector on a frame that reaches it: run for a pure SYN. -/
def detectSyn (seg : Segment) (synCounter : SynCounter) : SynCounter × List Act :=
  if seg.pureSyn then checkSynFlood kernel cpu seg.srcIp seg.dstIp synCounter
  else (synCounter, [])

/-- The port-scan detector on a frame that reaches it: run for every SYN. -/
def detectScan (seg : Segment) (portScanMap : PortScanMap) : PortScanMap × List Act :=
  if seg.syn then checkPortScan kernel cpu seg.srcIp seg.dstIp seg.dstPort portScanMap
  else (portScanMap, [])

/-- A frame that does not reach the detectors leaves their maps and the record
alone. -/
theorem xdpFirewall_uninspected (outside : inspected maps.blacklist frame = none) :
    (xdpFirewall kernel cpu frame maps).maps.synCounter = maps.synCounter ∧
      (xdpFirewall kernel cpu frame maps).maps.portScanMap = maps.portScanMap ∧
        (xdpFirewall kernel cpu frame maps).acts = [] := by
  have notInspects : ¬ Inspects maps.blacklist frame := by
    intro inspects
    simp [inspected, inspects] at outside
  unfold xdpFirewall
  dsimp only
  split_ifs with short notIp shortIp blocked tcp shortTcp
  all_goals first | exact ⟨rfl, rfl, rfl⟩ | skip
  all_goals
    refine absurd ⟨?_, blocked, tcp, ?_⟩ notInspects
    · simpa using notIp
    · omega

/-- A frame that reaches the detectors is passed after they have run. -/
theorem xdpFirewall_inspected {seg : Segment} (inside : inspected maps.blacklist frame = some seg) :
    (xdpFirewall kernel cpu frame maps).maps.synCounter =
        (detectSyn kernel cpu seg maps.synCounter).1 ∧
      (xdpFirewall kernel cpu frame maps).maps.portScanMap =
          (detectScan kernel cpu seg maps.portScanMap).1 ∧
        (xdpFirewall kernel cpu frame maps).acts =
          (detectSyn kernel cpu seg maps.synCounter).2 ++
            (detectScan kernel cpu seg maps.portScanMap).2 := by
  unfold inspected at inside
  split at inside
  · rename_i inspects
    obtain ⟨ip, allowed, tcp, complete⟩ := inspects
    have long : ¬ frame.length < Frame.ethhdrSize := by
      simp only [Frame.ethhdrSize, Frame.iphdrSize, Frame.tcphdrSize] at *
      omega
    have longIp : ¬ frame.length < Frame.ethhdrSize + Frame.iphdrSize := by
      simp only [Frame.ethhdrSize, Frame.iphdrSize, Frame.tcphdrSize] at *
      omega
    have longTcp :
        ¬ frame.length < Frame.ethhdrSize + Frame.iphdrSize + Frame.tcphdrSize := by
      omega
    cases inside
    simp only [xdpFirewall, long, longIp, longTcp, ip, allowed, tcp, if_true, if_false,
      Bool.not_true, Bool.false_eq_true]
    exact ⟨rfl, rfl, rfl⟩
  · cases inside

/-- No packet changes `blacklist`. -/
theorem xdpFirewall_blacklist :
    (xdpFirewall kernel cpu frame maps).maps.blacklist = maps.blacklist := by
  rw [xdpFirewall]
  dsimp only
  repeat' split
  all_goals rfl

end Handler

/-! ## Runs -/

/-- The maps that can be changed from outside. -/
inductive MapName where
  | blacklist
  | flowStats
  | synCounter
  | portScanMap
deriving DecidableEq, Repr

/-- An event of a run: a packet on a CPU, a write of the control plane to
`blacklist`, or a deletion from outside, of the map cleaner for instance. -/
inductive Event where
  | packet (cpu : Cpu) (frame : Frame) (kernel : Kernel)
  | blacklistUpdate (key : UInt32) (value : UInt8)
  | mapDelete (map : MapName) (key : UInt32)
deriving DecidableEq, Repr

namespace Maps

def empty : Maps :=
  { blacklist := .empty, flowStats := .empty, synCounter := .empty, portScanMap := .empty }

def delete (maps : Maps) (key : UInt32) : MapName → Maps
  | .blacklist => { maps with blacklist := maps.blacklist.erase key }
  | .flowStats => { maps with flowStats := maps.flowStats.erase key }
  | .synCounter => { maps with synCounter := maps.synCounter.erase key }
  | .portScanMap => { maps with portScanMap := maps.portScanMap.erase key }

end Maps

/-- The maps after an event. -/
def step (maps : Maps) : Event → Maps
  | .packet cpu frame kernel => (xdpFirewall kernel cpu frame maps).maps
  | .blacklistUpdate key value =>
      { maps with blacklist := (maps.blacklist.update key value).getD maps.blacklist }
  | .mapDelete map key => maps.delete key map

/-- The record of an event. -/
def acts (p : Maps × Event) : List Act :=
  match p.2 with
  | .packet cpu frame kernel => (xdpFirewall kernel cpu frame p.1).acts
  | _ => []

/-- A packet that reaches the detectors. -/
structure Arrival where
  cpu : Cpu
  kernel : Kernel
  seg : Segment

def arrival (p : Maps × Event) : Option Arrival :=
  match p.2 with
  | .packet cpu frame kernel => (inspected p.1.blacklist frame).map fun seg => ⟨cpu, kernel, seg⟩
  | _ => none

/-- A step that no packet takes to the detectors records nothing, and changes
an entry of their maps only by deleting it from outside. -/
theorem step_of_no_arrival {p : Maps × Event} (none : arrival p = none) (s : UInt32) :
    acts p = [] ∧
      (p.2 ≠ .mapDelete .synCounter s →
        (step p.1 p.2).synCounter.lookup s = p.1.synCounter.lookup s) ∧
      (p.2 ≠ .mapDelete .portScanMap s →
        (step p.1 p.2).portScanMap.lookup s = p.1.portScanMap.lookup s) := by
  obtain ⟨maps, event⟩ := p
  cases event with
  | packet cpu frame kernel =>
      obtain ⟨syn, scan, silent⟩ := xdpFirewall_uninspected kernel cpu frame maps
        (by simpa [arrival] using none)
      exact ⟨silent, fun _ => by rw [step, syn], fun _ => by rw [step, scan]⟩
  | blacklistUpdate key value => exact ⟨rfl, fun _ => rfl, fun _ => rfl⟩
  | mapDelete map key =>
      refine ⟨rfl, fun kept => ?_, fun kept => ?_⟩
      all_goals
        cases map <;> try rfl
        apply BoundedMap.lookup_erase_of_ne
        rintro rfl
        exact kept rfl

/-- A step that a packet takes to the detectors runs them. -/
theorem step_of_arrival {p : Maps × Event} {a : Arrival} (arrives : arrival p = some a) :
    (step p.1 p.2).synCounter = (detectSyn a.kernel a.cpu a.seg p.1.synCounter).1 ∧
      (step p.1 p.2).portScanMap = (detectScan a.kernel a.cpu a.seg p.1.portScanMap).1 ∧
        acts p = (detectSyn a.kernel a.cpu a.seg p.1.synCounter).2 ++
          (detectScan a.kernel a.cpu a.seg p.1.portScanMap).2 := by
  obtain ⟨maps, event⟩ := p
  cases event with
  | packet cpu frame kernel =>
      obtain ⟨seg, inside, rfl⟩ := Option.map_eq_some_iff.mp arrives
      exact xdpFirewall_inspected kernel cpu frame maps inside
  | blacklistUpdate key value => cases arrives
  | mapDelete map key => cases arrives

/-! ## The alerts in a record -/

/-- The events of a type that name a source and were output on a CPU, whether
or not the ring buffer took them. -/
def alertsBy (alertType : UInt8) (s : UInt32) (c : Cpu) (record : List Act) : List AlertEvent :=
  record.filterMap fun act =>
    match act with
    | .bpfRingbufOutput cpu evt _ =>
        if evt.alertType = alertType ∧ evt.srcIp = s ∧ cpu = c then some evt else none
    | _ => none

/-- The events of a type that name a source and were output on any CPU. -/
def alertsOf (alertType : UInt8) (s : UInt32) (record : List Act) : List AlertEvent :=
  record.filterMap fun act =>
    match act with
    | .bpfRingbufOutput _ evt _ =>
        if evt.alertType = alertType ∧ evt.srcIp = s then some evt else none
    | _ => none

@[simp] theorem alertsBy_append (alertType : UInt8) (s : UInt32) (c : Cpu)
    (first second : List Act) :
    alertsBy alertType s c (first ++ second) =
      alertsBy alertType s c first ++ alertsBy alertType s c second :=
  List.filterMap_append

@[simp] theorem alertsOf_append (alertType : UInt8) (s : UInt32) (first second : List Act) :
    alertsOf alertType s (first ++ second) =
      alertsOf alertType s first ++ alertsOf alertType s second :=
  List.filterMap_append

end EbpfNids.DataPlane
