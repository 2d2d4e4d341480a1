import EbpfNids.Library.BitTable
import EbpfNids.Library.BoundedMap

/-!
# The maps and the detectors

The maps of `xdp_blacklist.bpf.c` and the three functions that update them.
The maps are hash maps of a fixed capacity, which evict nothing;
`syn_counter` holds one counter for every CPU under one key.

What the kernel answers to the helper calls of one packet is an input
(`Kernel`): the clock, whether the ring buffer takes a record, and whether a
new element can be allocated. An element is stored when it can be allocated
and the map has room for it.

Every function returns the map it updates and the record of what it did
(`Act`). The record is read by no step. It says which detector was run with
which arguments, every call of `bpf_ringbuf_output` with its outcome, and
every time a detector starts over.
-/

set_option autoImplicit false

namespace EbpfNids.DataPlane

open Library

/-! ## Parameters and maps -/

def blacklistSize : ℕ := 10000

def statsSize : ℕ := 100000

def synThreshold : UInt64 := 100

def portScanThreshold : ℕ := 20

abbrev Cpu := ℕ

structure FlowStats where
  pktCount : UInt64
  byteCount : UInt64
deriving DecidableEq, Repr

/-- Sixteen words, one bit for every port below 1024. -/
abbrev PortBitmap := Fin 16 → BitVec 64

@[ext]
structure AlertEvent where
  srcIp : UInt32
  dstIp : UInt32
  alertType : UInt8
  timestamp : UInt64
deriving DecidableEq, Repr

abbrev Blacklist := BoundedMap UInt32 UInt8 blacklistSize

abbrev FlowStatsMap := BoundedMap UInt32 FlowStats statsSize

abbrev SynCounter := BoundedMap UInt32 (Cpu → UInt64) statsSize

abbrev PortScanMap := BoundedMap UInt32 PortBitmap statsSize

/-! ## Helper calls -/

/-- The answers of the kernel to the helper calls that one packet can make:
whether an element can be allocated for `syn_counter`, `port_scan_map` and
`flow_stats`, what `bpf_ktime_get_ns` returns in the two detectors, and
whether the ring buffer takes the record each of them outputs. -/
structure Kernel where
  synUpdate : Bool
  scanUpdate : Bool
  flowUpdate : Bool
  synTime : UInt64
  scanTime : UInt64
  synOutput : Bool
  scanOutput : Bool
deriving DecidableEq, Repr

/-- A kernel that can allocate and has room in the ring buffer, at a time. -/
def Kernel.ready (time : UInt64) : Kernel :=
  { synUpdate := true, scanUpdate := true, flowUpdate := true, synTime := time, scanTime := time,
    synOutput := true, scanOutput := true }

/-- The record of what the handler does for a packet. -/
inductive Act where
  | checkSynFlood (srcIp dstIp : UInt32)
  | checkPortScan (srcIp dstIp : UInt32) (dstPort : UInt16)
  | bpfRingbufOutput (cpu : Cpu) (evt : AlertEvent) (placed : Bool)
  | counterReset (cpu : Cpu) (srcIp : UInt32)
  | bitmapClear (srcIp : UInt32)
deriving DecidableEq, Repr

section Update

variable {V : Type} {capacity : ℕ}

/-- `bpf_map_update_elem(map, key, value, BPF_ANY)` for a key the map does not
hold: the map is unchanged when the element cannot be allocated or the map is
full. -/
def bpfMapUpdateElem (allocated : Bool) (m : BoundedMap UInt32 V capacity) (key : UInt32)
    (value : V) : BoundedMap UInt32 V capacity :=
  if allocated then (m.update key value).getD m else m

/-- A new element is stored. -/
def Stores (allocated : Bool) (m : BoundedMap UInt32 V capacity) : Prop :=
  allocated = true ∧ m.size < capacity

theorem bpfMapUpdateElem_of_ne {allocated : Bool} {m : BoundedMap UInt32 V capacity}
    {key other : UInt32} {value : V} (different : other ≠ key) :
    (bpfMapUpdateElem allocated m key value).lookup other = m.lookup other := by
  unfold bpfMapUpdateElem
  split
  · cases stored : m.update key value with
    | none => rfl
    | some m' => exact BoundedMap.lookup_update_of_ne stored different
  · rfl

theorem update_eq_none {m : BoundedMap UInt32 V capacity} {key : UInt32} {value : V}
    (absent : m.lookup key = none) : m.update key value = none ↔ ¬ m.size < capacity := by
  rw [← Option.not_isSome_iff_eq_none, BoundedMap.update_isSome,
    or_iff_right (BoundedMap.lookup_eq_none.mp absent)]

theorem bpfMapUpdateElem_stored {allocated : Bool} {m : BoundedMap UInt32 V capacity}
    {key : UInt32} {value : V} (stores : Stores allocated m) (absent : m.lookup key = none) :
    (bpfMapUpdateElem allocated m key value).lookup key = some value := by
  obtain ⟨ok, room⟩ := stores
  rw [bpfMapUpdateElem, if_pos ok]
  cases stored : m.update key value with
  | none => exact absurd room ((update_eq_none absent).mp stored)
  | some m' => exact BoundedMap.lookup_update_self stored

theorem bpfMapUpdateElem_refused {allocated : Bool} {m : BoundedMap UInt32 V capacity}
    {key : UInt32} {value : V} (refused : ¬ Stores allocated m) (absent : m.lookup key = none) :
    bpfMapUpdateElem allocated m key value = m := by
  unfold bpfMapUpdateElem
  split
  · rename_i ok
    have full : ¬ m.size < capacity := by
      intro room
      exact refused ⟨ok, room⟩
    rw [(update_eq_none absent).mpr full]
    rfl
  · rfl

/-- A key that neither map holds has the same entry in both afterwards, if both
store it or neither does. -/
theorem bpfMapUpdateElem_determined {allocated₁ allocated₂ : Bool}
    {m₁ m₂ : BoundedMap UInt32 V capacity} {key : UInt32} (value : V)
    (absent₁ : m₁.lookup key = none) (absent₂ : m₂.lookup key = none)
    (both : Stores allocated₁ m₁ ↔ Stores allocated₂ m₂) :
    (bpfMapUpdateElem allocated₁ m₁ key value).lookup key =
      (bpfMapUpdateElem allocated₂ m₂ key value).lookup key := by
  by_cases room : Stores allocated₁ m₁
  · rw [bpfMapUpdateElem_stored room absent₁, bpfMapUpdateElem_stored (both.mp room) absent₂]
  · rw [bpfMapUpdateElem_refused room absent₁, bpfMapUpdateElem_refused (mt both.mpr room) absent₂,
      absent₁, absent₂]

end Update

/-! ## The three functions -/

def updateFlowStats (kernel : Kernel) (srcIp : UInt32) (pktSize : UInt64)
    (flowStats : FlowStatsMap) : FlowStatsMap :=
  match flowStats.lookup srcIp with
  | some _ =>
      flowStats.modify srcIp fun stats =>
        { pktCount := stats.pktCount + 1, byteCount := stats.byteCount + pktSize }
  | none => bpfMapUpdateElem kernel.flowUpdate flowStats srcIp ⟨1, pktSize⟩

/-- The value of a new element of a per-CPU hash: the CPU that inserts it has
the value given, and every other CPU has zero. -/
def perCpuInit (cpu : Cpu) (value : UInt64) : Cpu → UInt64 :=
  fun other => if other = cpu then value else 0

def checkSynFlood (kernel : Kernel) (cpu : Cpu) (srcIp dstIp : UInt32)
    (synCounter : SynCounter) : SynCounter × List Act :=
  let call := Act.checkSynFlood srcIp dstIp
  match synCounter.lookup srcIp with
  | some counts =>
      let count := counts cpu + 1
      if count > synThreshold then
        let evt : AlertEvent := ⟨srcIp, dstIp, 1, kernel.synTime⟩
        (synCounter.modify srcIp fun slots => Function.update slots cpu 0,
          [call, .bpfRingbufOutput cpu evt kernel.synOutput, .counterReset cpu srcIp])
      else
        (synCounter.modify srcIp fun slots => Function.update slots cpu count, [call])
  | none => (bpfMapUpdateElem kernel.synUpdate synCounter srcIp (perCpuInit cpu 1), [call])

def totalPorts (bitmap : PortBitmap) : ℕ := ∑ i, (bitmap i).cpop.toNat

/-- The word that holds the bit of a port. -/
abbrev wordIdx {port : ℕ} (low : port < 1024) : Fin 16 := ⟨port / 64, by omega⟩

def checkPortScan (kernel : Kernel) (cpu : Cpu) (srcIp dstIp : UInt32) (dstPort : UInt16)
    (portScanMap : PortScanMap) : PortScanMap × List Act :=
  let call := Act.checkPortScan srcIp dstIp dstPort
  let portScanMap :=
    match portScanMap.lookup srcIp with
    | some _ => portScanMap
    | none => bpfMapUpdateElem kernel.scanUpdate portScanMap srcIp fun _ => 0
  match portScanMap.lookup srcIp with
  | none => (portScanMap, [call])
  | some bitmap =>
      if low : dstPort.toNat < 1024 then
        let idx := wordIdx low
        let bit := dstPort.toNat % 64
        let marked := BitTable.setBit bitmap idx bit
        if totalPorts marked > portScanThreshold then
          let evt : AlertEvent := ⟨srcIp, dstIp, 2, kernel.scanTime⟩
          (portScanMap.modify srcIp fun _ => fun _ => 0,
            [call, .bpfRingbufOutput cpu evt kernel.scanOutput, .bitmapClear srcIp])
        else
          (portScanMap.modify srcIp fun _ => marked, [call])
      else (portScanMap, [call])

end EbpfNids.DataPlane
