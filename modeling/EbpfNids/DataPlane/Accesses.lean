import EbpfNids.DataPlane.Interleaving
import EbpfNids.Library.Refinement

/-!
# The handler access by access

`bitmap->bitmap[idx] |= bit`, `stats->pkt_count++` and `stats->byte_count += size`
load a word and store it, the count of the bits loads sixteen words and the zeros
after an alert are sixteen stores. Here each of these is a step of its own, and
between two of them other CPUs make theirs. An insertion may be refused, entries
are deleted by other programs, and the blacklist changes. An element that has been
replaced or deleted stays for who holds a pointer to it, until an insertion uses it
again, for the same source or another one: the elements of the maps are allocated
beforehand, and free ones are handed out at once.

What the machine with atomic writes does, this one can do too, with the steps of a
write one after the other (`machine_refined`).
-/

set_option autoImplicit false

namespace EbpfNids.DataPlane

open Library Library.Runs Library.Refinement

/-! ## The machine -/

/-- The next access of an execution, with the pointer and the words it holds. -/
inductive AccessPc where
  | scanLookup
  | scanUpdate
  | scanRelookup
  | loadWord (bitmap : ℕ)
  | storeWord (bitmap : ℕ) (word : BitVec 64)
  | countWord (bitmap i totalPorts : ℕ)
  | output (bitmap : ℕ)
  | clearWord (bitmap i : ℕ)
  | flowLookup
  | flowUpdate
  | loadPkts (stats : ℕ)
  | storePkts (stats : ℕ) (pktCount : UInt64)
  | loadBytes (stats : ℕ)
  | storeBytes (stats : ℕ) (byteCount : UInt64)
deriving DecidableEq, Repr

/-- An execution, with its place among all executions, which no step reads. -/
structure Access where
  call : Execution
  id : ℕ
  pc : AccessPc
deriving DecidableEq, Repr

namespace Access

/-- Where `check_port_scan` goes on with the bitmap of its source. -/
def onBitmap (a : Access) (bitmap : ℕ) : AccessPc :=
  if a.call.dstPort.toNat < 1024 then .loadWord bitmap else .flowLookup

def onCount (bitmap totalPorts : ℕ) : AccessPc :=
  if totalPorts > portScanThreshold then .output bitmap else .flowLookup

/-- The word of the port. -/
def loaded (a : Access) (words : PortBitmap) : BitVec 64 :=
  if low : a.call.dstPort.toNat < 1024 then words (wordIdx low) else 0

/-- The words when the word of the port has been stored with its bit set. -/
def stored (a : Access) (word : BitVec 64) (words : PortBitmap) : PortBitmap :=
  if low : a.call.dstPort.toNat < 1024 then
    Function.update words (wordIdx low) (word ||| (1#64 <<< (a.call.dstPort.toNat % 64)))
  else words

end Access

/-- The maps and the CPUs, and the executions that have begun, in their order,
which no step reads. -/
structure Accesses where
  blacklist : Blacklist
  flowStats : SharedMap UInt32 FlowStats
  portScanMap : SharedMap UInt32 PortBitmap
  running : Cpu → Option Access
  begun : List Execution

namespace Accesses

def start (blacklist : Blacklist) : Accesses := ⟨blacklist, .empty, .empty, fun _ => none, []⟩

def goto (m : Accesses) (cpu : Cpu) (a : Access) (pc : AccessPc) : Accesses :=
  { m with running := Function.update m.running cpu (some { a with pc := pc }) }

def finish (m : Accesses) (cpu : Cpu) : Accesses :=
  { m with running := Function.update m.running cpu none }

def setScan (m : Accesses) (portScanMap : SharedMap UInt32 PortBitmap) : Accesses :=
  { m with portScanMap := portScanMap }

def setFlow (m : Accesses) (flowStats : SharedMap UInt32 FlowStats) : Accesses :=
  { m with flowStats := flowStats }

/-- What a pointer into `port_scan_map` leads to. There is always an element. -/
def bitmapAt (m : Accesses) (bitmap : ℕ) : PortBitmap :=
  (m.portScanMap.read bitmap).getD fun _ => 0

def statsAt (m : Accesses) (stats : ℕ) : FlowStats := (m.flowStats.read stats).getD ⟨0, 0⟩

theorem running_goto (m : Accesses) (cpu : Cpu) (a : Access) (pc : AccessPc) :
    (m.goto cpu a pc).running = Function.update m.running cpu (some { a with pc := pc }) := rfl

theorem running_finish (m : Accesses) (cpu : Cpu) :
    (m.finish cpu).running = Function.update m.running cpu none := rfl

/-- One access. An insertion is answered with `room`. -/
def advance (m : Accesses) (cpu : Cpu) (a : Access) (room : Room) : Accesses :=
  match a.pc with
  | .scanLookup =>
      match m.portScanMap.index a.call.srcIp with
      | some bitmap => m.goto cpu a (a.onBitmap bitmap)
      | none => m.goto cpu a .scanUpdate
  | .scanUpdate =>
      (m.setScan (m.portScanMap.insert a.call.srcIp (fun _ => 0) room)).goto cpu a .scanRelookup
  | .scanRelookup =>
      match m.portScanMap.index a.call.srcIp with
      | some bitmap => m.goto cpu a (a.onBitmap bitmap)
      | none => m.goto cpu a .flowLookup
  | .loadWord bitmap => m.goto cpu a (.storeWord bitmap (a.loaded (m.bitmapAt bitmap)))
  | .storeWord bitmap word =>
      (m.setScan (m.portScanMap.modify bitmap (a.stored word))).goto cpu a (.countWord bitmap 0 0)
  | .countWord bitmap i totalPorts =>
      if more : i < 16 then
        m.goto cpu a (.countWord bitmap (i + 1)
          (totalPorts + (m.bitmapAt bitmap ⟨i, more⟩).cpop.toNat))
      else m.goto cpu a (Access.onCount bitmap totalPorts)
  | .output bitmap => m.goto cpu a (.clearWord bitmap 0)
  | .clearWord bitmap i =>
      if more : i < 16 then
        (m.setScan (m.portScanMap.modify bitmap fun words =>
          Function.update words ⟨i, more⟩ 0)).goto cpu a (.clearWord bitmap (i + 1))
      else m.goto cpu a .flowLookup
  | .flowLookup =>
      match m.flowStats.index a.call.srcIp with
      | some stats => m.goto cpu a (.loadPkts stats)
      | none => m.goto cpu a .flowUpdate
  | .flowUpdate =>
      (m.setFlow (m.flowStats.insert a.call.srcIp ⟨1, a.call.pktSize⟩ room)).finish cpu
  | .loadPkts stats => m.goto cpu a (.storePkts stats (m.statsAt stats).pktCount)
  | .storePkts stats pktCount =>
      (m.setFlow (m.flowStats.modify stats fun value =>
        { value with pktCount := pktCount + 1 })).goto cpu a (.loadBytes stats)
  | .loadBytes stats => m.goto cpu a (.storeBytes stats (m.statsAt stats).byteCount)
  | .storeBytes stats byteCount =>
      (m.setFlow (m.flowStats.modify stats fun value =>
        { value with byteCount := byteCount + a.call.pktSize })).finish cpu

/-- The execution begins, at its first access. -/
def begin (m : Accesses) (cpu : Cpu) (e : Execution) : Accesses :=
  let pc := if e.pc = .scanLookup then AccessPc.scanLookup else .flowLookup
  { m with
    running := Function.update m.running cpu (some ⟨e, m.begun.length, pc⟩)
    begun := m.begun ++ [e] }

end Accesses

/-- A CPU that is idle takes a frame, or one that is not makes its next access; or
another program writes a map. -/
inductive AccessEvent where
  | enter (cpu : Cpu) (frame : Frame)
  | advance (cpu : Cpu) (room : Room)
  | deleteFlow (key : UInt32)
  | deleteScan (key : UInt32)
  | setBlacklist (blacklist : Blacklist)

/-- The execution that an event begins. -/
def entered (m : Accesses) : AccessEvent → Option Execution
  | .enter cpu frame =>
      match m.running cpu with
      | none => Execution.entry m.blacklist frame
      | some _ => none
  | _ => none

def accessStep (m : Accesses) (event : AccessEvent) : Accesses :=
  match event with
  | .enter cpu _ =>
      match entered m event with
      | some e => m.begin cpu e
      | none => m
  | .advance cpu room =>
      match m.running cpu with
      | some a => m.advance cpu a room
      | none => m
  | .deleteFlow key => m.setFlow (m.flowStats.remove key)
  | .deleteScan key => m.setScan (m.portScanMap.remove key)
  | .setBlacklist blacklist => { m with blacklist := blacklist }

/-! ## Writes in place -/

section Writes

variable {K V : Type*} {m : SharedMap K V} {i : ℕ}

theorem modify_modify (m : SharedMap K V) (i : ℕ) (f g : V → V) :
    (m.modify i f).modify i g = m.modify i (g ∘ f) := by
  simp only [SharedMap.modify, List.modify_modify_eq]
  rfl

theorem modify_congr {f g : V → V} (same : ∀ v, m.read i = some v → f v = g v) :
    m.modify i f = m.modify i g := by
  have elems : (m.elems.modify i fun e => (e.1, f e.2)) =
      m.elems.modify i fun e => (e.1, g e.2) := by
    apply List.ext_getElem?
    intro j
    by_cases here : i = j
    · subst here
      rw [List.getElem?_modify_eq, List.getElem?_modify_eq]
      cases found : m.elems[i]? with
      | none => rfl
      | some e =>
          have read : m.read i = some e.2 := by rw [SharedMap.read, found, Option.map_some]
          rw [Option.map_eq_map, Option.map_some, Option.map_eq_map, Option.map_some,
            same e.2 read]
    · rw [List.getElem?_modify_ne _ _ here, List.getElem?_modify_ne _ _ here]
  simp only [SharedMap.modify, elems]

theorem modify_self (m : SharedMap K V) (i : ℕ) {f : V → V} (same : ∀ v, f v = v) :
    m.modify i f = m := by
  obtain rfl : f = id := funext same
  simp only [SharedMap.modify, id_eq, Prod.mk.eta]
  congr 1
  exact List.modify_id ..

end Writes

/-! ## Atomic writes are runs of accesses -/

/-- The first access of a step of the machine with atomic writes. -/
def Pc.access : Pc → AccessPc
  | .scanLookup => .scanLookup
  | .scanUpdate => .scanUpdate
  | .scanRelookup => .scanRelookup
  | .scanMark bitmap => .loadWord bitmap
  | .scanCount bitmap => .countWord bitmap 0 0
  | .scanOutput bitmap => .output bitmap
  | .scanClear bitmap => .clearWord bitmap 0
  | .flowLookup => .flowLookup
  | .flowUpdate => .flowUpdate
  | .flowBump stats => .loadPkts stats

/-- How many accesses it makes. -/
def Pc.accessCount : Pc → ℕ
  | .scanMark _ => 2
  | .scanCount _ => 17
  | .scanClear _ => 17
  | .flowBump _ => 4
  | _ => 1

/-- The accesses of a step. -/
def accessesOf (p : Machine × MachineEvent) : List AccessEvent :=
  match p.2 with
  | .enter cpu frame => [.enter cpu frame]
  | .advance cpu =>
      match p.1.running cpu with
      | some e => List.replicate e.pc.accessCount (.advance cpu .fresh)
      | none => []

/-- The execution is where the accesses are. -/
structure Stands (e : Execution) (a : Access) : Prop where
  srcIp : a.call.srcIp = e.srcIp
  dstPort : a.call.dstPort = e.dstPort
  pktSize : a.call.pktSize = e.pktSize
  pc : a.pc = e.pc.access

/-- The same maps, and every CPU at the same place. -/
structure Same (m : Machine) (m' : Accesses) : Prop where
  blacklist : m'.blacklist = m.blacklist
  flowStats : m'.flowStats = m.flowStats
  portScanMap : m'.portScanMap = m.portScanMap
  idle : ∀ cpu, m.running cpu = none → m'.running cpu = none
  busy : ∀ cpu e, m.running cpu = some e → ∃ a, m'.running cpu = some a ∧ Stands e a

section Refined

variable {m m₁ : Machine} {m' m₁' : Accesses} {cpu : Cpu} {e : Execution} {a : Access}

theorem goto_goto (m : Accesses) (cpu : Cpu) (a : Access) (pc pc' : AccessPc) :
    (m.goto cpu a pc).goto cpu { a with pc := pc } pc' = m.goto cpu a pc' := by
  simp only [Accesses.goto, Function.update_idem]

theorem accessStep_goto (m : Accesses) (cpu : Cpu) (a : Access) (pc : AccessPc) :
    accessStep (m.goto cpu a pc) (.advance cpu .fresh) =
      (m.goto cpu a pc).advance cpu { a with pc := pc } .fresh := by
  simp only [accessStep, Accesses.goto, Function.update_self]

theorem running_goto (m : Machine) (cpu : Cpu) (e : Execution) (pc : Pc) :
    (m.goto cpu e pc).running = Function.update m.running cpu (some { e with pc := pc }) := rfl

theorem running_finish (m : Machine) (cpu : Cpu) :
    (m.finish cpu).running = Function.update m.running cpu none := rfl

namespace Same

/-- Both go on. -/
theorem goto (same : Same m m') (stands : Stands e a) {pc : Pc} {pc' : AccessPc}
    (place : pc' = pc.access) : Same (m.goto cpu e pc) (m'.goto cpu a pc') := by
  subst place
  refine ⟨same.blacklist, same.flowStats, same.portScanMap, ?_, ?_⟩
  · intro c idle
    by_cases here : c = cpu
    · subst here
      rw [running_goto, Function.update_self] at idle
      cases idle
    · rw [running_goto, Function.update_of_ne here] at idle
      rw [Accesses.running_goto, Function.update_of_ne here]
      exact same.idle c idle
  · intro c other busy
    by_cases here : c = cpu
    · subst here
      rw [running_goto, Function.update_self] at busy
      obtain rfl := Option.some.inj busy
      exact ⟨_, Function.update_self .., stands.srcIp, stands.dstPort, stands.pktSize, rfl⟩
    · rw [running_goto, Function.update_of_ne here] at busy
      rw [Accesses.running_goto, Function.update_of_ne here]
      exact same.busy c other busy

/-- Both finish. -/
theorem finish (same : Same m m') (cpu : Cpu) : Same (m.finish cpu) (m'.finish cpu) := by
  refine ⟨same.blacklist, same.flowStats, same.portScanMap, ?_, ?_⟩
  · intro c idle
    by_cases here : c = cpu
    · subst here
      exact Function.update_self ..
    · rw [running_finish, Function.update_of_ne here] at idle
      rw [Accesses.running_finish, Function.update_of_ne here]
      exact same.idle c idle
  · intro c other busy
    by_cases here : c = cpu
    · subst here
      rw [running_finish, Function.update_self] at busy
      cases busy
    · rw [running_finish, Function.update_of_ne here] at busy
      rw [Accesses.running_finish, Function.update_of_ne here]
      exact same.busy c other busy

theorem pass (same : Same m m') (e : Execution) : Same (m.pass e) m' :=
  ⟨same.blacklist, same.flowStats, same.portScanMap, same.idle, same.busy⟩

theorem output (same : Same m m') {passed : UInt32 → List ℕ} :
    Same { m with passed := passed } m' :=
  ⟨same.blacklist, same.flowStats, same.portScanMap, same.idle, same.busy⟩

theorem setScan (same : Same m m') (portScanMap : SharedMap UInt32 PortBitmap) :
    Same { m with portScanMap := portScanMap } (m'.setScan portScanMap) :=
  ⟨same.blacklist, same.flowStats, rfl, same.idle, same.busy⟩

theorem setFlow (same : Same m m') (flowStats : SharedMap UInt32 FlowStats) (e : Execution) :
    Same ({ m with flowStats := flowStats }.updated e) (m'.setFlow flowStats) :=
  ⟨same.blacklist, rfl, same.portScanMap, same.idle, same.busy⟩

end Same

/-- The bits of the word `i`. -/
def wordCount (words : PortBitmap) (i : ℕ) : ℕ :=
  if more : i < 16 then (words ⟨i, more⟩).cpop.toNat else 0

theorem totalPorts_eq_sum (words : PortBitmap) :
    totalPorts words = ∑ i ∈ Finset.range 16, wordCount words i := by
  rw [totalPorts, Finset.sum_range]
  refine Finset.sum_congr rfl fun i _ => ?_
  rw [wordCount, dif_pos i.isLt]

/-- The count of the bits when `k` words have been loaded. -/
theorem count_words (m' : Accesses) (cpu : Cpu) (a : Access) (bitmap : ℕ) {k : ℕ} (most : k ≤ 16) :
    exec accessStep (m'.goto cpu a (.countWord bitmap 0 0))
        (List.replicate k (.advance cpu .fresh)) =
      m'.goto cpu a (.countWord bitmap k
        (∑ i ∈ Finset.range k, wordCount (m'.bitmapAt bitmap) i)) := by
  induction k with
  | zero => rfl
  | succ k ih =>
      have more : k < 16 := most
      rw [List.replicate_succ', exec_append, ih (Nat.le_of_succ_le most), exec_cons, exec_nil,
        accessStep_goto, Accesses.advance]
      dsimp only
      rw [dif_pos more, goto_goto, Finset.sum_range_succ, wordCount, dif_pos more]
      rfl

/-- The zeros when `k` words have been stored. -/
theorem clear_words (m' : Accesses) (cpu : Cpu) (a : Access) (bitmap : ℕ) {k : ℕ} (most : k ≤ 16) :
    exec accessStep (m'.goto cpu a (.clearWord bitmap 0)) (List.replicate k (.advance cpu .fresh)) =
      (m'.setScan (m'.portScanMap.modify bitmap fun words i =>
        if i.val < k then 0 else words i)).goto cpu a (.clearWord bitmap k) := by
  induction k with
  | zero =>
      rw [modify_self m'.portScanMap bitmap fun words => funext fun i => if_neg (Nat.not_lt_zero _)]
      rfl
  | succ k ih =>
      have more : k < 16 := most
      rw [List.replicate_succ', exec_append, ih (Nat.le_of_succ_le most), exec_cons, exec_nil,
        accessStep_goto, Accesses.advance]
      dsimp only
      rw [dif_pos more]
      have zeros : ((fun words => Function.update words ⟨k, more⟩ 0) ∘ fun words i =>
          if i.val < k then 0 else words i : PortBitmap → PortBitmap) =
          fun words i => if i.val < k + 1 then 0 else words i := by
        funext words i
        rw [Function.comp_apply]
        by_cases here : i = ⟨k, more⟩
        · rw [here, Function.update_self, if_pos (Nat.lt_succ_self k)]
        · have other : i.val ≠ k := fun same => here (Fin.ext same)
          rw [Function.update_of_ne here]
          by_cases before : i.val < k
          · rw [if_pos before, if_pos (Nat.lt_succ_of_lt before)]
          · rw [if_neg before, if_neg (by omega)]
      simp only [Accesses.goto, Accesses.setScan, Function.update_idem, modify_modify, zeros]

theorem goto_self (m' : Accesses) (busy : m'.running cpu = some a) : m'.goto cpu a a.pc = m' := by
  rw [Accesses.goto, ← busy, Function.update_eq_self]

theorem Stands.onBitmap (stands : Stands e a) (bitmap : ℕ) :
    a.onBitmap bitmap = (e.onBitmap bitmap).access := by
  rw [Access.onBitmap, Execution.onBitmap, stands.dstPort]
  split
  · rfl
  · rfl

theorem access_onCount (bitmap totalPorts : ℕ) :
    Access.onCount bitmap totalPorts = (Execution.onCount bitmap totalPorts).access := by
  rw [Access.onCount, Execution.onCount]
  split
  · rfl
  · rfl

/-- A load and a store of the word of the port set its bit. -/
theorem Stands.stored_loaded (stands : Stands e a) (words : PortBitmap) :
    a.stored (a.loaded words) words = markPortBit e.dstPort words := by
  rw [Access.stored, Access.loaded, markPortBit, stands.dstPort]
  by_cases low : e.dstPort.toNat < 1024
  · rw [dif_pos low, dif_pos low, dif_pos low]
    rfl
  · rw [dif_neg low, dif_neg low]

theorem accessStep_busy (busy : m'.running cpu = some a) :
    accessStep m' (.advance cpu .fresh) = m'.advance cpu a .fresh := by
  rw [accessStep, busy]

/-- The load and the store of a mark. -/
theorem mark_accesses {bitmap : ℕ} (busy : m'.running cpu = some a)
    (pc : a.pc = .loadWord bitmap) :
    exec accessStep m' (List.replicate 2 (.advance cpu .fresh)) =
      (m'.setScan (m'.portScanMap.modify bitmap fun words =>
        a.stored (a.loaded words) words)).goto cpu a (.countWord bitmap 0 0) := by
  rw [List.replicate_succ, List.replicate_one, exec_cons, exec_cons, exec_nil, accessStep_busy busy,
    Accesses.advance.eq_def, pc]
  dsimp only
  rw [accessStep_goto, Accesses.advance]
  have known : ∀ words, m'.portScanMap.read bitmap = some words →
      a.stored (a.loaded (m'.bitmapAt bitmap)) words = a.stored (a.loaded words) words := by
    intro words found
    rw [Accesses.bitmapAt, found, Option.getD_some]
  rw [← modify_congr known]
  simp only [Accesses.goto, Accesses.setScan, Function.update_idem]
  rfl

/-- The sixteen loads of the count, and its comparison. -/
theorem count_accesses {bitmap : ℕ} (busy : m'.running cpu = some a)
    (pc : a.pc = .countWord bitmap 0 0) :
    exec accessStep m' (List.replicate 17 (.advance cpu .fresh)) =
      m'.goto cpu a (Access.onCount bitmap (totalPorts (m'.bitmapAt bitmap))) := by
  have counted := count_words m' cpu a bitmap (Nat.le_refl 16)
  rw [← pc, goto_self m' busy, ← totalPorts_eq_sum] at counted
  rw [List.replicate_succ', exec_append, counted, exec_cons, exec_nil, accessStep_goto,
    Accesses.advance]
  dsimp only
  rw [dif_neg (Nat.lt_irrefl 16), goto_goto]

/-- The sixteen stores of the zeros. -/
theorem clear_accesses {bitmap : ℕ} (busy : m'.running cpu = some a)
    (pc : a.pc = .clearWord bitmap 0) :
    exec accessStep m' (List.replicate 17 (.advance cpu .fresh)) =
      (m'.setScan (m'.portScanMap.modify bitmap fun _ _ => 0)).goto cpu a .flowLookup := by
  have cleared := clear_words m' cpu a bitmap (Nat.le_refl 16)
  have zeros : (fun (words : PortBitmap) (i : Fin 16) => if i.val < 16 then 0 else words i) =
      fun _ _ => 0 := by
    funext words i
    exact if_pos i.isLt
  rw [← pc, goto_self m' busy, zeros] at cleared
  rw [List.replicate_succ', exec_append, cleared, exec_cons, exec_nil, accessStep_goto,
    Accesses.advance]
  dsimp only
  rw [dif_neg (Nat.lt_irrefl 16), goto_goto]

/-- The load and the store of the packet counter. -/
theorem pkts_accesses {stats : ℕ} (busy : m'.running cpu = some a) (pc : a.pc = .loadPkts stats) :
    exec accessStep m' (List.replicate 2 (.advance cpu .fresh)) =
      (m'.setFlow (m'.flowStats.modify stats fun value =>
        { value with pktCount := value.pktCount + 1 })).goto cpu a (.loadBytes stats) := by
  rw [List.replicate_succ, List.replicate_one, exec_cons, exec_cons, exec_nil, accessStep_busy busy,
    Accesses.advance.eq_def, pc]
  dsimp only
  rw [accessStep_goto, Accesses.advance]
  have known : ∀ value : FlowStats, m'.flowStats.read stats = some value →
      { value with pktCount := (m'.statsAt stats).pktCount + 1 } =
        { value with pktCount := value.pktCount + 1 } := by
    intro value found
    rw [Accesses.statsAt, found, Option.getD_some]
  rw [← modify_congr known]
  simp only [Accesses.goto, Accesses.setFlow, Function.update_idem]

/-- The load and the store of the byte counter. -/
theorem bytes_accesses {stats : ℕ} (busy : m'.running cpu = some a)
    (pc : a.pc = .loadBytes stats) :
    exec accessStep m' (List.replicate 2 (.advance cpu .fresh)) =
      (m'.setFlow (m'.flowStats.modify stats fun value =>
        { value with byteCount := value.byteCount + a.call.pktSize })).finish cpu := by
  rw [List.replicate_succ, List.replicate_one, exec_cons, exec_cons, exec_nil, accessStep_busy busy,
    Accesses.advance.eq_def, pc]
  dsimp only
  rw [accessStep_goto, Accesses.advance]
  have known : ∀ value : FlowStats, m'.flowStats.read stats = some value →
      { value with byteCount := (m'.statsAt stats).byteCount + a.call.pktSize } =
        { value with byteCount := value.byteCount + a.call.pktSize } := by
    intro value found
    rw [Accesses.statsAt, found, Option.getD_some]
  rw [← modify_congr known]
  simp only [Accesses.goto, Accesses.finish, Accesses.setFlow, Function.update_idem]

theorem bump_accesses {stats : ℕ} (busy : m'.running cpu = some a)
    (pc : a.pc = .loadPkts stats) :
    exec accessStep m' (List.replicate 4 (.advance cpu .fresh)) =
      (m'.setFlow (m'.flowStats.modify stats fun value =>
        ⟨value.pktCount + 1, value.byteCount + a.call.pktSize⟩)).finish cpu := by
  rw [show 4 = 2 + 2 from rfl, List.replicate_add, exec_append, pkts_accesses busy pc,
    bytes_accesses (a := { a with pc := .loadBytes stats }) (Function.update_self ..) rfl]
  simp only [Accesses.goto, Accesses.finish, Accesses.setFlow, Function.update_idem, modify_modify]
  rfl

/-- **Step lemma.** -/
theorem Same.advance (same : Same m m') (here : m.running cpu = some e) :
    Same (m.advance cpu e)
      (exec accessStep m' (List.replicate e.pc.accessCount (.advance cpu .fresh))) := by
  obtain ⟨a, busy, stands⟩ := same.busy cpu e here
  have scans := same.portScanMap
  have flows := same.flowStats
  have place := stands.pc
  have step : exec accessStep m' (List.replicate 1 (.advance cpu .fresh)) =
      m'.advance cpu a .fresh :=
    accessStep_busy busy
  rw [Accesses.advance.eq_def, place] at step
  rw [Machine.advance.eq_def]
  cases pc : e.pc with
  | scanLookup =>
      rw [pc] at step
      dsimp only [Pc.access] at step
      rw [show Pc.accessCount .scanLookup = 1 from rfl, step, scans, stands.srcIp]
      cases m.portScanMap.index e.srcIp with
      | some bitmap => exact (same.pass e).goto stands (stands.onBitmap bitmap)
      | none => exact (same.pass e).goto stands rfl
  | scanUpdate =>
      rw [pc] at step
      dsimp only [Pc.access] at step
      rw [show Pc.accessCount .scanUpdate = 1 from rfl, step, scans, stands.srcIp]
      exact (same.setScan _).goto stands rfl
  | scanRelookup =>
      rw [pc] at step
      dsimp only [Pc.access] at step
      rw [show Pc.accessCount .scanRelookup = 1 from rfl, step, scans, stands.srcIp]
      cases m.portScanMap.index e.srcIp with
      | some bitmap => exact same.goto stands (stands.onBitmap bitmap)
      | none => exact same.goto stands rfl
  | scanMark bitmap =>
      rw [pc] at place
      rw [show Pc.accessCount (.scanMark bitmap) = 2 from rfl, mark_accesses busy place, scans]
      have marks : (fun words => a.stored (a.loaded words) words) = markPortBit e.dstPort :=
        funext stands.stored_loaded
      rw [marks]
      exact (same.setScan _).goto stands rfl
  | scanCount bitmap =>
      rw [pc] at place
      rw [show Pc.accessCount (.scanCount bitmap) = 17 from rfl, count_accesses busy place,
        Accesses.bitmapAt, scans]
      dsimp only
      cases m.portScanMap.read bitmap with
      | some words => exact same.goto stands (access_onCount bitmap _)
      | none =>
          have nothing : Access.onCount bitmap (totalPorts fun _ => 0) = .flowLookup := by
            simp [Access.onCount, totalPorts]
          rw [Option.getD_none, nothing]
          exact same.goto stands rfl
  | scanOutput bitmap =>
      rw [pc] at step
      dsimp only [Pc.access] at step
      rw [show Pc.accessCount (.scanOutput bitmap) = 1 from rfl, step]
      exact same.output.goto stands rfl
  | scanClear bitmap =>
      rw [pc] at place
      rw [show Pc.accessCount (.scanClear bitmap) = 17 from rfl, clear_accesses busy place, scans]
      exact (same.setScan _).goto stands rfl
  | flowLookup =>
      rw [pc] at step
      dsimp only [Pc.access] at step
      rw [show Pc.accessCount .flowLookup = 1 from rfl, step, flows, stands.srcIp]
      cases m.flowStats.index e.srcIp with
      | some stats => exact same.goto stands rfl
      | none => exact same.goto stands rfl
  | flowUpdate =>
      rw [pc] at step
      dsimp only [Pc.access] at step
      rw [show Pc.accessCount .flowUpdate = 1 from rfl, step, flows, stands.srcIp,
        stands.pktSize]
      exact (same.setFlow _ e).finish cpu
  | flowBump stats =>
      rw [pc] at place
      rw [show Pc.accessCount (.flowBump stats) = 4 from rfl, bump_accesses busy place, flows,
        stands.pktSize]
      exact (same.setFlow _ e).finish cpu

/-- A frame is taken. -/
theorem Same.enter (same : Same m m') (cpu : Cpu) (frame : Frame) :
    Same (machineStep m (.enter cpu frame)) (accessStep m' (.enter cpu frame)) := by
  rw [machineStep, accessStep, entered]
  cases here : m.running cpu with
  | some e =>
      obtain ⟨a, busy, -⟩ := same.busy cpu e here
      rw [busy]
      exact same
  | none =>
      rw [same.idle cpu here, same.blacklist]
      dsimp only
      cases entry : Execution.entry m.blacklist frame with
      | none =>
          have stays : Function.update m.running cpu none = m.running := by
            rw [← here, Function.update_eq_self]
          rw [stays]
          exact same
      | some e =>
          have pc : (if e.pc = .scanLookup then AccessPc.scanLookup else .flowLookup) =
              e.pc.access := by
            rcases Machine.entry_pc entry with scan | flow
            · rw [scan]
              rfl
            · rw [flow]
              rfl
          have stands : Stands e ⟨e, m'.begun.length, e.pc.access⟩ := ⟨rfl, rfl, rfl, rfl⟩
          have gone : Same (m.goto cpu e e.pc)
              (m'.goto cpu ⟨e, m'.begun.length, e.pc.access⟩ e.pc.access) := same.goto stands rfl
          dsimp only
          rw [Accesses.begin, pc]
          exact ⟨gone.blacklist, gone.flowStats, gone.portScanMap, gone.idle, gone.busy⟩

/-- **Atomic writes are runs of accesses.** Every run of the machine with atomic
writes is one of this machine, which leaves the same entries. -/
theorem machine_refined (blacklist : Blacklist) (events : List MachineEvent) :
    Same (exec machineStep (.start blacklist) events)
      (exec accessStep (.start blacklist)
        (operations machineStep accessesOf (.start blacklist) events)) := by
  have initial : Same (.start blacklist) (.start blacklist) :=
    ⟨rfl, rfl, rfl, fun _ _ => rfl, fun _ _ busy => by cases busy⟩
  refine exec_refines Same initial fun p _ m' same => ?_
  obtain ⟨m, event⟩ := p
  cases event with
  | enter cpu frame => exact same.enter cpu frame
  | advance cpu =>
      dsimp only [accessesOf, machineStep]
      cases here : m.running cpu with
      | none => exact same
      | some e => exact same.advance here

end Refined

end EbpfNids.DataPlane
