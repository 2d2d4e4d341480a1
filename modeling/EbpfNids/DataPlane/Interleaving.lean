import Mathlib.Data.UInt
import EbpfNids.DataPlane.Machine

/-!
# Updates that two CPUs make at the same time

Both maps are inserted into after a lookup that has found nothing, with a call
that replaces whatever is there by then. So an update can be lost when two CPUs
insert the same source. A mark in a bitmap can also be lost to the zeros that
another CPU writes after its alert. These are the only ways: if no insertion
into `flow_stats` replaces an entry, and neither an insertion into
`port_scan_map` nor the zeros of an alert wipe out a port that no execution is
still to mark, then nothing is lost (`nothing_lost`).
-/

set_option autoImplicit false

namespace EbpfNids.DataPlane

open Library Library.Runs

/-! ## What is lost and what is not -/

/-- The counters after some updates, the entry being made by the first. -/
def countersOf (sizes : List UInt64) : Option FlowStats :=
  if sizes = [] then none else some ⟨UInt64.ofNat sizes.length, sizes.sum⟩

namespace Machine

/-- The counters are those of all executions of `update_flow_stats`, and every
low port passed since the last type-2 event of its source is in the bitmap. -/
structure NothingLost (m : Machine) : Prop where
  flows : ∀ s, m.flowStats.value s = countersOf (m.updates s)
  ports : ∀ s, ∀ port ∈ m.passed s, ∃ words, m.portScanMap.value s = some words ∧
    BitTable.testBit words port = true

/-- The execution is still to mark a port of a source, in the bitmap at `index`
if it has looked it up. -/
def WillMark (e : Execution) (index : Option ℕ) (s : UInt32) (port : ℕ) : Prop :=
  e.srcIp = s ∧ e.dstPort.toNat = port ∧
    (e.pc = .scanUpdate ∨ e.pc = .scanRelookup ∨
      ∃ bitmap, e.pc = .scanMark bitmap ∧ index = some bitmap)

/-- Some execution is still to mark the port. -/
def Awaited (m : Machine) (index : Option ℕ) (s : UInt32) (port : ℕ) : Prop :=
  ∃ cpu e, m.running cpu = some e ∧ WillMark e index s port

/-- The step of an execution wipes out nothing: an insertion into `flow_stats`
finds no entry; an insertion into `port_scan_map` that finds a bitmap, and the
zeros after an alert, find no port that was passed since the last type-2 event
and that no execution is still to mark in the bitmap that stays. -/
def WipesNothing (m : Machine) (e : Execution) : Prop :=
  match e.pc with
  | .flowUpdate => m.flowStats.index e.srcIp = none
  | .scanUpdate =>
      (m.portScanMap.index e.srcIp).isSome →
        ∀ port ∈ m.passed e.srcIp, m.Awaited none e.srcIp port
  | .scanClear bitmap =>
      ∀ s, m.portScanMap.index s = some bitmap →
        ∀ port ∈ m.passed s, m.Awaited (some bitmap) s port
  | _ => True

end Machine

/-- The step wipes out nothing. -/
def Careful (p : Machine × MachineEvent) : Prop :=
  match p.2 with
  | .enter _ _ => True
  | .advance cpu => ∀ e, p.1.running cpu = some e → p.1.WipesNothing e

/-! ## The invariant -/

namespace Machine

/-- The counters are complete, and pointers into `flow_stats` lead to the entry
of their source. -/
structure FlowsIntact (m : Machine) : Prop where
  flows : ∀ s, m.flowStats.value s = countersOf (m.updates s)
  aimed : ∀ cpu e stats, m.running cpu = some e → e.pc = .flowBump stats →
    m.flowStats.index e.srcIp = some stats

/-- The port is in the bitmap of the source, or is still to be marked there. -/
def Covers (m : Machine) (s : UInt32) (port : ℕ) : Prop :=
  (∃ words, m.portScanMap.value s = some words ∧ BitTable.testBit words port = true) ∨
    m.Awaited (m.portScanMap.index s) s port

/-- Every low port passed is covered, and a second lookup finds a bitmap. -/
structure ScansIntact (m : Machine) : Prop where
  stored : ∀ cpu e, m.running cpu = some e → e.pc = .scanRelookup →
    (m.portScanMap.index e.srcIp).isSome
  low : ∀ s, ∀ port ∈ m.passed s, port < 1024
  covers : ∀ s, ∀ port ∈ m.passed s, m.Covers s port

/-- The steps between the call of `check_port_scan` and the mark. -/
def beforeMark : Pc → Bool
  | .scanUpdate => true
  | .scanRelookup => true
  | .scanMark _ => true
  | _ => false

theorem WillMark.beforeMark {e : Execution} {index : Option ℕ} {s : UInt32} {port : ℕ}
    (will : WillMark e index s port) : beforeMark e.pc = true := by
  rcases will.2.2 with update | relookup | ⟨bitmap, mark, -⟩
  · rw [update]
    rfl
  · rw [relookup]
    rfl
  · rw [mark]
    rfl

/-- Who has not looked the bitmap up yet will find the one that is there. -/
theorem WillMark.of_none {e : Execution} {s : UInt32} {port : ℕ} (will : WillMark e none s port)
    (index : Option ℕ) : WillMark e index s port := by
  obtain ⟨source, dest, update | relookup | ⟨bitmap, -, found⟩⟩ := will
  · exact ⟨source, dest, Or.inl update⟩
  · exact ⟨source, dest, Or.inr (Or.inl relookup)⟩
  · cases found

section Frame

variable {m m' : Machine} {cpu : Cpu} {next : Option Execution}

/-- One CPU goes on to `next`, and the others stay where they are. -/
theorem Awaited.of_update {index index' : Option ℕ} {s : UInt32} {port : ℕ}
    (awaited : m.Awaited index s port) (running : m'.running = Function.update m.running cpu next)
    (own : ∀ e, m.running cpu = some e → WillMark e index s port →
      ∃ e' ∈ next, WillMark e' index' s port)
    (others : ∀ e, WillMark e index s port → WillMark e index' s port) :
    m'.Awaited index' s port := by
  obtain ⟨cpu', e, here, will⟩ := awaited
  by_cases same : cpu' = cpu
  · subst same
    obtain ⟨e', goes, will'⟩ := own e here will
    refine ⟨cpu', e', ?_, will'⟩
    rw [running, Function.update_self]
    exact goes
  · refine ⟨cpu', e, ?_, others e will⟩
    rw [running, Function.update_of_ne same]
    exact here

/-- The execution `e` goes on to `next`, and the others stay where they are. -/
theorem Awaited.of_advance {e : Execution} {index index' : Option ℕ} {s : UInt32} {port : ℕ}
    (awaited : m.Awaited index s port) (here : m.running cpu = some e)
    (running : m'.running = Function.update m.running cpu next)
    (own : WillMark e index s port → ∃ e' ∈ next, WillMark e' index' s port)
    (others : ∀ e, WillMark e index s port → WillMark e index' s port) :
    m'.Awaited index' s port := by
  refine awaited.of_update running ?_ others
  intro e' there will
  rw [here] at there
  obtain rfl := Option.some.inj there
  exact own will

/-- One CPU goes on to `next` from a step that marks nothing. -/
theorem Awaited.of_idle {index : Option ℕ} {s : UInt32} {port : ℕ}
    (awaited : m.Awaited index s port) (running : m'.running = Function.update m.running cpu next)
    (idle : ∀ e, m.running cpu = some e → beforeMark e.pc = false) : m'.Awaited index s port := by
  refine awaited.of_update running (fun e here will => ?_) fun _ will => will
  have before := will.beforeMark
  rw [idle e here] at before
  cases before

/-- A step that leaves `flow_stats` alone. -/
theorem FlowsIntact.of_update (intact : m.FlowsIntact) (flowStats : m'.flowStats = m.flowStats)
    (updates : m'.updates = m.updates) (running : m'.running = Function.update m.running cpu next)
    (own : ∀ e ∈ next, ∀ stats, e.pc = .flowBump stats →
      m.flowStats.index e.srcIp = some stats) : m'.FlowsIntact := by
  refine ⟨?_, ?_⟩
  · rw [flowStats, updates]
    exact intact.flows
  · intro cpu' e stats here bumps
    rw [flowStats]
    rw [running] at here
    by_cases same : cpu' = cpu
    · subst same
      rw [Function.update_self] at here
      exact own e here stats bumps
    · rw [Function.update_of_ne same] at here
      exact intact.aimed cpu' e stats here bumps

/-- A step of an execution that has nothing to mark leaves `port_scan_map` and
the record of ports alone. -/
theorem ScansIntact.of_update (intact : m.ScansIntact)
    (portScanMap : m'.portScanMap = m.portScanMap)
    (passed : m'.passed = m.passed) (running : m'.running = Function.update m.running cpu next)
    (idle : ∀ e, m.running cpu = some e → beforeMark e.pc = false)
    (own : ∀ e ∈ next, e.pc ≠ .scanRelookup) : m'.ScansIntact := by
  refine ⟨?_, ?_, ?_⟩
  · intro cpu' e here relooks
    rw [portScanMap]
    rw [running] at here
    by_cases same : cpu' = cpu
    · subst same
      rw [Function.update_self] at here
      exact absurd relooks (own e here)
    · rw [Function.update_of_ne same] at here
      exact intact.stored cpu' e here relooks
  · rw [passed]
    exact intact.low
  · intro s port member
    rw [passed] at member
    rw [Covers, portScanMap]
    refine (intact.covers s port member).imp_right fun awaited => ?_
    exact awaited.of_idle running idle

end Frame

/-! ## The steps of `update_flow_stats` -/

theorem countersOf_eq_none {sizes : List UInt64} : countersOf sizes = none ↔ sizes = [] := by
  rw [countersOf]
  split
  · rename_i empty
    exact iff_of_true rfl empty
  · rename_i filled
    exact iff_of_false (Option.some_ne_none _) filled

/-- One more update of an entry. -/
theorem countersOf_cons {sizes : List UInt64} {stats : FlowStats} (size : UInt64)
    (counted : countersOf sizes = some stats) :
    countersOf (size :: sizes) = some ⟨stats.pktCount + 1, stats.byteCount + size⟩ := by
  rw [countersOf] at counted
  split at counted
  · cases counted
  · obtain rfl := Option.some.inj counted
    rw [countersOf, if_neg (List.cons_ne_nil _ _), List.length_cons, List.sum_cons,
      UInt64.ofNat_add, UInt64.add_comm sizes.sum]
    rfl

section Flow

variable {m : Machine} {cpu : Cpu} {e : Execution}

/-- The entry of the source takes in the packet. -/
theorem FlowsIntact.bump (intact : m.FlowsIntact) (here : m.running cpu = some e) {stats : ℕ}
    (pc : e.pc = .flowBump stats) : (m.advance cpu e).FlowsIntact := by
  have found := intact.aimed cpu e stats here pc
  rw [advance, pc]
  refine ⟨?_, ?_⟩
  · intro s
    dsimp only [finish, updated]
    by_cases own : s = e.srcIp
    · subst own
      rw [SharedMap.value_modify_of_index _ found, Function.update_self]
      have counted := intact.flows e.srcIp
      cases value : m.flowStats.value e.srcIp with
      | none => cases found.symm.trans (SharedMap.value_eq_none.mp value)
      | some old =>
          rw [value] at counted
          exact (countersOf_cons e.pktSize counted.symm).symm
    · have other : m.flowStats.index s ≠ some stats := fun shared =>
        own (m.flowStats.separate shared found)
      rw [SharedMap.value_modify_of_ne _ other, Function.update_of_ne own]
      exact intact.flows s
  · intro cpu' e' stats' running bumps
    dsimp only [finish, updated] at running ⊢
    by_cases same : cpu' = cpu
    · subst same
      rw [Function.update_self] at running
      cases running
    · rw [Function.update_of_ne same] at running
      exact intact.aimed cpu' e' stats' running bumps

/-- A first entry for the source, if there is none. -/
theorem FlowsIntact.insert (intact : m.FlowsIntact) (pc : e.pc = .flowUpdate)
    (absent : m.flowStats.index e.srcIp = none) : (m.advance cpu e).FlowsIntact := by
  rw [advance, pc]
  refine ⟨?_, ?_⟩
  · intro s
    dsimp only [finish, updated]
    by_cases own : s = e.srcIp
    · subst own
      have counted := intact.flows e.srcIp
      rw [SharedMap.value_eq_none.mpr absent] at counted
      rw [SharedMap.value_update_self, Function.update_self, countersOf_eq_none.mp counted.symm,
        countersOf, if_neg (List.cons_ne_nil _ _), List.sum_cons, List.sum_nil, UInt64.add_zero]
      rfl
    · rw [SharedMap.value_update_of_ne own, Function.update_of_ne own]
      exact intact.flows s
  · intro cpu' e' stats running bumps
    dsimp only [finish, updated] at running ⊢
    by_cases same : cpu' = cpu
    · subst same
      rw [Function.update_self] at running
      cases running
    · rw [Function.update_of_ne same] at running
      have aimed := intact.aimed cpu' e' stats running bumps
      have different : e'.srcIp ≠ e.srcIp := by
        intro same
        rw [same, absent] at aimed
        cases aimed
      rw [SharedMap.index_update_of_ne different]
      exact aimed

end Flow

/-! ## The steps of `check_port_scan` -/

section Scan

variable {m : Machine} {cpu : Cpu} {e : Execution}

theorem onBitmap_ne (e : Execution) (bitmap : ℕ) :
    e.onBitmap bitmap ≠ .scanRelookup ∧ ∀ stats, e.onBitmap bitmap ≠ .flowBump stats := by
  rw [Execution.onBitmap]
  split
  · exact ⟨Pc.noConfusion, fun _ => Pc.noConfusion⟩
  · exact ⟨Pc.noConfusion, fun _ => Pc.noConfusion⟩

theorem onCount_ne (bitmap total : ℕ) :
    Execution.onCount bitmap total ≠ .scanRelookup ∧
      ∀ stats, Execution.onCount bitmap total ≠ .flowBump stats := by
  rw [Execution.onCount]
  split
  · exact ⟨Pc.noConfusion, fun _ => Pc.noConfusion⟩
  · exact ⟨Pc.noConfusion, fun _ => Pc.noConfusion⟩

theorem idle_of_pc (here : m.running cpu = some e) {pc : Pc} (at_ : e.pc = pc)
    (marks : beforeMark pc = false) : ∀ e', m.running cpu = some e' → beforeMark e'.pc = false := by
  intro e' running
  rw [here] at running
  obtain rfl := Option.some.inj running
  rw [at_, marks]

/-- The stored bitmaps after one execution has gone on to `pc`. -/
theorem stored_goto (intact : m.ScansIntact) {pc : Pc} (here : pc ≠ .scanRelookup)
    {portScanMap : SharedMap UInt32 PortBitmap}
    (kept : ∀ s, (m.portScanMap.index s).isSome → (portScanMap.index s).isSome) :
    ∀ cpu' e', Function.update m.running cpu (some { e with pc := pc }) cpu' = some e' →
      e'.pc = .scanRelookup → (portScanMap.index e'.srcIp).isSome := by
  intro cpu' e' running relooks
  by_cases same : cpu' = cpu
  · subst same
    rw [Function.update_self] at running
    obtain rfl := Option.some.inj running
    exact absurd relooks here
  · rw [Function.update_of_ne same] at running
    exact kept _ (intact.stored cpu' e' running relooks)

theorem ScansIntact.onward (intact : m.ScansIntact) {pc : Pc}
    (idle : ∀ e', m.running cpu = some e' → beforeMark e'.pc = false) (first : pc ≠ .scanRelookup) :
    (m.goto cpu e pc).ScansIntact := by
  refine intact.of_update rfl rfl rfl idle ?_
  rintro e' ⟨⟩
  exact first

/-- The call passes its port, and goes on to where it will be marked. -/
theorem ScansIntact.pass (intact : m.ScansIntact) (here : m.running cpu = some e)
    (pc : e.pc = .scanLookup) {pc' : Pc} (first : pc' ≠ .scanRelookup)
    (marks : e.dstPort.toNat < 1024 →
      WillMark { e with pc := pc' } (m.portScanMap.index e.srcIp) e.srcIp e.dstPort.toNat) :
    ((m.pass e).goto cpu e pc').ScansIntact := by
  have kept : ∀ s port, m.Covers s port → ((m.pass e).goto cpu e pc').Covers s port := by
    intro s port covered
    exact covered.imp_right fun awaited => awaited.of_idle rfl (idle_of_pc here pc rfl)
  have added : ∀ s, ∀ port ∈ ((m.pass e).goto cpu e pc').passed s,
      port ∈ m.passed s ∨ e.dstPort.toNat < 1024 ∧ s = e.srcIp ∧ port = e.dstPort.toNat := by
    intro s port member
    dsimp only [goto, Machine.pass] at member
    split at member
    · rename_i low
      by_cases own : s = e.srcIp
      · subst own
        rw [Function.update_self] at member
        exact (List.mem_cons.mp member).elim (fun new => Or.inr ⟨low, rfl, new⟩) Or.inl
      · rw [Function.update_of_ne own] at member
        exact Or.inl member
    · exact Or.inl member
  refine ⟨stored_goto intact first fun _ => id, ?_, ?_⟩
  · intro s port member
    rcases added s port member with old | ⟨low, -, rfl⟩
    · exact intact.low s port old
    · exact low
  · intro s port member
    rcases added s port member with old | ⟨low, rfl, rfl⟩
    · exact kept s port (intact.covers s port old)
    · exact Or.inr ⟨cpu, _, Function.update_self .., marks low⟩

/-- The insertion of an empty bitmap. -/
theorem ScansIntact.insert (intact : m.ScansIntact) (here : m.running cpu = some e)
    (pc : e.pc = .scanUpdate)
    (careful : (m.portScanMap.index e.srcIp).isSome →
      ∀ port ∈ m.passed e.srcIp, m.Awaited none e.srcIp port) :
    (m.advance cpu e).ScansIntact := by
  rw [advance, pc]
  refine ⟨?_, intact.low, ?_⟩
  · intro cpu' e' running relooks
    dsimp only [goto] at running ⊢
    by_cases own : e'.srcIp = e.srcIp
    · rw [own, SharedMap.index_update_self]
      rfl
    · rw [SharedMap.index_update_of_ne own]
      by_cases same : cpu' = cpu
      · subst same
        rw [Function.update_self] at running
        obtain rfl := Option.some.inj running
        exact absurd rfl own
      · rw [Function.update_of_ne same] at running
        exact intact.stored cpu' e' running relooks
  · intro s port member
    have covered := intact.covers s port member
    by_cases own : s = e.srcIp
    · subst own
      have awaited : m.Awaited none e.srcIp port := by
        cases found : m.portScanMap.index e.srcIp with
        | some bitmap => exact careful (by rw [found]; rfl) port member
        | none =>
            rcases covered with ⟨words, value, -⟩ | awaited
            · rw [SharedMap.value_eq_none.mpr found] at value
              cases value
            · rwa [found] at awaited
      refine Or.inr (awaited.of_advance here rfl ?_ fun _ will => will.of_none _)
      intro will
      exact ⟨_, rfl, will.1, will.2.1, Or.inr (Or.inl rfl)⟩
    · dsimp only [Covers, goto]
      rw [SharedMap.value_update_of_ne own, SharedMap.index_update_of_ne own]
      refine covered.imp_right fun awaited => awaited.of_advance here rfl ?_ fun _ will => will
      intro will
      exact absurd will.1.symm own

/-- The second lookup finds the bitmap in which the port will be marked. -/
theorem ScansIntact.relookup (intact : m.ScansIntact) (here : m.running cpu = some e)
    (pc : e.pc = .scanRelookup) : (m.advance cpu e).ScansIntact := by
  have stored := intact.stored cpu e here pc
  rw [advance, pc]
  cases found : m.portScanMap.index e.srcIp with
  | none =>
      rw [found] at stored
      cases stored
  | some bitmap =>
      refine ⟨stored_goto intact (onBitmap_ne e bitmap).1 fun _ => id, intact.low, ?_⟩
      intro s port member
      have low := intact.low s port member
      refine (intact.covers s port member).imp_right fun awaited =>
        awaited.of_advance here rfl ?_ fun _ will => will
      rintro ⟨rfl, rfl, -⟩
      refine ⟨_, rfl, rfl, rfl, Or.inr (Or.inr ⟨bitmap, ?_, found⟩)⟩
      exact if_pos low

theorem testBit_markPortBit {port : UInt16} (words : PortBitmap) (q : ℕ)
    (low : port.toNat < 1024) :
    BitTable.testBit (markPortBit port words) q =
      (decide (q = port.toNat) || BitTable.testBit words q) := by
  rw [markPortBit, dif_pos low]
  exact BitTable.testBit_setBit (by omega) (by decide)

theorem testBit_markPortBit_of_testBit (port : UInt16) {words : PortBitmap} {q : ℕ}
    (bit : BitTable.testBit words q = true) :
    BitTable.testBit (markPortBit port words) q = true := by
  by_cases low : port.toNat < 1024
  · rw [testBit_markPortBit words q low, bit, Bool.or_true]
  · rwa [markPortBit, dif_neg low]

/-- The port is marked where the pointer leads. -/
theorem ScansIntact.mark (intact : m.ScansIntact) (here : m.running cpu = some e) {bitmap : ℕ}
    (pc : e.pc = .scanMark bitmap) : (m.advance cpu e).ScansIntact := by
  rw [advance, pc]
  refine ⟨stored_goto intact Pc.noConfusion fun _ => id, intact.low, ?_⟩
  intro s port member
  have low := intact.low s port member
  have covered := intact.covers s port member
  dsimp only [Covers, goto]
  by_cases found : m.portScanMap.index s = some bitmap
  · rw [SharedMap.value_modify_of_index _ found]
    rcases covered with ⟨words, value, bit⟩ | ⟨cpu', e', running, will⟩
    · rw [value]
      exact Or.inl ⟨_, rfl, testBit_markPortBit_of_testBit _ bit⟩
    · by_cases same : cpu' = cpu
      · subst same
        rw [here] at running
        obtain rfl := Option.some.inj running
        obtain ⟨rfl, rfl, -⟩ := will
        cases value : m.portScanMap.value e.srcIp with
        | none => cases found.symm.trans (SharedMap.value_eq_none.mp value)
        | some words =>
            refine Or.inl ⟨_, rfl, ?_⟩
            rw [testBit_markPortBit words _ low, decide_eq_true rfl, Bool.true_or]
      · refine Or.inr ⟨cpu', e', ?_, will⟩
        exact (Function.update_of_ne same ..).trans running
  · rw [SharedMap.value_modify_of_ne _ found]
    refine covered.imp_right fun awaited => awaited.of_advance here rfl ?_ fun _ will => will
    rintro ⟨-, -, update | relookup | ⟨bitmap', mark, leads⟩⟩
    · cases pc.symm.trans update
    · cases pc.symm.trans relookup
    · cases pc.symm.trans mark
      exact absurd leads found

/-- The output of an alert starts the record of ports over. -/
theorem ScansIntact.output (intact : m.ScansIntact) (here : m.running cpu = some e) {bitmap : ℕ}
    (pc : e.pc = .scanOutput bitmap) : (m.advance cpu e).ScansIntact := by
  have old : ∀ s, ∀ port ∈ (m.advance cpu e).passed s, port ∈ m.passed s := by
    intro s port member
    rw [advance, pc] at member
    dsimp only [goto] at member
    by_cases own : s = e.srcIp
    · subst own
      rw [Function.update_self] at member
      cases member
    · rwa [Function.update_of_ne own] at member
  refine ⟨?_, fun s port member => intact.low s port (old s port member), ?_⟩
  · rw [advance, pc]
    exact stored_goto intact Pc.noConfusion fun _ => id
  · intro s port member
    have covered := intact.covers s port (old s port member)
    rw [advance, pc]
    exact covered.imp_right fun awaited => awaited.of_idle rfl (idle_of_pc here pc rfl)

/-- The zeros after an alert. -/
theorem ScansIntact.clear (intact : m.ScansIntact) (here : m.running cpu = some e) {bitmap : ℕ}
    (pc : e.pc = .scanClear bitmap)
    (careful : ∀ s, m.portScanMap.index s = some bitmap →
      ∀ port ∈ m.passed s, m.Awaited (some bitmap) s port) :
    (m.advance cpu e).ScansIntact := by
  rw [advance, pc]
  refine ⟨stored_goto intact Pc.noConfusion fun _ => id, intact.low, ?_⟩
  intro s port member
  have idle := idle_of_pc here pc rfl
  dsimp only [Covers, goto]
  by_cases found : m.portScanMap.index s = some bitmap
  · rw [SharedMap.index_modify, found]
    exact Or.inr ((careful s found port member).of_idle rfl idle)
  · rw [SharedMap.value_modify_of_ne _ found]
    exact (intact.covers s port member).imp_right fun awaited => awaited.of_idle rfl idle

end Scan

/-! ## Every step -/

section Step

variable {m : Machine} {cpu : Cpu} {e : Execution}

/-- What a step before the writes of `update_flow_stats` leaves alone: it only
goes on, with a pointer into `flow_stats` if it has looked one up. -/
theorem advance_frame (m : Machine) (cpu : Cpu) (e : Execution) :
    e.pc = .flowUpdate ∨ (∃ stats, e.pc = .flowBump stats) ∨
      (m.advance cpu e).flowStats = m.flowStats ∧ (m.advance cpu e).updates = m.updates ∧
        ∃ next, (m.advance cpu e).running =
            Function.update m.running cpu (some { e with pc := next }) ∧
          ∀ stats, next = .flowBump stats → m.flowStats.index e.srcIp = some stats := by
  have other : ∀ {next : Pc}, (∀ stats, next ≠ .flowBump stats) →
      ∀ stats, next = .flowBump stats → m.flowStats.index e.srcIp = some stats :=
    fun never stats bumps => absurd bumps (never stats)
  rw [advance]
  cases e.pc with
  | scanLookup =>
      cases m.portScanMap.index e.srcIp with
      | some bitmap =>
          exact Or.inr (Or.inr ⟨rfl, rfl, _, rfl, other (onBitmap_ne e bitmap).2⟩)
      | none => exact Or.inr (Or.inr ⟨rfl, rfl, _, rfl, other fun _ => Pc.noConfusion⟩)
  | scanRelookup =>
      cases m.portScanMap.index e.srcIp with
      | some bitmap =>
          exact Or.inr (Or.inr ⟨rfl, rfl, _, rfl, other (onBitmap_ne e bitmap).2⟩)
      | none => exact Or.inr (Or.inr ⟨rfl, rfl, _, rfl, other fun _ => Pc.noConfusion⟩)
  | scanCount bitmap =>
      dsimp only
      cases m.portScanMap.read bitmap with
      | some words => exact Or.inr (Or.inr ⟨rfl, rfl, _, rfl, other (onCount_ne bitmap _).2⟩)
      | none => exact Or.inr (Or.inr ⟨rfl, rfl, .flowLookup, rfl, other fun _ => Pc.noConfusion⟩)
  | flowLookup =>
      cases m.flowStats.index e.srcIp with
      | some stats =>
          refine Or.inr (Or.inr ⟨rfl, rfl, .flowBump stats, rfl, ?_⟩)
          rintro stats' ⟨⟩
          rfl
      | none =>
          exact Or.inr (Or.inr ⟨rfl, rfl, .flowUpdate, rfl, fun stats bumps => by cases bumps⟩)
  | flowUpdate => exact Or.inl rfl
  | flowBump stats => exact Or.inr (Or.inl ⟨stats, rfl⟩)
  | scanUpdate =>
      exact Or.inr (Or.inr ⟨rfl, rfl, .scanRelookup, rfl, other fun _ => Pc.noConfusion⟩)
  | scanMark bitmap =>
      exact Or.inr (Or.inr ⟨rfl, rfl, .scanCount bitmap, rfl, other fun _ => Pc.noConfusion⟩)
  | scanOutput bitmap =>
      exact Or.inr (Or.inr ⟨rfl, rfl, .scanClear bitmap, rfl, other fun _ => Pc.noConfusion⟩)
  | scanClear bitmap =>
      exact Or.inr (Or.inr ⟨rfl, rfl, .flowLookup, rfl, other fun _ => Pc.noConfusion⟩)

/-- **Step lemma for `flow_stats`.** -/
theorem FlowsIntact.advance (intact : m.FlowsIntact) (here : m.running cpu = some e)
    (careful : m.WipesNothing e) : (m.advance cpu e).FlowsIntact := by
  rcases advance_frame m cpu e with pc | ⟨stats, pc⟩ | ⟨flowStats, updates, next, running, leads⟩
  · rw [WipesNothing, pc] at careful
    exact intact.insert pc careful
  · exact intact.bump here pc
  · refine intact.of_update flowStats updates running ?_
    rintro e' ⟨⟩ stats bumps
    exact leads stats bumps

/-- **Step lemma for `port_scan_map`.** -/
theorem ScansIntact.advance (intact : m.ScansIntact) (here : m.running cpu = some e)
    (careful : m.WipesNothing e) : (m.advance cpu e).ScansIntact := by
  rw [WipesNothing] at careful
  cases pc : e.pc with
  | scanLookup =>
      rw [Machine.advance, pc]
      cases found : m.portScanMap.index e.srcIp with
      | some bitmap =>
          refine intact.pass here pc (onBitmap_ne e bitmap).1 fun low => ?_
          exact ⟨rfl, rfl, Or.inr (Or.inr ⟨bitmap, if_pos low, found⟩)⟩
      | none => exact intact.pass here pc Pc.noConfusion fun _ => ⟨rfl, rfl, Or.inl rfl⟩
  | scanUpdate =>
      rw [pc] at careful
      exact intact.insert here pc careful
  | scanRelookup => exact intact.relookup here pc
  | scanMark bitmap => exact intact.mark here pc
  | scanCount bitmap =>
      rw [Machine.advance, pc]
      dsimp only
      cases m.portScanMap.read bitmap with
      | some words => exact intact.onward (idle_of_pc here pc rfl) (onCount_ne bitmap _).1
      | none => exact intact.onward (idle_of_pc here pc rfl) Pc.noConfusion
  | scanOutput bitmap => exact intact.output here pc
  | scanClear bitmap =>
      rw [pc] at careful
      exact intact.clear here pc careful
  | flowLookup =>
      rw [Machine.advance, pc]
      cases m.flowStats.index e.srcIp with
      | some stats => exact intact.onward (idle_of_pc here pc rfl) Pc.noConfusion
      | none => exact intact.onward (idle_of_pc here pc rfl) Pc.noConfusion
  | flowUpdate =>
      rw [Machine.advance, pc]
      exact intact.of_update rfl rfl rfl (idle_of_pc here pc rfl) fun _ none => by cases none
  | flowBump stats =>
      rw [Machine.advance, pc]
      exact intact.of_update rfl rfl rfl (idle_of_pc here pc rfl) fun _ none => by cases none

end Step

/-- A frame that is taken by an idle CPU. -/
theorem entry_pc {blacklist : Blacklist} {frame : Frame} {e : Execution}
    (enters : Execution.entry blacklist frame = some e) :
    e.pc = .scanLookup ∨ e.pc = .flowLookup := by
  rw [Execution.entry] at enters
  obtain ⟨⟨srcIp, size⟩, -, rfl⟩ := Option.map_eq_some_iff.mp enters
  dsimp only
  split
  · dsimp only
    split
    · exact Or.inl rfl
    · exact Or.inr rfl
  · exact Or.inr rfl

end Machine

open Machine

/-- Both halves of the invariant are kept by every step that wipes out nothing. -/
theorem intact_machineStep {m : Machine} {event : MachineEvent} (flows : m.FlowsIntact)
    (scans : m.ScansIntact) (careful : Careful (m, event)) :
    (machineStep m event).FlowsIntact ∧ (machineStep m event).ScansIntact := by
  cases event with
  | enter cpu frame =>
      rw [machineStep]
      cases here : m.running cpu with
      | some e => exact ⟨flows, scans⟩
      | none =>
          have first : ∀ e ∈ Execution.entry m.blacklist frame,
              e.pc = .scanLookup ∨ e.pc = .flowLookup := fun e enters => entry_pc enters
          refine ⟨flows.of_update rfl rfl rfl ?_, scans.of_update rfl rfl rfl ?_ ?_⟩
          · intro e enters stats bumps
            rcases first e enters with pc | pc
            · cases pc.symm.trans bumps
            · cases pc.symm.trans bumps
          · intro e running
            cases here.symm.trans running
          · intro e enters relooks
            rcases first e enters with pc | pc
            · cases pc.symm.trans relooks
            · cases pc.symm.trans relooks
  | advance cpu =>
      rw [machineStep]
      cases here : m.running cpu with
      | none => exact ⟨flows, scans⟩
      | some e => exact ⟨flows.advance here (careful e here), scans.advance here (careful e here)⟩

theorem intact_start (blacklist : Blacklist) :
    (start blacklist).FlowsIntact ∧ (start blacklist).ScansIntact := by
  refine ⟨⟨fun _ => rfl, ?_⟩, ?_, ?_, ?_⟩
  · intro cpu e stats running
    cases running
  · intro cpu e running
    cases running
  · intro s port member
    cases member
  · intro s port member
    cases member

/-- **No update is lost.** In every interleaving from empty maps of executions on
any CPUs whose steps wipe out nothing, where stale elements are not used again:
once all executions have finished, the counters of every source are those of its
executions of `update_flow_stats`, and every low port passed for it since its last
type-2 event is in its bitmap. -/
theorem nothing_lost (blacklist : Blacklist) (events : List MachineEvent)
    (careful : ∀ p ∈ steps machineStep (start blacklist) events, Careful p)
    (finished : ∀ cpu, (exec machineStep (start blacklist) events).running cpu = none) :
    (exec machineStep (start blacklist) events).NothingLost := by
  obtain ⟨flows, scans⟩ := exec_invariant
    (P := fun m : Machine => m.FlowsIntact ∧ m.ScansIntact) (intact_start blacklist)
    fun p member both => intact_machineStep both.1 both.2 (careful p member)
  refine ⟨flows.flows, ?_⟩
  intro s port member
  rcases scans.covers s port member with marked | ⟨cpu, e, running, -⟩
  · exact marked
  · cases (finished cpu).symm.trans running

/-! ## Two CPUs see a new source -/

/-- A packet from 10.0.0.1 that is not a SYN, on CPUs 0 and 1 at the same time:
both find no entry, and then both insert one. -/
def racingInsert : List MachineEvent :=
  let frame := Frame.ofTcp ⟨10, 0, 0, 1⟩ ⟨10, 0, 0, 2⟩ 0 80 0x10
  [.enter 0 frame, .enter 1 frame, .advance 0, .advance 1, .advance 0, .advance 1]

/-- One of the two packets is not in the counter. -/
theorem racing_insert_loses :
    (∀ cpu, (exec machineStep (start .empty) racingInsert).running cpu = none) ∧
      ¬ (exec machineStep (start .empty) racingInsert).NothingLost := by
  refine ⟨?_, ?_⟩
  · rintro (_ | _ | cpu)
    · rfl
    · rfl
    · rfl
  · intro kept
    have counted := kept.flows (Quad.le ⟨10, 0, 0, 1⟩)
    revert counted
    decide +kernel

/-- The step inserts nothing but a first entry, and clears nothing. -/
def insertsFirst (p : Machine × MachineEvent) : Bool :=
  match p.2 with
  | .enter _ _ => true
  | .advance cpu =>
      (p.1.running cpu).all fun e =>
        match e.pc with
        | .flowUpdate => (p.1.flowStats.index e.srcIp).isNone
        | .scanUpdate => (p.1.portScanMap.index e.srcIp).isNone
        | .scanClear _ => false
        | _ => true

theorem careful_of_insertsFirst {p : Machine × MachineEvent} (first : insertsFirst p = true) :
    Careful p := by
  obtain ⟨m, event⟩ := p
  cases event with
  | enter cpu frame => trivial
  | advance cpu =>
      intro e running
      dsimp only at running
      simp only [insertsFirst, running, Option.all_some] at first
      rw [WipesNothing]
      cases pc : e.pc with
      | flowUpdate =>
          rw [pc] at first
          exact Option.isNone_iff_eq_none.mp first
      | scanUpdate =>
          rw [pc] at first
          intro present
          rw [Option.isNone_iff_eq_none.mp first] at present
          cases present
      | scanClear bitmap =>
          rw [pc] at first
          cases first
      | _ => trivial

/-- A SYN to port 80 on one CPU alone. -/
theorem nothing_lost_one_cpu :
    (exec machineStep (start .empty)
      (.enter 0 (Frame.ofTcp ⟨10, 0, 0, 1⟩ ⟨10, 0, 0, 2⟩ 0 80 0x02) ::
        List.replicate 7 (.advance 0))).NothingLost := by
  have first : ∀ p ∈ steps machineStep (start .empty)
      (.enter 0 (Frame.ofTcp ⟨10, 0, 0, 1⟩ ⟨10, 0, 0, 2⟩ 0 80 0x02) ::
        List.replicate 7 (.advance 0)), insertsFirst p = true := by
    decide +kernel
  refine nothing_lost .empty _ (fun p member => careful_of_insertsFirst (first p member)) ?_
  rintro (_ | cpu)
  · rfl
  · rfl

end EbpfNids.DataPlane
