import EbpfNids.DataPlane.SynFlood
import EbpfNids.Library.Relay

/-!
# The SYN counters on several CPUs at the same time

`check_syn_flood` step by step: the lookup, the insertion, and the increment, the
comparison, the output and the reset through the pointer that the lookup gave.
Every CPU makes one call at a time, and the steps of different CPUs come in any
order. No element is deleted, so the pointer is known by its key.

The map holds a counter for every CPU, a CPU writes its own only, and an insertion
that finds an element by then stores 1 there for its own CPU. So, unlike the other
two maps, nothing is lost: the counters and the outputs of each CPU are those of
the calls made one at a time, in the order in which they finish
(`syn_linearizable`).
-/

set_option autoImplicit false

namespace EbpfNids.DataPlane

open Library Library.Runs Library.Refinement

/-! ## The machine -/

/-- A call, with the answers that the kernel is going to give to it. -/
structure SynCall where
  srcIp : UInt32
  dstIp : UInt32
  kernel : Kernel
deriving DecidableEq, Repr

/-- The next step of a call. -/
inductive SynPc where
  | lookup
  | update
  | bump
  | compare
  | output
  | reset
deriving DecidableEq, Repr

/-- The map, the call that each CPU is in, and the record of what was output. -/
structure SynMachine where
  synCounter : SynCounter
  running : Cpu → Option (SynCall × SynPc)
  record : List Act

/-- A CPU that is idle makes a call, or one that is not makes a step. -/
inductive SynEvent where
  | enter (cpu : Cpu) (call : SynCall)
  | advance (cpu : Cpu)

/-- `bpf_map_update_elem` of a per-CPU hash: a key that it holds has the value of
the calling CPU written. -/
def perCpuUpdate (allocated : Bool) (cpu : Cpu) (m : SynCounter) (key : UInt32) (value : UInt64) :
    SynCounter :=
  match m.lookup key with
  | some _ => m.modify key fun slots => Function.update slots cpu value
  | none => bpfMapUpdateElem allocated m key (perCpuInit cpu value)

namespace SynMachine

def start : SynMachine := ⟨.empty, fun _ => none, []⟩

def goto (m : SynMachine) (cpu : Cpu) (call : SynCall) (pc : SynPc) : SynMachine :=
  { m with running := Function.update m.running cpu (some (call, pc)) }

def finish (m : SynMachine) (cpu : Cpu) : SynMachine :=
  { m with running := Function.update m.running cpu none }

/-- Write the counter of a CPU through a pointer. -/
def write (m : SynMachine) (cpu : Cpu) (key : UInt32) (f : UInt64 → UInt64) : SynMachine :=
  { m with
    synCounter := m.synCounter.modify key fun slots => Function.update slots cpu (f (slots cpu)) }

/-- The event that a call outputs. -/
def evt (call : SynCall) : AlertEvent := ⟨call.srcIp, call.dstIp, 1, call.kernel.synTime⟩

/-- One step of a call. -/
def advance (m : SynMachine) (cpu : Cpu) (call : SynCall) : SynPc → SynMachine
  | .lookup =>
      match m.synCounter.lookup call.srcIp with
      | some _ => m.goto cpu call .bump
      | none => m.goto cpu call .update
  | .update =>
      { m with
        synCounter :=
          perCpuUpdate call.kernel.synUpdate cpu m.synCounter call.srcIp 1 }.finish cpu
  | .bump => (m.write cpu call.srcIp fun count => count + 1).goto cpu call .compare
  | .compare =>
      if slot m.synCounter call.srcIp cpu > synThreshold then m.goto cpu call .output
      else m.finish cpu
  | .output =>
      { m with
        record := m.record ++
          [Act.bpfRingbufOutput cpu (evt call) call.kernel.synOutput] }.goto cpu call .reset
  | .reset => (m.write cpu call.srcIp fun _ => 0).finish cpu

end SynMachine

def synMachineStep (m : SynMachine) : SynEvent → SynMachine
  | .enter cpu call =>
      match m.running cpu with
      | none => m.goto cpu call .lookup
      | some _ => m
  | .advance cpu =>
      match m.running cpu with
      | some (call, pc) => m.advance cpu call pc
      | none => m

/-- The call that a step finishes. -/
def finishes (p : SynMachine × SynEvent) : List (Cpu × SynCall) :=
  match p.2 with
  | .enter _ _ => []
  | .advance cpu =>
      match p.1.running cpu with
      | some (call, .update) => [(cpu, call)]
      | some (call, .compare) =>
          if slot p.1.synCounter call.srcIp cpu > synThreshold then [] else [(cpu, call)]
      | some (call, .reset) => [(cpu, call)]
      | _ => []

/-- A whole call at once, as `checkSynFlood` has it. -/
def atOnce (state : SynCounter × List Act) (p : Cpu × SynCall) : SynCounter × List Act :=
  let done := checkSynFlood p.2.kernel p.1 p.2.srcIp p.2.dstIp state.1
  (done.1, state.2 ++ done.2)

/-- What a CPU has output, and whether the ring buffer took it. -/
def outputsOn (c : Cpu) (record : List Act) : List (AlertEvent × Bool) :=
  record.filterMap fun act =>
    match act with
    | .bpfRingbufOutput cpu evt placed => if cpu = c then some (evt, placed) else none
    | _ => none

theorem outputsOn_append (c : Cpu) (first second : List Act) :
    outputsOn c (first ++ second) = outputsOn c first ++ outputsOn c second :=
  List.filterMap_append

/-! ## Counters -/

section Slots

variable {m : SynCounter} {s : UInt32}

theorem slot_of_none (absent : m.lookup s = none) (c : Cpu) : slot m s c = 0 := by
  simp [slot, absent]

theorem slot_of_some {counts : Cpu → UInt64} (present : m.lookup s = some counts) (c : Cpu) :
    slot m s c = counts c := by
  simp [slot, present]

theorem slot_congr {m' : SynCounter} (same : m'.lookup s = m.lookup s) (c : Cpu) :
    slot m' s c = slot m s c := by
  rw [slot, slot, same]

/-- A write changes one counter of an element that is there. -/
theorem slot_write (present : (m.lookup s).isSome) (cpu : Cpu) (f : UInt64 → UInt64)
    (t : UInt32) (c : Cpu) :
    slot (m.modify s fun slots => Function.update slots cpu (f (slots cpu))) t c =
      if t = s ∧ c = cpu then f (slot m s cpu) else slot m t c := by
  obtain ⟨counts, found⟩ := Option.isSome_iff_exists.mp present
  by_cases own : t = s
  · subst own
    rw [slot, BoundedMap.lookup_modify_self, found]
    by_cases here : c = cpu
    · subst here
      simp [slot, found]
    · simp [slot, found, here]
  · rw [slot_congr (BoundedMap.lookup_modify_of_ne own), if_neg fun both => own both.1]

theorem isSome_write (f : (Cpu → UInt64) → Cpu → UInt64) (t : UInt32) :
    ((m.modify s f).lookup t).isSome = (m.lookup t).isSome := by
  by_cases own : t = s
  · subst own
    rw [BoundedMap.lookup_modify_self, Option.isSome_map]
  · rw [BoundedMap.lookup_modify_of_ne own]

/-- An insertion writes one counter, if it is made. -/
theorem slot_insert (absent : m.lookup s = none) (allocated : Bool) (cpu : Cpu) (t : UInt32)
    (c : Cpu) :
    slot (bpfMapUpdateElem allocated m s (perCpuInit cpu 1)) t c =
      if t = s ∧ c = cpu ∧ allocated = true ∧ m.size < statsSize then 1 else slot m t c := by
  by_cases own : t = s
  · subst own
    rw [slot_of_none absent]
    by_cases room : Stores allocated m
    · rw [slot_of_some (bpfMapUpdateElem_stored room absent), perCpuInit]
      exact if_congr ⟨fun here => ⟨rfl, here, room⟩, fun all => all.2.1⟩ rfl rfl
    · rw [bpfMapUpdateElem_refused room absent, slot_of_none absent,
        if_neg fun all => room all.2.2]
  · rw [slot_congr (bpfMapUpdateElem_of_ne own), if_neg fun all => own all.1]

theorem isSome_insert (absent : m.lookup s = none) (allocated : Bool) (value : Cpu → UInt64)
    (t : UInt32) :
    ((bpfMapUpdateElem allocated m s value).lookup t).isSome =
      if t = s ∧ allocated = true ∧ m.size < statsSize then true else (m.lookup t).isSome := by
  by_cases own : t = s
  · subst own
    by_cases room : Stores allocated m
    · rw [bpfMapUpdateElem_stored room absent, if_pos ⟨rfl, room⟩, Option.isSome_some]
    · rw [bpfMapUpdateElem_refused room absent, if_neg fun all => room all.2]
  · rw [bpfMapUpdateElem_of_ne own, if_neg fun all => own all.1]

end Slots

/-! ## A call made at once -/

section AtOnce

variable (kernel : Kernel) (cpu : Cpu) {s : UInt32} (dstIp : UInt32) {m : SynCounter}

theorem isSome_checkSynFlood (present : (m.lookup s).isSome) (t : UInt32) :
    ((checkSynFlood kernel cpu s dstIp m).1.lookup t).isSome = (m.lookup t).isSome := by
  by_cases own : t = s
  · subst own
    rw [checkSynFlood_lookup_isSome kernel cpu t dstIp (Or.inl present), present]
  · rw [checkSynFlood_of_ne kernel cpu s dstIp own]

theorem slot_checkSynFlood_present (present : (m.lookup s).isSome) (t : UInt32) (c : Cpu) :
    slot (checkSynFlood kernel cpu s dstIp m).1 t c =
      if t = s ∧ c = cpu then
        if slot m s cpu + 1 > synThreshold then 0 else slot m s cpu + 1
      else slot m t c := by
  obtain ⟨counts, found⟩ := Option.isSome_iff_exists.mp present
  by_cases own : t = s
  · subst own
    rw [slot_of_some (checkSynFlood_present kernel cpu t dstIp found).1, slot_of_some found,
      slot_of_some found]
    by_cases here : c = cpu
    · subst here
      simp
    · rw [Function.update_of_ne here, if_neg fun both => here both.2]
  · rw [slot_congr (checkSynFlood_of_ne kernel cpu s dstIp own), if_neg fun both => own both.1]

theorem outputsOn_checkSynFlood (s : UInt32) (m : SynCounter) (c : Cpu) :
    outputsOn c (checkSynFlood kernel cpu s dstIp m).2 =
      if c = cpu ∧ slot m s cpu + 1 > synThreshold then
        [(⟨s, dstIp, 1, kernel.synTime⟩, kernel.synOutput)]
      else [] := by
  cases found : m.lookup s with
  | none =>
      have short : ¬ (0 : UInt64) + 1 > synThreshold := by decide
      rw [(checkSynFlood_absent kernel cpu s dstIp found).2, slot_of_none found,
        if_neg fun both => short both.2]
      rfl
  | some counts =>
      rw [(checkSynFlood_present kernel cpu s dstIp found).2, slot_of_some found]
      by_cases exceeds : counts cpu + 1 > synThreshold
      · rw [if_pos exceeds]
        by_cases here : c = cpu
        · subst here
          simp [outputsOn, exceeds]
        · simp [outputsOn, here, Ne.symm here]
      · rw [if_neg exceeds, if_neg fun both => exceeds both.2]
        rfl

end AtOnce

/-! ## What the machine follows -/

/-- The increment has been made. -/
def SynPc.afterBump : SynPc → Bool
  | .compare => true
  | .output => true
  | .reset => true
  | _ => false

/-- What a call has added to its counter and has not accounted for. -/
def carried (running : Option (SynCall × SynPc)) (s : UInt32) : UInt64 :=
  match running with
  | some (call, pc) => if pc.afterBump = true ∧ call.srcIp = s then 1 else 0
  | none => 0

/-- The output of a call that has not finished. -/
def owed : Option (SynCall × SynPc) → List (AlertEvent × Bool)
  | some (call, .reset) => [(SynMachine.evt call, call.kernel.synOutput)]
  | _ => []

/-- What a call relies on at its next step. -/
def Ready (m : SynMachine) (cpu : Cpu) (call : SynCall) : SynPc → Prop
  | .lookup => True
  | .update => slot m.synCounter call.srcIp cpu = 0
  | .bump => (m.synCounter.lookup call.srcIp).isSome
  | .compare => (m.synCounter.lookup call.srcIp).isSome
  | .output =>
      (m.synCounter.lookup call.srcIp).isSome ∧ slot m.synCounter call.srcIp cpu > synThreshold
  | .reset =>
      (m.synCounter.lookup call.srcIp).isSome ∧ slot m.synCounter call.srcIp cpu > synThreshold

/-- The machine is where the finished calls, each made at once, have led, but for
what the calls in progress have done. -/
structure Follows (m : SynMachine) (done : SynCounter × List Act) : Prop where
  present : ∀ s, (m.synCounter.lookup s).isSome = (done.1.lookup s).isSome
  slots : ∀ s c, slot m.synCounter s c = slot done.1 s c + carried (m.running c) s
  below : ∀ s c, (slot done.1 s c).toNat < 101
  ready : ∀ c call pc, m.running c = some (call, pc) → Ready m c call pc
  outputs : ∀ c, outputsOn c m.record = outputsOn c done.2 ++ owed (m.running c)

theorem Ready.keep {m m' : SynMachine} {c : Cpu} {call : SynCall} {pc : SynPc}
    (ready : Ready m c call pc)
    (grows : ∀ s, (m.synCounter.lookup s).isSome → (m'.synCounter.lookup s).isSome)
    (same : ∀ s, slot m'.synCounter s c = slot m.synCounter s c) : Ready m' c call pc := by
  cases pc with
  | lookup => exact ready
  | update => exact (same _).trans ready
  | bump => exact grows _ ready
  | compare => exact grows _ ready
  | output => exact ⟨grows _ ready.1, by rw [same]; exact ready.2⟩
  | reset => exact ⟨grows _ ready.1, by rw [same]; exact ready.2⟩

/-- A step of one CPU, by what it does for that CPU. -/
theorem Follows.of_step {m m' : SynMachine} {done done' : SynCounter × List Act}
    (follows : Follows m done) {cpu : Cpu} {next : Option (SynCall × SynPc)}
    (running : m'.running = Function.update m.running cpu next)
    (present : ∀ s, (m'.synCounter.lookup s).isSome = (done'.1.lookup s).isSome)
    (grows : ∀ s, (m.synCounter.lookup s).isSome → (m'.synCounter.lookup s).isSome)
    (others : ∀ s c, c ≠ cpu → slot m'.synCounter s c = slot m.synCounter s c ∧
      slot done'.1 s c = slot done.1 s c)
    (own : ∀ s, slot m'.synCounter s cpu = slot done'.1 s cpu + carried next s)
    (below : ∀ s, (slot done'.1 s cpu).toNat < 101)
    (ready : ∀ call pc, next = some (call, pc) → Ready m' cpu call pc)
    (silent : ∀ c, c ≠ cpu → outputsOn c m'.record = outputsOn c m.record ∧
      outputsOn c done'.2 = outputsOn c done.2)
    (outputs : outputsOn cpu m'.record = outputsOn cpu done'.2 ++ owed next) :
    Follows m' done' := by
  have here : m'.running cpu = next := by rw [running, Function.update_self]
  have there : ∀ c, c ≠ cpu → m'.running c = m.running c := fun c other => by
    rw [running, Function.update_of_ne other]
  refine ⟨present, fun s c => ?_, fun s c => ?_, fun c call pc runs => ?_, fun c => ?_⟩
  · by_cases same : c = cpu
    · rw [same, here, own]
    · rw [(others s c same).1, (others s c same).2, there c same]
      exact follows.slots s c
  · by_cases same : c = cpu
    · rw [same]
      exact below s
    · rw [(others s c same).2]
      exact follows.below s c
  · by_cases same : c = cpu
    · subst same
      exact ready call pc (here.symm.trans runs)
    · rw [there c same] at runs
      exact (follows.ready c call pc runs).keep grows fun s => (others s c same).1
  · by_cases same : c = cpu
    · rw [same, here, outputs]
    · rw [(silent c same).1, (silent c same).2, there c same]
      exact follows.outputs c

/-! ## One step -/

section Step

variable {m : SynMachine} {done : SynCounter × List Act} {cpu : Cpu} {call : SynCall} {pc : SynPc}

/-- A step that changes neither the map nor the record. -/
theorem Follows.move (follows : Follows m done) {next : Option (SynCall × SynPc)}
    (same : ∀ s, carried next s = carried (m.running cpu) s)
    (ready : ∀ call pc, next = some (call, pc) → Ready m cpu call pc)
    (owes : owed next = owed (m.running cpu)) :
    Follows { m with running := Function.update m.running cpu next } done := by
  refine follows.of_step rfl follows.present (fun _ here => here) (fun _ _ _ => ⟨rfl, rfl⟩) ?_
    (fun s => follows.below s cpu) ?_ (fun _ _ => ⟨rfl, rfl⟩) ?_
  · intro s
    rw [same]
    exact follows.slots s cpu
  · intro call pc starts
    exact (ready call pc starts).keep (fun _ here => here) fun _ => rfl
  · rw [owes]
    exact follows.outputs cpu

theorem Follows.bump (follows : Follows m done) (runs : m.running cpu = some (call, .bump)) :
    Follows (m.advance cpu call .bump) done := by
  have present : (m.synCounter.lookup call.srcIp).isSome := follows.ready cpu call _ runs
  have before := fun s => follows.slots s cpu
  have outputs := follows.outputs cpu
  rw [runs] at before outputs
  have written := fun s c => slot_write present cpu (fun count => count + 1) s c
  refine follows.of_step rfl ?_ ?_ ?_ ?_ (fun s => follows.below s cpu) ?_
    (fun _ _ => ⟨rfl, rfl⟩) outputs
  · intro s
    exact (isSome_write _ s).trans (follows.present s)
  · intro s here
    exact (isSome_write _ s).trans here
  · intro s c other
    exact ⟨(written s c).trans (if_neg fun both => other both.2), rfl⟩
  · intro s
    refine (written s cpu).trans ?_
    by_cases own : s = call.srcIp
    · subst own
      rw [if_pos ⟨rfl, rfl⟩, before]
      simp [carried, SynPc.afterBump]
    · rw [if_neg fun both => own both.1, before]
      simp [carried, SynPc.afterBump, Ne.symm own]
  · rintro _ _ ⟨⟩
    exact (isSome_write _ _).trans present

theorem Follows.output (follows : Follows m done) (runs : m.running cpu = some (call, .output)) :
    Follows (m.advance cpu call .output) done := by
  have before := fun s => follows.slots s cpu
  have outputs := follows.outputs cpu
  have ready := follows.ready cpu call _ runs
  rw [runs] at before outputs
  refine follows.of_step rfl follows.present (fun _ here => here) (fun _ _ _ => ⟨rfl, rfl⟩) before
    (fun s => follows.below s cpu) ?_ ?_ ?_
  · rintro _ _ ⟨⟩
    exact ready
  · intro c other
    refine ⟨?_, rfl⟩
    show outputsOn c (m.record ++ _) = _
    rw [outputsOn_append]
    simp [outputsOn, Ne.symm other]
  · show outputsOn cpu (m.record ++ _) = _
    rw [outputsOn_append, outputs]
    simp [outputsOn, owed]

/-- A call that finishes on an element: the counter is what it is after the call
made at once. -/
theorem Follows.finish (follows : Follows m done) (runs : m.running cpu = some (call, pc))
    (present : (m.synCounter.lookup call.srcIp).isSome) (others : pc.afterBump = true)
    {synCounter : SynCounter}
    (still : ∀ s, (synCounter.lookup s).isSome = (m.synCounter.lookup s).isSome)
    (written : ∀ s c, slot synCounter s c =
      if s = call.srcIp ∧ c = cpu then
        if slot m.synCounter call.srcIp cpu > synThreshold then 0
        else slot m.synCounter call.srcIp cpu
      else slot m.synCounter s c)
    (owes : owed (some (call, pc)) =
      if slot m.synCounter call.srcIp cpu > synThreshold then
        [(SynMachine.evt call, call.kernel.synOutput)]
      else []) :
    Follows ({ m with synCounter := synCounter }.finish cpu) (atOnce done (cpu, call)) := by
  have here : (done.1.lookup call.srcIp).isSome := by
    rw [← follows.present]
    exact present
  have before := fun s => follows.slots s cpu
  have outputs := follows.outputs cpu
  rw [runs] at before outputs
  have count : slot m.synCounter call.srcIp cpu = slot done.1 call.srcIp cpu + 1 := by
    rw [before]
    simp [carried, others]
  have elsewhere : ∀ s, s ≠ call.srcIp → slot m.synCounter s cpu = slot done.1 s cpu := by
    intro s other
    rw [before]
    simp [carried, Ne.symm other]
  have once := slot_checkSynFlood_present call.kernel cpu call.dstIp here
  refine follows.of_step rfl ?_ ?_ ?_ ?_ ?_ (fun _ _ starts => by cases starts) ?_ ?_
  · intro s
    exact (still s).trans ((follows.present s).trans (isSome_checkSynFlood _ _ _ here s).symm)
  · intro s there
    exact (still s).trans there
  · intro s c other
    exact ⟨(written s c).trans (if_neg fun both => other both.2),
      (once s c).trans (if_neg fun both => other both.2)⟩
  · intro s
    have nothing : carried none s = 0 := rfl
    show slot synCounter s cpu = slot (checkSynFlood _ _ _ _ _).1 s cpu + carried none s
    rw [written, once, ← count, nothing, UInt64.add_zero]
    by_cases own : s = call.srcIp
    · subst own
      simp
    · rw [if_neg fun both => own both.1, if_neg fun both => own both.1, elsewhere s own]
  · intro s
    show (slot (checkSynFlood _ _ _ _ _).1 s cpu).toNat < 101
    rw [once]
    split
    · rw [toNat_bumped (follows.below call.srcIp cpu)]
      exact Nat.mod_lt _ (by decide)
    · exact follows.below s cpu
  · intro c other
    refine ⟨rfl, ?_⟩
    show outputsOn c (done.2 ++ _) = _
    rw [outputsOn_append, outputsOn_checkSynFlood, if_neg fun both => other both.1,
      List.append_nil]
  · show outputsOn cpu m.record = outputsOn cpu (done.2 ++ _) ++ []
    rw [outputs, owes, outputsOn_append, outputsOn_checkSynFlood, ← count, List.append_nil]
    simp [SynMachine.evt]

/-- The comparison with a counter below the threshold. -/
theorem Follows.compare_below (follows : Follows m done)
    (runs : m.running cpu = some (call, .compare))
    (short : ¬ slot m.synCounter call.srcIp cpu > synThreshold) :
    Follows (m.finish cpu) (atOnce done (cpu, call)) := by
  refine follows.finish runs (follows.ready cpu call _ runs) rfl (fun _ => rfl) ?_ ?_
  · intro s c
    rw [if_neg short]
    split
    · rename_i own
      rw [own.1, own.2]
    · rfl
  · rw [if_neg short]
    rfl

theorem Follows.reset (follows : Follows m done) (runs : m.running cpu = some (call, .reset)) :
    Follows (m.advance cpu call .reset) (atOnce done (cpu, call)) := by
  obtain ⟨present, exceeds⟩ := follows.ready cpu call _ runs
  refine follows.finish runs present rfl (isSome_write _) ?_ ?_
  · intro s c
    rw [if_pos exceeds]
    exact slot_write present cpu (fun _ => 0) s c
  · rw [if_pos exceeds]
    rfl

/-- Before the increment the counter is that of the finished calls. -/
theorem Follows.slot_before (follows : Follows m done) (runs : m.running cpu = some (call, pc))
    (early : pc.afterBump = false) (s : UInt32) :
    slot m.synCounter s cpu = slot done.1 s cpu := by
  rw [follows.slots, runs, carried]
  simp [early]

/-- A call that finishes at the insertion has output nothing. -/
theorem Follows.insert (follows : Follows m done) (runs : m.running cpu = some (call, .update))
    {synCounter : SynCounter} {done' : SynCounter × List Act}
    (present : ∀ s, (synCounter.lookup s).isSome = (done'.1.lookup s).isSome)
    (grows : ∀ s, (m.synCounter.lookup s).isSome → (synCounter.lookup s).isSome)
    (others : ∀ s c, c ≠ cpu → slot synCounter s c = slot m.synCounter s c ∧
      slot done'.1 s c = slot done.1 s c)
    (own : ∀ s, slot synCounter s cpu = slot done'.1 s cpu)
    (below : ∀ s, (slot done'.1 s cpu).toNat < 101)
    (silent : ∀ c, outputsOn c done'.2 = outputsOn c done.2) :
    Follows ({ m with synCounter := synCounter }.finish cpu) done' := by
  have outputs := follows.outputs cpu
  rw [runs] at outputs
  refine follows.of_step rfl present grows others ?_ below (fun _ _ starts => by cases starts)
    (fun c _ => ⟨rfl, silent c⟩) ?_
  · intro s
    exact (own s).trans (UInt64.add_zero _).symm
  · rw [silent]
    exact outputs

/-- An insertion that finds an element by then. -/
theorem Follows.update_present (follows : Follows m done)
    (runs : m.running cpu = some (call, .update))
    (present : (m.synCounter.lookup call.srcIp).isSome) :
    Follows (m.advance cpu call .update) (atOnce done (cpu, call)) := by
  have here : (done.1.lookup call.srcIp).isSome := by
    rw [← follows.present]
    exact present
  have before := follows.slot_before runs rfl
  have zero : slot done.1 call.srcIp cpu = 0 :=
    (before call.srcIp).symm.trans (follows.ready cpu call _ runs)
  have short : ¬ slot done.1 call.srcIp cpu + 1 > synThreshold := by
    rw [zero]
    decide
  obtain ⟨counts, found⟩ := Option.isSome_iff_exists.mp present
  have inPlace : perCpuUpdate call.kernel.synUpdate cpu m.synCounter call.srcIp 1 =
      m.synCounter.modify call.srcIp fun slots => Function.update slots cpu 1 := by
    rw [perCpuUpdate, found]
  have written := slot_write present cpu fun _ => 1
  have once := slot_checkSynFlood_present call.kernel cpu call.dstIp here
  have still := isSome_checkSynFlood call.kernel cpu call.dstIp here
  have silent : ∀ c, outputsOn c (atOnce done (cpu, call)).2 = outputsOn c done.2 := by
    intro c
    show outputsOn c (done.2 ++ _) = _
    rw [outputsOn_append, outputsOn_checkSynFlood, if_neg fun both => short both.2,
      List.append_nil]
  rw [SynMachine.advance, inPlace]
  refine follows.insert runs ?_ ?_ ?_ ?_ ?_ silent
  · intro s
    exact (isSome_write _ s).trans ((follows.present s).trans (still s).symm)
  · intro s there
    exact (isSome_write _ s).trans there
  · intro s c other
    exact ⟨(written s c).trans (if_neg fun both => other both.2),
      (once s c).trans (if_neg fun both => other both.2)⟩
  · intro s
    refine (written s cpu).trans ?_
    show _ = slot (checkSynFlood _ _ _ _ _).1 s cpu
    rw [once, if_neg short, zero, before]
    rfl
  · intro s
    show (slot (checkSynFlood _ _ _ _ _).1 s cpu).toNat < 101
    rw [once, if_neg short, zero]
    split
    · decide
    · exact follows.below s cpu

/-- An insertion that finds none, and is made or refused. -/
theorem Follows.update_absent (follows : Follows m done)
    (runs : m.running cpu = some (call, .update))
    (absent : m.synCounter.lookup call.srcIp = none) :
    Follows (m.advance cpu call .update) (atOnce done (cpu, call)) := by
  have size : m.synCounter.size = done.1.size := BoundedMap.size_congr follows.present
  have missing : done.1.lookup call.srcIp = none := by
    rw [← Option.not_isSome_iff_eq_none, ← follows.present, absent]
    exact Bool.false_ne_true
  have before := follows.slot_before runs rfl
  have inserts : perCpuUpdate call.kernel.synUpdate cpu m.synCounter call.srcIp 1 =
      bpfMapUpdateElem call.kernel.synUpdate m.synCounter call.srcIp (perCpuInit cpu 1) := by
    rw [perCpuUpdate, absent]
  have once : atOnce done (cpu, call) =
      (bpfMapUpdateElem call.kernel.synUpdate done.1 call.srcIp (perCpuInit cpu 1),
        done.2 ++ [.checkSynFlood call.srcIp call.dstIp]) := by
    rw [atOnce, (checkSynFlood_absent call.kernel cpu call.srcIp call.dstIp missing).1,
      (checkSynFlood_absent call.kernel cpu call.srcIp call.dstIp missing).2]
  have silent : ∀ c, outputsOn c (done.2 ++ [.checkSynFlood call.srcIp call.dstIp]) =
      outputsOn c done.2 := fun c => (outputsOn_append ..).trans (List.append_nil _)
  rw [SynMachine.advance, inserts, once]
  refine follows.insert runs ?_ ?_ ?_ ?_ ?_ silent
  · intro s
    show ((bpfMapUpdateElem _ _ _ _).lookup s).isSome = ((bpfMapUpdateElem _ _ _ _).lookup s).isSome
    rw [isSome_insert absent, isSome_insert missing, size, follows.present]
  · intro s here
    show ((bpfMapUpdateElem _ _ _ _).lookup s).isSome = true
    rw [isSome_insert absent, here, ite_self]
  · intro s c other
    exact ⟨(slot_insert absent _ cpu s c).trans (if_neg fun all => other all.2.1),
      (slot_insert missing _ cpu s c).trans (if_neg fun all => other all.2.1)⟩
  · intro s
    refine (slot_insert absent _ cpu s cpu).trans ?_
    show _ = slot (bpfMapUpdateElem _ _ _ _) s cpu
    rw [slot_insert missing, size, before]
  · intro s
    show (slot (bpfMapUpdateElem _ _ _ _) s cpu).toNat < 101
    rw [slot_insert missing]
    split
    · decide
    · exact follows.below s cpu

/-- **Step lemma.** -/
theorem Follows.step (follows : Follows m done) (event : SynEvent) :
    Follows (synMachineStep m event) (exec atOnce done (finishes (m, event))) := by
  cases event with
  | enter cpu call =>
      simp only [synMachineStep, finishes, exec_nil]
      cases runs : m.running cpu with
      | some other => exact follows
      | none =>
          refine follows.move (fun s => ?_) (fun _ _ starts => ?_) ?_
          · rw [runs]
            simp [carried, SynPc.afterBump]
          · cases starts
            exact True.intro
          · rw [runs]
            rfl
  | advance cpu =>
      simp only [synMachineStep, finishes]
      cases runs : m.running cpu with
      | none => exact follows
      | some both =>
          obtain ⟨call, pc⟩ := both
          cases pc with
          | lookup =>
              simp only [SynMachine.advance, exec_nil]
              cases found : m.synCounter.lookup call.srcIp with
              | some counts =>
                  refine follows.move (fun s => by rw [runs]; rfl) (fun _ _ starts => ?_)
                    (by rw [runs]; rfl)
                  cases starts
                  exact Option.isSome_iff_exists.mpr ⟨counts, found⟩
              | none =>
                  refine follows.move (fun s => by rw [runs]; rfl) (fun _ _ starts => ?_)
                    (by rw [runs]; rfl)
                  cases starts
                  exact slot_of_none found cpu
          | update =>
              cases found : m.synCounter.lookup call.srcIp with
              | some counts =>
                  exact follows.update_present runs (Option.isSome_iff_exists.mpr ⟨counts, found⟩)
              | none => exact follows.update_absent runs found
          | bump => exact follows.bump runs
          | compare =>
              simp only [SynMachine.advance]
              by_cases exceeds : slot m.synCounter call.srcIp cpu > synThreshold
              · rw [if_pos exceeds, if_pos exceeds]
                refine follows.move (fun s => by rw [runs]; rfl) (fun _ _ starts => ?_)
                  (by rw [runs]; rfl)
                cases starts
                exact ⟨follows.ready cpu call _ runs, exceeds⟩
              · rw [if_neg exceeds, if_neg exceeds]
                exact follows.compare_below runs exceeds
          | output => exact follows.output runs
          | reset => exact follows.reset runs

end Step

/-! ## Every run -/

/-- The calls finished in a run, in the order in which they finish. -/
def finished (events : List SynEvent) : List (Cpu × SynCall) :=
  operations synMachineStep finishes .start events

/-- The finished calls, each made at once. -/
def oneByOne (events : List SynEvent) : SynCounter × List Act :=
  exec atOnce (.empty, []) (finished events)

theorem follows_start : Follows .start (.empty, []) where
  present _ := rfl
  slots _ _ := rfl
  below _ _ := (by decide : (0 : UInt64).toNat < 101)
  ready _ _ _ runs := by cases runs
  outputs _ := rfl

/-- **Run lemma.** -/
theorem follows_run (events : List SynEvent) :
    Follows (exec synMachineStep .start events) (oneByOne events) :=
  exec_refines Follows follows_start fun p _ _ follows => follows.step p.2

/-! ## Counts -/

/-- The call counts for a source and a CPU: it finds an element or room for one. -/
def counts (s : UInt32) (c : Cpu) (p : (SynCounter × List Act) × (Cpu × SynCall)) : Bool :=
  p.2.1 == c && p.2.2.srcIp == s &&
    ((p.1.1.lookup s).isSome || p.2.2.kernel.synUpdate && decide (p.1.1.size < statsSize))

theorem counts_iff {s : UInt32} {c : Cpu} {p : (SynCounter × List Act) × (Cpu × SynCall)} :
    counts s c p = true ↔ p.2.1 = c ∧ p.2.2.srcIp = s ∧
      ((p.1.1.lookup s).isSome ∨ Stores p.2.2.kernel.synUpdate p.1.1) := by
  simp [counts, Stores, and_assoc]

/-- How many of the finished calls count. -/
def synCounted (s : UInt32) (c : Cpu) (events : List SynEvent) : ℕ :=
  (steps atOnce (.empty, []) (finished events)).countP (counts s c)

/-- The outputs of a CPU that name a source. -/
def naming (s : UInt32) (outputs : List (AlertEvent × Bool)) : List (AlertEvent × Bool) :=
  outputs.filter fun output => output.1.srcIp == s

/-- The outputs of a call that name a source. -/
def namedBy (s : UInt32) (c : Cpu) (p : (SynCounter × List Act) × (Cpu × SynCall)) :
    List (AlertEvent × Bool) :=
  naming s (outputsOn c (checkSynFlood p.2.2.kernel p.2.1 p.2.2.srcIp p.2.2.dstIp p.1.1).2)

/-- **A call made at once.** It adds one if it counts, and outputs when that is
the 101st. -/
theorem atOnce_spec (s : UInt32) (c : Cpu) {p : (SynCounter × List Act) × (Cpu × SynCall)}
    (below : ∀ s c, (slot p.1.1 s c).toNat < 101) :
    (slot (atOnce p.1 p.2).1 s c).toNat =
        (if counts s c p then ((slot p.1.1 s c).toNat + 1) % 101 else (slot p.1.1 s c).toNat) ∧
      (namedBy s c p).length =
        if counts s c p ∧ (slot p.1.1 s c).toNat + 1 = 101 then 1 else 0 := by
  obtain ⟨⟨m, record⟩, cpu, ⟨srcIp, dstIp, kernel⟩⟩ := p
  rw [namedBy, outputsOn_checkSynFlood]
  dsimp only [atOnce] at below ⊢
  have ticks := @counts_iff s c ((m, record), cpu, ⟨srcIp, dstIp, kernel⟩)
  by_cases own : srcIp = s
  · subst own
    by_cases room : (m.lookup srcIp).isSome ∨ Stores kernel.synUpdate m
    · rw [slot_checkSynFlood kernel cpu srcIp dstIp c room (below srcIp cpu)]
      by_cases here : cpu = c
      · subst here
        have full := over_iff (below srcIp cpu)
        constructor
        · rw [if_pos rfl, if_pos (ticks.mpr ⟨rfl, rfl, room⟩)]
        · by_cases exceeds : slot m srcIp cpu + 1 > synThreshold
          · rw [if_pos ⟨rfl, exceeds⟩, if_pos ⟨ticks.mpr ⟨rfl, rfl, room⟩, full.mp exceeds⟩]
            simp [naming]
          · rw [if_neg fun both => exceeds both.2, if_neg fun both => exceeds (full.mpr both.2)]
            rfl
      · constructor
        · rw [if_neg here, if_neg fun all => here (ticks.mp all).1]
        · rw [if_neg fun both => here both.1.symm, if_neg fun all => here (ticks.mp all.1).1]
          rfl
    · -- the insertion is refused
      have absent : m.lookup srcIp = none :=
        Option.not_isSome_iff_eq_none.mp fun here => room (Or.inl here)
      have refused : ¬ Stores kernel.synUpdate m := fun stores => room (Or.inr stores)
      have short : ¬ (0 : UInt64) + 1 > synThreshold := by decide
      constructor
      · rw [(checkSynFlood_absent kernel cpu srcIp dstIp absent).1,
          bpfMapUpdateElem_refused refused absent,
          if_neg fun all => room (ticks.mp all).2.2]
      · rw [slot_of_none absent, if_neg fun both => short both.2,
          if_neg fun all => room (ticks.mp all.1).2.2]
        rfl
  · constructor
    · rw [slot_congr (checkSynFlood_of_ne kernel cpu srcIp dstIp (Ne.symm own)),
        if_neg fun all => own (ticks.mp all).2.1]
    · have uncounted : ¬ (counts s c ((m, record), cpu, ⟨srcIp, dstIp, kernel⟩) = true ∧
          (slot m s c).toNat + 1 = 101) := fun all => own (ticks.mp all.1).2.1
      rw [if_neg uncounted]
      split
      · simp [naming, own]
      · rfl

/-- What the calls made at once have output. -/
theorem naming_oneByOne (s : UInt32) (c : Cpu) (state : SynCounter × List Act)
    (calls : List (Cpu × SynCall)) :
    (naming s (outputsOn c (exec atOnce state calls).2)).length =
      (naming s (outputsOn c state.2)).length +
        ((steps atOnce state calls).map fun p => (namedBy s c p).length).sum := by
  induction calls generalizing state with
  | nil => rfl
  | cons call rest ih =>
      have here : (naming s (outputsOn c (atOnce state call).2)).length =
          (naming s (outputsOn c state.2)).length + (namedBy s c (state, call)).length := by
        rw [atOnce, outputsOn_append, naming, List.filter_append, List.length_append]
        rfl
      rw [exec_cons, ih, here, steps_cons, List.map_cons, List.sum_cons, Nat.add_assoc]

/-- The counters stay below 101. -/
theorem below_oneByOne (calls : List (Cpu × SynCall)) :
    ∀ p ∈ steps atOnce (.empty, []) calls, ∀ s c, (slot p.1.1 s c).toNat < 101 := by
  apply steps_invariant (P := fun state : SynCounter × List Act =>
    ∀ s c, (slot state.1 s c).toNat < 101)
  · exact fun _ _ => (by decide : (0 : UInt64).toNat < 101)
  · intro p _ below s c
    rw [(atOnce_spec s c below).1]
    split
    · exact Nat.mod_lt _ (by decide)
    · exact below s c

/-- The calls made at once count modulo 101. -/
theorem counted_oneByOne (s : UInt32) (c : Cpu) (events : List SynEvent) :
    (slot (oneByOne events).1 s c).toNat = synCounted s c events % 101 ∧
      (naming s (outputsOn c (oneByOne events).2)).length = synCounted s c events / 101 := by
  have below := below_oneByOne (finished events)
  have final := (follows_run events).below s c
  have balanced : ∀ p ∈ steps atOnce (.empty, []) (finished events),
      (slot (atOnce p.1 p.2).1 s c).toNat + 101 * (namedBy s c p).length =
        (slot p.1.1 s c).toNat + (counts s c p).toNat := by
    intro p member
    obtain ⟨counter, output⟩ := atOnce_spec s c (below p member)
    have short := below p member s c
    rw [counter, output]
    cases tick : counts s c p with
    | false => simp
    | true =>
        by_cases full : (slot p.1.1 s c).toNat + 1 = 101
        · simp [full]
        · rw [if_pos rfl, if_neg fun both => full both.2, Bool.toNat_true]
          omega
  obtain ⟨remainder, quotient⟩ := exec_counter
    (fun state : SynCounter × List Act => (slot state.1 s c).toNat) rfl final balanced
  refine ⟨remainder, ?_⟩
  rw [oneByOne, naming_oneByOne, quotient]
  exact Nat.zero_add _

/-! ## Nothing is lost -/

/-- The call of a CPU. -/
def current (c : Cpu) (m : SynMachine) : List SynCall := (m.running c).toList.map Prod.fst

/-- The call that a CPU begins. -/
def begins (c : Cpu) (p : SynMachine × SynEvent) : List SynCall :=
  match p.2 with
  | .enter cpu call => if cpu = c ∧ (p.1.running c).isNone then [call] else []
  | .advance _ => []

/-- The calls of one CPU. -/
def callsOf (c : Cpu) (calls : List (Cpu × SynCall)) : List SynCall :=
  calls.filterMap fun p => if p.1 = c then some p.2 else none

/-- A step of a call goes on with it or finishes it. -/
theorem running_advance {m : SynMachine} {cpu : Cpu} {call : SynCall} {pc : SynPc}
    (runs : m.running cpu = some (call, pc)) :
    ((m.advance cpu call pc).running = Function.update m.running cpu none ∧
        finishes (m, .advance cpu) = [(cpu, call)]) ∨
      ∃ next, (m.advance cpu call pc).running = Function.update m.running cpu (some (call, next)) ∧
        finishes (m, .advance cpu) = [] := by
  cases pc with
  | lookup =>
      refine Or.inr ?_
      simp only [SynMachine.advance, finishes, runs]
      split
      · exact ⟨_, rfl, trivial⟩
      · exact ⟨_, rfl, trivial⟩
  | update => exact Or.inl ⟨rfl, by simp only [finishes, runs]⟩
  | bump => exact Or.inr ⟨_, rfl, by simp only [finishes, runs]⟩
  | compare =>
      simp only [SynMachine.advance, finishes, runs]
      split
      · exact Or.inr ⟨_, rfl, rfl⟩
      · exact Or.inl ⟨rfl, rfl⟩
  | output => exact Or.inr ⟨_, rfl, by simp only [finishes, runs]⟩
  | reset => exact Or.inl ⟨rfl, by simp only [finishes, runs]⟩

/-- The call of a CPU after a step of this CPU or of another. -/
theorem current_update {m m' : SynMachine} {cpu : Cpu} {next : Option (SynCall × SynPc)}
    (running : m'.running = Function.update m.running cpu next) (c : Cpu) :
    current c m' = if cpu = c then next.toList.map Prod.fst else current c m := by
  rw [current, running]
  by_cases here : cpu = c
  · subst here
    rw [Function.update_self, if_pos rfl]
  · rw [Function.update_of_ne (Ne.symm here), if_neg here]
    rfl

/-- A CPU finishes a call before it begins another. -/
theorem calls_step (c : Cpu) (p : SynMachine × SynEvent) :
    callsOf c (finishes p) ++ current c (synMachineStep p.1 p.2) = current c p.1 ++ begins c p := by
  obtain ⟨m, event⟩ := p
  cases event with
  | enter cpu call =>
      show current c (synMachineStep m (.enter cpu call)) = _
      cases runs : m.running cpu with
      | some other =>
          have busy : ¬ (cpu = c ∧ (m.running c).isNone = true) := by
            rintro ⟨rfl, idle⟩
            simp [runs] at idle
          simp only [synMachineStep, runs, begins, if_neg busy, List.append_nil]
      | none =>
          simp only [synMachineStep, runs]
          rw [current_update rfl c]
          by_cases here : cpu = c
          · subst here
            simp [current, begins, runs]
          · simp [here, begins]
  | advance cpu =>
      show _ = current c m ++ []
      cases runs : m.running cpu with
      | none => simp [synMachineStep, finishes, runs, callsOf]
      | some both =>
          obtain ⟨call, pc⟩ := both
          simp only [synMachineStep, runs, List.append_nil]
          rcases running_advance runs with ⟨running, ends⟩ | ⟨next, running, goesOn⟩
          · rw [ends, current_update running c]
            by_cases here : cpu = c
            · subst here
              simp [callsOf, current, runs]
            · simp [callsOf, here]
          · rw [goesOn, current_update running c]
            by_cases here : cpu = c
            · subst here
              simp [callsOf, current, runs]
            · simp [callsOf, here]

/-- What a run leaves, against the calls made one at a time in the order in which
they finish: the calls that a CPU has begun are those and the one it is in; the
same sources have elements; and a CPU that is in no call has the same counters and
outputs, so its counters count modulo 101 and it outputs for every 101 calls of a
source. -/
structure Linearizes (events : List SynEvent) : Prop where
  calls : ∀ c, callsOf c (finished events) ++ current c (exec synMachineStep .start events) =
    operations synMachineStep (begins c) .start events
  elements : ∀ s, ((exec synMachineStep .start events).synCounter.lookup s).isSome =
    ((oneByOne events).1.lookup s).isSome
  idle : ∀ c, (exec synMachineStep .start events).running c = none →
    (∀ s, slot (exec synMachineStep .start events).synCounter s c = slot (oneByOne events).1 s c) ∧
      outputsOn c (exec synMachineStep .start events).record = outputsOn c (oneByOne events).2
  counts : ∀ c, (exec synMachineStep .start events).running c = none → ∀ s,
    (slot (exec synMachineStep .start events).synCounter s c).toNat = synCounted s c events % 101 ∧
      (naming s (outputsOn c (exec synMachineStep .start events).record)).length =
        synCounted s c events / 101

/-- **The SYN counters are linearizable.** In every run on any number of CPUs, with
any insertions refused. -/
theorem syn_linearizable (events : List SynEvent) : Linearizes events := by
  have follows := follows_run events
  have idle : ∀ c, (exec synMachineStep .start events).running c = none →
      (∀ s, slot (exec synMachineStep .start events).synCounter s c =
        slot (oneByOne events).1 s c) ∧
      outputsOn c (exec synMachineStep .start events).record =
        outputsOn c (oneByOne events).2 := by
    intro c none
    refine ⟨fun s => ?_, ?_⟩
    · rw [follows.slots, none]
      exact UInt64.add_zero _
    · rw [follows.outputs, none]
      exact List.append_nil _
  refine ⟨fun c => ?_, follows.present, idle, fun c none s => ?_⟩
  · have fifo := @exec_fifo _ _ _ synMachineStep (current c) (begins c)
      (fun p => callsOf c (finishes p)) .start events fun p _ => calls_step c p
    rw [finished, callsOf, operations_filterMap]
    exact fifo
  · obtain ⟨counters, outputs⟩ := idle c none
    rw [counters, outputs]
    exact counted_oneByOne s c events

/-- Two CPUs that insert the same source at the same time count one each. -/
example :
    let call : SynCall := ⟨1, 2, .ready 0⟩
    let m := exec synMachineStep .start
      [.enter 0 call, .enter 1 call, .advance 0, .advance 1, .advance 0, .advance 1]
    slot m.synCounter 1 0 = 1 ∧ slot m.synCounter 1 1 = 1 := by decide

end EbpfNids.DataPlane
