import EbpfNids.DataPlane.Detections
import EbpfNids.Wire.Pipeline
import Mathlib.Data.Finset.Sort

/-!
# Where every alert ends up

An alert of the data plane becomes one row of the alert table, or it is in one of
three places: the ring buffer had no room for it, it still waits there, or the
connection took nothing of its line. So for each type and source the rows and the
alerts in these places add up to what there was before and what the run has
detected (`accounted_run`).

How often a run detects a source is known from its packets
(`DataPlane.Detections`), so the table is too (`alerts_accounted`): a row for
every 101 pure SYNs of a source that a CPU counts, and one for every 21 low ports
marked for it, but for the alerts that are accounted for elsewhere.
-/

set_option autoImplicit false

namespace EbpfNids.Wire

open Library Library.Decimal Library.Runs Library.Refinement
open EbpfNids.DataPlane EbpfNids.Loader EbpfNids.Backend

variable {ι : Type*}

/-! ## The run of the data plane -/

/-- The packets and the changes of the maps that come with an event. -/
def changesOf : PipeEvent → List Event
  | .loop (.sys (.data change)) _ => [change]
  | _ => []

/-- A call of the loader leaves the maps alone. -/
theorem maps_sysStep (sys : System) {call : SysEvent} (calls : ∀ change, call ≠ .data change) :
    (sysStep sys call).maps = sys.maps := by
  rw [sysStep.eq_def]
  split
  · exact absurd rfl (calls _)
  · rfl
  · split
    · rfl
    · rfl
  all_goals rfl

theorem maps_loopStep (s : LoopState ι) (event : LoopEvent) :
    (loopStep s event).maps =
      match event with
      | .sys (.data change) => step s.maps change
      | _ => s.maps := by
  cases event with
  | sys call =>
      cases call with
      | data change => rfl
      | _ =>
          rw [loopStep]
          split
          · exact maps_sysStep s.system fun _ => SysEvent.noConfusion
          · rfl
  | iterate now file opens =>
      rw [loopStep]
      split
      · rfl
      · rfl
  | leave unlinks =>
      rw [loopStep]
      split
      · rfl
      · rfl
  | _ => rfl

theorem loop_pipeStep (env : Env) (i : Fin maxClients) (s : Pipeline ι) (event : PipeEvent) :
    (pipeStep env i s event).loop =
      match event with
      | .loop event _ => loopStep s.loop event
      | _ => s.loop := by
  cases event with
  | loop event send =>
      simp only [pipeStep]
      split
      · rfl
      · rfl
  | acceptClients pending =>
      simp only [pipeStep]
      split
      · rfl
      · rfl
  | handleAlert send =>
      simp only [pipeStep]
      split
      · cases s.ring with
        | nil => rfl
        | cons e rest => rfl
      · rfl
  | recv last => rfl

/-- A step does to the maps what its packet does, and puts the records of that
packet into the ring buffer. -/
theorem maps_pipeStep (env : Env) (i : Fin maxClients) (s : Pipeline ι) (event : PipeEvent) :
    (pipeStep env i s event).loop.maps = exec step s.loop.maps (changesOf event) ∧
      placed (s, event) =
        operations step (fun p => (acts p).filterMap Act.placed) s.loop.maps
          (changesOf event) := by
  rw [loop_pipeStep]
  cases event with
  | loop event send =>
      dsimp only
      rw [maps_loopStep]
      cases event with
      | sys call =>
          cases call with
          | data change => exact ⟨rfl, (List.append_nil _).symm⟩
          | _ => exact ⟨rfl, rfl⟩
      | _ => exact ⟨rfl, rfl⟩
  | _ => exact ⟨rfl, rfl⟩

/-- The records that are put into the ring buffer are those of the packets. -/
theorem placed_run (env : Env) (i : Fin maxClients) (start : Pipeline ι)
    (events : List PipeEvent) :
    operations (pipeStep env i) placed start events =
      (steps step start.loop.maps (events.flatMap changesOf)).flatMap fun p =>
        (acts p).filterMap Act.placed := by
  have outputs : operations (pipeStep env i) placed start events =
      operations step (fun p => (acts p).filterMap Act.placed) start.loop.maps
        (operations (pipeStep env i) (fun p => changesOf p.2) start events) := by
    refine operations_refines (fun (s : Pipeline ι) maps => s.loop.maps = maps) rfl ?_
    intro p _ _ same
    subst same
    exact maps_pipeStep env i p.1 p.2
  rw [outputs, operations_events]
  rfl

/-! ## Counting alerts and rows -/

/-- How many alerts are of a type and name a source. -/
def alertCount (type : UInt8) (s : UInt32) (alerts : List AlertEvent) : ℕ :=
  alerts.countP fun e => e.alertType == type && e.srcIp == s

/-- The value is a text. -/
def isText (t : Text) : Json → Bool
  | .str u => u == t
  | _ => false

/-- How many rows of the table are of a type and have a source. -/
def rowCount (type : UInt8) (s : UInt32) (rows : List AlertRow) : ℕ :=
  rows.countP fun row => row.alertType == decimal type.toNat && isText (inetNtop s) row.srcIp

theorem alertCount_append (type : UInt8) (s : UInt32) (first second : List AlertEvent) :
    alertCount type s (first ++ second) = alertCount type s first + alertCount type s second :=
  List.countP_append

/-- A row counts for the type and the source of its alert. -/
theorem rowCount_alertRows (env : Env) (type : UInt8) (s : UInt32) (last : ℕ)
    (alerts : List AlertEvent) :
    rowCount type s (alertRows env last alerts) = alertCount type s alerts := by
  induction alerts using List.reverseRecOn with
  | nil => rfl
  | append_singleton before e ih =>
      rw [alertRows_concat, rowCount, List.countP_append, ← rowCount, ih, alertCount_append]
      congr 1
      rw [alertCount, List.countP_singleton, List.countP_singleton]
      have same : (inetNtop e.srcIp == inetNtop s) = (e.srcIp == s) := by
        rw [Bool.eq_iff_iff, beq_iff_eq, beq_iff_eq]
        exact inetNtop_injective.eq_iff
      have type' : (decimal e.alertType.toNat == decimal type.toNat) = (e.alertType == type) := by
        rw [Bool.eq_iff_iff, beq_iff_eq, beq_iff_eq]
        exact decimal_type_injective.eq_iff
      simp only [alertRow, isText, same, type']

/-! ## The places of an alert -/

/-- The record that the ring buffer had no room for. -/
def Act.refused : Act → Option AlertEvent
  | .bpfRingbufOutput _ evt false => some evt
  | _ => none

/-- The records of a run of packets that the ring buffer had no room for. -/
def refused (run : List (Maps × Event)) : List AlertEvent :=
  run.flatMap fun p => (acts p).filterMap Act.refused

/-- The alerts whose lines the connection of the backend took nothing of, when it
took no line in part. -/
def unsent (env : Env) (i : Fin maxClients) (start : Pipeline ι) (events : List PipeEvent) :
    List AlertEvent :=
  alertsOf (((sends env i start events).filter fun s => !s.isWhole).map Send.ev)

theorem length_alertsOf_output (type : UInt8) (s : UInt32) (cpu : Cpu) (evt : AlertEvent)
    (room : Bool) :
    (DataPlane.alertsOf type s [.bpfRingbufOutput cpu evt room]).length =
      alertCount type s [evt] := by
  rw [alertCount, List.countP_singleton]
  by_cases named : evt.alertType = type ∧ evt.srcIp = s
  · simp [DataPlane.alertsOf, named]
  · have other : (evt.alertType == type && evt.srcIp == s) = false := by simpa using named
    simp [DataPlane.alertsOf, named, other]

/-- An output is in the ring buffer, or there was no room. -/
theorem length_alertsOf_record (type : UInt8) (s : UInt32) (record : List Act) :
    (DataPlane.alertsOf type s record).length =
      alertCount type s (record.filterMap Act.placed) +
        alertCount type s (record.filterMap Act.refused) := by
  induction record with
  | nil => rfl
  | cons act rest ih =>
      rw [← List.singleton_append, DataPlane.alertsOf_append, List.length_append, ih,
        List.filterMap_append, List.filterMap_append, alertCount_append, alertCount_append]
      have here : (DataPlane.alertsOf type s [act]).length =
          alertCount type s ([act].filterMap Act.placed) +
            alertCount type s ([act].filterMap Act.refused) := by
        cases act with
        | bpfRingbufOutput cpu evt room =>
            rw [length_alertsOf_output]
            cases room with
            | true => rfl
            | false => exact (Nat.zero_add _).symm
        | _ => rfl
      omega

theorem length_alertsOf_run (type : UInt8) (s : UInt32) (run : List (Maps × Event)) :
    (run.flatMap fun p => DataPlane.alertsOf type s (acts p)).length =
      alertCount type s (run.flatMap fun p => (acts p).filterMap Act.placed) +
        alertCount type s (refused run) := by
  induction run with
  | nil => rfl
  | cons p rest ih =>
      rw [refused] at ih ⊢
      rw [List.flatMap_cons, List.flatMap_cons, List.flatMap_cons, List.length_append,
        alertCount_append, alertCount_append, ih, length_alertsOf_record]
      omega

/-- The line of an alert that is sent is accepted whole, or it is not. -/
theorem alertCount_sends (env : Env) (i : Fin maxClients) (start : Pipeline ι)
    (events : List PipeEvent) (type : UInt8) (s : UInt32) :
    alertCount type s (alertsOf ((sends env i start events).map Send.ev)) =
      alertCount type s (alertsOf (wholeEvents (sends env i start events))) +
        alertCount type s (unsent env i start events) := by
  have parts := (List.filter_append_perm Send.isWhole (sends env i start events)).symm
  have alerts : (alertsOf ((sends env i start events).map Send.ev)).Perm
      (alertsOf (wholeEvents (sends env i start events) ++
        ((sends env i start events).filter fun s => !s.isWhole).map Send.ev)) := by
    rw [wholeEvents, ← List.map_append]
    exact (parts.map Send.ev).filterMap _
  have split : alertsOf (wholeEvents (sends env i start events) ++
      ((sends env i start events).filter fun s => !s.isWhole).map Send.ev) =
        alertsOf (wholeEvents (sends env i start events)) ++ unsent env i start events :=
    List.filterMap_append
  rw [← alertCount_append, ← split]
  exact alerts.countP_eq _

/-! ## The accounts -/

section Accounts

variable (env : Env) (i : Fin maxClients) (start : Pipeline ι) (world : World)
  (events : List PipeEvent)

/-- The run of the data plane in a run of the system. -/
def packetRun : List (Maps × Event) :=
  steps step start.loop.maps (events.flatMap changesOf)

/-- Some number of alerts of a type that name a source, which a run has detected,
and those that there were before, are rows of the table, or they were lost on the
way or wait in the ring buffer. -/
def Accounted (type : UInt8) (s : UInt32) (detected : ℕ) : Prop :=
  rowCount type s (exec (pipeStep env i) start events).backend.1.world.alerts +
      alertCount type s (refused (packetRun start events)) +
      alertCount type s (exec (pipeStep env i) start events).ring +
      alertCount type s (unsent env i start events) =
    rowCount type s world.alerts + alertCount type s start.ring + detected

end Accounts

section Connected

variable {env : Env} {i : Fin maxClients} {loop : LoopState ι} {ring : List AlertEvent}
  {clients : Clients} {world : World} {events : List PipeEvent}

/-- **Every alert is accounted for**, when the socket is empty and no line was
accepted in part. -/
theorem accounted_run (connected : (clients i).isSome)
    (stays : ∀ s ∈ sends env i (.connect loop ring clients world) events, s.result ≠ .failed)
    (uncut : ∀ s ∈ sends env i (.connect loop ring clients world) events, s.isShort = false)
    (quiet : Quiet env world
      (wholeEvents (sends env i (.connect loop ring clients world) events)))
    (drained : (exec (pipeStep env i) (.connect loop ring clients world) events).wire = [])
    (type : UInt8) (s : UInt32) :
    Accounted env i (.connect loop ring clients world) world events type s
      ((packetRun (.connect loop ring clients world) events).flatMap fun p =>
        DataPlane.alertsOf type s (acts p)).length := by
  obtain ⟨stored, -, tables, all⟩ := stored_run connected stays quiet uncut
  have sent := alertCount_sends env i (.connect loop ring clients world) events type s
  have queue := congrArg (alertCount type s)
    (alerts_fifo env i (.connect loop ring clients world) events)
  rw [alertsOf_sends] at sent
  rw [alertCount_append, alertCount_append, placed_run, sent] at queue
  have rows : rowCount type s
        (exec (pipeStep env i) (.connect loop ring clients world) events).backend.1.world.alerts =
      rowCount type s world.alerts + alertCount type s
        (alertsOf (wholeEvents (sends env i (.connect loop ring clients world) events))) := by
    rw [tables.alerts, all drained, rowCount, List.countP_append, ← rowCount, ← rowCount,
      rowCount_alertRows]
  have detected := length_alertsOf_run type s
    (packetRun (.connect loop ring clients world) events)
  rw [Accounted, rows, detected, packetRun]
  omega

end Connected

/-- **From packets to rows.** Whatever the maps hold when the backend connects,
and however packets, the loader and the backend are interleaved. When the entry of
a source is not deleted and its first insertion succeeds, the rows of its SYN
floods, with the alerts of it that are accounted for elsewhere, are one for every
101 of the pure SYNs of it that a CPU has counted; and those of its port scans are
one for every 21 of its low ports. -/
theorem alerts_accounted (env : Env) (i : Fin maxClients) (loop : LoopState ι)
    (ring : List AlertEvent) (clients : Clients) (world : World) (events : List PipeEvent)
    (history : List Event) (s : UInt32) (reached : loop.maps = exec step Maps.empty history)
    (connected : (clients i).isSome)
    (stays : ∀ s ∈ sends env i (.connect loop ring clients world) events, s.result ≠ .failed)
    (uncut : ∀ s ∈ sends env i (.connect loop ring clients world) events, s.isShort = false)
    (quiet : Quiet env world
      (wholeEvents (sends env i (.connect loop ring clients world) events)))
    (drained : (exec (pipeStep env i) (.connect loop ring clients world) events).wire = []) :
    (.mapDelete .synCounter s ∉ events.flatMap changesOf →
      FirstTime (TriesSynInsert s) (SynInserted s)
        (packetRun (.connect loop ring clients world) events) →
      Accounted env i (.connect loop ring clients world) world events 1 s
        (∑ c ∈ cpusOf (events.flatMap changesOf),
          synsCounted s c loop.maps (events.flatMap changesOf) / 101)) ∧
    (.mapDelete .portScanMap s ∉ events.flatMap changesOf →
      FirstTime (TriesScanInsert s) (ScanInserted s)
        (packetRun (.connect loop ring clients world) events) →
      Accounted env i (.connect loop ring clients world) world events 2 s
        (Greedy.blocks 21 (portSet loop.maps.portScanMap s).sort
          ((packetRun (.connect loop ring clients world) events).filterMap
            (lowPortFrom s))).length) := by
  have accounted := accounted_run connected stays uncut quiet drained
  constructor
  · intro kept inserted
    have below : CountersBelow s loop.maps := by
      rw [reached]
      exact countersBelow_exec s history
    rw [← length_synEvents below kept inserted]
    exact accounted 1 s
  · intro kept inserted
    have bounded : (portSet loop.maps.portScanMap s).card ≤ 20 := by
      rw [reached]
      exact portSet_card_le s history
    rw [packetRun, Pipeline.connect] at inserted ⊢
    rw [← length_scanEvents _ (Finset.sort_toFinset _ _).symm bounded kept inserted]
    exact accounted 2 s

/-- A pure SYN of 10.0.0.1 to port 8080. -/
def highSyn : Frame := Frame.ofTcp ⟨10, 0, 0, 1⟩ ⟨10, 0, 0, 2⟩ 31 144 0x02

/-- A hundred of them. -/
def highSyns : List Event := List.replicate 100 (.packet 0 highSyn (.ready 0))

/-- They have been counted, and a record waits when the backend connects. -/
def recordWaits : Pipeline ℕ :=
  .connect { firstLoader with maps := exec step Maps.empty highSyns } [floodEvent]
    (acceptClients 1 initClients) World.empty

/-- The alert of the 101st pure SYN becomes the one row of its source. -/
theorem waiting_record_accounted :
    rowCount 1 synSegment.srcIp
      (exec (pipeStep calmEnv 0) recordWaits (lastSyn highSyn)).backend.1.world.alerts = 1 := by
  have known : (recordWaits.loop.maps.synCounter.lookup synSegment.srcIp).isSome := by
    decide +kernel
  have inserted : FirstTime (TriesSynInsert synSegment.srcIp) (SynInserted synSegment.srcIp)
      (packetRun recordWaits (lastSyn highSyn)) := by
    refine Or.inr ⟨?_, trivial⟩
    rintro ⟨-, absent⟩
    have absent : recordWaits.loop.maps.synCounter.lookup synSegment.srcIp = none := absent
    rw [absent] at known
    cases known
  have reached : recordWaits.loop.maps = exec step Maps.empty highSyns := by
    rw [recordWaits, Pipeline.connect]
  have accounted : Accounted calmEnv 0 recordWaits World.empty (lastSyn highSyn) 1 synSegment.srcIp
      (∑ c ∈ cpusOf ((lastSyn highSyn).flatMap changesOf),
        synsCounted synSegment.srcIp c recordWaits.loop.maps
          ((lastSyn highSyn).flatMap changesOf) / 101) :=
    (alerts_accounted calmEnv 0 recordWaits.loop [floodEvent] (acceptClients 1 initClients)
      World.empty (lastSyn highSyn) highSyns synSegment.srcIp reached (by decide)
      (by decide +kernel) (by decide +kernel) (quiet_calmEnv _ _) (by decide +kernel)).1
      (by decide) inserted
  have detected : ∑ c ∈ cpusOf ((lastSyn highSyn).flatMap changesOf),
      synsCounted synSegment.srcIp c recordWaits.loop.maps
        ((lastSyn highSyn).flatMap changesOf) / 101 = 1 := by
    decide +kernel
  have elsewhere :
      alertCount 1 synSegment.srcIp (refused (packetRun recordWaits (lastSyn highSyn))) +
        alertCount 1 synSegment.srcIp
          (exec (pipeStep calmEnv 0) recordWaits (lastSyn highSyn)).ring +
        alertCount 1 synSegment.srcIp (unsent calmEnv 0 recordWaits (lastSyn highSyn)) = 0 := by
    decide +kernel
  have before : rowCount 1 synSegment.srcIp World.empty.alerts +
      alertCount 1 synSegment.srcIp recordWaits.ring = 0 := by
    decide
  unfold Accounted at accounted
  omega

end EbpfNids.Wire
