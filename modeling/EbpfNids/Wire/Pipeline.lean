import EbpfNids.DataPlane.RingLoss
import EbpfNids.Library.Relay
import EbpfNids.Loader.MainLoop
import EbpfNids.Wire.Arrivals

/-!
# From the packet to the table

The data plane, the loader and the backend as one system. A packet that crosses
a threshold puts an alert into the ring buffer. Between two passes the loader
takes the oldest record and sends its line to every client, and in a pass it
sends the lines of the flow rates. The backend, one of the clients, receives at
most 4096 bytes at a time and handles the lines in them. All of these come in
any order, with packets, signals, reloads and other clients in between.

The ring buffer and the socket are queues (`alerts_fifo`, `bytes_fifo`), the
backend is given the bytes that it has received (`backend_receives`), and what
arrives of lines is known (`Wire.Arrivals`). So what the backend handles has been
detected, in order and at most once each, and its tables hold the values of the
first lines that its connection has accepted (`pipeline_faithful`).
-/

set_option autoImplicit false

namespace EbpfNids.Wire

open Library Library.Runs Library.Refinement Library.Framing
open EbpfNids.DataPlane EbpfNids.Loader EbpfNids.Backend

variable {ι : Type*}

/-! ## The system -/

/-- The loader with the maps of the data plane, the records that wait in the ring
buffer, the clients, the bytes that the connection of the backend has accepted
and not received, and the loop of the backend. -/
structure Pipeline (ι : Type*) where
  loop : LoopState ι
  ring : List AlertEvent
  clients : Clients
  wire : List UInt8
  backend : Session World × Text

/-- An event of the main loop, with what the calls of `send` give when it is a
report; new connections; a record taken by `ring_buffer__poll`; or a `recv(4096)`
of the backend, which gives one byte more than `last`. -/
inductive PipeEvent where
  | loop (event : LoopEvent) (send : Fin maxClients → SendResult)
  | acceptClients (pending : ℕ)
  | handleAlert (send : Fin maxClients → SendResult)
  | recv (last : Fin 4096)

/-- The record that an output has left in the ring buffer. -/
def Act.placed : Act → Option AlertEvent
  | .bpfRingbufOutput _ evt true => some evt
  | _ => none

/-- The records that an event of the loop leaves in the ring buffer. -/
def placedBy (s : LoopState ι) : LoopEvent → List AlertEvent
  | .sys (.data change) => (acts (s.maps, change)).filterMap Act.placed
  | _ => []

/-- The flow rate that an event of the loop reports. -/
def reportedBy (s : LoopState ι) : LoopEvent → Option FlowRate
  | .sys event =>
      if enabled s event then (reportOf (s.system, event)).map Report.flowRate else none
  | _ => none

section Step

variable (env : Env) (i : Fin maxClients)

/-- `broadcast_json_line`, with the backend in slot `i`. -/
def Pipeline.broadcast (s : Pipeline ι) (ev : LoaderEvent) (send : Fin maxClients → SendResult) :
    Pipeline ι :=
  { s with
    clients := broadcastJsonLine (eventLine ev) send s.clients
    wire := s.wire ++
      if (s.clients i).isSome then asciiBytes ((send i).taken (eventLine ev)) else [] }

def pipeStep (s : Pipeline ι) : PipeEvent → Pipeline ι
  | .loop event send =>
      let moved : Pipeline ι :=
        { s with loop := loopStep s.loop event, ring := s.ring ++ placedBy s.loop event }
      match reportedBy s.loop event with
      | some f => moved.broadcast i (.flowRate f) send
      | none => moved
  | .acceptClients pending =>
      if s.loop.phase = .waiting then { s with clients := acceptClients pending s.clients } else s
  | .handleAlert send =>
      if s.loop.phase = .waiting then
        match s.ring with
        | e :: rest => { s with ring := rest }.broadcast i (.alert e) send
        | [] => s
      else s
  | .recv last =>
      { s with
        wire := s.wire.drop (last + 1)
        backend := recvChunk (xdpHandler env) s.backend (s.wire.take (last + 1)) }

end Step

/-! ## What a step hands on -/

/-- The records put into the ring buffer. -/
def placed (p : Pipeline ι × PipeEvent) : List AlertEvent :=
  match p.2 with
  | .loop event _ => placedBy p.1.loop event
  | _ => []

/-- The records taken from it. -/
def consumed (p : Pipeline ι × PipeEvent) : List AlertEvent :=
  match p.2 with
  | .handleAlert _ => if p.1.loop.phase = .waiting then p.1.ring.head?.toList else []
  | _ => []

/-- The lines sent to the backend, and what its connection makes of them. -/
def sentTo (i : Fin maxClients) (p : Pipeline ι × PipeEvent) : List Send :=
  match p.2 with
  | .loop event send =>
      (reportedBy p.1.loop event).toList.map fun f => ⟨.flowRate f, send i⟩
  | .handleAlert send => (consumed p).map fun e => ⟨.alert e, send i⟩
  | _ => []

/-- The bytes received by the backend. -/
def chunk (p : Pipeline ι × PipeEvent) : List (List UInt8) :=
  match p.2 with
  | .recv last => [p.1.wire.take (last + 1)]
  | _ => []

section OneStep

variable (env : Env) (i : Fin maxClients) (s : Pipeline ι) (event : PipeEvent)

theorem ring_step :
    consumed (s, event) ++ (pipeStep env i s event).ring = s.ring ++ placed (s, event) := by
  cases event with
  | loop event send =>
      simp only [pipeStep]
      split
      · rfl
      · rfl
  | acceptClients pending =>
      simp only [pipeStep, placed, consumed, List.append_nil, List.nil_append]
      split
      · rfl
      · rfl
  | handleAlert send =>
      simp only [pipeStep, placed, consumed, List.append_nil]
      split
      · cases ring : s.ring with
        | nil => simp [ring]
        | cons e rest => rfl
      · rfl
  | recv last => exact (List.append_nil _).symm

theorem backend_step :
    (pipeStep env i s event).backend =
      exec (recvChunk (xdpHandler env)) s.backend (chunk (s, event)) := by
  cases event with
  | loop event send =>
      simp only [pipeStep]
      split
      · rfl
      · rfl
  | acceptClients pending =>
      simp only [pipeStep]
      split
      · rfl
      · rfl
  | handleAlert send =>
      simp only [pipeStep]
      split
      · cases s.ring with
        | nil => rfl
        | cons e rest => rfl
      · rfl
  | recv last => rfl

variable {env i s event}

/-- A line sent to a client that stays. -/
theorem broadcast_connected (connected : (s.clients i).isSome) (ev : LoaderEvent)
    {send : Fin maxClients → SendResult} (stays : send i ≠ .failed) :
    ((s.broadcast i ev send).clients i).isSome ∧
      (s.broadcast i ev send).wire = s.wire ++ asciiBytes (Send.taken ⟨ev, send i⟩) := by
  obtain ⟨stream, found⟩ := Option.isSome_iff_exists.mp connected
  constructor
  · simp [Pipeline.broadcast, broadcastJsonLine, found, stays]
  · rw [Pipeline.broadcast, if_pos connected]
    rfl

/-- **Step lemma of the socket.** While the backend stays connected, what it
receives and what is left to receive are what was left before and what its
connection accepts. -/
theorem bytes_step (connected : (s.clients i).isSome)
    (stays : ∀ sent ∈ sentTo i (s, event), sent.result ≠ .failed) :
    ((pipeStep env i s event).clients i).isSome ∧
      (chunk (s, event)).flatten ++ (pipeStep env i s event).wire =
        s.wire ++ asciiBytes ((sentTo i (s, event)).flatMap Send.taken) := by
  have quiet : s.wire = s.wire ++ asciiBytes [] := (List.append_nil _).symm
  cases event with
  | loop event send =>
      simp only [pipeStep, sentTo] at stays ⊢
      cases reports : reportedBy s.loop event with
      | none => exact ⟨connected, quiet⟩
      | some f =>
          have open_ : send i ≠ .failed := by simpa [reports] using stays
          have sent := broadcast_connected
            (s := { s with loop := loopStep s.loop event, ring := s.ring ++ placedBy s.loop event })
            connected (.flowRate f) open_
          exact ⟨sent.1, by simpa [chunk] using sent.2⟩
  | acceptClients pending =>
      obtain ⟨stream, found⟩ := Option.isSome_iff_exists.mp connected
      simp only [pipeStep]
      split
      · exact ⟨by simp [acceptClients_slot found pending], quiet⟩
      · exact ⟨connected, quiet⟩
  | handleAlert send =>
      by_cases waiting : s.loop.phase = .waiting
      · cases ring : s.ring with
        | nil =>
            simp only [pipeStep, sentTo, consumed, ring, if_pos waiting]
            exact ⟨connected, quiet⟩
        | cons e rest =>
            have open_ : send i ≠ .failed := by
              simpa [sentTo, consumed, waiting, ring] using stays
            have sent := broadcast_connected (s := { s with ring := rest })
              connected (.alert e) open_
            simp only [pipeStep, if_pos waiting, ring]
            exact ⟨sent.1, by simpa [chunk, sentTo, consumed, waiting, ring] using sent.2⟩
      · simp only [pipeStep, sentTo, consumed, if_neg waiting]
        exact ⟨connected, quiet⟩
  | recv last =>
      refine ⟨connected, ?_⟩
      simp [chunk, pipeStep, sentTo, asciiBytes]

end OneStep

/-! ## Runs -/

section Run

variable (env : Env) (i : Fin maxClients) (start : Pipeline ι) (events : List PipeEvent)

/-- The lines sent to the backend in a run. -/
def sends : List Send := operations (pipeStep env i) (sentTo i) start events

/-- The bytes received in a run, cut as they came. -/
def chunks : List (List UInt8) := operations (pipeStep env i) chunk start events

/-- **The ring buffer.** What has been taken from it, and what waits in it, is
what was put into it. -/
theorem alerts_fifo :
    operations (pipeStep env i) consumed start events ++
        (exec (pipeStep env i) start events).ring =
      start.ring ++ operations (pipeStep env i) placed start events :=
  exec_fifo Pipeline.ring placed consumed fun p _ => ring_step env i p.1 p.2

/-- **The loop of the backend.** It is given the bytes received. -/
theorem backend_receives :
    (exec (pipeStep env i) start events).backend =
      exec (recvChunk (xdpHandler env)) start.backend (chunks env i start events) :=
  exec_refines (fun (s : Pipeline ι) backend => s.backend = backend) rfl
    fun p _ _ same => same ▸ backend_step env i p.1 p.2

variable {env i start events}

/-- The backend stays connected. -/
theorem connected_run (connected : (start.clients i).isSome)
    (stays : ∀ sent ∈ sends env i start events, sent.result ≠ .failed) :
    ∀ p ∈ steps (pipeStep env i) start events, (p.1.clients i).isSome := by
  refine steps_invariant (P := fun s : Pipeline ι => (s.clients i).isSome) connected ?_
  intro p member here
  refine (bytes_step here ?_).1
  intro sent inStep
  exact stays sent (List.mem_flatMap.mpr ⟨p, member, inStep⟩)

theorem bytes_run (connected : (start.clients i).isSome)
    (stays : ∀ sent ∈ sends env i start events, sent.result ≠ .failed) :
    ∀ p ∈ steps (pipeStep env i) start events,
      (chunk p).flatMap id ++ (pipeStep env i p.1 p.2).wire =
        p.1.wire ++ (sentTo i p).flatMap fun s => asciiBytes s.taken := by
  intro p member
  have here := connected_run connected stays p member
  have open_ : ∀ sent ∈ sentTo i (p.1, p.2), sent.result ≠ .failed := fun sent inStep =>
    stays sent (List.mem_flatMap.mpr ⟨p, member, inStep⟩)
  have bytes := (@bytes_step _ env i _ _ here open_).2
  rw [List.flatten_eq_flatMap] at bytes
  simpa only [asciiBytes, List.map_flatMap] using bytes

/-- **The socket.** The bytes received, and those left to receive, are what the
connection has accepted. -/
theorem bytes_fifo (connected : (start.clients i).isSome)
    (stays : ∀ sent ∈ sends env i start events, sent.result ≠ .failed) :
    (chunks env i start events).flatten ++ (exec (pipeStep env i) start events).wire =
      start.wire ++ asciiBytes ((sends env i start events).flatMap Send.taken) := by
  have fifo := exec_fifo Pipeline.wire (fun p => (sentTo i p).flatMap fun s => asciiBytes s.taken)
    (fun p => (chunk p).flatMap id) (bytes_run connected stays)
  rw [chunks, sends, List.flatten_eq_flatMap, operations_flatMap, fifo, ← operations_flatMap]
  simp only [asciiBytes, List.map_flatMap]

/-- The text received, and the text left to receive. -/
theorem text_fifo (connected : (start.clients i).isSome) (empty : start.wire = [])
    (stays : ∀ sent ∈ sends env i start events, sent.result ≠ .failed) :
    ∃ rest, received (chunks env i start events) ++ rest =
        (sends env i start events).flatMap Send.taken ∧
      ((exec (pipeStep env i) start events).wire = [] → rest = []) := by
  have bytes := bytes_fifo connected stays
  rw [empty, List.nil_append, asciiBytes] at bytes
  obtain ⟨first, rest, split, here, left⟩ := List.append_eq_map_iff.mp bytes
  have ascii : ∀ c ∈ first, c < 128 := by
    intro c member
    have inStream : c ∈ (sends env i start events).flatMap Send.taken := by
      rw [split]
      exact List.mem_append_left rest member
    obtain ⟨s, -, inTaken⟩ := List.mem_flatMap.mp inStream
    exact ascii_taken s c inTaken
  refine ⟨rest, ?_, fun all => ?_⟩
  · rw [received_asciiBytes ascii here.symm, split]
  · rw [all] at left
    exact List.map_eq_nil_iff.mp left

end Run

/-! ## Alerts -/

/-- The packet of a step has crossed a threshold, this is its alert, and the ring
buffer has had room for it. -/
def Detects (e : AlertEvent) (p : Pipeline ι × PipeEvent) : Prop :=
  ∃ change send a, p.2 = .loop (.sys (.data change)) send ∧
    arrival (p.1.loop.maps, change) = some a ∧
    (SynCrosses p.1.loop.maps.synCounter a ∧ e = synAlert a ∧ a.kernel.synOutput = true ∨
      ScanCrosses p.1.loop.maps.portScanMap a ∧ e = scanAlert a ∧ a.kernel.scanOutput = true)

theorem mem_placed_acts {e : AlertEvent} {p : Maps × Event} :
    e ∈ (acts p).filterMap Act.placed ↔ ∃ cpu, .bpfRingbufOutput cpu e true ∈ acts p := by
  rw [List.mem_filterMap]
  constructor
  · rintro ⟨act, member, kept⟩
    rw [Act.placed.eq_def] at kept
    split at kept
    · cases kept
      exact ⟨_, member⟩
    · cases kept
  · rintro ⟨cpu, member⟩
    exact ⟨_, member, rfl⟩

/-- **A record is a detection.** -/
theorem mem_placed_iff {e : AlertEvent} {p : Pipeline ι × PipeEvent} :
    e ∈ placed p ↔ Detects e p := by
  obtain ⟨s, event⟩ := p
  constructor
  · intro member
    cases event with
    | loop event send =>
        cases event with
        | sys event =>
            cases event with
            | data change =>
                obtain ⟨cpu, output⟩ := mem_placed_acts.mp member
                cases arrives : arrival (s.loop.maps, change) with
                | none =>
                    rw [(step_of_no_arrival arrives 0).1] at output
                    cases output
                | some a =>
                    refine ⟨change, send, a, rfl, arrives, ?_⟩
                    rcases ((acts_of_arrival arrives).1 cpu e true).mp output with
                      ⟨crosses, -, same, room⟩ | ⟨crosses, -, same, room⟩
                    · exact Or.inl ⟨crosses, same, room.symm⟩
                    · exact Or.inr ⟨crosses, same, room.symm⟩
            | _ => cases member
        | _ => cases member
    | _ => cases member
  · rintro ⟨change, send, a, rfl, arrives, crossed⟩
    refine mem_placed_acts.mpr ⟨a.cpu, ((acts_of_arrival arrives).1 a.cpu e true).mpr ?_⟩
    rcases crossed with ⟨crosses, same, room⟩ | ⟨crosses, same, room⟩
    · exact Or.inl ⟨crosses, rfl, same, room.symm⟩
    · exact Or.inr ⟨crosses, rfl, same, room.symm⟩

/-- The alerts sent are the records consumed. -/
theorem alertsOf_sentTo (i : Fin maxClients) (p : Pipeline ι × PipeEvent) :
    alertsOf ((sentTo i p).map Send.ev) = consumed p := by
  obtain ⟨s, event⟩ := p
  cases event with
  | loop event send =>
      simp only [sentTo, consumed]
      cases reportedBy s.loop event with
      | none => rfl
      | some f => rfl
  | handleAlert send =>
      simp only [sentTo]
      rw [List.map_map, alertsOf, List.filterMap_map]
      exact List.filterMap_some
  | acceptClients pending => rfl
  | recv last => rfl

theorem alertsOf_sends (env : Env) (i : Fin maxClients) (start : Pipeline ι)
    (events : List PipeEvent) :
    alertsOf ((sends env i start events).map Send.ev) =
      operations (pipeStep env i) consumed start events := by
  rw [sends, alertsOf, List.filterMap_map, operations_filterMap]
  refine operations_congr fun p _ => ?_
  rw [← List.filterMap_map]
  exact alertsOf_sentTo i p

/-! ## The whole way -/

/-- The loader when it has accepted the connection of the backend, with what
waits in the ring buffer and what the backend has stored before. -/
def Pipeline.connect (loop : LoopState ι) (ring : List AlertEvent) (clients : Clients)
    (world : World) : Pipeline ι :=
  ⟨loop, ring, clients, [], (⟨world, [], none⟩, [])⟩

/-- What a run makes of alerts and flow rates. The records are the detections
for which there was room. The alerts accepted by the connection are some of them,
in order, before those that still wait. The messages handled are some of the
lines accepted, in order. When nothing fails in the backend and no line is
accepted in part, the tables hold the first lines accepted, and all of them when
nothing is left to receive; and every record, once and in order, when every line
is accepted whole and none waits. -/
structure Faithful (env : Env) (i : Fin maxClients) (start : Pipeline ι) (world : World)
    (events : List PipeEvent) : Prop where
  detected : ∀ e, e ∈ operations (pipeStep env i) placed start events ↔
    ∃ p ∈ steps (pipeStep env i) start events, Detects e p
  relayed :
    (alertsOf (wholeEvents (sends env i start events)) ++
        (exec (pipeStep env i) start events).ring).Sublist
      (start.ring ++ operations (pipeStep env i) placed start events)
  handled :
    ((exec (pipeStep env i) start events).backend.1.calls.map Call.msg).Sublist
      ((wholeEvents (sends env i start events)).map fun ev => .obj (message ev))
  stored : Quiet env world (wholeEvents (sends env i start events)) →
    (∀ s ∈ sends env i start events, s.isShort = false) →
    ∃ stored, stored <+: wholeEvents (sends env i start events) ∧
      Stored env world stored (exec (pipeStep env i) start events).backend.1.world ∧
      ((exec (pipeStep env i) start events).wire = [] →
        stored = wholeEvents (sends env i start events))
  complete : Quiet env world (wholeEvents (sends env i start events)) →
    (∀ s ∈ sends env i start events, s.isWhole = true) →
    (exec (pipeStep env i) start events).wire = [] →
    (exec (pipeStep env i) start events).ring = [] →
      (exec (pipeStep env i) start events).backend.1.world.alerts =
        world.alerts ++ alertRows env world.lastAlertId
          (start.ring ++ operations (pipeStep env i) placed start events)

theorem alertsOf_sublist {some all : List LoaderEvent} (part : some.Sublist all) :
    (alertsOf some).Sublist (alertsOf all) := part.filterMap _

section Connected

variable {env : Env} {i : Fin maxClients} {loop : LoopState ι} {ring : List AlertEvent}
  {clients : Clients} {world : World} {events : List PipeEvent}

/-- What the connection of the backend has given it so far. -/
theorem backend_run (connected : (clients i).isSome)
    (stays : ∀ s ∈ sends env i (.connect loop ring clients world) events, s.result ≠ .failed) :
    ∃ chunks rest,
      received chunks ++ rest =
        (sends env i (.connect loop ring clients world) events).flatMap Send.taken ∧
      (exec (pipeStep env i) (.connect loop ring clients world) events).backend.1 =
        (receive (xdpHandler env) world chunks).1 ∧
      ((exec (pipeStep env i) (.connect loop ring clients world) events).wire = [] →
        rest = []) := by
  obtain ⟨rest, stream, drained⟩ := text_fifo connected rfl stays
  refine ⟨_, rest, stream, ?_, drained⟩
  rw [backend_receives]
  rfl

/-- The alerts accepted and the records that wait are some of the records. -/
theorem relayed_run (env : Env) (i : Fin maxClients) (start : Pipeline ι)
    (events : List PipeEvent) :
    (alertsOf (wholeEvents (sends env i start events)) ++
        (exec (pipeStep env i) start events).ring).Sublist
      (start.ring ++ operations (pipeStep env i) placed start events) := by
  rw [← alerts_fifo env i start events, ← alertsOf_sends]
  exact (alertsOf_sublist (List.filter_sublist.map Send.ev)).append (List.Sublist.refl _)

/-- Without lines cut, the tables hold the first lines accepted. -/
theorem stored_run (connected : (clients i).isSome)
    (stays : ∀ s ∈ sends env i (.connect loop ring clients world) events, s.result ≠ .failed)
    (quiet : Quiet env world (wholeEvents
      (sends env i (.connect loop ring clients world) events)))
    (uncut : ∀ s ∈ sends env i (.connect loop ring clients world) events, s.isShort = false) :
    ∃ stored, stored <+: wholeEvents (sends env i (.connect loop ring clients world) events) ∧
      Stored env world stored
        (exec (pipeStep env i) (.connect loop ring clients world) events).backend.1.world ∧
      ((exec (pipeStep env i) (.connect loop ring clients world) events).wire = [] →
        stored = wholeEvents (sends env i (.connect loop ring clients world) events)) := by
  obtain ⟨chunks, rest, stream, backend, drained⟩ := backend_run connected stays
  obtain ⟨stored, first, tables, all⟩ := stored_whole quiet uncut stream
  exact ⟨stored, first, backend ▸ tables, fun nothing => all (drained nothing)⟩

/-- When every line is accepted whole, the alerts sent are the records taken. -/
theorem alertsOf_whole {start : Pipeline ι}
    (accepted : ∀ s ∈ sends env i start events, s.isWhole = true) :
    alertsOf (wholeEvents (sends env i start events)) ++
        (exec (pipeStep env i) start events).ring =
      start.ring ++ operations (pipeStep env i) placed start events := by
  have every : (sends env i start events).filter Send.isWhole = sends env i start events :=
    List.filter_eq_self.mpr accepted
  rw [← alerts_fifo env i start events, ← alertsOf_sends, wholeEvents, every]

theorem uncut_of_whole {sends : List Send} (accepted : ∀ s ∈ sends, s.isWhole = true) :
    ∀ s ∈ sends, s.isShort = false := by
  intro s member
  rcases taken_cases s with ⟨-, short, -⟩ | ⟨cut, -⟩ | ⟨none, -⟩
  · exact short
  · exact absurd (accepted s member) (by simp [cut])
  · exact absurd (accepted s member) (by simp [none])

end Connected

/-- **From the packet to the table.** Whatever packets come, whatever the kernel
answers, however the loader, the backend and the data plane are interleaved, and
whatever clients come and go, as long as the backend stays connected. -/
theorem pipeline_faithful (env : Env) (i : Fin maxClients) (loop : LoopState ι)
    (ring : List AlertEvent) (clients : Clients) (world : World) (events : List PipeEvent)
    (connected : (clients i).isSome)
    (stays : ∀ s ∈ sends env i (.connect loop ring clients world) events, s.result ≠ .failed) :
    Faithful env i (.connect loop ring clients world) world events := by
  refine ⟨?_, relayed_run env i _ events, ?_, stored_run connected stays, ?_⟩
  · intro e
    simp only [operations, List.mem_flatMap, mem_placed_iff]
  · obtain ⟨chunks, rest, stream, backend, -⟩ := backend_run connected stays
    rw [backend, wholeEvents, List.map_map]
    exact handled_part (handleXdpMsg env) world stream
  · intro quiet accepted nothing empty
    obtain ⟨kept, -, tables, all⟩ := stored_run connected stays quiet (uncut_of_whole accepted)
    have alerts := alertsOf_whole accepted
    rw [empty, List.append_nil] at alerts
    rw [tables.alerts, all nothing, alerts]

def floodEvent : AlertEvent := ⟨0x0100007F, 0x0200007F, 1, 5⟩

/-- The loader when 10.0.0.1 has sent a hundred pure SYNs to CPU 0, and what the
next one is reported as. -/
def floodedLoader : LoopState ℕ :=
  { firstLoader with
    maps := { Maps.empty with
      synCounter := bpfMapUpdateElem true .empty synSegment.srcIp (perCpuInit 0 100) } }

def synEvent : AlertEvent := ⟨synSegment.srcIp, synSegment.dstIp, 1, 5⟩

/-- Another pure SYN, the lines of a record that waits and of its own, and both
received at once. -/
def lastSyn (frame : Frame) : List PipeEvent :=
  [.loop (.sys (.data (.packet 0 frame (.ready 5)))) fun _ => .wouldBlock,
    .handleAlert fun _ => .sent 116, .handleAlert fun _ => .sent 114, .recv 4095]

/-- A record that waits when the backend connects, and that of a packet after it,
are sent, received and stored. -/
theorem waiting_record_stored :
    (exec (pipeStep calmEnv 0)
      (.connect floodedLoader [floodEvent] (acceptClients 1 initClients) World.empty)
      (lastSyn synFrame)).backend.1.world.alerts = alertRows calmEnv 0 [floodEvent, synEvent] := by
  have faithful := pipeline_faithful calmEnv 0 floodedLoader [floodEvent]
    (acceptClients 1 initClients) World.empty (lastSyn synFrame) (by decide) (by decide +kernel)
  have placed : operations (pipeStep calmEnv 0) placed
      (.connect floodedLoader [floodEvent] (acceptClients 1 initClients) World.empty)
        (lastSyn synFrame) = [synEvent] := by
    decide +kernel
  have rows := faithful.complete (quiet_calmEnv _ _) (by decide +kernel) (by decide +kernel)
    (by decide +kernel)
  rwa [placed] at rows

end EbpfNids.Wire
