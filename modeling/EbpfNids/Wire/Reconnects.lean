import EbpfNids.Backend.ClientLoop
import EbpfNids.Wire.Arrivals

/-!
# Connections that come and go

The loader with its slots, the socket buffers of all connections, and the thread
of the backend, which connects again whenever its connection is over. The loader
may also end and be started again, and other clients connect. A slot keeps a
connection that the backend has left until a `send` to it fails, so for a while
the loader sends its lines to that connection too.

No line is handled twice all the same: a connection that has been left is not
read any more, and the next one gets only the lines sent after it was made. So
what the backend handles over all its connections are lines of the loader, in
order and each at most once, whatever is cut off or raises, and nothing else
changes its tables (`handled_at_most_once`).
-/

set_option autoImplicit false

namespace EbpfNids.Wire

open Library Library.Runs Library.Framing Library.Ledger
open EbpfNids.DataPlane EbpfNids.Loader EbpfNids.Backend

/-- Connections are numbered as they are made. The slots and the queue of
connections to be accepted hold their numbers. `conn` is the one that the thread
has made last. -/
structure Hub where
  slots : Fin maxClients → Option ℕ
  pending : List ℕ
  wire : ℕ → List UInt8
  connections : ℕ
  conn : ℕ
  thread : Thread World

/-- A line of the loader, a turn of the loop of `accept_clients`, another client,
a loader that ends and is started again, or a call of the thread. -/
inductive HubEvent where
  | broadcastJsonLine (ev : LoaderEvent) (send : Fin maxClients → SendResult)
  | acceptClient
  | otherConnects
  | restart
  | pathMissing
  | socket (result : Except SocketError ℕ)
  | connect (result : Except SocketError Unit)
  | recv (last : Fin 4096)
  | recvEnds
  | recvRaises (e : SocketError)

/-- The bytes of a line that the connection in a slot accepts. -/
def offerLine (line : Text) (send : Fin maxClients → SendResult)
    (slots : Fin maxClients → Option ℕ) (wire : ℕ → List UInt8) (i : Fin maxClients) :
    ℕ → List UInt8 :=
  match slots i with
  | some c => Function.update wire c (wire c ++ asciiBytes ((send i).taken line))
  | none => wire

def Hub.broadcast (h : Hub) (line : Text) (send : Fin maxClients → SendResult) : Hub :=
  { h with
    slots := fun i => if send i = .failed then none else h.slots i
    wire := (List.finRange maxClients).foldl (offerLine line send h.slots) h.wire }

/-- A connection that does not find a free slot is closed. -/
def Hub.accept (h : Hub) : Hub :=
  match h.pending with
  | [] => h
  | c :: rest =>
      match (List.finRange maxClients).find? fun i => (h.slots i).isNone with
      | some i => { h with pending := rest, slots := Function.update h.slots i (some c) }
      | none => { h with pending := rest }

/-- A connection of the thread. -/
def Hub.connect (h : Hub) (thread : Thread World) : Hub :=
  { h with
    thread := thread
    pending := h.pending ++ [h.connections]
    wire := Function.update h.wire h.connections []
    connections := h.connections + 1
    conn := h.connections }

section Step

variable (env : Env)

/-- `recv` waits until there is something to receive. -/
def hubStep (h : Hub) : HubEvent → Hub
  | .broadcastJsonLine ev send => h.broadcast (eventLine ev) send
  | .acceptClient => h.accept
  | .otherConnects =>
      { h with pending := h.pending ++ [h.connections], connections := h.connections + 1 }
  | .restart => { h with slots := fun _ => none, pending := [] }
  | .pathMissing => { h with thread := threadStep (xdpHandler env) h.thread .pathMissing }
  | .socket result => { h with thread := threadStep (xdpHandler env) h.thread (.socket result) }
  | .connect (.ok _) =>
      match h.thread.place with
      | .created _ => h.connect (threadStep (xdpHandler env) h.thread (.connect (.ok ())))
      | _ => h
  | .connect (.error e) =>
      { h with thread := threadStep (xdpHandler env) h.thread (.connect (.error e)) }
  | .recv last =>
      let chunk := (h.wire h.conn).take (last + 1)
      match h.thread.place with
      | .receiving _ _ =>
          if chunk = [] then h
          else
            { h with
              thread := threadStep (xdpHandler env) h.thread (.recv (.ok chunk))
              wire := Function.update h.wire h.conn ((h.wire h.conn).drop (last + 1)) }
      | _ => h
  | .recvEnds => { h with thread := threadStep (xdpHandler env) h.thread (.recv (.ok [])) }
  | .recvRaises e => { h with thread := threadStep (xdpHandler env) h.thread (.recv (.error e)) }

end Step

/-- A loader and a backend that have just been started. -/
def Hub.start (world : World) : Hub :=
  ⟨fun _ => none, [], fun _ => [], 0, 0, .start world⟩

/-- The line of an event. -/
def HubEvent.lines : HubEvent → List LoaderEvent
  | .broadcastJsonLine ev _ => [ev]
  | _ => []

/-! ## Slots -/

/-- A connection is in one slot or in the queue, and has been made. -/
structure Wired (h : Hub) : Prop where
  slotsBelow : ∀ i c, h.slots i = some c → c < h.connections
  pendingBelow : ∀ c ∈ h.pending, c < h.connections
  distinct : ∀ i j c, h.slots i = some c → h.slots j = some c → i = j
  apart : ∀ i c, h.slots i = some c → c ∉ h.pending
  nodup : h.pending.Nodup

theorem wired_start (world : World) : Wired (.start world) where
  slotsBelow _ _ taken := by cases taken
  pendingBelow _ member := by cases member
  distinct _ _ _ taken := by cases taken
  apart _ _ taken := by cases taken
  nodup := List.nodup_nil

/-- Slots that are left as they are or freed. -/
theorem Wired.free {h h' : Hub} (wired : Wired h)
    (slots : ∀ i c, h'.slots i = some c → h.slots i = some c)
    (pending : h'.pending = h.pending) (connections : h'.connections = h.connections) :
    Wired h' where
  slotsBelow i c taken := by
    rw [connections]
    exact wired.slotsBelow i c (slots i c taken)
  pendingBelow := by
    rw [pending, connections]
    exact wired.pendingBelow
  distinct i j c first second := wired.distinct i j c (slots i c first) (slots j c second)
  apart i c taken := by
    rw [pending]
    exact wired.apart i c (slots i c taken)
  nodup := by
    rw [pending]
    exact wired.nodup

theorem Wired.made {h h' : Hub} (wired : Wired h) (slots : h'.slots = h.slots)
    (pending : h'.pending = h.pending ++ [h.connections])
    (connections : h'.connections = h.connections + 1) : Wired h' where
  slotsBelow i c taken := by
    rw [slots] at taken
    rw [connections]
    exact Nat.lt_succ_of_lt (wired.slotsBelow i c taken)
  pendingBelow c member := by
    rw [pending, List.mem_append, List.mem_singleton] at member
    rw [connections]
    rcases member with earlier | rfl
    · exact Nat.lt_succ_of_lt (wired.pendingBelow c earlier)
    · exact Nat.lt_succ_self _
  distinct i j c first second := by
    rw [slots] at first second
    exact wired.distinct i j c first second
  apart i c taken := by
    rw [slots] at taken
    rw [pending, List.mem_append, List.mem_singleton, not_or]
    exact ⟨wired.apart i c taken, Nat.ne_of_lt (wired.slotsBelow i c taken)⟩
  nodup := by
    rw [pending, List.nodup_append]
    refine ⟨wired.nodup, List.nodup_singleton _, ?_⟩
    intro c earlier d same
    rw [List.mem_singleton.mp same]
    exact Nat.ne_of_lt (wired.pendingBelow c earlier)

theorem Wired.accept {h : Hub} (wired : Wired h) : Wired h.accept := by
  rw [Hub.accept]
  cases pending : h.pending with
  | nil => exact wired
  | cons c rest =>
      have notLater : c ∉ rest ∧ rest.Nodup := by
        rw [← List.nodup_cons, ← pending]
        exact wired.nodup
      have here : c ∈ h.pending := pending ▸ List.mem_cons_self
      have later : ∀ d ∈ rest, d ∈ h.pending := fun d member =>
        pending ▸ List.mem_cons_of_mem c member
      dsimp only
      split
      · rename_i i free
        have update : ∀ j d, Function.update h.slots i (some c) j = some d →
            j = i ∧ d = c ∨ j ≠ i ∧ h.slots j = some d := by
          intro j d taken
          by_cases same : j = i
          · subst same
            rw [Function.update_self] at taken
            exact Or.inl ⟨rfl, (Option.some.inj taken).symm⟩
          · rw [Function.update_of_ne same] at taken
            exact Or.inr ⟨same, taken⟩
        refine ⟨?_, fun d member => wired.pendingBelow d (later d member), ?_, ?_, notLater.2⟩
        · intro j d taken
          rcases update j d taken with ⟨-, rfl⟩ | ⟨-, before⟩
          · exact wired.pendingBelow d here
          · exact wired.slotsBelow j d before
        · intro j k d first second
          rcases update j d first with ⟨rfl, rfl⟩ | ⟨-, before⟩
          · rcases update k d second with ⟨rfl, -⟩ | ⟨-, other⟩
            · rfl
            · exact absurd here (wired.apart k d other)
          · rcases update k d second with ⟨-, rfl⟩ | ⟨-, other⟩
            · exact absurd here (wired.apart j d before)
            · exact wired.distinct j k d before other
        · intro j d taken
          rcases update j d taken with ⟨-, rfl⟩ | ⟨-, before⟩
          · exact notLater.1
          · exact fun member => wired.apart j d before (later d member)
      · exact ⟨wired.slotsBelow, fun d member => wired.pendingBelow d (later d member),
          wired.distinct, fun j d taken member => wired.apart j d taken (later d member),
          notLater.2⟩

/-! ## A line in the socket buffers -/

/-- Slots that do not hold the connection leave its buffer as it is. -/
theorem wire_others {line : Text} {send : Fin maxClients → SendResult}
    {slots : Fin maxClients → Option ℕ} {c : ℕ} {part : List (Fin maxClients)}
    (others : ∀ i ∈ part, slots i ≠ some c) (wire : ℕ → List UInt8) :
    part.foldl (offerLine line send slots) wire c = wire c := by
  induction part generalizing wire with
  | nil => rfl
  | cons i rest ih =>
      rw [List.foldl_cons, ih fun j member => others j (List.mem_cons_of_mem i member), offerLine]
      have other := others i List.mem_cons_self
      cases taken : slots i with
      | none => rfl
      | some d =>
          refine Function.update_of_ne ?_ _ _
          rintro rfl
          exact other taken

/-- **Loop lemma.** A connection in one slot at most is sent the line once at
most. -/
theorem wire_broadcast {line : Text} {send : Fin maxClients → SendResult}
    {slots : Fin maxClients → Option ℕ} {c : ℕ}
    (distinct : ∀ i j, slots i = some c → slots j = some c → i = j)
    {all : List (Fin maxClients)} (nodup : all.Nodup) (wire : ℕ → List UInt8) :
    all.foldl (offerLine line send slots) wire c = wire c ∨
      ∃ i, all.foldl (offerLine line send slots) wire c =
        wire c ++ asciiBytes ((send i).taken line) := by
  induction all generalizing wire with
  | nil => exact Or.inl rfl
  | cons i rest ih =>
      obtain ⟨notLater, nodupRest⟩ := List.nodup_cons.mp nodup
      rw [List.foldl_cons]
      by_cases here : slots i = some c
      · right
        refine ⟨i, ?_⟩
        rw [wire_others fun j member taken => notLater (distinct i j here taken ▸ member),
          offerLine, here]
        exact Function.update_self ..
      · have same : offerLine line send slots wire i c = wire c := by
          rw [offerLine]
          cases taken : slots i with
          | none => rfl
          | some d =>
              refine Function.update_of_ne ?_ _ _
              rintro rfl
              exact here taken
        rw [← same]
        exact ih nodupRest _

/-! ## What has been sent, and what has been handled -/

/-- The object that a line stands for. -/
def messageOf (ev : LoaderEvent) : Json := .obj (message ev)

section Stream

variable (env : Env)

/-- The state of a connection comes from bytes that it has received of some of
the lines, and the bytes left in its buffer are the rest of them. -/
def Receives (world : World) (lines : List LoaderEvent) (wire : List UInt8)
    (state : Session World × Text) : Prop :=
  ∃ chunks, ∃ sends : List Send, ∃ rest, (sends.map Send.ev).Sublist lines ∧
    received chunks ++ rest = sends.flatMap Send.taken ∧ wire = asciiBytes rest ∧
      state = receive (xdpHandler env) world chunks

/-- The calls of earlier connections are of lines sent before the last one was
made, and the lines sent to that one came later. -/
def History (thread : Thread World) (wire : List UInt8) (lines : List LoaderEvent) : Prop :=
  ∃ past recent, lines = past ++ recent ∧
    (thread.calls.map Backend.Call.msg).Sublist (past.map messageOf) ∧
      ∀ client state, thread.place = .receiving client state →
        Receives env thread.world recent wire state

variable {env} {world : World} {lines : List LoaderEvent} {wire : List UInt8}
  {state : Session World × Text} {thread : Thread World}

theorem Receives.start (env : Env) (world : World) :
    Receives env world [] [] (⟨world, [], none⟩, []) :=
  ⟨[], [], [], .slnil, rfl, rfl, rfl⟩

/-- A line that is not sent to the connection, or is. -/
theorem Receives.line (receives : Receives env world lines wire state) (ev : LoaderEvent)
    {wire' : List UInt8} (grows : wire' = wire ∨
      ∃ result : SendResult, wire' = wire ++ asciiBytes (result.taken (eventLine ev))) :
    Receives env world (lines ++ [ev]) wire' state := by
  obtain ⟨chunks, sends, rest, part, stream, left, same⟩ := receives
  rcases grows with rfl | ⟨result, rfl⟩
  · exact ⟨chunks, sends, rest, part.trans (List.sublist_append_left _ _), stream, left, same⟩
  · refine ⟨chunks, sends ++ [⟨ev, result⟩], rest ++ result.taken (eventLine ev), ?_, ?_, ?_, same⟩
    · rw [List.map_append]
      exact part.append (List.Sublist.refl [ev])
    · rw [List.flatMap_append, ← stream, List.append_assoc, List.flatMap_singleton]
      rfl
    · rw [left, asciiBytes_append]

theorem Receives.recv (receives : Receives env world lines wire state) (n : ℕ) :
    Receives env world lines (wire.drop n) (recvChunk (xdpHandler env) state (wire.take n)) := by
  obtain ⟨chunks, sends, rest, part, stream, rfl, same⟩ := receives
  have ascii : ∀ c ∈ rest.take n, c < 128 := by
    intro c member
    have inStream : c ∈ sends.flatMap Send.taken := by
      rw [← stream]
      exact List.mem_append_right _ (List.mem_of_mem_take member)
    obtain ⟨s, -, inTaken⟩ := List.mem_flatMap.mp inStream
    exact ascii_taken s c inTaken
  have cut : (asciiBytes rest).take n = asciiBytes (rest.take n) := List.map_take.symm
  refine ⟨chunks ++ [asciiBytes (rest.take n)], sends, rest.drop n, part, ?_, List.map_drop.symm,
    ?_⟩
  · have more : received (chunks ++ [asciiBytes (rest.take n)]) =
        received chunks ++ rest.take n := by
      rw [received, List.flatMap_append, List.flatMap_singleton, decodeIgnore_asciiBytes ascii]
      rfl
    rw [more, List.append_assoc, List.take_append_drop, stream]
  · rw [cut, same, receive, receive, List.foldl_append]
    rfl

/-- The calls of a connection are of lines sent to it. -/
theorem Receives.handled (receives : Receives env world lines wire state) :
    (state.1.calls.map Backend.Call.msg).Sublist (lines.map messageOf) := by
  obtain ⟨chunks, sends, rest, part, stream, -, rfl⟩ := receives
  have whole : (sends.filter Send.isWhole).map (fun s => Json.obj (message s.ev)) =
      (wholeEvents sends).map messageOf := by
    rw [wholeEvents, List.map_map]
    rfl
  have calls := handled_part (handleXdpMsg env) world stream
  rw [whole] at calls
  exact calls.trans (((List.filter_sublist.map Send.ev).trans part).map messageOf)

theorem history_start (env : Env) (world : World) (wire : List UInt8) :
    History env (.start world) wire [] :=
  ⟨[], [], rfl, .slnil, fun _ _ place => by cases place⟩

theorem History.line (history : History env thread wire lines) (ev : LoaderEvent)
    {wire' : List UInt8} (grows : wire' = wire ∨
      ∃ result : SendResult, wire' = wire ++ asciiBytes (result.taken (eventLine ev))) :
    History env thread wire' (lines ++ [ev]) := by
  obtain ⟨past, recent, rfl, before, current⟩ := history
  refine ⟨past, recent ++ [ev], List.append_assoc .., before, fun client state receiving => ?_⟩
  exact (current client state receiving).line ev grows

/-- The calls of a connection come after those of the earlier ones. -/
theorem History.handled (history : History env thread wire lines) :
    (thread.handled.map Backend.Call.msg).Sublist (lines.map messageOf) := by
  obtain ⟨past, recent, rfl, before, current⟩ := history
  rw [Thread.handled, List.map_append]
  cases place : thread.place with
  | receiving client state =>
      dsimp only
      rw [List.map_append]
      exact before.append (current client state place).handled
  | _ => exact before.trans (List.sublist_append_left _ _)

/-- A connection that is over. -/
theorem History.close (history : History env thread wire lines) {client : ℕ}
    (receiving : thread.place = .receiving client state) {wire' wire'' : List UInt8}
    {state' : Session World × Text}
    (goesOn : ∀ recent, Receives env thread.world recent wire state →
      Receives env thread.world recent wire' state') (seconds : ℕ) :
    History env ((thread.keep state'.1).close client seconds) wire'' lines := by
  obtain ⟨past, recent, rfl, before, current⟩ := history
  refine ⟨past ++ recent, [], (List.append_nil _).symm, ?_, fun _ _ place => by cases place⟩
  show ((thread.calls ++ state'.1.calls).map Backend.Call.msg).Sublist _
  rw [List.map_append, List.map_append]
  exact before.append (goesOn recent (current client state receiving)).handled

/-- A call that brings no bytes and makes no connection. -/
theorem History.call (history : History env thread wire lines) {event : ThreadEvent}
    (noBytes : ∀ chunk, event = .recv (.ok chunk) → chunk = [])
    (noConnection : event ≠ .connect (.ok ())) :
    History env (threadStep (xdpHandler env) thread event) wire lines := by
  have outcome := threadStep_outcome (xdpHandler env) thread event
  generalize threadStep (xdpHandler env) thread event = next at outcome
  cases outcome with
  | stays => exact history
  | sleeps atTop least most => exact history
  | creates atTop free =>
      obtain ⟨past, recent, split, before, -⟩ := history
      exact ⟨past, recent, split, before, fun _ _ place => by cases place⟩
  | connects created accepted => exact absurd accepted noConnection
  | receives receiving arrives content => exact absurd (noBytes _ arrives) content
  | refuses created least most =>
      obtain ⟨past, recent, split, before, -⟩ := history
      exact ⟨past, recent, split, before, fun _ _ place => by cases place⟩
  | fails receiving least most => exact history.close receiving (fun _ receives => receives) _
  | ends receiving => exact history.close receiving (fun _ receives => receives) 0
  | raises receiving arrives content => exact absurd (noBytes _ arrives) content

/-- A new connection gets the lines sent from now on. -/
theorem History.connect (history : History env thread wire lines) {client : ℕ}
    (created : thread.place = .created client) :
    History env (threadStep (xdpHandler env) thread (.connect (.ok ()))) [] lines := by
  have calls : thread.handled = thread.calls := by rw [Thread.handled, created]
  have handled := history.handled
  rw [calls] at handled
  have next : threadStep (xdpHandler env) thread (.connect (.ok ())) =
      { thread with place := .receiving client (⟨thread.world, [], none⟩, []) } := by
    simp only [threadStep, created]
  rw [next]
  refine ⟨lines, [], (List.append_nil _).symm, handled, fun _ _ place => ?_⟩
  cases place
  exact .start env thread.world

/-- Bytes that arrive. -/
theorem History.recv (history : History env thread wire lines) {client : ℕ}
    (receiving : thread.place = .receiving client state) (n : ℕ) (content : wire.take n ≠ []) :
    History env (threadStep (xdpHandler env) thread (.recv (.ok (wire.take n)))) (wire.drop n)
      lines := by
  have goesOn : ∀ recent, Receives env thread.world recent wire state →
      Receives env thread.world recent (wire.drop n)
        (recvChunk (xdpHandler env) state (wire.take n)) := fun _ receives => receives.recv n
  simp only [threadStep, receiving, if_neg content]
  split
  · exact history.close receiving goesOn 3
  · obtain ⟨past, recent, split, before, current⟩ := history
    refine ⟨past, recent, split, before, fun _ _ place => ?_⟩
    cases place
    exact goesOn recent (current client state receiving)

end Stream

/-! ## Every run -/

/-- The invariant of the whole. -/
structure Hub.Holds (env : Env) (world : World) (h : Hub) (lines : List LoaderEvent) : Prop where
  wired : Wired h
  tidy : h.thread.Tidy
  paced : h.thread.Paced
  replayed : h.thread.Replayed (xdpHandler env) world
  history : History env h.thread (h.wire h.conn) lines

/-- A call of the thread that brings no bytes and makes no connection. -/
theorem Hub.Holds.call {env : Env} {world : World} {h : Hub} {lines : List LoaderEvent}
    (holds : h.Holds env world lines) {event : ThreadEvent}
    (noBytes : ∀ chunk, event = .recv (.ok chunk) → chunk = [])
    (noConnection : event ≠ .connect (.ok ())) :
    Hub.Holds env world { h with thread := threadStep (xdpHandler env) h.thread event } lines where
  wired := holds.wired.free (fun _ _ taken => taken) rfl rfl
  tidy := holds.tidy.step _ event
  paced := holds.paced.step event
  replayed := holds.replayed.step event
  history := holds.history.call noBytes noConnection

/-- A line of the loader. -/
theorem Hub.Holds.broadcast {env : Env} {world : World} {h : Hub} {lines : List LoaderEvent}
    (holds : h.Holds env world lines) (ev : LoaderEvent) (send : Fin maxClients → SendResult) :
    (h.broadcast (eventLine ev) send).Holds env world (lines ++ [ev]) := by
  refine ⟨holds.wired.free ?_ rfl rfl, holds.tidy, holds.paced, holds.replayed, ?_⟩
  · intro i c taken
    dsimp only [Hub.broadcast] at taken
    split at taken
    · cases taken
    · exact taken
  · refine holds.history.line ev ?_
    have offered := @wire_broadcast (eventLine ev) send _ _
      (fun i j => holds.wired.distinct i j h.conn) _ (List.nodup_finRange maxClients) h.wire
    rcases offered with same | ⟨i, grows⟩
    · exact Or.inl same
    · exact Or.inr ⟨send i, grows⟩

/-- Anything else. -/
theorem Hub.Holds.silent {env : Env} {world : World} {h : Hub} {lines : List LoaderEvent}
    (holds : h.Holds env world lines) {event : HubEvent} (silent : event.lines = []) :
    (hubStep env h event).Holds env world lines := by
  cases event with
  | broadcastJsonLine ev send => cases silent
  | acceptClient =>
      have same : h.accept.thread = h.thread ∧ h.accept.wire = h.wire ∧ h.accept.conn = h.conn := by
        rw [Hub.accept]
        split
        · exact ⟨rfl, rfl, rfl⟩
        · split
          · exact ⟨rfl, rfl, rfl⟩
          · exact ⟨rfl, rfl, rfl⟩
      obtain ⟨thread, wire, conn⟩ := same
      rw [hubStep]
      refine ⟨holds.wired.accept, ?_, ?_, ?_, ?_⟩
      · rw [thread]
        exact holds.tidy
      · rw [thread]
        exact holds.paced
      · rw [thread]
        exact holds.replayed
      · rw [thread, wire, conn]
        exact holds.history
  | otherConnects =>
      exact ⟨holds.wired.made rfl rfl rfl, holds.tidy, holds.paced, holds.replayed, holds.history⟩
  | restart =>
      refine ⟨⟨?_, ?_, ?_, ?_, List.nodup_nil⟩, holds.tidy, holds.paced, holds.replayed,
        holds.history⟩
      · intro i c taken
        cases taken
      · intro c member
        cases member
      · intro i j c taken
        cases taken
      · intro i c taken
        cases taken
  | pathMissing =>
      exact holds.call (fun _ same => by cases same) (fun same => by cases same)
  | socket result =>
      exact holds.call (fun _ same => by cases same) (fun same => by cases same)
  | connect result =>
      cases result with
      | error e => exact holds.call (fun _ same => by cases same) (fun same => by cases same)
      | ok accepted =>
          cases place : h.thread.place with
          | created client =>
              simp only [hubStep, place]
              refine ⟨holds.wired.made rfl rfl rfl, holds.tidy.step _ _, holds.paced.step _,
                holds.replayed.step _, ?_⟩
              dsimp only [Hub.connect]
              rw [Function.update_self]
              exact holds.history.connect place
          | _ =>
              simp only [hubStep, place]
              exact holds
  | recv last =>
      cases place : h.thread.place with
      | receiving client state =>
          simp only [hubStep, place]
          split
          · exact holds
          · rename_i content
            refine ⟨holds.wired.free (fun _ _ taken => taken) rfl rfl, holds.tidy.step _ _,
              holds.paced.step _, holds.replayed.step _, ?_⟩
            dsimp only
            rw [Function.update_self]
            exact holds.history.recv place _ content
      | _ =>
          simp only [hubStep, place]
          exact holds
  | recvEnds =>
      refine holds.call (fun chunk same => ?_) (fun same => by cases same)
      cases same
      rfl
  | recvRaises e =>
      exact holds.call (fun _ same => by cases same) (fun same => by cases same)

/-- **Step lemma.** -/
theorem Hub.Holds.step {env : Env} {world : World} {h : Hub} {lines : List LoaderEvent}
    (holds : h.Holds env world lines) (event : HubEvent) :
    (hubStep env h event).Holds env world (lines ++ event.lines) := by
  cases event with
  | broadcastJsonLine ev send => exact holds.broadcast ev send
  | _ =>
      show Hub.Holds _ _ _ (lines ++ [])
      rw [List.append_nil]
      exact holds.silent rfl

/-- **Run lemma.** -/
theorem Hub.holds_run (env : Env) (world : World) (events : List HubEvent) :
    Hub.Holds env world (exec (hubStep env) (.start world) events)
      (events.flatMap HubEvent.lines) := by
  have start : Hub.Holds env world (.start world) [] :=
    ⟨wired_start world, ⟨.nil, rfl⟩, ⟨Nat.le_refl 0, Nat.le_refl 0⟩,
      ⟨rfl, fun _ _ place => by cases place⟩, history_start env world _⟩
  induction events using List.reverseRecOn with
  | nil => exact start
  | append_singleton earlier event ih =>
      rw [exec_append, List.flatMap_append, List.flatMap_singleton]
      exact ih.step event

/-- What a run keeps of the lines sent, `lines`. At most one socket is open, and
none between two turns. The messages handled over all connections are those of
lines sent, in order and each at most once, and the tables are what handling
them one after the other makes of the first ones; when nothing fails, the rows of
some of the lines, in order. Every turn sleeps unless its connection has ended. -/
structure AtMostOnce (env : Env) (world : World) (thread : Thread World)
    (lines : List LoaderEvent) : Prop where
  closed : ∀ client, thread.sockets.count (.opened client) =
    thread.sockets.count (.closed client) + if client ∈ thread.place.sockets then 1 else 0
  handled : (thread.handled.map Backend.Call.msg).Sublist (lines.map messageOf)
  tables : thread.tables = replay (xdpHandler env) world thread.handled
  stored : ∃ stored : List LoaderEvent, stored.Sublist lines ∧
    thread.handled.map Backend.Call.msg = stored.map messageOf ∧
      (Quiet env world stored → Stored env world stored thread.tables)
  paced : 2 * thread.turns ≤ thread.slept + 2 * thread.endings

/-- Replayed messages of lines are stored. -/
theorem stored_replay {env : Env} {before world : World} {events more : List LoaderEvent}
    (stored : Stored env before events world) (quiet : Quiet env before (events ++ more))
    {calls : List Backend.Call} (same : calls.map Backend.Call.msg = more.map messageOf) :
    Stored env before (events ++ more) (replay (xdpHandler env) world calls) := by
  induction more generalizing events world calls with
  | nil =>
      rw [List.map_nil, List.map_eq_nil_iff] at same
      rw [same, List.append_nil]
      exact stored
  | cons ev rest ih =>
      obtain ⟨call, later, rfl, first, others⟩ := List.map_eq_cons_iff.mp same
      have here : Stored env before (events ++ [ev]) (handleXdpMsg env world call.msg).1 := by
        rw [first]
        rw [List.append_cons] at quiet
        exact (stored.step quiet.first).2
      rw [List.append_cons] at quiet ⊢
      exact ih here quiet others

/-- **At most once.** Whatever the loader sends and its connections accept,
however often the connection of the backend ends, is refused or raises, and
whatever the handler raises. -/
theorem handled_at_most_once (env : Env) (world : World) (events : List HubEvent) :
    AtMostOnce env world (exec (hubStep env) (.start world) events).thread
      (events.flatMap HubEvent.lines) := by
  have holds := Hub.holds_run env world events
  have tables := holds.replayed.tables
  have handled := holds.history.handled
  refine ⟨fun client => ?_, handled, tables, ?_, holds.paced.least⟩
  · rw [holds.tidy.sound.balance client, holds.tidy.used]
  · obtain ⟨stored, part, same⟩ := List.sublist_map_iff.mp handled
    refine ⟨stored, part, same, fun quiet => ?_⟩
    rw [tables]
    exact stored_replay (stored_nil env world) quiet same

end EbpfNids.Wire
