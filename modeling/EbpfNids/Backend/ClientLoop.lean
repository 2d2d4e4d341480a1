import EbpfNids.Backend.SocketLoop
import EbpfNids.Library.Ledger
import EbpfNids.Library.Runs

/-!
# The thread that connects to the loader

`xdp_socket_client_loop` for ever makes a socket, connects it and receives until
the connection ends or something raises. Its buffer lives as long as the
connection. Whatever happens, `finally` closes the socket that the turn has made,
and the turns after a failure begin after a sleep.

Every step keeps that each socket has been closed as often as it was made, but
for the one in use (`Thread.Tidy.step`), that the state which the handler works on
is what the calls of all connections have made of it (`Thread.Replayed.step`), and
that the sleeps keep pace with the turns (`Thread.Paced.step`).
-/

set_option autoImplicit false

namespace EbpfNids.Backend

open Library Library.Runs Library.Ledger

/-- Why a call on a socket raises. -/
inductive SocketError where
  | permissionError
  | connectionRefusedError
  | other
deriving DecidableEq, Repr

/-- The seconds that its `except` clause sleeps. -/
def SocketError.sleep : SocketError → ℕ
  | .permissionError => 3
  | .connectionRefusedError => 2
  | .other => 3

/-- Where the thread is: at the top of its loop, about to connect a socket, or
receiving, with the session of the connection and its buffer. -/
inductive Place (S : Type) where
  | top
  | created (client : ℕ)
  | receiving (client : ℕ) (state : Session S × Text)

/-- The thread, with the state and the calls that earlier connections have left,
the sockets made and closed, and the seconds slept. `turns` counts the turns of
its loop that have ended, `endings` those that have ended with the connection. -/
structure Thread (S : Type) where
  place : Place S
  world : S
  calls : List Call
  sockets : List (Entry ℕ)
  slept : ℕ
  turns : ℕ
  endings : ℕ

/-- A call, with what it gives: a path that does not exist, a descriptor, a
connection, bytes (none at the end), or what it raises. -/
inductive ThreadEvent where
  | pathMissing
  | socket (result : Except SocketError ℕ)
  | connect (result : Except SocketError Unit)
  | recv (result : Except SocketError (List UInt8))

section Step

variable {S : Type} (handler : Handler S)

def Thread.start (world : S) : Thread S := ⟨.top, world, [], [], 0, 0, 0⟩

/-- `finally`, after the sleep of an `except` clause. -/
def Thread.close (t : Thread S) (client seconds : ℕ) : Thread S :=
  { t with
    place := .top
    sockets := t.sockets ++ [.closed client]
    slept := t.slept + seconds
    turns := t.turns + 1 }

/-- What a connection leaves when it is over. -/
def Thread.keep (t : Thread S) (session : Session S) : Thread S :=
  { t with world := session.world, calls := t.calls ++ session.calls }

/-- The numbers of open sockets are not given out. -/
def threadStep (t : Thread S) (event : ThreadEvent) : Thread S :=
  match event, t.place with
  | .pathMissing, .top => { t with slept := t.slept + 2, turns := t.turns + 1 }
  | .socket (.error e), .top => { t with slept := t.slept + e.sleep, turns := t.turns + 1 }
  | .socket (.ok client), .top =>
      if client ∈ held t.sockets then t
      else { t with place := .created client, sockets := t.sockets ++ [.opened client] }
  | .connect (.error e), .created client => t.close client e.sleep
  | .connect (.ok _), .created client =>
      { t with place := .receiving client (⟨t.world, [], none⟩, []) }
  | .recv (.error e), .receiving client state => (t.keep state.1).close client e.sleep
  | .recv (.ok chunk), .receiving client state =>
      if chunk = [] then { (t.keep state.1).close client 0 with endings := t.endings + 1 }
      else
        let state := recvChunk handler state chunk
        if state.1.raised.isSome then (t.keep state.1).close client 3
        else { t with place := .receiving client state }
  | _, _ => t

/-- The state that the handler works on. -/
def Thread.tables (t : Thread S) : S :=
  match t.place with
  | .receiving _ state => state.1.world
  | _ => t.world

/-- The calls of the handler, over all connections. -/
def Thread.handled (t : Thread S) : List Call :=
  match t.place with
  | .receiving _ state => t.calls ++ state.1.calls
  | _ => t.calls

/-- The socket that is in use. -/
def Place.sockets : Place S → Finset ℕ
  | .top => ∅
  | .created client => {client}
  | .receiving client _ => {client}

/-- What a step can do: nothing, sleep at the top, make a socket, connect it,
receive, or close it, with what the connection has left if there was one. -/
inductive Outcome (t : Thread S) (event : ThreadEvent) : Thread S → Prop
  | stays : Outcome t event t
  | sleeps {seconds : ℕ} (atTop : t.place = .top) (least : 2 ≤ seconds) (most : seconds ≤ 3) :
      Outcome t event { t with slept := t.slept + seconds, turns := t.turns + 1 }
  | creates {client : ℕ} (atTop : t.place = .top) (free : client ∉ held t.sockets) :
      Outcome t event
        { t with place := .created client, sockets := t.sockets ++ [.opened client] }
  | connects {client : ℕ} (created : t.place = .created client)
      (accepted : event = .connect (.ok ())) :
      Outcome t event { t with place := .receiving client (⟨t.world, [], none⟩, []) }
  | receives {client : ℕ} {state : Session S × Text} {chunk : List UInt8}
      (receiving : t.place = .receiving client state) (arrives : event = .recv (.ok chunk))
      (content : chunk ≠ []) :
      Outcome t event { t with place := .receiving client (recvChunk handler state chunk) }
  | refuses {client seconds : ℕ} (created : t.place = .created client) (least : 2 ≤ seconds)
      (most : seconds ≤ 3) : Outcome t event (t.close client seconds)
  | fails {client seconds : ℕ} {state : Session S × Text}
      (receiving : t.place = .receiving client state) (least : 2 ≤ seconds)
      (most : seconds ≤ 3) : Outcome t event ((t.keep state.1).close client seconds)
  | ends {client : ℕ} {state : Session S × Text} (receiving : t.place = .receiving client state) :
      Outcome t event { (t.keep state.1).close client 0 with endings := t.endings + 1 }
  | raises {client : ℕ} {state : Session S × Text} {chunk : List UInt8}
      (receiving : t.place = .receiving client state) (arrives : event = .recv (.ok chunk))
      (content : chunk ≠ []) :
      Outcome t event ((t.keep (recvChunk handler state chunk).1).close client 3)

theorem SocketError.sleep_bounds (e : SocketError) : 2 ≤ e.sleep ∧ e.sleep ≤ 3 := by
  cases e with
  | permissionError => decide
  | connectionRefusedError => decide
  | other => decide

/-- **Step lemma.** -/
theorem threadStep_outcome (t : Thread S) (event : ThreadEvent) :
    Outcome handler t event (threadStep handler t event) := by
  obtain ⟨place, world, calls, sockets, slept, turns, endings⟩ := t
  cases event with
  | pathMissing =>
      cases place with
      | top => exact .sleeps rfl (by decide) (by decide)
      | _ => exact .stays
  | socket result =>
      cases result with
      | error e =>
          cases place with
          | top => exact .sleeps rfl e.sleep_bounds.1 e.sleep_bounds.2
          | _ => exact .stays
      | ok client =>
          cases place with
          | top =>
              unfold threadStep
              dsimp only
              split
              · exact .stays
              · rename_i free
                exact .creates rfl free
          | _ => exact .stays
  | connect result =>
      cases result with
      | error e =>
          cases place with
          | created client => exact .refuses rfl e.sleep_bounds.1 e.sleep_bounds.2
          | _ => exact .stays
      | ok accepted =>
          cases place with
          | created client => exact .connects rfl rfl
          | _ => exact .stays
  | recv result =>
      cases result with
      | error e =>
          cases place with
          | receiving client state => exact .fails rfl e.sleep_bounds.1 e.sleep_bounds.2
          | _ => exact .stays
      | ok chunk =>
          cases place with
          | receiving client state =>
              unfold threadStep
              dsimp only
              split
              · exact .ends rfl
              · rename_i content
                split
                · exact .raises rfl rfl content
                · exact .receives rfl rfl content
          | _ => exact .stays

/-! ## Sockets -/

/-- The sockets open are the one in use, and none is made while it is open or
closed while it is not. -/
structure Thread.Tidy (t : Thread S) : Prop where
  sound : Sound t.sockets
  used : held t.sockets = t.place.sockets

theorem Thread.Tidy.close {t : Thread S} (tidy : t.Tidy) {client : ℕ}
    (used : t.place.sockets = {client}) (seconds : ℕ) : (t.close client seconds).Tidy := by
  have there : client ∈ held t.sockets := by
    rw [tidy.used, used]
    exact Finset.mem_singleton_self client
  refine ⟨.closed tidy.sound there, ?_⟩
  rw [Thread.close, held_closed, tidy.used, used, Finset.erase_singleton]
  rfl

theorem Thread.Tidy.step {t : Thread S} (tidy : t.Tidy) (event : ThreadEvent) :
    (threadStep handler t event).Tidy := by
  have kept : ∀ session, (t.keep session).Tidy := fun _ => ⟨tidy.sound, tidy.used⟩
  have outcome := threadStep_outcome handler t event
  generalize threadStep handler t event = next at outcome
  cases outcome with
  | stays => exact tidy
  | sleeps atTop least most => exact ⟨tidy.sound, tidy.used⟩
  | creates atTop free =>
      refine ⟨.opened tidy.sound free, ?_⟩
      rw [held_opened, tidy.used, atTop]
      rfl
  | connects created accepted => exact ⟨tidy.sound, by rw [tidy.used, created]; rfl⟩
  | receives receiving arrives content => exact ⟨tidy.sound, by rw [tidy.used, receiving]; rfl⟩
  | refuses created least most => exact tidy.close (by rw [created]; rfl) _
  | fails receiving least most =>
      exact (kept _).close (by rw [Thread.keep, receiving]; rfl) _
  | @ends client state receiving =>
      have closed := (kept state.1).close (by rw [Thread.keep, receiving]; rfl) 0
      exact ⟨closed.sound, closed.used⟩
  | raises receiving arrives content =>
      exact (kept _).close (by rw [Thread.keep, receiving]; rfl) _

/-! ## The state that the handler works on -/

/-- What some calls make of a state, one after the other. -/
def replay (world : S) (calls : List Call) : S :=
  calls.foldl (fun world call => (handler.handle world call.msg).1) world

theorem replay_append (world : S) (first second : List Call) :
    replay handler world (first ++ second) =
      replay handler (replay handler world first) second := List.foldl_append ..

/-- A line changes the state by its call only. -/
theorem world_handleLine {start : S} {session : Session S}
    (replayed : session.world = replay handler start session.calls) (line : Text) :
    (handleLine handler session line).world =
      replay handler start (handleLine handler session line).calls := by
  rw [handleLine]
  dsimp only
  split
  · exact replayed
  · split
    · exact replayed
    · rw [replay_append, ← replayed]
      rfl

theorem world_handleLines {start : S} {session : Session S}
    (replayed : session.world = replay handler start session.calls) (lines : List Text) :
    (handleLines handler session lines).world =
      replay handler start (handleLines handler session lines).calls := by
  induction lines generalizing session with
  | nil => exact replayed
  | cons line rest ih =>
      rw [handleLines, List.foldl_cons, ← handleLines]
      apply ih
      split
      · exact replayed
      · exact world_handleLine handler replayed line

theorem world_recvChunk {start : S} {state : Session S × Text}
    (replayed : state.1.world = replay handler start state.1.calls) (chunk : List UInt8) :
    (recvChunk handler state chunk).1.world =
      replay handler start (recvChunk handler state chunk).1.calls := by
  rw [recvChunk]
  split
  · exact replayed
  · rename_i going
    dsimp only
    rw [(whileLines_eq handler (Option.not_isSome_iff_eq_none.mp going) (Nat.le_refl _)).1]
    exact world_handleLines handler replayed _

/-- The state is what the calls have made of the first one. -/
structure Thread.Replayed (start : S) (t : Thread S) : Prop where
  world : t.world = replay handler start t.calls
  session : ∀ client state, t.place = .receiving client state →
    state.1.world = replay handler t.world state.1.calls

variable {handler}

theorem Thread.Replayed.tables {start : S} {t : Thread S} (replayed : t.Replayed handler start) :
    t.tables = replay handler start t.handled := by
  rw [Thread.tables, Thread.handled]
  cases place : t.place with
  | receiving client state =>
      dsimp only
      rw [replay_append, ← replayed.world, replayed.session client state place]
  | _ => exact replayed.world

/-- A connection that is over, with what its session has made of the state. -/
theorem Thread.Replayed.close {start : S} {t : Thread S} (replayed : t.Replayed handler start)
    {session : Session S} (own : session.world = replay handler t.world session.calls)
    (client seconds : ℕ) : ((t.keep session).close client seconds).Replayed handler start where
  world := by
    show session.world = replay handler start (t.calls ++ session.calls)
    rw [replay_append, ← replayed.world, own]
  session _ _ place := by cases place

theorem Thread.Replayed.step {start : S} {t : Thread S} (replayed : t.Replayed handler start)
    (event : ThreadEvent) : (threadStep handler t event).Replayed handler start := by
  have outcome := threadStep_outcome handler t event
  generalize threadStep handler t event = next at outcome
  cases outcome with
  | stays => exact replayed
  | sleeps atTop least most => exact ⟨replayed.world, replayed.session⟩
  | creates atTop free => exact ⟨replayed.world, fun _ _ place => by cases place⟩
  | connects created accepted =>
      refine ⟨replayed.world, fun _ _ place => ?_⟩
      cases place
      rfl
  | receives receiving arrives content =>
      refine ⟨replayed.world, fun _ _ place => ?_⟩
      cases place
      exact world_recvChunk handler (replayed.session _ _ receiving) _
  | refuses created least most => exact ⟨replayed.world, fun _ _ place => by cases place⟩
  | fails receiving least most => exact replayed.close (replayed.session _ _ receiving) _ _
  | @ends client state receiving =>
      have closed := replayed.close (replayed.session _ _ receiving) client 0
      exact ⟨closed.world, closed.session⟩
  | raises receiving arrives content =>
      exact replayed.close (world_recvChunk handler (replayed.session _ _ receiving) _) _ _

/-! ## Sleeps -/

/-- A turn that does not end with its connection sleeps two seconds or three. -/
structure Thread.Paced (t : Thread S) : Prop where
  least : 2 * t.turns ≤ t.slept + 2 * t.endings
  most : t.slept + 3 * t.endings ≤ 3 * t.turns

theorem Thread.Paced.step {t : Thread S} (paced : t.Paced) (event : ThreadEvent) :
    (threadStep handler t event).Paced := by
  obtain ⟨least, most⟩ := paced
  have outcome := threadStep_outcome handler t event
  generalize threadStep handler t event = next at outcome
  cases outcome with
  | stays => exact ⟨least, most⟩
  | sleeps atTop enough few => constructor <;> dsimp only <;> omega
  | creates atTop free => exact ⟨least, most⟩
  | connects created accepted => exact ⟨least, most⟩
  | receives receiving arrives content => exact ⟨least, most⟩
  | refuses created enough few => constructor <;> dsimp only [Thread.close] <;> omega
  | fails receiving enough few => constructor <;> dsimp only [Thread.close, Thread.keep] <;> omega
  | ends receiving => constructor <;> dsimp only [Thread.close, Thread.keep] <;> omega
  | raises receiving arrives content =>
      constructor <;> dsimp only [Thread.close, Thread.keep] <;> omega

end Step

end EbpfNids.Backend
