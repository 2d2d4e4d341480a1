import EbpfNids.Library.Runs
import Mathlib.Data.List.Chain
import Mathlib.Tactic.Ring

/-!
# The web socket of the dashboard

`connectWebSocket` makes a socket, and `scheduleReconnect` sets a timer that will
call it again in five seconds, unless one is set. A socket opens or fails, and
closes in the end; time passes in between, and a timer runs when it is due or at
most `late` milliseconds later.

Once the page has been loaded there is always either one socket that is not
closed or one timer: the page never has two connections and never gives up. It
tries at most once in five seconds, and within five seconds of a loss
(`one_connection`).
-/

set_option autoImplicit false

namespace EbpfNids.Dashboard

open Library.Runs

/-! ## The connection of a page -/

inductive ReadyState where
  | connecting
  | opened
  | closing
  | closed
deriving DecidableEq, Repr

/-- A call of `setTimeout` that has not run. -/
structure Timeout where
  id : ℕ
  due : ℕ
deriving DecidableEq, Repr

/-- The sockets that were made, which of them `ws` is, the timers, the one in
`wsReconnectTimer`, what the status shows, the time, and when `new WebSocket` was
called. -/
structure Connection where
  loaded : Bool
  sockets : List ReadyState
  ws : Option ℕ
  timeouts : List Timeout
  nextId : ℕ
  wsReconnectTimer : Option ℕ
  connected : Bool
  now : ℕ
  attempts : List ℕ
deriving DecidableEq, Repr

namespace Connection

def start : Connection := ⟨false, [], none, [], 1, none, false, 0, []⟩

/-- `ws && ws.readyState === WebSocket.OPEN` -/
def isOpen (c : Connection) : Bool :=
  c.ws.any fun k => c.sockets[k]? == some .opened

def updateWsStatus (connected : Bool) (c : Connection) : Connection :=
  { c with connected := connected }

def scheduleReconnect (c : Connection) : Connection :=
  match c.wsReconnectTimer with
  | some _ => c
  | none =>
      { c with
        timeouts := c.timeouts ++ [⟨c.nextId, c.now + 5000⟩]
        nextId := c.nextId + 1
        wsReconnectTimer := some c.nextId }

/-- `connectWebSocket`, where `new WebSocket` returns a socket or throws. -/
def connectWebSocket (returns : Bool) (c : Connection) : Connection :=
  if c.isOpen then c
  else
    let c := { c with attempts := c.attempts ++ [c.now] }
    if returns then
      { c with sockets := c.sockets ++ [.connecting], ws := some c.sockets.length }
    else (c.updateWsStatus false).scheduleReconnect

def setState (k : ℕ) (state : ReadyState) (c : Connection) : Connection :=
  { c with sockets := c.sockets.set k state }

/-- `ws.onopen` -/
def onopen (c : Connection) : Connection :=
  let c := c.updateWsStatus true
  match c.wsReconnectTimer with
  | none => c
  | some id =>
      { c with timeouts := c.timeouts.filter (·.id ≠ id), wsReconnectTimer := none }

/-- `ws.onclose` -/
def onclose (c : Connection) : Connection := (c.updateWsStatus false).scheduleReconnect

end Connection

/-- The map has been loaded or not, a socket changes its state, a timer runs, or
time passes. -/
inductive ConnectionEvent where
  | load (returns : Bool)
  | opens (k : ℕ)
  | closes (k : ℕ)
  | hasClosed (k : ℕ)
  | timeout (id : ℕ) (returns : Bool)
  | passes (milliseconds : ℕ)
deriving DecidableEq, Repr

open Connection

/-- What cannot happen changes nothing: a socket opens only while it connects, and
closes once; a timer runs when it is due, and time does not pass it by more than
`late`. -/
def connectionStep (late : ℕ) (c : Connection) : ConnectionEvent → Connection
  | .load returns =>
      if c.loaded then c else connectWebSocket returns { c with loaded := true }
  | .opens k =>
      if c.sockets[k]? = some .connecting then (c.setState k .opened).onopen else c
  | .closes k =>
      if c.sockets[k]? = some .opened then c.setState k .closing else c
  | .hasClosed k =>
      match c.sockets[k]? with
      | none | some .closed => c
      | some _ => (c.setState k .closed).onclose
  | .timeout id returns =>
      match c.timeouts.find? (·.id = id) with
      | none => c
      | some timeout =>
          if timeout.due ≤ c.now then
            connectWebSocket returns
              { c with timeouts := c.timeouts.filter (·.id ≠ id), wsReconnectTimer := none }
          else c
  | .passes d =>
      if c.timeouts.all fun timeout => c.now + d ≤ timeout.due + late then
        { c with now := c.now + d }
      else c

/-! ## What every run keeps -/

/-- When the next attempt may come: the earlier ones are five seconds apart from
each other and from it. -/
structure Spaced (attempts : List ℕ) (next : ℕ) : Prop where
  chain : attempts.IsChain (fun a b => a + 5000 ≤ b)
  last : ∀ a ∈ attempts.getLast?, a + 5000 ≤ next

/-- Nothing has happened. -/
structure Connection.Unloaded (c : Connection) : Prop where
  loaded : c.loaded = false
  sockets : c.sockets = []
  timeouts : c.timeouts = []
  timer : c.wsReconnectTimer = none
  status : c.connected = false
  attempts : c.attempts = []

/-- There is one socket that is not closed, and no timer. -/
structure Connection.Live (c : Connection) (earlier : List ReadyState) (state : ReadyState) :
    Prop where
  loaded : c.loaded = true
  sockets : c.sockets = earlier ++ [state]
  gone : ∀ s ∈ earlier, s = .closed
  live : state ≠ .closed
  ws : c.ws = some earlier.length
  timeouts : c.timeouts = []
  timer : c.wsReconnectTimer = none
  status : c.connected = true ↔ state = .opened ∨ state = .closing
  spaced : Spaced c.attempts (c.now + 5000)

/-- There is one timer, and all sockets are closed. -/
structure Connection.Waiting (late : ℕ) (c : Connection) (timeout : Timeout) : Prop where
  loaded : c.loaded = true
  gone : ∀ s ∈ c.sockets, s = .closed
  timeouts : c.timeouts = [timeout]
  timer : c.wsReconnectTimer = some timeout.id
  status : c.connected = false
  soon : timeout.due ≤ c.now + 5000
  inTime : c.now ≤ timeout.due + late
  spaced : Spaced c.attempts timeout.due

/-- The invariant. -/
inductive Connection.Holds (late : ℕ) (c : Connection) : Prop where
  | unloaded (fresh : c.Unloaded)
  | alive (earlier : List ReadyState) (state : ReadyState) (live : c.Live earlier state)
  | waiting (timeout : Timeout) (waits : c.Waiting late timeout)

theorem Spaced.mono {attempts : List ℕ} {next later : ℕ} (spaced : Spaced attempts next)
    (after : next ≤ later) : Spaced attempts later where
  chain := spaced.chain
  last a member := (spaced.last a member).trans after

/-- An attempt when it may come. -/
theorem Spaced.attempt {attempts : List ℕ} {next now : ℕ} (spaced : Spaced attempts next)
    (ready : next ≤ now) : Spaced (attempts ++ [now]) (now + 5000) where
  chain := by
    rw [List.isChain_append]
    refine ⟨spaced.chain, List.isChain_singleton _, ?_⟩
    intro a last b first
    rw [List.head?_cons, Option.mem_some_iff] at first
    subst first
    exact (spaced.last a last).trans ready
  last a member := by
    rw [List.getLast?_append, List.getLast?_singleton, Option.some_or, Option.mem_some_iff]
      at member
    rw [member]

theorem spaced_nil (next : ℕ) : Spaced [] next where
  chain := List.IsChain.nil
  last _ impossible := by cases impossible

/-- The only socket of a page that is not closed. -/
theorem live_eq {earlier : List ReadyState} {state s : ReadyState} {k : ℕ}
    (gone : ∀ s ∈ earlier, s = .closed) (there : (earlier ++ [state])[k]? = some s)
    (live : s ≠ .closed) : k = earlier.length ∧ s = state := by
  rcases Nat.lt_or_ge k earlier.length with older | newest
  · rw [List.getElem?_append_left older] at there
    exact absurd (gone s (List.mem_of_getElem? there)) live
  · rw [List.getElem?_append_right newest] at there
    obtain ⟨bound, same⟩ := List.getElem?_eq_some_iff.mp there
    rw [List.length_singleton] at bound
    refine ⟨by omega, ?_⟩
    rw [List.getElem_singleton] at same
    exact same.symm

theorem set_last {earlier : List ReadyState} (state new : ReadyState) :
    (earlier ++ [state]).set earlier.length new = earlier ++ [new] := by
  rw [List.set_append_right _ _ (Nat.le_refl _), Nat.sub_self, List.set_cons_zero]

namespace Connection

variable {late : ℕ} {c : Connection}

theorem scheduleReconnect_none (timer : c.wsReconnectTimer = none) :
    c.scheduleReconnect = { c with
      timeouts := c.timeouts ++ [⟨c.nextId, c.now + 5000⟩]
      nextId := c.nextId + 1
      wsReconnectTimer := some c.nextId } := by
  rw [scheduleReconnect, timer]

/-- A page without a socket and without a timer sets one. -/
theorem holds_schedule (loaded : c.loaded = true) (gone : ∀ s ∈ c.sockets, s = .closed)
    (timeouts : c.timeouts = []) (timer : c.wsReconnectTimer = none)
    (status : c.connected = false) (spaced : Spaced c.attempts (c.now + 5000)) :
    c.scheduleReconnect.Holds late := by
  rw [scheduleReconnect_none timer]
  refine .waiting ⟨c.nextId, c.now + 5000⟩
    ⟨loaded, gone, ?_, rfl, status, Nat.le_refl _, ?_, spaced⟩
  · dsimp only
    rw [timeouts]
    rfl
  · dsimp only
    omega

theorem isOpen_eq_false (gone : ∀ s ∈ c.sockets, s = .closed) : c.isOpen = false := by
  rw [isOpen]
  cases c.ws with
  | none => rfl
  | some k =>
      refine beq_eq_false_iff_ne.mpr fun there => ?_
      cases gone _ (List.mem_of_getElem? there)

/-- It tries to connect. -/
theorem holds_connect (returns : Bool) (loaded : c.loaded = true)
    (gone : ∀ s ∈ c.sockets, s = .closed) (timeouts : c.timeouts = [])
    (timer : c.wsReconnectTimer = none) (status : c.connected = false)
    (spaced : Spaced c.attempts c.now) : (c.connectWebSocket returns).Holds late := by
  have down := isOpen_eq_false gone
  have again := spaced.attempt (Nat.le_refl c.now)
  rw [connectWebSocket, if_neg (by rw [down]; decide)]
  cases returns with
  | true =>
      exact .alive c.sockets .connecting
        ⟨loaded, rfl, gone, by decide, rfl, timeouts, timer, by simp [status], again⟩
  | false => exact holds_schedule loaded gone timeouts timer rfl again

/-- Only a live socket can change its state. -/
theorem Holds.live_of_socket (holds : c.Holds late) {k : ℕ} {state : ReadyState}
    (there : c.sockets[k]? = some state) (live : state ≠ .closed) :
    ∃ earlier, k = earlier.length ∧ c.Live earlier state := by
  cases holds with
  | unloaded fresh =>
      rw [fresh.sockets] at there
      cases there
  | alive earlier state' alive =>
      rw [alive.sockets] at there
      obtain ⟨rfl, rfl⟩ := live_eq alive.gone there live
      exact ⟨earlier, rfl, alive⟩
  | waiting timeout waits => exact absurd (waits.gone _ (List.mem_of_getElem? there)) live

/-- Only the timer that is waited for can run. -/
theorem Holds.waiting_of_timeout (holds : c.Holds late) {timeout : Timeout}
    (member : timeout ∈ c.timeouts) : c.Waiting late timeout := by
  cases holds with
  | unloaded fresh =>
      rw [fresh.timeouts] at member
      cases member
  | alive earlier state alive =>
      rw [alive.timeouts] at member
      cases member
  | waiting timeout' waits =>
      rw [waits.timeouts, List.mem_singleton] at member
      rw [member]
      exact waits

/-- **Step lemma.** -/
theorem Holds.step (holds : c.Holds late) (event : ConnectionEvent) :
    (connectionStep late c event).Holds late := by
  cases event with
  | load returns =>
      rw [connectionStep]
      split
      · exact holds
      · rename_i notLoaded
        cases holds with
        | unloaded fresh =>
            refine holds_connect returns rfl ?_ fresh.timeouts fresh.timer fresh.status ?_
            · intro s member
              rw [fresh.sockets] at member
              cases member
            · rw [fresh.attempts]
              exact spaced_nil _
        | alive earlier state alive => exact absurd alive.loaded notLoaded
        | waiting timeout waits => exact absurd waits.loaded notLoaded
  | opens k =>
      rw [connectionStep]
      split
      · rename_i there
        obtain ⟨earlier, rfl, alive⟩ := holds.live_of_socket there (by decide)
        have opened : (c.setState earlier.length .opened).onopen =
            (c.setState earlier.length .opened).updateWsStatus true := by
          simp only [onopen, updateWsStatus, setState, alive.timer]
        rw [opened]
        refine .alive earlier .opened { alive with
          sockets := ?_, live := by decide, status := by simp [updateWsStatus] }
        rw [updateWsStatus, setState, alive.sockets, set_last]
      · exact holds
  | closes k =>
      rw [connectionStep]
      split
      · rename_i there
        obtain ⟨earlier, rfl, alive⟩ := holds.live_of_socket there (by decide)
        have shown : c.connected = true := alive.status.mpr (Or.inl rfl)
        refine .alive earlier .closing { alive with
          sockets := ?_, live := by decide, status := by simp [setState, shown] }
        rw [setState, alive.sockets, set_last]
      · exact holds
  | hasClosed k =>
      rw [connectionStep]
      split
      · exact holds
      · exact holds
      · rename_i state live there
        obtain ⟨earlier, rfl, alive⟩ := holds.live_of_socket there fun closed => live closed
        refine holds_schedule alive.loaded ?_ alive.timeouts alive.timer rfl alive.spaced
        intro s member
        rw [updateWsStatus, setState, alive.sockets, set_last] at member
        rcases List.mem_append.mp member with older | newest
        · exact alive.gone s older
        · exact List.mem_singleton.mp newest
  | timeout id returns =>
      rw [connectionStep]
      split
      · exact holds
      · rename_i timeout found
        split
        · rename_i due
          have waits := holds.waiting_of_timeout (List.mem_of_find?_eq_some found)
          have own : timeout.id = id := by simpa using List.find?_some found
          refine holds_connect returns waits.loaded waits.gone ?_ rfl waits.status
            (waits.spaced.mono due)
          dsimp only
          rw [waits.timeouts]
          simp [own]
        · exact holds
  | passes d =>
      rw [connectionStep]
      split
      · rename_i punctual
        cases holds with
        | unloaded fresh =>
            exact .unloaded ⟨fresh.loaded, fresh.sockets, fresh.timeouts, fresh.timer,
              fresh.status, fresh.attempts⟩
        | alive earlier state alive =>
            refine .alive earlier state { alive with spaced := alive.spaced.mono ?_ }
            dsimp only
            omega
        | waiting timeout waits =>
            refine .waiting timeout { waits with soon := ?_, inTime := ?_ }
            · have := waits.soon
              dsimp only
              omega
            · rw [waits.timeouts] at punctual
              exact of_decide_eq_true (List.all_eq_true.mp punctual timeout
                (List.mem_singleton_self timeout))
      · exact holds

theorem Holds.spaced (holds : c.Holds late) : Spaced c.attempts (c.now + 5000) := by
  cases holds with
  | unloaded fresh =>
      rw [fresh.attempts]
      exact spaced_nil _
  | alive earlier state alive => exact alive.spaced
  | waiting timeout waits => exact waits.spaced.mono waits.soon

/-- The status shows the state of the sockets. -/
theorem Holds.status (holds : c.Holds late) :
    c.connected = true ↔ .opened ∈ c.sockets ∨ .closing ∈ c.sockets := by
  cases holds with
  | unloaded fresh => simp [fresh.status, fresh.sockets]
  | alive earlier state alive =>
      have others : ∀ s ≠ .closed, s ∈ earlier ++ [state] ↔ state = s := by
        intro s live
        rw [List.mem_append, List.mem_singleton]
        constructor
        · rintro (older | same)
          · exact absurd (alive.gone s older) live
          · exact same.symm
        · exact fun same => Or.inr same.symm
      rw [alive.status, alive.sockets, others _ (by decide), others _ (by decide)]
  | waiting timeout waits =>
      rw [waits.status]
      constructor
      · exact fun impossible => by cases impossible
      · rintro (there | there)
        · cases waits.gone _ there
        · cases waits.gone _ there

/-- **Run lemma.** -/
theorem holds_run (late : ℕ) (events : List ConnectionEvent) :
    (exec (connectionStep late) start events).Holds late := by
  apply exec_invariant
  · exact .unloaded ⟨rfl, rfl, rfl, rfl, rfl, rfl⟩
  · exact fun p _ holds => holds.step p.2

end Connection

/-! ## One connection -/

/-- Attempts five seconds apart take their time. -/
theorem length_le_getLast {a : ℕ} {rest : List ℕ}
    (chain : (a :: rest).IsChain (fun a b => a + 5000 ≤ b)) :
    ∀ b ∈ (a :: rest).getLast?, a + 5000 * rest.length ≤ b := by
  induction rest generalizing a with
  | nil =>
      intro b member
      rw [List.getLast?_singleton, Option.mem_some_iff] at member
      have none : ([] : List ℕ).length = 0 := rfl
      omega
  | cons c rest ih =>
      obtain ⟨apart, chain⟩ := List.isChain_cons_cons.mp chain
      intro b member
      rw [List.getLast?_cons_cons] at member
      calc a + 5000 * (rest.length + 1) = a + 5000 + 5000 * rest.length := by ring
        _ ≤ c + 5000 * rest.length := Nat.add_le_add_right apart _
        _ ≤ b := ih chain b member

theorem Spaced.length_le {attempts : List ℕ} {now : ℕ} (spaced : Spaced attempts (now + 5000)) :
    attempts.length ≤ 1 + now / 5000 := by
  cases attempts with
  | nil => exact Nat.zero_le _
  | cons a rest =>
      have last : rest.getLast?.getD a ∈ (a :: rest).getLast? := List.getLast?_cons
      have apart := length_le_getLast spaced.chain _ last
      have before := spaced.last _ last
      rw [List.length_cons]
      omega

/-- What holds of the connection after a run. -/
structure OneConnection (late : ℕ) (c : Connection) : Prop where
  one : c.loaded = true → c.sockets.countP (· ≠ .closed) + c.timeouts.length = 1
  current : ∀ (k : ℕ) (state : ReadyState), c.sockets[k]? = some state → state ≠ .closed →
    c.ws = some k
  status : c.connected = true ↔ .opened ∈ c.sockets ∨ .closing ∈ c.sockets
  soon : ∀ timeout ∈ c.timeouts, timeout.due ≤ c.now + 5000 ∧ c.now ≤ timeout.due + late
  apart : c.attempts.IsChain fun a b => a + 5000 ≤ b
  gentle : c.attempts.length ≤ 1 + c.now / 5000

/-- **One connection.** In every run of the page. -/
theorem one_connection (late : ℕ) (events : List ConnectionEvent) :
    OneConnection late (exec (connectionStep late) .start events) := by
  have holds := Connection.holds_run late events
  refine ⟨?_, ?_, ?_, ?_, ?_, ?_⟩
  · intro loaded
    cases holds with
    | unloaded fresh =>
        rw [fresh.loaded] at loaded
        cases loaded
    | alive earlier state alive =>
        have none : earlier.countP (· ≠ .closed) = 0 :=
          List.countP_eq_zero.mpr fun s member => by simp [alive.gone s member]
        rw [alive.sockets, List.countP_append, none, alive.timeouts]
        simp [alive.live]
    | waiting timeout waits =>
        have none : (exec (connectionStep late) .start events).sockets.countP (· ≠ .closed) = 0 :=
          List.countP_eq_zero.mpr fun s member => by simp [waits.gone s member]
        rw [none, waits.timeouts]
        rfl
  · intro k state there live
    obtain ⟨earlier, rfl, alive⟩ := holds.live_of_socket there live
    exact alive.ws
  · exact holds.status
  · intro timeout member
    have waits := holds.waiting_of_timeout member
    exact ⟨waits.soon, waits.inTime⟩
  · exact holds.spaced.chain
  · exact holds.spaced.length_le

end EbpfNids.Dashboard
