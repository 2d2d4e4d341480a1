import EbpfNids.Library.Runs
import EbpfNids.Loader.Lines

/-!
# The loader's clients

The loader keeps sixteen slots for connections. `accept_clients` puts each new
connection into the first free slot and closes it if there is none.
`broadcast_json_line` calls `send` once for every slot that is taken: a
connection may accept any part of the line, or nothing, and the number of bytes
that it accepts is not looked at. Any other error closes the connection.

A client that stays connected has accepted what its calls of `send` have taken,
one after the other (`exec_slot`).
-/

set_option autoImplicit false

namespace EbpfNids.Loader

open Library Library.Runs

/-- What a call of `send` gives: the bytes accepted, `EAGAIN` or `EWOULDBLOCK`, or
another error. -/
inductive SendResult where
  | sent (n : ℕ)
  | wouldBlock
  | failed
deriving DecidableEq, Repr

abbrev maxClients : ℕ := 16

/-- The slots, each with the bytes that its connection has accepted. -/
abbrev Clients := Fin maxClients → Option (List UInt8)

def initClients : Clients := fun _ => none

def acceptClient (clients : Clients) : Clients :=
  match (List.finRange maxClients).find? fun i => (clients i).isNone with
  | some i => Function.update clients i (some [])
  | none => clients

/-- `accept_clients`, with some connections pending. -/
def acceptClients (pending : ℕ) (clients : Clients) : Clients := acceptClient^[pending] clients

/-- The part of the line that a call of `send` takes. -/
def SendResult.taken (json : Text) : SendResult → Text
  | .sent n => json.take n
  | .wouldBlock => []
  | .failed => []

def broadcastJsonLine (json : Text) (send : Fin maxClients → SendResult) (clients : Clients) :
    Clients := fun i =>
  match clients i with
  | none => none
  | some stream =>
      if send i = .failed then none else some (stream ++ asciiBytes ((send i).taken json))

/-! ## Runs -/

/-- What the main loop does to its clients. -/
inductive ClientStep where
  | acceptClients (pending : ℕ)
  | broadcastJsonLine (ev : LoaderEvent) (send : Fin maxClients → SendResult)

def clientStep (clients : Clients) : ClientStep → Clients
  | .acceptClients pending => acceptClients pending clients
  | .broadcastJsonLine ev send => broadcastJsonLine (eventLine ev) send clients

/-- A line and what one client makes of it. -/
structure Send where
  ev : LoaderEvent
  result : SendResult

def Send.taken (s : Send) : Text := s.result.taken (eventLine s.ev)

/-- The line was accepted whole. -/
def Send.isWhole (s : Send) : Bool :=
  match s.result with
  | .sent n => (eventLine s.ev).length ≤ n
  | .wouldBlock => false
  | .failed => false

/-- A proper beginning of the line was accepted. -/
def Send.isShort (s : Send) : Bool :=
  match s.result with
  | .sent n => 0 < n && n < (eventLine s.ev).length
  | .wouldBlock => false
  | .failed => false

/-- The lines that are sent to a slot. -/
def sendsTo (i : Fin maxClients) (events : List ClientStep) : List Send :=
  events.filterMap fun event =>
    match event with
    | .acceptClients _ => none
    | .broadcastJsonLine ev send => some ⟨ev, send i⟩

/-- No call of `send` closes the slot. -/
def StaysConnected (i : Fin maxClients) (events : List ClientStep) : Prop :=
  ∀ s ∈ sendsTo i events, s.result ≠ .failed

/-- A send takes the line, a beginning of it or nothing. -/
theorem Send.taken_cases (s : Send) :
    s.isWhole = true ∧ s.isShort = false ∧ s.taken = eventLine s.ev ∨
      s.isWhole = false ∧ s.isShort = true ∧
        (∃ n, 0 < n ∧ n < (eventLine s.ev).length ∧ s.taken = (eventLine s.ev).take n) ∨
      s.isWhole = false ∧ s.isShort = false ∧ s.taken = [] := by
  obtain ⟨ev, result⟩ := s
  cases result with
  | wouldBlock => exact Or.inr (Or.inr ⟨rfl, rfl, rfl⟩)
  | failed => exact Or.inr (Or.inr ⟨rfl, rfl, rfl⟩)
  | sent n =>
      simp only [Send.isWhole, Send.isShort, Send.taken, SendResult.taken]
      by_cases whole : (eventLine ev).length ≤ n
      · left
        exact ⟨by simp [whole], by simp [whole], List.take_of_length_le whole⟩
      · right
        have short : n < (eventLine ev).length := Nat.lt_of_not_le whole
        cases n with
        | zero => exact Or.inr ⟨decide_eq_false whole, rfl, rfl⟩
        | succ n =>
            exact Or.inl ⟨decide_eq_false whole, by simp [short], _, Nat.succ_pos n, short, rfl⟩

variable {clients : Clients} {i : Fin maxClients} {stream : List UInt8}

/-- A slot that is taken is not given away. -/
theorem acceptClient_slot (connected : clients i = some stream) :
    acceptClient clients i = some stream := by
  rw [acceptClient]
  cases free : (List.finRange maxClients).find? fun i => (clients i).isNone with
  | none => exact connected
  | some j =>
      have empty := List.find?_some free
      have different : i ≠ j := by
        rintro rfl
        simp [connected] at empty
      exact (Function.update_of_ne different _ _).trans connected

theorem acceptClients_slot (connected : clients i = some stream) (pending : ℕ) :
    acceptClients pending clients i = some stream := by
  induction pending generalizing clients with
  | zero => exact connected
  | succ pending ih => exact ih (acceptClient_slot connected)

/-- **Run lemma.** A slot that stays connected accepts what its calls of `send`
take, in order. -/
theorem exec_slot {events : List ClientStep} (connected : clients i = some stream)
    (stays : StaysConnected i events) :
    exec clientStep clients events i =
      some (stream ++ asciiBytes ((sendsTo i events).flatMap Send.taken)) := by
  induction events generalizing clients stream with
  | nil => exact connected.trans (congrArg some (List.append_nil stream).symm)
  | cons event rest ih =>
      cases event with
      | acceptClients pending => exact ih (acceptClients_slot connected pending) stays
      | broadcastJsonLine ev send =>
          have open_ : send i ≠ .failed := stays ⟨ev, send i⟩ List.mem_cons_self
          have later : StaysConnected i rest := by
            intro s member
            exact stays s (List.mem_cons_of_mem _ member)
          have step : broadcastJsonLine (eventLine ev) send clients i =
              some (stream ++ asciiBytes ((send i).taken (eventLine ev))) := by
            rw [broadcastJsonLine, connected]
            exact if_neg open_
          have sends : sendsTo i (.broadcastJsonLine ev send :: rest) =
              ⟨ev, send i⟩ :: sendsTo i rest := rfl
          rw [exec_cons, clientStep, ih step later, sends, List.flatMap_cons, asciiBytes_append,
            List.append_assoc]
          rfl

end EbpfNids.Loader
