import EbpfNids.Backend.SocketLoop

/-!
# Storing an alert by request

`POST /api/alert` runs `save_alert` inside one `try`: whatever is raised is
answered with 500 and the text that adding has failed. The row is durable after
the commit, which stands in the middle of the steps. A call is an action on a
connection that may raise: an exception keeps what the steps before it did, and
what was written but not committed is lost with the connection.

So a failed call leaves the table as it was exactly when the exception comes no
later than the commit. Logging, printing and the push to the web sockets come
after it: when one of them raises, the caller reads that nothing was added, and
calling again adds the alert again. And the TEXT columns keep a number as its
numeral, so the row added is the one that a successful call returns exactly when it
has no number in them (`add_alert_atomic_iff`).
-/

set_option autoImplicit false

namespace EbpfNids.Backend

open Library Library.Decimal

/-! ## The steps of a call -/

/-- The surroundings of one call. Of the exceptions, `insertAlert` is that of the
`INSERT` and `log` that of the logging. -/
structure Surroundings extends Env where
  commit : Option PyExn
  print : Option PyExn

namespace Surroundings

/-- The surroundings as the handlers of messages see them. -/
def asEnv (around : Surroundings) : Env :=
  { around.toEnv with
    insertAlert := fun row => (around.insertAlert row).or around.commit
    log := fun entry =>
      match entry with
      | .alertStored row => (around.log (.alertStored row)).or around.print
      | other => around.log other }

end Surroundings

/-- A connection to the database: what is committed, and the row that its open
transaction has written. -/
structure Conn where
  world : World
  written : Option AlertRow

abbrev Action := EStateM PyExn Conn

def Action.raised : Option PyExn → Action Unit
  | some e => throw e
  | none => pure ()

def Action.ofExcept {α : Type} : Except PyExn α → Action α
  | .error e => throw e
  | .ok a => pure a

/-- `cur.execute` of the `INSERT`. -/
def executeInsert (around : Surroundings) (row : AlertRow) : Action Unit := do
  Action.raised (around.insertAlert row)
  modify fun conn => { conn with written := some row }

/-- `conn.commit` -/
def commitConn (around : Surroundings) : Action Unit := do
  Action.raised around.commit
  modify fun conn =>
    match conn.written with
    | some row => ⟨conn.world.store around.toEnv row, none⟩
    | none => conn

/-- `socketio.emit` -/
def emitAlarm (around : Surroundings) (row : AlertRow) : Action Unit := do
  Action.raised (around.emitAlarm row)
  modify fun conn =>
    { conn with world := { conn.world with newAlarm := conn.world.newAlarm ++ [row] } }

/-- `save_alert`. A message that is no object has no `get`. -/
def saveAlertCall (around : Surroundings) : Json → Action AlertRow
  | .obj fields => do
      let read ← Action.ofExcept (alertFields around.toEnv fields)
      let attackType ← Action.ofExcept (callInference around.toEnv fields)
      let srcLoc ← Action.ofExcept (getIpLoc around.toEnv read.srcIp)
      let conn ← get
      let data : AlertRow := ⟨conn.world.lastAlertId + 1, read.srcIp, read.dstIp, read.alertType,
        attackType, srcLoc, read.timestampNs⟩
      executeInsert around data
      commitConn around
      Action.raised (around.log (.alertStored data))
      Action.raised around.print
      emitAlarm around data
      return data
  | _ => throw .attributeError

/-- What `POST /api/alert` answers: 200 with the data, or 500 with the error. -/
inductive Response where
  | success (data : AlertRow)
  | failure (error : PyExn)

def Response.code : Response → ℕ
  | .success _ => 200
  | .failure _ => 500

/-- `add_alert`, of the body that `request.get_json` gives or raises. The error is
logged, and should that raise in its turn, the answer is 500 all the same. -/
def addAlert (around : Surroundings) (body : Except PyExn Json) : Action Response :=
  tryCatch
    (do
      let json ← Action.ofExcept body
      let msg := if truthy around.toEnv json then json else .obj []
      let data ← saveAlertCall around msg
      return .success data)
    fun e => return .failure e

/-- The tables after a call on a fresh connection, and the response. -/
def post (around : Surroundings) (body : Except PyExn Json) (world : World) : World × Response :=
  match (addAlert around body).run ⟨world, none⟩ with
  | .ok response conn => (conn.world, response)
  | .error e conn => (conn.world, .failure e)

/-! ## What a call does -/

/-- The row that a call is about to insert, or what is raised before. -/
def newRow (env : Env) (world : World) : Json → Except PyExn AlertRow
  | .obj fields =>
      match alertFields env fields with
      | .error e => .error e
      | .ok read =>
          match callInference env fields with
          | .error e => .error e
          | .ok attackType =>
              match getIpLoc env read.srcIp with
              | .error e => .error e
              | .ok srcLoc =>
                  .ok ⟨world.lastAlertId + 1, read.srcIp, read.dstIp, read.alertType,
                    attackType, srcLoc, read.timestampNs⟩
  | _ => .error .attributeError

/-- The row that a request is about to insert. -/
def requestedRow (env : Env) (world : World) : Except PyExn Json → Except PyExn AlertRow
  | .error e => .error e
  | .ok json => newRow env world (if truthy env json then json else .obj [])

section Steps

variable {around : Surroundings}

@[simp] theorem run_raised_none (conn : Conn) :
    (Action.raised none).run conn = .ok () conn := rfl

@[simp] theorem run_raised_some (e : PyExn) (conn : Conn) :
    (Action.raised (some e)).run conn = .error e conn := rfl

@[simp] theorem run_ofExcept_ok {α : Type} (a : α) (conn : Conn) :
    (Action.ofExcept (.ok a)).run conn = .ok a conn := rfl

@[simp] theorem run_ofExcept_error {α : Type} (e : PyExn) (conn : Conn) :
    (Action.ofExcept (.error e) : Action α).run conn = .error e conn := rfl

/-- A handler starts from what the body had done when it raised. -/
theorem run_tryCatch {α : Type} (body : Action α) (handler : PyExn → Action α) (conn : Conn) :
    (tryCatch body handler).run conn =
      match body.run conn with
      | .ok a conn => .ok a conn
      | .error e conn => (handler e).run conn := by
  show EStateM.tryCatch body handler conn = _
  rw [EStateM.tryCatch, EStateM.run]
  cases body conn with
  | ok a conn => rfl
  | error e conn => rfl

def World.pushed (world : World) (row : AlertRow) : World :=
  { world with newAlarm := world.newAlarm ++ [row] }

/-- The steps after the commit. -/
def afterCommit (around : Surroundings) (row : AlertRow) : Action AlertRow := do
  Action.raised (around.log (.alertStored row))
  Action.raised around.print
  emitAlarm around row
  return row

/-- What is raised after the commit, if something is. -/
def raisedAfter (around : Surroundings) (row : AlertRow) : Option PyExn :=
  ((around.log (.alertStored row)).or around.print).or (around.emitAlarm row)

/-- Nothing after the commit changes the table, whether it raises or not. -/
theorem run_afterCommit (row : AlertRow) (conn : Conn) :
    (afterCommit around row).run conn =
      match raisedAfter around row with
      | some e => .error e conn
      | none => .ok row { conn with world := conn.world.pushed row } := by
  cases log : around.log (.alertStored row) with
  | some e => simp [afterCommit, raisedAfter, log, EStateM.run_bind]
  | none =>
      cases print : around.print with
      | some e => simp [afterCommit, raisedAfter, log, print, EStateM.run_bind]
      | none =>
          cases emit : around.emitAlarm row with
          | some e =>
              simp [afterCommit, emitAlarm, raisedAfter, log, print, emit, EStateM.run_bind]
          | none =>
              simp only [afterCommit, emitAlarm, raisedAfter, log, print, emit,
                EStateM.run_bind, run_raised_none]
              rfl

theorem run_executeInsert (row : AlertRow) (conn : Conn) :
    (executeInsert around row).run conn =
      match around.insertAlert row with
      | some e => .error e conn
      | none => .ok () { conn with written := some row } := by
  rw [executeInsert, EStateM.run_bind]
  cases around.insertAlert row with
  | some e => rfl
  | none => rfl

theorem run_commitConn (world : World) (row : AlertRow) :
    (commitConn around).run ⟨world, some row⟩ =
      match around.commit with
      | some e => .error e ⟨world, some row⟩
      | none => .ok () ⟨world.store around.toEnv row, none⟩ := by
  rw [commitConn, EStateM.run_bind]
  cases around.commit with
  | some e => rfl
  | none => rfl

/-- A call whose row is known inserts it, commits it, and goes on. -/
theorem run_saveAlertCall (msg : Json) (conn : Conn) :
    (saveAlertCall around msg).run conn =
      match newRow around.toEnv conn.world msg with
      | .error e => .error e conn
      | .ok row =>
          match around.insertAlert row with
          | some e => .error e conn
          | none =>
              match around.commit with
              | some e => .error e { conn with written := some row }
              | none =>
                  (afterCommit around row).run ⟨conn.world.store around.toEnv row, none⟩ := by
  cases msg with
  | obj fields =>
      rw [saveAlertCall, newRow, EStateM.run_bind]
      cases alertFields around.toEnv fields with
      | error e => rfl
      | ok read =>
          rw [run_ofExcept_ok]
          dsimp only
          rw [EStateM.run_bind]
          cases callInference around.toEnv fields with
          | error e => rfl
          | ok attackType =>
              rw [run_ofExcept_ok]
              dsimp only
              rw [EStateM.run_bind]
              cases getIpLoc around.toEnv read.srcIp with
              | error e => rfl
              | ok srcLoc =>
                  rw [run_ofExcept_ok]
                  dsimp only
                  rw [EStateM.run_bind, EStateM.run_get]
                  dsimp only
                  rw [EStateM.run_bind, run_executeInsert]
                  cases around.insertAlert _ with
                  | some e => rfl
                  | none =>
                      dsimp only
                      rw [EStateM.run_bind, run_commitConn]
                      cases around.commit with
                      | some e => rfl
                      | none => rfl
  | null => rfl
  | bool b => rfl
  | int z => rfl
  | float literal => rfl
  | str t => rfl
  | arr items => rfl

/-- The `try` of `add_alert` keeps what the call did before it raised. -/
theorem post_ok (json : Json) (world : World) :
    post around (.ok json) world =
      match (saveAlertCall around
        (if truthy around.toEnv json then json else .obj [])).run ⟨world, none⟩ with
      | .ok data conn => (conn.world, .success data)
      | .error e conn => (conn.world, .failure e) := by
  rw [post, addAlert, run_tryCatch, EStateM.run_bind, run_ofExcept_ok]
  dsimp only
  rw [EStateM.run_bind]
  cases (saveAlertCall around _).run ⟨world, none⟩ with
  | ok data conn => rfl
  | error e conn => rfl

/-- **A call.** What is raised up to the commit leaves the tables as they were,
and what is raised after it leaves the row in its table. -/
theorem post_eq (body : Except PyExn Json) (world : World) :
    post around body world =
      match requestedRow around.toEnv world body with
      | .error e => (world, .failure e)
      | .ok row =>
          match around.asEnv.insertAlert row with
          | some e => (world, .failure e)
          | none =>
              match raisedAfter around row with
              | some e => (world.store around.toEnv row, .failure e)
              | none => ((world.store around.toEnv row).pushed row, .success row) := by
  cases body with
  | error e => rfl
  | ok json =>
      rw [post_ok, run_saveAlertCall, requestedRow]
      dsimp only
      cases newRow around.toEnv world (if truthy around.toEnv json then json else .obj []) with
      | error e => rfl
      | ok row =>
          dsimp only [Surroundings.asEnv]
          cases around.insertAlert row with
          | some e => rfl
          | none =>
              cases around.commit with
              | some e => rfl
              | none =>
                  dsimp only [Option.none_or]
                  rw [run_afterCommit]
                  cases raisedAfter around row with
                  | some e => rfl
                  | none => rfl

/-- **The handler of messages.** A request stores its alert as the same message
from the loader is stored. -/
theorem post_saveAlert (fields : List (Text × Json)) (nonempty : fields ≠ []) (world : World) :
    saveAlert around.asEnv fields world =
      ((post around (.ok (.obj fields)) world).1,
        match (post around (.ok (.obj fields)) world).2 with
        | .success _ => none
        | .failure e => some e) := by
  have asked : (if truthy around.toEnv (.obj fields) then .obj fields else .obj []) =
      Json.obj fields := by
    rw [truthy, if_pos (by simpa [List.isEmpty_eq_false_iff] using nonempty)]
  have reads : alertFields around.asEnv fields = alertFields around.toEnv fields := rfl
  have infers : callInference around.asEnv fields = callInference around.toEnv fields := rfl
  have locates : getIpLoc around.asEnv = getIpLoc around.toEnv := rfl
  rw [post_eq, requestedRow, asked, newRow, saveAlert, reads, infers, locates]
  cases alertFields around.toEnv fields with
  | error e => rfl
  | ok read =>
      dsimp only
      cases callInference around.toEnv fields with
      | error e => rfl
      | ok attackType =>
          dsimp only
          cases getIpLoc around.toEnv read.srcIp with
          | error e => rfl
          | ok srcLoc =>
              dsimp only
              generalize (⟨world.lastAlertId + 1, read.srcIp, read.dstIp, read.alertType,
                attackType, srcLoc, read.timestampNs⟩ : AlertRow) = row
              cases around.asEnv.insertAlert row with
              | some e => rfl
              | none =>
                  dsimp only [raisedAfter, Surroundings.asEnv]
                  cases (around.log (.alertStored row)).or around.print with
                  | some e => rfl
                  | none =>
                      dsimp only [Option.none_or]
                      cases around.emitAlarm row with
                      | some e => rfl
                      | none => rfl

end Steps

/-! ## Atomicity towards the caller -/

/-- One call of a client, on the tables that it finds. -/
structure Attempt where
  around : Surroundings
  before : World

namespace Attempt

variable (body : Except PyExn Json) (a : Attempt)

def after : World := (post a.around body a.before).1

def response : Response := (post a.around body a.before).2

def addedRows : List AlertRow := (a.after body).alerts.drop a.before.alerts.length

/-- 200 says that exactly the returned row was added, and 500 that the table is
unchanged. -/
def Atomic : Prop :=
  match a.response body with
  | .success data => (a.after body).alerts = a.before.alerts ++ [data]
  | .failure _ => (a.after body).alerts = a.before.alerts

/-- The row is inserted and committed: nothing is raised until then. -/
def Commits (row : AlertRow) : Prop :=
  requestedRow a.around.toEnv a.before body = .ok row ∧
    a.around.insertAlert row = none ∧ a.around.commit = none

/-- The logging, the printing or the push to the web sockets raises. -/
def RaisesAfter (row : AlertRow) : Prop :=
  a.around.log (.alertStored row) ≠ none ∨ a.around.print ≠ none ∨
    a.around.emitAlarm row ≠ none

end Attempt

/-- The calls that a client makes that repeats its request until it is answered
with 200. What others do to the tables in between is in the attempts. -/
def callsMade (body : Except PyExn Json) : List Attempt → List Attempt
  | [] => []
  | a :: rest => if (a.response body).code = 200 then [a] else a :: callsMade body rest

/-- Every call is atomic towards the client, and however often it tries, the
alert is in the table at most once. -/
structure AtomicSession (body : Except PyExn Json) (attempts : List Attempt) : Prop where
  atomic : ∀ a ∈ callsMade body attempts, a.Atomic body
  noDuplicate : ((callsMade body attempts).flatMap (Attempt.addedRows body)).length ≤ 1

section Session

variable {body : Except PyExn Json}

theorem raisedAfter_eq_none_iff (a : Attempt) (row : AlertRow) :
    raisedAfter a.around row = none ↔ ¬a.RaisesAfter row := by
  rw [raisedAfter, Option.or_eq_none_iff, Option.or_eq_none_iff, Attempt.RaisesAfter]
  tauto

/-- The source of a row is a text, since an address that is none has no location. -/
theorem srcIp_of_newRow {env : Env} {world : World} {msg : Json} {row : AlertRow}
    (made : newRow env world msg = .ok row) : row.srcIp.isNumber = false := by
  rw [newRow.eq_def] at made
  split at made
  · split at made
    · cases made
    · rename_i read _
      split at made
      · cases made
      · split at made
        · cases made
        · rename_i located
          obtain rfl := Except.ok.inj made
          rw [getIpLoc.eq_def] at located
          split at located
          · rename_i source
            rw [source]
            rfl
          · cases located
  · cases made

theorem srcIp_of_requestedRow {env : Env} {world : World} {row : AlertRow}
    (asked : requestedRow env world body = .ok row) : row.srcIp.isNumber = false := by
  cases body with
  | error e => cases asked
  | ok json => exact srcIp_of_newRow asked

/-- **One call.** It is atomic if and only if nothing is raised after the commit and
the row has no number where its column keeps text. -/
theorem atomic_iff (a : Attempt) :
    a.Atomic body ↔ ∀ row, a.Commits body row →
      ¬a.RaisesAfter row ∧ row.dstIp.isNumber = false ∧ row.attackType.isNumber = false := by
  rw [Attempt.Atomic, Attempt.after, Attempt.response, post_eq]
  simp only [Attempt.Commits]
  cases asked : requestedRow a.around.toEnv a.before body with
  | error e => simp
  | ok row =>
      simp only [Except.ok.injEq, and_imp, forall_eq', Surroundings.asEnv]
      cases insert : a.around.insertAlert row with
      | some e => simp
      | none =>
          cases commit : a.around.commit with
          | some e => simp
          | none =>
              have source := srcIp_of_requestedRow asked
              have kept := row.kept_eq_iff a.around.toEnv
              have calm := raisedAfter_eq_none_iff a row
              cases raised : raisedAfter a.around row with
              | some e =>
                  rw [raised] at calm
                  simp only [reduceCtorEq, false_iff, not_not] at calm
                  simp [World.store, calm]
              | none =>
                  simp only [Option.none_or, forall_const, calm.mp raised, not_false_eq_true,
                    true_and]
                  simp [World.store, World.pushed, kept, source]

/-- A call that fails atomically adds nothing, and one that succeeds adds one
row. -/
theorem addedRows_of_atomic {a : Attempt} (atomic : a.Atomic body) :
    (a.addedRows body).length = if (a.response body).code = 200 then 1 else 0 := by
  rw [Attempt.Atomic] at atomic
  rw [Attempt.addedRows]
  cases answer : a.response body with
  | success data =>
      rw [answer] at atomic
      rw [atomic, List.drop_left]
      rfl
  | failure e =>
      rw [answer] at atomic
      rw [atomic, List.drop_length]
      rfl

/-- **Trying again.** Atomic calls add the alert at most once. -/
theorem noDuplicate_of_atomic {attempts : List Attempt}
    (atomic : ∀ a ∈ callsMade body attempts, a.Atomic body) :
    ((callsMade body attempts).flatMap (Attempt.addedRows body)).length ≤ 1 := by
  induction attempts with
  | nil => exact Nat.zero_le 1
  | cons a rest ih =>
      rw [callsMade] at atomic ⊢
      by_cases stored : (a.response body).code = 200
      · rw [if_pos stored] at atomic ⊢
        have one := addedRows_of_atomic (atomic a (List.mem_singleton_self a))
        rw [if_pos stored] at one
        rw [List.flatMap_singleton, one]
      · rw [if_neg stored] at atomic ⊢
        have none := addedRows_of_atomic (atomic a List.mem_cons_self)
        rw [if_neg stored] at none
        rw [List.flatMap_cons, List.length_append, none, Nat.zero_add]
        exact ih fun later member => atomic later (List.mem_cons_of_mem a member)

end Session

/-- **Storing an alert.** However often a client tries, its calls are atomic and
add the alert at most once, if and only if in every call that it makes and that
commits a row nothing is raised after the commit, and neither the destination nor the
attack type of the row is a number. -/
theorem add_alert_atomic_iff (body : Except PyExn Json) (attempts : List Attempt) :
    AtomicSession body attempts ↔
      ∀ a ∈ callsMade body attempts, ∀ row, a.Commits body row →
        ¬a.RaisesAfter row ∧ row.dstIp.isNumber = false ∧ row.attackType.isNumber = false := by
  constructor
  · intro session a member
    exact (atomic_iff a).mp (session.atomic a member)
  · intro calm
    have atomic : ∀ a ∈ callsMade body attempts, a.Atomic body := fun a member =>
      (atomic_iff a).mpr (calm a member)
    exact ⟨atomic, noDuplicate_of_atomic atomic⟩

/-- Surroundings in which only the push to the web sockets raises. -/
def mutedSurroundings : Surroundings :=
  { calmEnv with emitAlarm := fun _ => some .other, commit := none, print := none }

/-- The push raises after the commit: the alert of an internal address is stored
and the caller reads that it was not. -/
theorem failed_push_keeps_row :
    ¬ AtomicSession (.ok (.obj [(text "src_ip", .str (text "10.0.0.1"))]))
      [⟨mutedSurroundings, World.empty⟩] := by
  intro session
  have call := session.atomic ⟨mutedSurroundings, World.empty⟩ List.mem_cons_self
  have calm := ((atomic_iff _).mp call _ ⟨rfl, rfl, rfl⟩).1
  exact calm (Or.inr (Or.inr (Option.some_ne_none _)))

end EbpfNids.Backend
