import EbpfNids.Backend.StatsApi
import EbpfNids.Library.Requests

/-!
# The requests in a serial order

Requests and messages of the loader execute their statements on connections of
their own, in any interleaving, and any of them can be dropped by an exception.
Each request that is begun gets a number (`Observed`), and the numbers of those
that are committed are the history.

A request that writes holds the only transaction from its first statement to its
commit, so what it commits is its whole effect on the state that the one before
it in the history has left. So the committed state is always that of the requests
of the history executed whole, one after the other. No request is in the history
twice, one that has failed is not in it, and one that writes and is no longer
running is in it unless it has failed (`serial_history`).
-/

set_option autoImplicit false

namespace EbpfNids.Backend

open Library Library.Runs

/-! ## Requests executed whole -/

/-- What some statements write, one after the other. -/
def writes (statements : List Statement) : List (Database → Database) :=
  statements.filterMap Statement.write

def applyWrites (db : Database) (changes : List (Database → Database)) : Database :=
  changes.foldl (fun db change => change db) db

/-- What a request does to the database when it is executed whole. -/
def effect (db : Database) (purpose : Purpose) : Database :=
  applyWrites db (writes purpose.statements)

/-- The request changes the tables. -/
def Purpose.Writes : Purpose → Prop
  | .stats => False
  | _ => True

theorem applyWrites_append (db : Database) (first second : List (Database → Database)) :
    applyWrites db (first ++ second) = applyWrites (applyWrites db first) second :=
  List.foldl_append ..

theorem writes_append (first second : List Statement) :
    writes (first ++ second) = writes first ++ writes second := List.filterMap_append

/-- A request writes and ends with its commit, or only reads. -/
theorem Purpose.statements_cases (purpose : Purpose) :
    (∃ changes, purpose.statements = changes ++ [.commit] ∧ changes ≠ [] ∧
        ∀ statement ∈ changes, statement.write.isSome) ∨
      (∀ statement ∈ purpose.statements, statement ≠ .commit ∧ statement.write = none) ∧
        ¬ purpose.Writes := by
  cases purpose with
  | saveAlert row =>
      exact Or.inl ⟨[.insertAlert row], rfl, List.cons_ne_nil _ _, by simp [Statement.write]⟩
  | saveFlowRate row =>
      exact Or.inl ⟨[.insertFlowRate row], rfl, List.cons_ne_nil _ _, by simp [Statement.write]⟩
  | clearAll =>
      exact Or.inl ⟨[.deleteAlerts, .deleteFlowRates], rfl, List.cons_ne_nil _ _,
        by simp [Statement.write]⟩
  | stats => exact Or.inr ⟨by simp [Purpose.statements, Statement.write], id⟩

theorem writes_ne_nil {statements : List Statement} {statement : Statement}
    (member : statement ∈ statements) (changes : statement.write.isSome) :
    writes statements ≠ [] := by
  obtain ⟨change, same⟩ := Option.isSome_iff_exists.mp changes
  exact List.ne_nil_of_mem (List.mem_filterMap.mpr ⟨statement, member, same⟩)

/-- The commit of a request is its last statement, and something has been written
before it. -/
theorem commit_last {purpose : Purpose} {done left : List Statement}
    (program : purpose.statements = done ++ .commit :: left) :
    left = [] ∧ writes done = writes purpose.statements ∧ writes done ≠ [] := by
  rcases purpose.statements_cases with ⟨changes, statements, some, writing⟩ | ⟨reading, -⟩
  · have noCommit : .commit ∉ changes := by
      intro member
      cases writing _ member
    rw [statements] at program
    have same : changes = done ∧ left = [] := by
      rcases List.append_eq_append_iff.mp program with ⟨more, rfl, rest⟩ | ⟨more, rfl, rest⟩
      · cases more with
        | nil => exact ⟨(List.append_nil _).symm, (List.cons.inj rest).2.symm⟩
        | cons s more => cases more <;> cases rest
      · cases more with
        | nil => exact ⟨List.append_nil _, (List.cons.inj rest).2⟩
        | cons s more =>
            refine absurd (List.mem_append_right _ ?_) noCommit
            rw [(List.cons.inj rest).1]
            exact List.mem_cons_self
    obtain ⟨rfl, rfl⟩ := same
    refine ⟨rfl, ?_, ?_⟩
    · rw [statements, writes_append]
      exact (List.append_nil _).symm
    · obtain ⟨first, member⟩ := List.exists_mem_of_ne_nil _ some
      exact writes_ne_nil member (writing first member)
  · refine absurd rfl (reading .commit ?_).1
    rw [program]
    exact List.mem_append_right _ List.mem_cons_self

/-- A request that writes ends with its commit. -/
theorem commit_of_last {purpose : Purpose} {done : List Statement} {statement : Statement}
    (program : purpose.statements = done ++ [statement]) (changes : purpose.Writes) :
    statement = .commit := by
  rcases purpose.statements_cases with ⟨before, statements, -⟩ | ⟨-, reading⟩
  · rw [statements] at program
    exact (List.cons.inj (List.append_inj_right' program rfl)).1.symm
  · exact absurd changes reading

/-! ## The server and its requests -/

/-- The server, and its requests. -/
structure Observed where
  server : Server
  requests : Requests ℕ Purpose

def Observed.start (db : Database) : Observed := ⟨.start db, .none⟩

/-- The next statement of the connection is the commit of its transaction. -/
def commits (server : Server) (conn : ℕ) : Bool :=
  match (server.connections conn).todo, server.transaction with
  | .commit :: _, some (owner, _) => owner == conn
  | _, _ => false

def observe (o : Observed) (event : DbEvent) : Observed :=
  let after := dbStep o.server event
  match event with
  | .connect conn purpose =>
      if (o.server.connections conn).todo.isEmpty then ⟨after, o.requests.begin conn purpose⟩
      else ⟨after, o.requests⟩
  | .execute conn =>
      if commits o.server conn then ⟨after, o.requests.commit conn⟩
      else if (after.connections conn).todo.isEmpty then ⟨after, o.requests.finish conn⟩
      else ⟨after, o.requests⟩
  | .fail conn => ⟨after, o.requests.drop conn⟩

@[simp] theorem observe_server (o : Observed) (event : DbEvent) :
    (observe o event).server = dbStep o.server event := by
  cases event with
  | connect conn purpose => rw [observe]; split <;> rfl
  | execute conn => rw [observe]; split <;> [rfl; (split <;> rfl)]
  | fail conn => rfl

/-- The observer does not disturb the server. -/
theorem exec_observe_server (o : Observed) (events : List DbEvent) :
    (exec observe o events).server = exec dbStep o.server events := by
  induction events generalizing o with
  | nil => rfl
  | cons event rest ih => rw [exec_cons, exec_cons, ih, observe_server]

/-- The requests of the history, executed whole. -/
def serial (db : Database) (history : List (Numbered Purpose)) : Database :=
  (history.map Prod.snd).foldl effect db

theorem serial_concat (db : Database) (history : List (Numbered Purpose))
    (request : Numbered Purpose) :
    serial db (history ++ [request]) = effect (serial db history) request.2 := by
  rw [serial, List.map_append, List.foldl_append]
  rfl

/-! ## One statement -/

/-- The tables as the transaction of a connection sees them, if it has one. -/
def Server.held (server : Server) (conn : ℕ) : Option Database :=
  match server.transaction with
  | none => none
  | some (owner, tables) => if owner = conn then some tables else none

theorem todo_setConnection (server : Server) (conn : ℕ) (connection : Connection) :
    ((server.setConnection conn connection).connections conn).todo = connection.todo := by
  rw [Server.setConnection]
  dsimp only
  rw [Function.update_self]

/-- What executing a statement does to the server. -/
structure Executes (server after : Server) (conn : ℕ) (statement : Statement)
    (left : List Statement) : Prop where
  todo : (after.connections conn).todo = left
  others : ∀ c, c ≠ conn →
    after.connections c = server.connections c ∧ after.held c = server.held c
  change : ∀ change, statement.write = some change →
    after.committed = server.committed ∧
      after.held conn = some (change ((server.held conn).getD server.committed))
  commit : ∀ tables, statement = .commit → server.held conn = some tables →
    after.committed = tables ∧ after.held conn = none
  read : statement.write = none → statement ≠ .commit →
    after.committed = server.committed ∧ after.held conn = server.held conn

section Execution

variable {server : Server} {conn : ℕ} {statement : Statement} {left : List Statement}

theorem executes_setConnection (connection : Connection) (reading : statement.write = none)
    (goesOn : statement ≠ .commit) :
    Executes server (server.setConnection conn connection) conn statement connection.todo where
  todo := todo_setConnection server conn connection
  others c different := ⟨Function.update_of_ne different .., rfl⟩
  change _ writing := by rw [reading] at writing; cases writing
  commit _ isCommit := absurd isCommit goesOn
  read _ _ := ⟨rfl, rfl⟩

theorem executes_write {change : Database → Database} (writing : statement.write = some change) :
    server.execWrite conn left change = server ∨
      Executes server (server.execWrite conn left change) conn statement left := by
  have notCommit : statement ≠ .commit := by
    rintro rfl
    cases writing
  cases taken : server.transaction with
  | none =>
      right
      rw [Server.execWrite, taken]
      refine ⟨?_, fun c different => ⟨?_, ?_⟩, fun other same => ⟨rfl, ?_⟩,
        fun _ isCommit => absurd isCommit notCommit, fun reading => ?_⟩
      · exact todo_setConnection server conn _
      · exact Function.update_of_ne different ..
      · simp [Server.held, taken, Ne.symm different]
      · rw [writing, Option.some.injEq] at same
        simp [Server.held, taken, same]
      · rw [writing] at reading
        cases reading
  | some transaction =>
      obtain ⟨owner, tables⟩ := transaction
      by_cases mine : owner = conn
      · right
        rw [Server.execWrite, taken]
        dsimp only
        rw [if_pos mine]
        refine ⟨?_, fun c different => ⟨?_, ?_⟩, fun other same => ⟨rfl, ?_⟩,
          fun _ isCommit => absurd isCommit notCommit, fun reading => ?_⟩
        · exact todo_setConnection server conn _
        · exact Function.update_of_ne different ..
        · simp [Server.held, taken, mine, Ne.symm different]
        · rw [writing, Option.some.injEq] at same
          simp [Server.held, taken, mine, same]
        · rw [writing] at reading
          cases reading
      · left
        rw [Server.execWrite, taken]
        exact if_neg mine

theorem executes_commit :
    Executes server (server.execCommit conn left) conn .commit left := by
  cases taken : server.transaction with
  | none =>
      rw [Server.execCommit, taken]
      refine ⟨?_, fun c different => ⟨?_, rfl⟩, fun _ impossible => ?_, fun tables _ holds => ?_,
        fun _ other => absurd rfl other⟩
      · exact todo_setConnection server conn _
      · exact Function.update_of_ne different ..
      · cases impossible
      · rw [Server.held, taken] at holds
        cases holds
  | some transaction =>
      obtain ⟨owner, tables⟩ := transaction
      rw [Server.execCommit, taken]
      dsimp only
      by_cases mine : owner = conn
      · rw [if_pos mine]
        refine ⟨?_, fun c different => ⟨?_, ?_⟩, fun _ impossible => ?_, fun seen _ holds => ?_,
          fun _ other => absurd rfl other⟩
        · exact todo_setConnection server conn _
        · exact Function.update_of_ne different ..
        · simp [Server.held, taken, mine, Ne.symm different]
        · cases impossible
        · rw [Server.held, taken] at holds
          dsimp only at holds
          rw [if_pos mine, Option.some.injEq] at holds
          exact ⟨holds, rfl⟩
      · rw [if_neg mine]
        refine ⟨?_, fun c different => ⟨?_, rfl⟩, fun _ impossible => ?_, fun seen _ holds => ?_,
          fun _ other => absurd rfl other⟩
        · exact todo_setConnection server conn _
        · exact Function.update_of_ne different ..
        · cases impossible
        · rw [Server.held, taken] at holds
          dsimp only at holds
          rw [if_neg mine] at holds
          cases holds

/-- **One statement.** A statement that does not wait is executed. -/
theorem exec_spec (next : (server.connections conn).todo = statement :: left) :
    server.exec conn = server ∧ statement ≠ .commit ∨
      Executes server (server.exec conn) conn statement left := by
  have waiting : ∀ {change}, statement.write = some change →
      server.exec conn = server.execWrite conn left change →
      server.exec conn = server ∧ statement ≠ .commit ∨
        Executes server (server.exec conn) conn statement left := by
    intro change writing same
    rw [same]
    refine (executes_write writing).imp_left fun waits => ⟨waits, ?_⟩
    rintro rfl
    cases writing
  cases statement with
  | insertAlert row => exact waiting rfl (by rw [Server.exec, next]; rfl)
  | insertFlowRate row => exact waiting rfl (by rw [Server.exec, next]; rfl)
  | deleteAlerts => exact waiting rfl (by rw [Server.exec, next]; rfl)
  | deleteFlowRates => exact waiting rfl (by rw [Server.exec, next]; rfl)
  | commit =>
      right
      rw [Server.exec, next]
      exact executes_commit
  | selectCount =>
      right
      rw [Server.exec, next]
      exact executes_setConnection _ rfl (by simp)
  | selectTypes =>
      right
      rw [Server.exec, next]
      exact executes_setConnection _ rfl (by simp)
  | selectFlowRates =>
      right
      rw [Server.exec, next]
      have advanced : Executes server _ conn .selectFlowRates left :=
        executes_setConnection { server.connections conn with todo := left } rfl (by simp)
      exact ⟨advanced.todo, advanced.others, advanced.change, advanced.commit, advanced.read⟩

end Execution

/-! ## The invariant -/

/-- The connection has executed a first part of its request, and holds the
transaction since it has written. -/
structure InProgress (server : Server) (conn : ℕ) (request : Numbered Purpose)
    (done : List Statement) : Prop where
  program : request.2.statements = done ++ (server.connections conn).todo
  unfinished : (server.connections conn).todo ≠ []
  held : server.held conn =
    if (writes done).isEmpty then none else some (applyWrites server.committed (writes done))

/-- What is said of one connection. -/
def ConnectionHolds (server : Server) (running : ℕ → Option (Numbered Purpose)) (conn : ℕ) : Prop :=
  match running conn with
  | none => (server.connections conn).todo = [] ∧ server.held conn = none
  | some request => ∃ done, InProgress server conn request done

structure Observed.Holds (db : Database) (o : Observed) : Prop where
  committed : o.server.committed = serial db o.requests.history
  connections : ∀ conn, ConnectionHolds o.server o.requests.running conn
  requests : o.requests.Sound Purpose.Writes

section Invariant

variable {db : Database} {o : Observed} {server after : Server} {conn : ℕ}
  {running running' : ℕ → Option (Numbered Purpose)} {statement : Statement} {left : List Statement}

theorem connectionHolds_none (idle : running conn = none) :
    ConnectionHolds server running conn ↔
      (server.connections conn).todo = [] ∧ server.held conn = none := by
  rw [ConnectionHolds, idle]

theorem connectionHolds_some {request : Numbered Purpose} (busy : running conn = some request) :
    ConnectionHolds server running conn ↔ ∃ done, InProgress server conn request done := by
  rw [ConnectionHolds, busy]

/-- A connection that does nothing does not notice what the others do, unless it
holds the transaction and the committed state changes. -/
theorem ConnectionHolds.frame (holds : ConnectionHolds server running conn)
    (connection : after.connections conn = server.connections conn)
    (held : after.held conn = server.held conn) (run : running' conn = running conn)
    (committed : server.held conn = none ∨ after.committed = server.committed) :
    ConnectionHolds after running' conn := by
  cases busy : running conn with
  | none =>
      rw [connectionHolds_none busy] at holds
      rw [connectionHolds_none (run.trans busy), connection, held]
      exact holds
  | some request =>
      obtain ⟨done, program, unfinished, seen⟩ := (connectionHolds_some busy).mp holds
      refine (connectionHolds_some (run.trans busy)).mpr ⟨done, ?_, ?_, ?_⟩
      · rw [connection]
        exact program
      · rw [connection]
        exact unfinished
      · rw [held, seen]
        rcases committed with empty | same
        · rw [seen] at empty
          split at empty
          · rename_i nothing
            rw [if_pos nothing, if_pos nothing]
          · cases empty
        · rw [same]

/-- A connection with a statement left is running a request. -/
theorem ConnectionHolds.busy (holds : ConnectionHolds server running conn)
    (next : (server.connections conn).todo = statement :: left) :
    ∃ request done, running conn = some request ∧ InProgress server conn request done := by
  cases busy : running conn with
  | none =>
      rw [connectionHolds_none busy, next] at holds
      cases holds.1
  | some request =>
      obtain ⟨done, progress⟩ := (connectionHolds_some busy).mp holds
      exact ⟨request, done, rfl, progress⟩

theorem ConnectionHolds.idle (holds : ConnectionHolds server running conn)
    (nothing : (server.connections conn).todo = []) : running conn = none := by
  cases busy : running conn with
  | none => rfl
  | some request =>
      obtain ⟨done, progress⟩ := (connectionHolds_some busy).mp holds
      exact absurd nothing progress.unfinished

theorem commits_eq_false (next : (server.connections conn).todo = statement :: left)
    (other : statement ≠ .commit) : commits server conn = false := by
  rw [commits, next]
  cases statement with
  | commit => exact absurd rfl other
  | _ => rfl

theorem commits_eq_true {tables : Database}
    (next : (server.connections conn).todo = .commit :: left)
    (held : server.held conn = some tables) : commits server conn = true := by
  rw [Server.held] at held
  rw [commits, next]
  cases taken : server.transaction with
  | none =>
      rw [taken] at held
      cases held
  | some transaction =>
      rw [taken] at held
      dsimp only at held ⊢
      split at held
      · rename_i mine
        exact beq_iff_eq.mpr mine
      · cases held

/-- Only one connection is in a transaction. -/
theorem held_unique {tables : Database} (held : server.held conn = some tables) {c : ℕ}
    (different : c ≠ conn) : server.held c = none := by
  rw [Server.held] at held ⊢
  cases taken : server.transaction with
  | none => rfl
  | some transaction =>
      rw [taken] at held
      dsimp only at held ⊢
      split at held
      · rename_i mine
        exact if_neg fun same => different (same.symm.trans mine)
      · cases held

theorem held_fail (server : Server) (conn c : ℕ) :
    (dbStep server (.fail conn)).held c = if c = conn then none else server.held c := by
  cases taken : server.transaction with
  | none => simp [dbStep, Server.held, taken]
  | some transaction =>
      obtain ⟨owner, tables⟩ := transaction
      by_cases mine : owner = conn
      · by_cases here : c = conn
        · simp [dbStep, Server.held, taken, mine, here, Option.filter]
        · simp [dbStep, Server.held, taken, mine, here, Ne.symm here, Option.filter]
      · by_cases here : c = conn
        · simp [dbStep, Server.held, taken, mine, here, Option.filter]
        · simp [dbStep, Server.held, taken, mine, here, Option.filter]

theorem writes_concat (done : List Statement) (statement : Statement) :
    writes (done ++ [statement]) = writes done ++ statement.write.toList := by
  rw [writes_append, writes, writes, List.filterMap_cons, List.filterMap_nil]
  cases statement.write with
  | none => rfl
  | some change => rfl

/-- The tables of a transaction after one more statement that writes. -/
theorem applyWrites_concat (db : Database) (changes : List (Database → Database))
    (change : Database → Database) :
    change ((if changes.isEmpty then none else some (applyWrites db changes)).getD db) =
      applyWrites db (changes ++ [change]) := by
  cases changes with
  | nil => rfl
  | cons first rest => exact (applyWrites_append db (first :: rest) [change]).symm

variable (holds : o.Holds db)

include holds

/-- The commit of a request. -/
theorem Observed.Holds.commit (next : (o.server.connections conn).todo = .commit :: left)
    (executes : Executes o.server after conn .commit left) {request : Numbered Purpose}
    {done : List Statement} (busy : o.requests.running conn = some request)
    (progress : InProgress o.server conn request done) :
    commits o.server conn = true ∧ Observed.Holds db ⟨after, o.requests.commit conn⟩ := by
  have program := progress.program
  rw [next] at program
  obtain ⟨rfl, whole, wrote⟩ := commit_last program
  have held := progress.held
  rw [if_neg (by simpa using wrote), whole] at held
  obtain ⟨committed, released⟩ := executes.commit _ rfl held
  have history : (o.requests.commit conn).history = o.requests.history ++ [request] := by
    rw [Requests.commit, busy]
    rfl
  refine ⟨commits_eq_true next held, ?_, fun c => ?_, holds.requests.commit busy⟩
  · rw [history, serial_concat, ← holds.committed]
    exact committed
  · by_cases same : c = conn
    · subst same
      exact (connectionHolds_none (Function.update_self ..)).mpr ⟨executes.todo, released⟩
    · obtain ⟨connection, heldSame⟩ := executes.others c same
      exact (holds.connections c).frame connection heldSame (Function.update_of_ne same ..)
        (Or.inl (held_unique held same))

/-- A statement that writes, or a query, of a request that has statements left. -/
theorem Observed.Holds.goOn (executes : Executes o.server after conn statement left)
    (next : (o.server.connections conn).todo = statement :: left) (other : statement ≠ .commit)
    (more : left ≠ []) {request : Numbered Purpose} {done : List Statement}
    (busy : o.requests.running conn = some request)
    (progress : InProgress o.server conn request done) :
    Observed.Holds db ⟨after, o.requests⟩ := by
  have same : after.committed = o.server.committed := by
    cases writing : statement.write with
    | none => exact (executes.read writing other).1
    | some change => exact (executes.change change writing).1
  refine ⟨same.trans holds.committed, fun c => ?_, holds.requests⟩
  by_cases here : c = conn
  · subst here
    refine (connectionHolds_some busy).mpr ⟨done ++ [statement], ?_, ?_, ?_⟩
    · rw [progress.program, next, executes.todo, List.append_assoc]
      rfl
    · rw [executes.todo]
      exact more
    · dsimp only
      rw [writes_concat, same]
      cases writing : statement.write with
      | none =>
          rw [(executes.read writing other).2, progress.held]
          simp
      | some change =>
          rw [(executes.change change writing).2, progress.held,
            applyWrites_concat _ _ change]
          simp
  · obtain ⟨connection, heldSame⟩ := executes.others c here
    exact (holds.connections c).frame connection heldSame rfl (Or.inr same)

/-- The last query of a request that does not write. -/
theorem Observed.Holds.finish (executes : Executes o.server after conn statement [])
    (next : (o.server.connections conn).todo = [statement]) (other : statement ≠ .commit)
    {request : Numbered Purpose} {done : List Statement}
    (busy : o.requests.running conn = some request)
    (progress : InProgress o.server conn request done) :
    Observed.Holds db ⟨after, o.requests.finish conn⟩ := by
  have program := progress.program
  rw [next] at program
  have reading : ¬ request.2.Writes := fun changes => other (commit_of_last program changes)
  have silent : ∀ s ∈ request.2.statements, s.write = none := by
    rcases request.2.statements_cases with ⟨before, statements, -⟩ | ⟨silent, -⟩
    · rw [statements] at program
      exact absurd (List.cons.inj (List.append_inj_right' program rfl)).1.symm other
    · exact fun s member => (silent s member).2
  have noWrites : writes done = [] := by
    refine List.filterMap_eq_nil_iff.mpr fun s member => silent s ?_
    rw [program]
    exact List.mem_append_left _ member
  have quiet : statement.write = none := by
    refine silent statement ?_
    rw [program]
    exact List.mem_concat_self
  obtain ⟨same, heldSame⟩ := executes.read quiet other
  refine ⟨same.trans holds.committed, fun c => ?_, holds.requests.finish fun q found => ?_⟩
  · by_cases here : c = conn
    · subst here
      refine (connectionHolds_none (Function.update_self ..)).mpr ⟨executes.todo, ?_⟩
      rw [heldSame, progress.held, noWrites]
      rfl
    · obtain ⟨connection, heldSame⟩ := executes.others c here
      exact (holds.connections c).frame connection heldSame (Function.update_of_ne here ..)
        (Or.inr same)
  · rw [busy, Option.some.injEq] at found
    rw [← found]
    exact reading

theorem Observed.Holds.execute (conn : ℕ) : (observe o (.execute conn)).Holds db := by
  rw [observe]
  cases next : (o.server.connections conn).todo with
  | nil =>
      have idle := (holds.connections conn).idle next
      have nothing : commits o.server conn = false := by rw [commits, next]
      have same : dbStep o.server (.execute conn) = o.server := by
        rw [dbStep, Server.exec, next]
      have run : (o.requests.finish conn).running = o.requests.running := by
        rw [Requests.finish]
        dsimp only
        rw [← idle, Function.update_eq_self]
      rw [nothing, same, next]
      refine ⟨holds.committed, fun c => ?_, holds.requests.finish fun q found => ?_⟩
      · dsimp only [List.isEmpty_nil, if_true]
        exact (holds.connections c).frame rfl rfl (congrFun run c) (Or.inr rfl)
      · rw [idle] at found
        cases found
  | cons statement left =>
      obtain ⟨request, done, busy, progress⟩ := (holds.connections conn).busy next
      rw [show dbStep o.server (.execute conn) = o.server.exec conn from rfl]
      rcases exec_spec next with ⟨waits, other⟩ | executes
      · rw [commits_eq_false next other, waits, next]
        exact holds
      · by_cases isCommit : statement = .commit
        · subst isCommit
          obtain ⟨yes, committed⟩ := holds.commit next executes busy progress
          rw [yes]
          exact committed
        · rw [commits_eq_false next isCommit, executes.todo]
          cases left with
          | nil => exact holds.finish executes next isCommit busy progress
          | cons following rest =>
              exact holds.goOn executes next isCommit (List.cons_ne_nil _ _) busy progress

/-- An exception undoes what its connection has written. -/
theorem Observed.Holds.fail (conn : ℕ) : (observe o (.fail conn)).Holds db := by
  have sound : (o.requests.drop conn).Sound Purpose.Writes := by
    cases busy : o.requests.running conn with
    | none =>
        rw [Requests.drop_of_none busy]
        refine holds.requests.finish fun q found => ?_
        rw [busy] at found
        cases found
    | some request => exact holds.requests.drop busy
  refine ⟨holds.committed, fun c => ?_, sound⟩
  by_cases here : c = conn
  · subst here
    exact (connectionHolds_none (Function.update_self ..)).mpr
      ⟨todo_setConnection .., (held_fail o.server c c).trans (if_pos rfl)⟩
  · exact (holds.connections c).frame (Function.update_of_ne here ..)
      ((held_fail o.server conn c).trans (if_neg here)) (Function.update_of_ne here ..)
      (Or.inr rfl)

theorem Observed.Holds.connect (conn : ℕ) (purpose : Purpose) :
    (observe o (.connect conn purpose)).Holds db := by
  cases next : (o.server.connections conn).todo with
  | cons statement left =>
      have same : observe o (.connect conn purpose) = o := by
        rw [observe, dbStep, next]
        rfl
      rw [same]
      exact holds
  | nil =>
      have idle := (holds.connections conn).idle next
      have free := ((connectionHolds_none idle).mp (holds.connections conn)).2
      have begun : observe o (.connect conn purpose) =
          ⟨o.server.setConnection conn
            { o.server.connections conn with todo := purpose.statements },
            o.requests.begin conn purpose⟩ := by
        rw [observe, dbStep, next]
        rfl
      rw [begun]
      refine ⟨holds.committed, fun c => ?_, holds.requests.begin idle purpose⟩
      by_cases here : c = conn
      · subst here
        refine (connectionHolds_some (Function.update_self ..)).mpr ⟨[], ?_, ?_, free⟩
        · rw [todo_setConnection]
          rfl
        · rw [todo_setConnection]
          cases purpose <;> exact List.cons_ne_nil _ _
      · exact (holds.connections c).frame (Function.update_of_ne here ..) rfl
          (Function.update_of_ne here ..) (Or.inr rfl)

/-- **Step lemma.** -/
theorem Observed.Holds.step (event : DbEvent) : (observe o event).Holds db := by
  cases event with
  | connect conn purpose => exact holds.connect conn purpose
  | execute conn => exact holds.execute conn
  | fail conn => exact holds.fail conn

end Invariant

theorem Observed.holds_start (db : Database) : (Observed.start db).Holds db :=
  ⟨rfl, fun _ => ⟨rfl, rfl⟩, Requests.sound_none⟩

/-- **Run lemma.** -/
theorem Observed.holds_run (db : Database) (events : List DbEvent) :
    (exec observe (.start db) events).Holds db :=
  exec_invariant (holds_start db) fun p _ holds => holds.step p.2

/-- The history only grows. -/
theorem history_grows (o : Observed) (events : List DbEvent) :
    o.requests.history <+: (exec observe o events).requests.history := by
  induction events generalizing o with
  | nil => exact List.prefix_rfl
  | cons event rest ih =>
      refine List.IsPrefix.trans ?_ (ih (observe o event))
      cases event with
      | connect conn purpose => rw [observe]; split <;> exact List.prefix_rfl
      | execute conn =>
          rw [observe]
          split
          · exact List.prefix_append _ _
          · split <;> exact List.prefix_rfl
      | fail conn => exact List.prefix_rfl

/-- **Serial history.** In any interleaving of the statements of any requests, of
which some are dropped by exceptions, the committed state is that of the
committed requests executed whole, one after the other, in the order of their
commits, to which later events only add. A committed request is one that was
begun, is there once, and has not failed; a request that writes is committed, or
has failed, or is still running. -/
theorem serial_history (db : Database) (events : List DbEvent) :
    let o := exec observe (.start db) events
    o.server = exec dbStep (.start db) events ∧
      o.server.committed = serial db o.requests.history ∧
      (∀ more, o.requests.history <+:
        (exec observe (.start db) (events ++ more)).requests.history) ∧
      (o.requests.history.map Prod.fst).Nodup ∧
      (∀ request ∈ o.requests.history,
        o.requests.opened[request.1]? = some request.2 ∧ request ∉ o.requests.failed) ∧
      ∀ request : Numbered Purpose, o.requests.opened[request.1]? = some request.2 →
        request.2.Writes →
        request ∈ o.requests.history ∨ request ∈ o.requests.failed ∨
          ∃ conn, o.requests.running conn = some request := by
  intro o
  have holds := Observed.holds_run db events
  refine ⟨exec_observe_server _ _, holds.committed, fun more => ?_, holds.requests.once,
    fun request member => ⟨holds.requests.history request member, fun failed => ?_⟩,
    holds.requests.complete⟩
  · rw [exec_append]
    exact history_grows _ more
  · exact holds.requests.apart request failed (List.mem_map_of_mem member)

end EbpfNids.Backend
