import EbpfNids.Backend.Messages
import EbpfNids.Library.Runs
import Mathlib.Algebra.BigOperators.Group.List.Lemmas
import Mathlib.Data.List.Sort

/-!
# Statistics while others write

Every request and every message of the loader has its own connection to the
database and executes its statements one after the other. A first `INSERT` or
`DELETE` opens the transaction of a connection, of which there is one at a time,
and `commit` makes what it wrote the committed state. A `SELECT` of a connection
without a transaction reads the committed state.

`GET /api/stats` executes three of them and takes no transaction around them, so
commits of others fall in between. Its answers fit together as long as the
number of alerts is the same for the first and the second, and the counts by
type or the latest flow rates are the same for the second and the third
(`stats_of_one_state`).
-/

set_option autoImplicit false

namespace EbpfNids.Backend

open Library Library.Runs

/-! ## The database -/

/-- The rows of the two tables, in the order of their ids, and the last ids given
out. -/
structure Database where
  alerts : List AlertRow
  flowRates : List FlowRow
  lastAlertId : ℕ
  lastFlowId : ℕ

inductive Statement where
  | insertAlert (row : AlertRow)
  | insertFlowRate (row : FlowRow)
  | deleteAlerts
  | deleteFlowRates
  | commit
  | selectCount
  | selectTypes
  | selectFlowRates

/-- What a statement that writes does to the tables. -/
def Statement.write : Statement → Option (Database → Database)
  | .insertAlert row => some fun db => { db with
      alerts := db.alerts ++ [{ row with id := db.lastAlertId + 1 }]
      lastAlertId := db.lastAlertId + 1 }
  | .insertFlowRate row => some fun db => { db with
      flowRates := db.flowRates ++ [{ row with id := db.lastFlowId + 1 }]
      lastFlowId := db.lastFlowId + 1 }
  | .deleteAlerts => some fun db => { db with alerts := [] }
  | .deleteFlowRates => some fun db => { db with flowRates := [] }
  | _ => none

/-- `SELECT alert_type, COUNT(*) FROM alerts GROUP BY alert_type` -/
def typeCount (alerts : List AlertRow) : List (Text × ℕ) :=
  let types := alerts.map (·.alertType)
  (types.dedup.insertionSort (· ≤ ·)).map fun type => (type, types.count type)

/-- `SELECT … FROM flow_rates ORDER BY id DESC LIMIT 10` -/
def latestFlows (flowRates : List FlowRow) : List FlowRow := flowRates.reverse.take 10

/-! ## Requests and messages -/

/-- What a connection is opened for. -/
inductive Purpose where
  | saveAlert (row : AlertRow)
  | saveFlowRate (row : FlowRow)
  | clearAll
  | stats

/-- The statements that a connection executes. -/
def Purpose.statements : Purpose → List Statement
  | .saveAlert row => [.insertAlert row, .commit]
  | .saveFlowRate row => [.insertFlowRate row, .commit]
  | .clearAll => [.deleteAlerts, .deleteFlowRates, .commit]
  | .stats => [.selectCount, .selectTypes, .selectFlowRates]

/-- A successful response of `/api/stats`. -/
structure StatsResponse where
  totalAlerts : ℕ
  typeCount : List (Text × ℕ)
  latestFlows : List FlowRow

/-- The statistics of one state of the database. -/
def statsOf (db : Database) : StatsResponse :=
  ⟨db.alerts.length, typeCount db.alerts, latestFlows db.flowRates⟩

/-- The statements left to a connection, what its first two queries have given,
and the state that the second one read. -/
structure Connection where
  todo : List Statement
  totalAlerts : ℕ
  typeCount : List (Text × ℕ)
  typesFrom : Database

/-- The committed state, the states that were committed before it, the
connection that is in a transaction with the tables as it sees them, the
connections, and the responses of `/api/stats`. -/
structure Server where
  committed : Database
  past : List Database
  transaction : Option (ℕ × Database)
  connections : ℕ → Connection
  responses : List StatsResponse

def Server.start (db : Database) : Server :=
  ⟨db, [], none, fun _ => ⟨[], 0, [], db⟩, []⟩

inductive DbEvent where
  /-- A connection is opened and begins its statements. -/
  | connect (conn : ℕ) (purpose : Purpose)
  /-- A connection executes its next statement. -/
  | execute (conn : ℕ)
  /-- An exception: the connection is dropped and its transaction undone. -/
  | fail (conn : ℕ)

namespace Server

variable (server : Server)

def setConnection (conn : ℕ) (connection : Connection) : Server :=
  { server with connections := Function.update server.connections conn connection }

/-- A writing statement waits while another connection is in a transaction. -/
def execWrite (conn : ℕ) (left : List Statement) (write : Database → Database) : Server :=
  let after := server.setConnection conn { server.connections conn with todo := left }
  match server.transaction with
  | none => { after with transaction := some (conn, write server.committed) }
  | some (owner, tables) =>
      if owner = conn then { after with transaction := some (conn, write tables) } else server

def execCommit (conn : ℕ) (left : List Statement) : Server :=
  let after := server.setConnection conn { server.connections conn with todo := left }
  match server.transaction with
  | none => after
  | some (owner, tables) =>
      if owner = conn then
        { after with
          committed := tables, past := server.committed :: server.past, transaction := none }
      else after

def execSelectCount (conn : ℕ) (left : List Statement) : Server :=
  server.setConnection conn { server.connections conn with
    todo := left, totalAlerts := server.committed.alerts.length }

def execSelectTypes (conn : ℕ) (left : List Statement) : Server :=
  server.setConnection conn { server.connections conn with
    todo := left, typeCount := Backend.typeCount server.committed.alerts
    typesFrom := server.committed }

/-- The last query, after which the response is put together. -/
def execSelectFlowRates (conn : ℕ) (left : List Statement) : Server :=
  let connection := server.connections conn
  { server.setConnection conn { connection with todo := left } with
    responses := server.responses ++
      [⟨connection.totalAlerts, connection.typeCount,
        latestFlows server.committed.flowRates⟩] }

def exec (conn : ℕ) : Server :=
  match (server.connections conn).todo with
  | [] => server
  | .commit :: left => server.execCommit conn left
  | .selectCount :: left => server.execSelectCount conn left
  | .selectTypes :: left => server.execSelectTypes conn left
  | .selectFlowRates :: left => server.execSelectFlowRates conn left
  | statement :: left =>
      match statement.write with
      | some write => server.execWrite conn left write
      | none => server

end Server

def dbStep (server : Server) : DbEvent → Server
  | .connect conn purpose =>
      match (server.connections conn).todo with
      | [] => server.setConnection conn { server.connections conn with todo := purpose.statements }
      | _ :: _ => server
  | .execute conn => server.exec conn
  | .fail conn =>
      let after := server.setConnection conn { server.connections conn with todo := [] }
      { after with transaction := server.transaction.filter (·.1 ≠ conn) }

/-! ## Statistics of one state -/

/-- Every alert is counted under one type. -/
theorem sum_typeCount (alerts : List AlertRow) :
    ((typeCount alerts).map Prod.snd).sum = alerts.length := by
  let types := alerts.map (·.alertType)
  have sorted : (types.dedup.insertionSort (· ≤ ·)).Perm types.dedup := List.perm_insertionSort _ _
  calc ((typeCount alerts).map Prod.snd).sum
      = ((types.dedup.insertionSort (· ≤ ·)).map fun type => types.count type).sum := by
        rw [typeCount, List.map_map]
        rfl
    _ = (types.dedup.map fun type => types.count type).sum := (sorted.map _).sum_eq
    _ = types.length := by
        have sameEq : (instBEqOfDecidableEq : BEq Text) = List.instBEq :=
          lawful_beq_subsingleton _ _
        have counts := List.sum_map_count_dedup_eq_length types
        rw [sameEq] at counts
        exact counts
    _ = alerts.length := List.length_map _

/-- The committed states so far. -/
def Server.states (server : Server) : List Database := server.committed :: server.past

/-- The total is the sum of the counts, and all three answers are those of one
committed state. -/
def StatsResponse.Consistent (states : List Database) (response : StatsResponse) : Prop :=
  response.totalAlerts = (response.typeCount.map Prod.snd).sum ∧
    ∃ db ∈ states, response = statsOf db

/-- The second query of a connection meets as many alerts as the first one has
counted. The third one meets the counts by type of the second one, or the
latest flow rates of the state that the second one read. -/
def Undisturbed (p : Server × DbEvent) : Prop :=
  match p.2 with
  | .execute conn =>
      let connection := p.1.connections conn
      match connection.todo with
      | .selectTypes :: _ => p.1.committed.alerts.length = connection.totalAlerts
      | .selectFlowRates :: _ =>
          typeCount p.1.committed.alerts = connection.typeCount ∨
            latestFlows p.1.committed.flowRates = latestFlows connection.typesFrom.flowRates
      | _ => True
  | _ => True

/-! ## The invariant -/

/-- A connection is somewhere in its statements. Before the last query of the
statistics, both counts are those of the state that the second query read. -/
structure ConnectionSound (states : List Database) (connection : Connection) : Prop where
  program : ∃ purpose : Purpose, connection.todo <:+ purpose.statements
  counted : connection.todo = [.selectFlowRates] →
    connection.typesFrom ∈ states ∧
      connection.totalAlerts = connection.typesFrom.alerts.length ∧
      connection.typeCount = typeCount connection.typesFrom.alerts

structure Server.Sound (server : Server) : Prop where
  connections : ∀ conn, ConnectionSound server.states (server.connections conn)
  responses : ∀ response ∈ server.responses, ∃ db ∈ server.states, response = statsOf db

section Programs

variable {statement : Statement} {left : List Statement} {purpose : Purpose}

/-- The last query of the statistics comes after the query of the types. -/
theorem selectTypes_of_suffix (program : statement :: left <:+ purpose.statements)
    (last : left = [.selectFlowRates]) : statement = .selectTypes := by
  subst last
  cases purpose with
  | saveAlert row => simp [Purpose.statements, List.suffix_cons_iff] at program
  | saveFlowRate row => simp [Purpose.statements, List.suffix_cons_iff] at program
  | clearAll => simp [Purpose.statements, List.suffix_cons_iff] at program
  | stats => simpa [Purpose.statements, List.suffix_cons_iff] using program

/-- It is the last statement. -/
theorem nil_of_selectFlowRates
    (program : .selectFlowRates :: left <:+ purpose.statements) : left = [] := by
  cases purpose with
  | saveAlert row => simp [Purpose.statements, List.suffix_cons_iff] at program
  | saveFlowRate row => simp [Purpose.statements, List.suffix_cons_iff] at program
  | clearAll => simp [Purpose.statements, List.suffix_cons_iff] at program
  | stats => simpa [Purpose.statements, List.suffix_cons_iff] using program

theorem statements_ne_last (purpose : Purpose) : purpose.statements ≠ [.selectFlowRates] := by
  cases purpose with
  | saveAlert row => simp [Purpose.statements]
  | saveFlowRate row => simp [Purpose.statements]
  | clearAll => simp [Purpose.statements]
  | stats => simp [Purpose.statements]

end Programs

section Sound

variable {server : Server} {states : List Database} {connection : Connection}

theorem ConnectionSound.mono {later : List Database} (sound : ConnectionSound states connection)
    (grown : states ⊆ later) : ConnectionSound later connection :=
  ⟨sound.program, fun last => ⟨grown (sound.counted last).1, (sound.counted last).2⟩⟩

/-- A statement that is not the query of the types leaves a connection sound. -/
theorem ConnectionSound.advance {statement : Statement} {left : List Statement}
    (sound : ConnectionSound states connection) (next : connection.todo = statement :: left)
    (other : statement ≠ .selectTypes) (after : Connection) (advanced : after.todo = left) :
    ConnectionSound states after := by
  obtain ⟨purpose, program⟩ := sound.program
  rw [next] at program
  refine ⟨⟨purpose, advanced ▸ (List.suffix_cons statement left).trans program⟩, fun last => ?_⟩
  exact absurd (selectTypes_of_suffix program (advanced.symm.trans last)) other

theorem Server.Sound.setConnection (sound : server.Sound) (conn : ℕ)
    (changed : ConnectionSound server.states connection) :
    (server.setConnection conn connection).Sound := by
  refine ⟨fun c => ?_, sound.responses⟩
  show ConnectionSound server.states (Function.update server.connections conn connection c)
  by_cases same : c = conn
  · rw [same, Function.update_self]
    exact changed
  · rw [Function.update_of_ne same]
    exact sound.connections c

/-- A transaction may change, and committed states may be added. -/
theorem Server.Sound.grow {later : Server} (sound : server.Sound)
    (grown : server.states ⊆ later.states) (connections : later.connections = server.connections)
    (responses : later.responses = server.responses) : later.Sound := by
  refine ⟨fun conn => ?_, fun response member => ?_⟩
  · rw [connections]
    exact (sound.connections conn).mono grown
  · rw [responses] at member
    obtain ⟨db, inStates, same⟩ := sound.responses response member
    exact ⟨db, grown inStates, same⟩

theorem sound_execWrite (sound : server.Sound) {conn : ℕ} {statement : Statement}
    {left : List Statement} (next : (server.connections conn).todo = statement :: left)
    (other : statement ≠ .selectTypes) (write : Database → Database) :
    (server.execWrite conn left write).Sound := by
  have advanced := sound.setConnection conn
    ((sound.connections conn).advance next other
      { server.connections conn with todo := left } rfl)
  rw [Server.execWrite]
  cases server.transaction with
  | none => exact advanced.grow (List.Subset.refl _) rfl rfl
  | some held =>
      obtain ⟨owner, tables⟩ := held
      dsimp only
      split
      · exact advanced.grow (List.Subset.refl _) rfl rfl
      · exact sound

theorem sound_execCommit (sound : server.Sound) {conn : ℕ} {left : List Statement}
    (next : (server.connections conn).todo = .commit :: left) :
    (server.execCommit conn left).Sound := by
  have advanced := sound.setConnection conn
    ((sound.connections conn).advance next (by simp)
      { server.connections conn with todo := left } rfl)
  rw [Server.execCommit]
  cases server.transaction with
  | none => exact advanced
  | some held =>
      obtain ⟨owner, tables⟩ := held
      dsimp only
      split
      · exact advanced.grow (List.subset_cons_self _ _) rfl rfl
      · exact advanced

/-- The second query: with as many alerts as were counted, both counts are those
of the state that it reads. -/
theorem sound_execSelectTypes (sound : server.Sound) {conn : ℕ} {left : List Statement}
    (next : (server.connections conn).todo = .selectTypes :: left)
    (undisturbed : server.committed.alerts.length = (server.connections conn).totalAlerts) :
    (server.execSelectTypes conn left).Sound := by
  obtain ⟨purpose, program⟩ := (sound.connections conn).program
  rw [next] at program
  refine sound.setConnection conn ⟨⟨purpose, ?_⟩, fun _ => ⟨?_, undisturbed.symm, rfl⟩⟩
  · exact (List.suffix_cons _ left).trans program
  · exact List.mem_cons_self

/-- The total of a response is the sum of its counts if and only if its second
query met as many alerts as its first had counted. -/
theorem totals_agree_iff (server : Server) (conn : ℕ) (left : List Statement) :
    let after := (server.execSelectTypes conn left).connections conn
    after.totalAlerts = (after.typeCount.map Prod.snd).sum ↔
      server.committed.alerts.length = (server.connections conn).totalAlerts := by
  dsimp only [Server.execSelectTypes, Server.setConnection]
  rw [Function.update_self]
  dsimp only
  rw [sum_typeCount, eq_comm]

/-- The last query: the response is that of the state that the second query
read, or of the state that this one reads. -/
theorem sound_execSelectFlowRates (sound : server.Sound) {conn : ℕ} {left : List Statement}
    (next : (server.connections conn).todo = .selectFlowRates :: left)
    (undisturbed : typeCount server.committed.alerts = (server.connections conn).typeCount ∨
      latestFlows server.committed.flowRates =
        latestFlows (server.connections conn).typesFrom.flowRates) :
    (server.execSelectFlowRates conn left).Sound := by
  obtain ⟨purpose, program⟩ := (sound.connections conn).program
  rw [next] at program
  obtain rfl := nil_of_selectFlowRates program
  obtain ⟨seen, total, types⟩ := (sound.connections conn).counted next
  have advanced := sound.setConnection conn
    ((sound.connections conn).advance next (by simp)
      { server.connections conn with todo := [] } rfl)
  refine ⟨advanced.connections, fun response member => ?_⟩
  rcases List.mem_append.mp member with earlier | new
  · exact sound.responses response earlier
  · obtain rfl := List.mem_singleton.mp new
    rcases undisturbed with sameTypes | sameFlows
    · refine ⟨server.committed, List.mem_cons_self, ?_⟩
      have sameTotal : (server.connections conn).totalAlerts = server.committed.alerts.length := by
        rw [total, ← sum_typeCount, ← types, ← sameTypes, sum_typeCount]
      rw [statsOf, sameTotal, sameTypes]
    · refine ⟨(server.connections conn).typesFrom, seen, ?_⟩
      rw [statsOf, total, types, sameFlows]

theorem sound_exec (sound : server.Sound) {conn : ℕ}
    (undisturbed : Undisturbed (server, .execute conn)) : (server.exec conn).Sound := by
  rw [Undisturbed] at undisturbed
  dsimp only at undisturbed
  rw [Server.exec]
  cases next : (server.connections conn).todo with
  | nil => exact sound
  | cons statement left =>
      rw [next] at undisturbed
      cases statement with
      | insertAlert row => exact sound_execWrite sound next (by simp) _
      | insertFlowRate row => exact sound_execWrite sound next (by simp) _
      | deleteAlerts => exact sound_execWrite sound next (by simp) _
      | deleteFlowRates => exact sound_execWrite sound next (by simp) _
      | commit => exact sound_execCommit sound next
      | selectCount =>
          exact sound.setConnection conn
            ((sound.connections conn).advance next (by simp) _ rfl)
      | selectTypes => exact sound_execSelectTypes sound next undisturbed
      | selectFlowRates => exact sound_execSelectFlowRates sound next undisturbed

/-- **One step.** An undisturbed step keeps every response that of one committed
state. -/
theorem sound_dbStep (sound : server.Sound) {event : DbEvent}
    (undisturbed : Undisturbed (server, event)) : (dbStep server event).Sound := by
  cases event with
  | connect conn purpose =>
      rw [dbStep]
      cases (server.connections conn).todo with
      | nil =>
          refine sound.setConnection conn ⟨⟨purpose, List.suffix_refl _⟩, fun last => ?_⟩
          exact absurd last (statements_ne_last purpose)
      | cons statement left => exact sound
  | execute conn => exact sound_exec sound undisturbed
  | fail conn =>
      have dropped : ConnectionSound server.states { server.connections conn with todo := [] } :=
        ⟨⟨.stats, List.nil_suffix⟩, fun last => absurd last (List.cons_ne_nil _ _).symm⟩
      exact (sound.setConnection conn dropped).grow (List.Subset.refl _) rfl rfl

theorem sound_start (db : Database) : (Server.start db).Sound :=
  ⟨fun _ => ⟨⟨.stats, List.nil_suffix⟩, fun last => absurd last (List.cons_ne_nil _ _).symm⟩,
    fun _ member => absurd member List.not_mem_nil⟩

end Sound

/-- **Consistent statistics.** In a run whose queries of statistics are
undisturbed, every response is that of one state that was committed. -/
theorem stats_of_one_state (db : Database) (events : List DbEvent)
    (undisturbed : ∀ p ∈ steps dbStep (Server.start db) events, Undisturbed p) :
    ∀ response ∈ (Runs.exec dbStep (Server.start db) events).responses,
      response.Consistent (Runs.exec dbStep (Server.start db) events).states := by
  have sound := exec_invariant (P := Server.Sound) (sound_start db)
    fun p member sound => sound_dbStep sound (undisturbed p member)
  intro response member
  obtain ⟨state, inStates, same⟩ := sound.responses response member
  refine ⟨?_, state, inStates, same⟩
  rw [same]
  exact (sum_typeCount state.alerts).symm

/-- A flow rate stored between the first two queries is in the response. -/
theorem flow_rate_in_between :
    let flow : FlowRow := ⟨1, .str (text "10.0.0.1"), 1, 60, 1, 60, 0⟩
    let run := Runs.exec dbStep (Server.start ⟨[], [], 0, 0⟩)
      [.connect 1 .stats, .execute 1, .connect 2 (.saveFlowRate flow), .execute 2, .execute 2,
        .execute 1, .execute 1]
    run.responses = [⟨0, [], [flow]⟩] ∧
      ∀ response ∈ run.responses, response.Consistent run.states := by
  refine ⟨rfl, stats_of_one_state _ _ ?_⟩
  refine List.forall_mem_cons.mpr ⟨trivial, List.forall_mem_cons.mpr ⟨trivial, ?_⟩⟩
  refine List.forall_mem_cons.mpr ⟨trivial, List.forall_mem_cons.mpr ⟨trivial, ?_⟩⟩
  refine List.forall_mem_cons.mpr ⟨trivial, List.forall_mem_cons.mpr ⟨rfl, ?_⟩⟩
  exact List.forall_mem_cons.mpr ⟨Or.inl rfl, List.forall_mem_nil _⟩

/-- An alert stored between the first two queries is counted under its type and
not in the total. -/
theorem alert_in_between :
    let alert : AlertRow := ⟨1, .str (text "10.0.0.1"), .null, text "1", .null, [], 0⟩
    let run := Runs.exec dbStep (Server.start ⟨[], [], 0, 0⟩)
      [.connect 1 .stats, .execute 1, .connect 2 (.saveAlert alert), .execute 2, .execute 2,
        .execute 1, .execute 1]
    ¬ ∀ response ∈ run.responses, response.Consistent run.states := by
  intro alert run consistent
  have response : run.responses = [⟨0, [(text "1", 1)], []⟩] := rfl
  have sums := (consistent ⟨0, [(text "1", 1)], []⟩ (response ▸ List.mem_cons_self)).1
  exact absurd sums (by decide)

end EbpfNids.Backend
