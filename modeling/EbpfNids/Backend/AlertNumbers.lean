import EbpfNids.Backend.SerialHistory
import EbpfNids.Library.Refinement
import EbpfNids.Library.Table

/-!
# The numbers of the alerts

`alerts` and `flow_rates` have an `INTEGER PRIMARY KEY AUTOINCREMENT`, so each is
a table that numbers its rows (`Library.Table`), and a request executed whole
inserts a row or clears both (`effect_refines`). With the serial history it
follows what `GET /api/alerts` answers in any run: the latest alerts saved since
the last clear, at most a hundred, the newest first, each with its place among
all the alerts ever saved. The id of an alert belongs to it for ever, even when
the alert has been cleared (`alerts_numbered`).
-/

set_option autoImplicit false

namespace EbpfNids.Backend

open Library Library.Runs Library.Refinement

/-- The database that `init_db` makes. -/
def initDb : Database := ⟨[], [], 0, 0⟩

/-- `GET /api/alerts`: `SELECT … FROM alerts ORDER BY id DESC LIMIT 100`. -/
def getAlerts (db : Database) : List AlertRow := db.alerts.reverse.take 100

/-! ## The two tables -/

def alertTable (db : Database) : Table AlertRow := ⟨db.alerts, db.lastAlertId⟩

def flowTable (db : Database) : Table FlowRow := ⟨db.flowRates, db.lastFlowId⟩

def AlertRow.number (n : ℕ) (row : AlertRow) : AlertRow := { row with id := n }

def FlowRow.number (n : ℕ) (row : FlowRow) : FlowRow := { row with id := n }

/-- What a request does to the table of alerts. -/
def Purpose.alertOps : Purpose → List (TableOp AlertRow)
  | .saveAlert row => [.insert row]
  | .saveFlowRate _ => []
  | .clearAll => [.clear]
  | .stats => []

def Purpose.flowOps : Purpose → List (TableOp FlowRow)
  | .saveAlert _ => []
  | .saveFlowRate row => [.insert row]
  | .clearAll => [.clear]
  | .stats => []

/-- A request executed whole, as it looks to each table. -/
theorem effect_refines (db : Database) (purpose : Purpose) :
    alertTable (effect db purpose) =
        exec (Table.apply AlertRow.number) (alertTable db) purpose.alertOps ∧
      flowTable (effect db purpose) =
        exec (Table.apply FlowRow.number) (flowTable db) purpose.flowOps := by
  cases purpose with
  | saveAlert row => exact ⟨rfl, rfl⟩
  | saveFlowRate row => exact ⟨rfl, rfl⟩
  | clearAll => exact ⟨rfl, rfl⟩
  | stats => exact ⟨rfl, rfl⟩

/-- What the requests of a history do to the table of alerts. -/
def alertOps (history : List (Numbered Purpose)) : List (TableOp AlertRow) :=
  history.flatMap fun request => request.2.alertOps

def flowOps (history : List (Numbered Purpose)) : List (TableOp FlowRow) :=
  history.flatMap fun request => request.2.flowOps

theorem tables_serial (history : List (Numbered Purpose)) :
    alertTable (serial initDb history) =
        exec (Table.apply AlertRow.number) .empty (alertOps history) ∧
      flowTable (serial initDb history) =
        exec (Table.apply FlowRow.number) .empty (flowOps history) := by
  constructor
  · have refined : alertTable (exec effect initDb (history.map Prod.snd)) =
        exec (Table.apply AlertRow.number) .empty
          (operations effect (fun p => p.2.alertOps) initDb (history.map Prod.snd)) :=
      exec_refines (fun db table => alertTable db = table) rfl
        fun p _ table same => same ▸ (effect_refines p.1 p.2).1
    rw [operations_events, List.flatMap_map] at refined
    exact refined
  · have refined : flowTable (exec effect initDb (history.map Prod.snd)) =
        exec (Table.apply FlowRow.number) .empty
          (operations effect (fun p => p.2.flowOps) initDb (history.map Prod.snd)) :=
      exec_refines (fun db table => flowTable db = table) rfl
        fun p _ table same => same ▸ (effect_refines p.1 p.2).2
    rw [operations_events, List.flatMap_map] at refined
    exact refined

/-! ## What the requests are answered -/

/-- The requests committed by the events of a run that starts with `init_db`. -/
def historyOf (events : List DbEvent) : List (Numbered Purpose) :=
  (exec observe (.start initDb) events).requests.history

/-- All the alerts saved so far, each with its place among them. -/
def savedAlerts (events : List DbEvent) : List AlertRow :=
  Table.numbered AlertRow.number (Table.inserted (alertOps (historyOf events)))

def savedFlows (events : List DbEvent) : List FlowRow :=
  Table.numbered FlowRow.number (Table.inserted (flowOps (historyOf events)))

/-- How many of them have not been cleared. -/
def alertsKept (events : List DbEvent) : ℕ := Table.kept (alertOps (historyOf events))

def flowsKept (events : List DbEvent) : ℕ := Table.kept (flowOps (historyOf events))

/-- What is committed after the events of a run. -/
def committedAfter (events : List DbEvent) : Database :=
  (exec dbStep (.start initDb) events).committed

theorem committedAfter_eq (events : List DbEvent) :
    committedAfter events = serial initDb (historyOf events) := by
  rw [committedAfter, historyOf, ← (Observed.holds_run initDb events).committed,
    exec_observe_server]
  rfl

theorem alertTable_committedAfter (events : List DbEvent) :
    alertTable (committedAfter events) =
      exec (Table.apply AlertRow.number) .empty (alertOps (historyOf events)) := by
  rw [committedAfter_eq]
  exact (tables_serial _).1

theorem flowTable_committedAfter (events : List DbEvent) :
    flowTable (committedAfter events) =
      exec (Table.apply FlowRow.number) .empty (flowOps (historyOf events)) := by
  rw [committedAfter_eq]
  exact (tables_serial _).2

/-- The operations of a longer run begin with those of the shorter one. -/
theorem alertOps_grow (events more : List DbEvent) :
    alertOps (historyOf events) <+: alertOps (historyOf (events ++ more)) := by
  obtain ⟨later, grown⟩ := history_grows (exec observe (.start initDb) events) more
  refine ⟨alertOps later, ?_⟩
  rw [historyOf, historyOf, exec_append, ← grown, alertOps, alertOps, alertOps,
    List.flatMap_append]

theorem AlertRow.id_number (n : ℕ) (row : AlertRow) : (row.number n).id = n := rfl

theorem rtake_reverse {α : Type*} (l : List α) (n : ℕ) :
    (l.rtake n).reverse = l.reverse.take n := by
  rw [List.rtake_eq_reverse_take_reverse, List.reverse_reverse]

/-- **The numbers of the alerts.** Whatever requests are interleaved and fail:
`GET /api/alerts` answers with the latest of all alerts saved, each numbered with
its place among them, those that have not been cleared, at most a hundred, with
decreasing ids; the statistics list the latest flow rates likewise, at most ten.
Alerts in two committed states with the same id are the same alert. -/
theorem alerts_numbered (events : List DbEvent) :
    getAlerts (committedAfter events) =
        (savedAlerts events).reverse.take (min 100 (alertsKept events)) ∧
      (getAlerts (committedAfter events)).Pairwise (fun newer older => older.id < newer.id) ∧
      latestFlows (committedAfter events).flowRates =
        (savedFlows events).reverse.take (min 10 (flowsKept events)) ∧
      (committedAfter events).lastAlertId = (savedAlerts events).length ∧
      ∀ more, ∀ a ∈ (committedAfter events).alerts,
        ∀ b ∈ (committedAfter (events ++ more)).alerts, a.id = b.id → a = b := by
  have alerts := (alertTable_committedAfter events).trans (Table.exec_apply _)
  have flows := (flowTable_committedAfter events).trans (Table.exec_apply _)
  have latest : getAlerts (committedAfter events) =
      (savedAlerts events).reverse.take (min 100 (alertsKept events)) := by
    rw [getAlerts, show (committedAfter events).alerts = _ from congrArg Table.rows alerts,
      rtake_reverse, List.take_take]
    rfl
  refine ⟨latest, ?_, ?_, ?_, ?_⟩
  · rw [latest]
    refine List.Pairwise.sublist (List.take_sublist _ _) (List.pairwise_reverse.mpr ?_)
    exact Table.pairwise_numbered AlertRow.id AlertRow.id_number _
  · rw [latestFlows, show (committedAfter events).flowRates = _ from congrArg Table.rows flows,
      rtake_reverse, List.take_take]
    rfl
  · rw [savedAlerts, Table.length_numbered]
    exact congrArg Table.last alerts
  · intro more a here b there same
    have first := congrArg Table.rows (alertTable_committedAfter events)
    have second := congrArg Table.rows (alertTable_committedAfter (events ++ more))
    refine Table.number_of_one_row AlertRow.id AlertRow.id_number (alertOps_grow events more) ?_ ?_
      same
    · rw [← first]
      exact here
    · rw [← second]
      exact there

end EbpfNids.Backend
