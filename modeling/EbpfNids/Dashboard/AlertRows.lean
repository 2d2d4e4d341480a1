import EbpfNids.Backend.AlertNumbers
import Mathlib.Data.Fin.VecNotation
import Mathlib.Data.List.Infix

/-!
# What the dashboard makes of the answers

`fetchAlerts` reads the answer of `/api/alerts` and makes a row of each of its
first ten alerts; `ws.onmessage` formats the alert of a push in the same way. An
attack type that is a string gives the label and the class of the tag, one that
counts as false is `unknown`, and any other value has no `replace`: then the
whole refresh fails. `fetchAttackTypes` reads the counts by type of
`/api/stats`, and looks their keys up in a table of names.

The answers are those of `get_alerts` and `stats`. Of the alerts of a database
whose attack types are texts the table shows the ten newest, the newest first
(`fetchAlerts_getAlerts`), and the chart counts each alert once
(`fetchAttackTypes_stats`).
-/

set_option autoImplicit false

open Library Library.Decimal

namespace EbpfNids.Backend

/-! ## The answers of the backend -/

def alertObject (row : AlertRow) : Json :=
  .obj [(text "id", .int row.id), (text "src_ip", row.srcIp), (text "dst_ip", row.dstIp),
    (text "alert_type", .str row.alertType), (text "attack_type", row.attackType),
    (text "src_loc", .str row.srcLoc), (text "timestamp_ns", .int row.timestampNs)]

def flowObject (row : FlowRow) : Json :=
  .obj [(text "ip", row.ip), (text "pps", .int row.pps),
    (text "bytes_per_sec", .int row.bytesPerSec), (text "total_pkts", .int row.totalPkts),
    (text "total_bytes", .int row.totalBytes), (text "timestamp", .int row.timestamp)]

/-- What `get_alerts` answers with. -/
def alertsResponse (db : Database) : Json :=
  .obj [(text "code", .int 200), (text "data", .arr ((getAlerts db).map alertObject))]

/-- What `stats` answers with. -/
def statsResponse (stats : StatsResponse) : Json :=
  .obj [(text "code", .int 200), (text "total_alerts", .int stats.totalAlerts),
    (text "type_count", .obj (stats.typeCount.map fun count => (count.1, .int count.2))),
    (text "latest_flows", .arr (stats.latestFlows.map flowObject))]

end EbpfNids.Backend

namespace EbpfNids.Dashboard

open EbpfNids.Backend

/-! ## Values -/

/-- What is left to the browser: which numerals that are no integers are zero, the
capitals of the characters beyond ASCII, and the texts of times, which an integer
always has. -/
structure Browser where
  isZero : Text → Bool
  upper : ℕ → Text
  timeOfInt : ℤ → Text
  timeOfOther : Json → Option Text

section Values

variable (browser : Browser)

/-- What counts as true. -/
def jsTruthy : Json → Bool
  | .null => false
  | .bool b => b
  | .int z => z != 0
  | .float literal => !browser.isZero literal
  | .str s => !s.isEmpty
  | .arr _ => true
  | .obj _ => true

/-- `value || fallback`, where the value may be undefined. -/
def orElse (value : Option Json) (fallback : Json) : Json :=
  match value with
  | some v => if jsTruthy browser v then v else fallback
  | none => fallback

/-- `value.key`. Only `null` has no properties at all. -/
def prop (v : Json) (key : String) : Option (Option Json) :=
  match v with
  | .null => none
  | .obj fields => some (getField fields (text key))
  | _ => some none

/-- A method of strings can be called. -/
def asString : Json → Option Text
  | .str s => some s
  | _ => none

/-- `toUpperCase` of a character. -/
def upperChar (c : ℕ) : Text :=
  if c < 128 then [if 97 ≤ c ∧ c ≤ 122 then c - 32 else c] else browser.upper c

/-- `text.replace(/_/g, ' ').toUpperCase()` -/
def typeLabel (s : Text) : Text :=
  (s.map fun c => if c = 95 then 32 else c).flatMap (upperChar browser)

/-- `new Date(value).toLocaleTimeString('zh-CN', …)` -/
def localeTime : Json → Option Text
  | .int z => some (browser.timeOfInt z)
  | v => browser.timeOfOther v

end Values

def includes (s part : Text) : Bool := decide (part <:+: s)

/-! ## Alerts -/

/-- The tests of an attack type, in their order, and what is chosen by each. -/
def chosenBy {α : Type*} (type : Text) (syn scan ssh dns other : α) : α :=
  if includes type (text "syn") || includes type (text "flood") then syn
  else if includes type (text "scan") || includes type (text "port") then scan
  else if includes type (text "ssh") || includes type (text "brute") then ssh
  else if includes type (text "dns") || includes type (text "amp") then dns
  else other

def tagClass (type : Text) : Text :=
  chosenBy type (text "tag-syn-flood") (text "tag-port-scan") (text "tag-ssh-brute")
    (text "tag-dns-amp") (text "tag-other")

/-- The icon of a toast. -/
def icon (type : Text) : Text :=
  chosenBy type (text "🌊") (text "🔍") (text "🔑") (text "📡") (text "🚨")

structure AlertData where
  srcIp : Json
  type : Text
  typeRaw : Text
  port : Json
  srcLoc : Json
  tagClass : Text

/-- A row of the table. -/
structure TableRow extends AlertData where
  time : Text

section Alerts

variable (browser : Browser)

/-- The part that `fetchAlerts` and `ws.onmessage` have in common; nothing when it
raises. -/
def alertData (data : Json) : Option AlertData := do
  let type ← asString (orElse browser (← prop data "attack_type") (.str (text "unknown")))
  return {
    srcIp := orElse browser (← prop data "src_ip") (.str (text "--"))
    type := typeLabel browser type
    typeRaw := type
    port := orElse browser (← prop data "dst_ip") (.str (text "--"))
    srcLoc := orElse browser (← prop data "src_loc") (.str (text "未知"))
    tagClass := tagClass type }

/-- `a.timestamp_ns ? new Date(a.timestamp_ns).toLocaleTimeString(…) : '--:--:--'` -/
def alertTime (a : Json) : Option Text := do
  match ← prop a "timestamp_ns" with
  | none => return text "--:--:--"
  | some timestamp =>
      if jsTruthy browser timestamp then localeTime browser timestamp
      else return text "--:--:--"

def fetchAlert (a : Json) : Option TableRow := do
  let data ← alertData browser a
  let time ← alertTime browser a
  return { data with time := time }

/-- `fetchAlerts`, of the JSON of the response. Only arrays can be cut and mapped. -/
def fetchAlerts (json : Json) : Option (List TableRow) := do
  match orElse browser (← prop json "data") (.arr []) with
  | .arr alerts => (alerts.take 10).mapM (fetchAlert browser)
  | _ => none

end Alerts

/-! ## Counts by type -/

/-- The name of a slice: a text, or a property that every object has. -/
inductive SliceName where
  | text (name : Text)
  | inherited (key : Text)
deriving DecidableEq

def typeNames : List (Text × Text) :=
  [(text "syn_flood", text "SYN Flood"), (text "port_scan", text "端口扫描"),
    (text "ssh_brute", text "SSH 爆破"), (text "dns_amp", text "DNS 放大"),
    (text "other", text "其他")]

/-- The properties of `Object.prototype`. -/
def objectPrototype : List Text :=
  [text "constructor", text "__proto__", text "hasOwnProperty", text "isPrototypeOf",
    text "propertyIsEnumerable", text "toLocaleString", text "toString", text "valueOf",
    text "__defineGetter__", text "__defineSetter__", text "__lookupGetter__",
    text "__lookupSetter__"]

/-- A key that stands for an index comes before the others. -/
def isIndex (key : Text) : Bool :=
  decide (key = decimal (value key) ∧ value key < 2 ^ 32 - 1)

/-- The code units of a character. -/
def codeUnits (c : ℕ) : Text :=
  if c < 0x10000 then [c]
  else [0xD800 + (c - 0x10000) / 1024, 0xDC00 + (c - 0x10000) % 1024]

/-- `Object.entries`. An object has each of its keys once. -/
def objectEntries : Json → List (Text × Json)
  | .obj fields =>
      (fields.filter fun field => isIndex field.1).insertionSort
          (fun a b => value a.1 ≤ value b.1) ++
        fields.filter fun field => !isIndex field.1
  | .arr items => items.mapIdx fun i item => (decimal i, item)
  | .str s => (s.flatMap codeUnits).mapIdx fun i unit => (decimal i, .str [unit])
  | _ => []

section Counts

variable (browser : Browser)

def sliceName (key : Text) : SliceName :=
  match typeNames.lookup key with
  | some name => .text name
  | none =>
      if objectPrototype.contains key then .inherited key else .text (typeLabel browser key)

def fetchAttackTypes (json : Json) : Option (List (SliceName × Json)) := do
  let typeMap := orElse browser (← prop json "type_count") (.obj [])
  return (objectEntries typeMap).map fun entry => (sliceName browser entry.1, entry.2)

/-- `alerts`, of `fetchStats`. -/
def fetchTotalAlerts (json : Json) : Option Json := do
  return orElse browser (← prop json "total_alerts") (.int 0)

end Counts

/-! ## Tags and icons -/

theorem map_chosenBy {α β : Type*} (f : α → β) (type : Text) (syn scan ssh dns other : α) :
    f (chosenBy type syn scan ssh dns other) =
      chosenBy type (f syn) (f scan) (f ssh) (f dns) (f other) := by
  simp only [chosenBy, apply_ite f]

/-- The toast and the table tell the same kinds of attacks apart. -/
theorem tagClass_eq_iff (type type' : Text) :
    tagClass type = tagClass type' ↔ icon type = icon type' := by
  let kind (type : Text) : Fin 5 := chosenBy type 0 1 2 3 4
  let tag (k : Fin 5) : Text := ![text "tag-syn-flood", text "tag-port-scan", text "tag-ssh-brute",
    text "tag-dns-amp", text "tag-other"] k
  let sign (k : Fin 5) : Text := ![text "🌊", text "🔍", text "🔑", text "📡", text "🚨"] k
  have tags : ∀ type, tagClass type = tag (kind type) := fun type =>
    (map_chosenBy tag type 0 1 2 3 4).symm
  have signs : ∀ type, icon type = sign (kind type) := fun type =>
    (map_chosenBy sign type 0 1 2 3 4).symm
  have distinct : ∀ k l : Fin 5, tag k = tag l ↔ sign k = sign l := by decide
  rw [tags, tags, signs, signs]
  exact distinct _ _

/-! ## Answers read -/

/-- What a column of texts gives. -/
def Textual (row : AlertRow) : Prop :=
  row.attackType = .null ∨ ∃ type, row.attackType = .str type

section Answers

variable {browser : Browser}

/-- The row of the table that an alert becomes, when its attack type is a text. -/
def rowOf (browser : Browser) (srcIp dstIp srcLoc : Json) (timestampNs : ℤ) (type : Text) :
    TableRow where
  srcIp := orElse browser (some srcIp) (.str (text "--"))
  type := typeLabel browser type
  typeRaw := type
  port := orElse browser (some dstIp) (.str (text "--"))
  srcLoc := orElse browser (some srcLoc) (.str (text "未知"))
  tagClass := tagClass type
  time := if timestampNs = 0 then text "--:--:--" else browser.timeOfInt timestampNs

def tableRow (browser : Browser) (row : AlertRow) (type : Text) : TableRow :=
  rowOf browser row.srcIp row.dstIp (.str row.srcLoc) row.timestampNs type

/-- The attack type as the page shows it. -/
def shownType (browser : Browser) (row : AlertRow) : Option Text :=
  asString (orElse browser (some row.attackType) (.str (text "unknown")))

theorem alertTime_int {a : Json} {timestampNs : ℤ}
    (timestamp : prop a "timestamp_ns" = some (some (.int timestampNs))) :
    alertTime browser a = some (
      if timestampNs = 0 then text "--:--:--" else browser.timeOfInt timestampNs) := by
  rw [alertTime, timestamp]
  by_cases zero : timestampNs = 0
  · rw [if_pos zero, zero]
    rfl
  · have counts : jsTruthy browser (.int timestampNs) = true := bne_iff_ne.mpr zero
    rw [if_neg zero]
    exact if_pos counts

/-- An alert that has all properties: its row, or the exception of the refresh. -/
theorem fetchAlert_of_props {a attackType srcIp dstIp srcLoc : Json} {timestampNs : ℤ}
    (attack : prop a "attack_type" = some (some attackType))
    (src : prop a "src_ip" = some (some srcIp)) (dst : prop a "dst_ip" = some (some dstIp))
    (loc : prop a "src_loc" = some (some srcLoc))
    (timestamp : prop a "timestamp_ns" = some (some (.int timestampNs))) :
    fetchAlert browser a =
      (asString (orElse browser (some attackType) (.str (text "unknown")))).map
        (rowOf browser srcIp dstIp srcLoc timestampNs) := by
  rw [fetchAlert, alertData, alertTime_int timestamp, attack, src, dst, loc]
  cases shown : asString (orElse browser (some attackType) (.str (text "unknown"))) with
  | none => simp [shown]
  | some type => simp [shown, rowOf]

theorem fetchAlert_alertObject (row : AlertRow) :
    fetchAlert browser (alertObject row) = (shownType browser row).map (tableRow browser row) :=
  fetchAlert_of_props rfl rfl rfl rfl rfl

/-- A text that is not empty is shown. -/
theorem orElse_str {s : Text} (content : s ≠ []) (fallback : Json) :
    orElse browser (some (.str s)) fallback = .str s := by
  refine if_pos ?_
  cases s with
  | nil => exact absurd rfl content
  | cons c rest => rfl

theorem Textual.shownType {row : AlertRow} (textual : Textual row) :
    (shownType browser row).isSome := by
  rcases textual with null | ⟨type, is⟩
  · rw [Dashboard.shownType, null]
    rfl
  · rw [Dashboard.shownType, is, orElse]
    split
    · rfl
    · rfl

/-- **The table.** It gets the ten newest alerts, the newest first, or nothing when
one of their attack types has no `replace`. -/
theorem fetchAlerts_getAlerts (db : Database) :
    fetchAlerts browser (alertsResponse db) =
      (db.alerts.reverse.take 10).mapM fun row =>
        (shownType browser row).map (tableRow browser row) := by
  have found : prop (alertsResponse db) "data" =
      some (some (.arr ((getAlerts db).map alertObject))) := rfl
  have cut : ((getAlerts db).map alertObject).take 10 =
      (db.alerts.reverse.take 10).map alertObject := by
    rw [← List.map_take, getAlerts, List.take_take]
    rfl
  rw [fetchAlerts, found]
  show (((getAlerts db).map alertObject).take 10).mapM (fetchAlert browser) = _
  rw [cut, List.mapM_map]
  exact congrArg (fun f => List.mapM f _) (funext fetchAlert_alertObject)

theorem objectEntries_perm (fields : List (Text × Json)) :
    (objectEntries (.obj fields)).Perm fields :=
  ((List.perm_insertionSort _ _).append_right _).trans
    (List.filter_append_perm (fun field => isIndex field.1) fields)

/-- The slices of a dictionary of counts. -/
theorem slices_perm (counts : List (Text × ℕ)) :
    ((objectEntries (.obj (counts.map fun count => (count.1, .int count.2)))).map
        fun entry => (sliceName browser entry.1, entry.2)).Perm
      (counts.map fun count => (sliceName browser count.1, .int count.2)) := by
  refine ((objectEntries_perm _).map _).trans (.of_eq ?_)
  rw [List.map_map]
  rfl

/-- **The chart.** It gets the count of each type, in some order. -/
theorem fetchAttackTypes_stats (db : Database) :
    ∃ slices, fetchAttackTypes browser (statsResponse (statsOf db)) = some slices ∧
      slices.Perm ((typeCount db.alerts).map fun count =>
        (sliceName browser count.1, .int count.2)) :=
  ⟨_, rfl, slices_perm _⟩

/-- A number that is zero counts as false, and is put in its own place. -/
theorem orElse_int (z : ℤ) : orElse browser (some (.int z)) (.int 0) = .int z := by
  rw [orElse]
  split
  · rfl
  · rename_i zero
    have : z = 0 := by simpa [jsTruthy] using zero
    rw [this]

/-- The card of the alerts shows their number. -/
theorem fetchTotalAlerts_stats (db : Database) :
    fetchTotalAlerts browser (statsResponse (statsOf db)) = some (.int db.alerts.length) := by
  have found : prop (statsResponse (statsOf db)) "total_alerts" =
      some (some (.int db.alerts.length)) := rfl
  rw [fetchTotalAlerts, found]
  exact congrArg some (orElse_int _)

end Answers

end EbpfNids.Dashboard
