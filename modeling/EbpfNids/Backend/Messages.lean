import EbpfNids.Backend.Json

/-!
# Handling one message

`handle_xdp_msg` asks the message for its type and stores it as an alert or as
a flow rate. What the handlers get from outside (the model, the location
service, the database, the log and the web socket, and Python's floating-point
numbers) is given by an environment.

A handler returns the database as it left it, and the exception that it raised,
if it did. Every field is read before anything is stored, and a message that is
no object has no fields to ask for.
-/

set_option autoImplicit false

namespace EbpfNids.Backend

open Library Library.Decimal

structure AlertRow where
  id : ℕ
  srcIp : Json
  dstIp : Json
  alertType : Text
  attackType : Json
  srcLoc : Text
  timestampNs : ℤ

structure FlowRow where
  id : ℕ
  ip : Json
  pps : ℤ
  bytesPerSec : ℤ
  totalPkts : ℤ
  totalBytes : ℤ
  timestamp : ℤ

/-- The two tables, with the last ids given out, and what has been pushed to the
web sockets. -/
structure World where
  alerts : List AlertRow
  flowRates : List FlowRow
  lastAlertId : ℕ
  lastFlowId : ℕ
  newAlarm : List AlertRow
  flowRate : List FlowRow

def World.empty : World := ⟨[], [], 0, 0, [], []⟩

/-- What is logged, and printed, while a message is handled. -/
inductive LogEntry where
  | modelFailed (fields : List (Text × Json))
  | alertStored (row : AlertRow)
  | flowRateStored (row : FlowRow)
  | unknownType (fields : List (Text × Json))

/-- What comes from outside a handler. `modelResult` is what the import of the
model, `build_features_for_model` and `predict` give, which for the `predict` at
hand is 0 or 1, and nothing when one of them raises; `ipApi` is the answer of the
location service; the inserts, with their commits, `log` and the pushes are the
exceptions that the calls raise, if they do.
`decimalDigit` is the value of a character that is a decimal digit of some script,
and `floatText` the text that a column keeps of a floating-point number, but for
`NaN`. -/
structure Env where
  modelResult : Json → Option Json
  ipApi : Text → Except PyExn Json
  insertAlert : AlertRow → Option PyExn
  insertFlow : FlowRow → Option PyExn
  log : LogEntry → Option PyExn
  emitAlarm : AlertRow → Option PyExn
  emitFlowRate : FlowRow → Option PyExn
  now : ℤ
  decimalDigit : ℕ → Option (Fin 10)
  floatInt : Text → Except PyExn ℤ
  floatIsZero : Text → Bool
  floatText : Text → Option Text
  repr : Json → Text

/-! ## `int`, `str` and truth -/

/-- A character as `int` takes it: white space and decimal digits of all scripts
stand for those of ASCII, and what is neither becomes a question mark. -/
def asciiOf (decimalDigit : ℕ → Option (Fin 10)) (c : ℕ) : ℕ :=
  if c < 128 then c
  else if isPySpace c then 32
  else
    match decimalDigit c with
    | some d => 48 + d
    | none => 63

/-- `isspace` in the C locale. It does not accept the separators from 28 to 31, which
`str.isspace` does. -/
def isCSpace (c : ℕ) : Bool := c = 32 || (9 ≤ c && c ≤ 13)

/-- `int` of a string: white space, a sign, and digits with single underscores
between them. -/
def intOfText (decimalDigit : ℕ → Option (Fin 10)) (s : Text) : Except PyExn ℤ :=
  let signed := ((s.map (asciiOf decimalDigit)).dropWhile isCSpace).rdropWhile isCSpace
  let negative := signed.head? == some 45
  let body := if negative || signed.head? == some 43 then signed.tail else signed
  let groups := body.splitOn 95
  let digits := groups.flatten
  if groups.all (fun g => !g.isEmpty && g.all isDigit) && digits.length ≤ intMaxStrDigits then
    .ok (if negative then -(value digits : ℤ) else value digits)
  else .error .valueError

def pyInt (env : Env) : Json → Except PyExn ℤ
  | .int z => .ok z
  | .bool b => .ok (if b then 1 else 0)
  | .float literal => env.floatInt literal
  | .str s => intOfText env.decimalDigit s
  | .null => .error .typeError
  | .arr _ => .error .typeError
  | .obj _ => .error .typeError

def pyStr (env : Env) : Json → Text
  | .str s => s
  | .int z => decimalInt z
  | .bool true => text "True"
  | .bool false => text "False"
  | .null => text "None"
  | v => env.repr v

def truthy (env : Env) : Json → Bool
  | .null => false
  | .bool b => b
  | .int z => z != 0
  | .float literal => !env.floatIsZero literal
  | .str s => !s.isEmpty
  | .arr items => !items.isEmpty
  | .obj fields => !fields.isEmpty

/-- `msg.get(key, default)` of an object. -/
def getD (fields : List (Text × Json)) (key : String) (fallback : Json) : Json :=
  (getField fields (text key)).getD fallback

/-! ## Locations and attack types -/

def privatePrefixes : List Text := [text "127.", text "192.168.", text "10.", text "172.16."]

/-- The answer of the location service as a text, or the exception raised. -/
def locationOf (env : Env) (answer : Json) : Except PyExn Text :=
  match answer with
  | .obj js =>
      match getField js (text "status") with
      | some (.str status) =>
          if status = text "success" then
            .ok (pyStr env (getD js "country" (.str [])) ++ text "-" ++
              pyStr env (getD js "regionName" (.str [])) ++ text "-" ++
              pyStr env (getD js "city" (.str [])))
          else .ok (text "未知地址")
      | _ => .ok (text "未知地址")
  | _ => .error .attributeError

/-- An address that is no string has no `startswith`. -/
def getIpLoc (env : Env) (ip : Json) : Except PyExn Text :=
  match ip with
  | .str ip =>
      if privatePrefixes.any fun pre => pre.isPrefixOf ip then .ok (text "内网-局域网")
      else
        match env.ipApi ip with
        | .ok answer =>
            match locationOf env answer with
            | .ok location => .ok location
            | .error _ => .ok (text "获取失败")
        | .error _ => .ok (text "获取失败")
  | _ => .error .attributeError

/-- The type that the rules of the data plane gave, if they did. -/
def ruleType (env : Env) (fields : List (Text × Json)) : Option Json :=
  let alertName := getD fields "alert_name" .null
  if truthy env alertName then some alertName
  else
    let alertType := match pyInt env (getD fields "alert_type" (.int 0)) with
      | .ok z => z
      | .error _ => 0
    if alertType = 1 then some (.str (text "syn_flood"))
    else if alertType = 2 then some (.str (text "port_scan"))
    else none

/-- A failure of the model is logged, which may raise in its turn. -/
def callInference (env : Env) (fields : List (Text × Json)) : Except PyExn Json :=
  match env.modelResult (.obj fields) with
  | some result =>
      match ruleType env fields with
      | some type => .ok type
      | none =>
          match result with
          | .int 0 | .bool false => .ok (.str (text "normal"))
          | .int 1 | .bool true => .ok (.str (text "attack"))
          | other => .ok (.str (text "attack_" ++ pyStr env other))
  | none =>
      match env.log (.modelFailed fields) with
      | some e => .error e
      | none => .ok ((ruleType env fields).getD (.str (text "unknown")))

section Inference

variable {env : Env} {fields : List (Text × Json)}

/-- The call returns unless the model fails and that cannot be logged. -/
def Infers (env : Env) (fields : List (Text × Json)) : Prop :=
  env.modelResult (.obj fields) = none → env.log (.modelFailed fields) = none

theorem callInference_ruled {attackType : Json} (infers : Infers env fields)
    (decided : ruleType env fields = some attackType) :
    callInference env fields = .ok attackType := by
  rw [callInference]
  cases answer : env.modelResult (.obj fields) with
  | some result => simp only [decided]
  | none => simp only [infers answer, decided, Option.getD_some]

theorem callInference_int {z : ℤ} (answers : env.modelResult (.obj fields) = some (.int z))
    (undecided : ruleType env fields = none) :
    callInference env fields = .ok (.str (
      if z = 0 then text "normal"
      else if z = 1 then text "attack"
      else text "attack_" ++ decimalInt z)) := by
  rw [callInference]
  simp only [answers, undecided]
  split
  · rename_i same
    rw [Json.int.inj same, if_pos rfl]
  · rename_i same
    cases same
  · rename_i same
    rw [Json.int.inj same, if_neg one_ne_zero, if_pos rfl]
  · rename_i same
    cases same
  · rename_i notZero _ notOne _
    rw [if_neg fun zero => notZero (congrArg Json.int zero),
      if_neg fun one => notOne (congrArg Json.int one)]
    rfl

end Inference

/-! ## What the tables keep -/

/-- The numbers of JSON, to which `True` and `False` belong for the database. -/
def Json.isNumber : Json → Bool
  | .bool _ => true
  | .int _ => true
  | .float _ => true
  | _ => false

/-- What a TEXT column keeps of a value bound to it: of a number its numeral, of `NaN`
nothing. Arrays and objects are never bound, since the `INSERT` refuses them. -/
def textColumn (env : Env) : Json → Json
  | .bool b => .str (if b then text "1" else text "0")
  | .int z => .str (decimalInt z)
  | .float literal => ((env.floatText literal).map .str).getD .null
  | v => v

/-- Everything but a number is kept as it is. -/
theorem textColumn_eq_iff (env : Env) (v : Json) :
    textColumn env v = v ↔ v.isNumber = false := by
  cases v with
  | null => exact iff_of_true rfl rfl
  | bool b => exact iff_of_false Json.noConfusion Bool.noConfusion
  | int z => exact iff_of_false Json.noConfusion Bool.noConfusion
  | float literal =>
      refine iff_of_false (fun same => ?_) Bool.noConfusion
      rw [textColumn] at same
      cases kept : env.floatText literal with
      | none =>
          rw [kept] at same
          cases same
      | some t =>
          rw [kept] at same
          cases same
  | str s => exact iff_of_true rfl rfl
  | arr items => exact iff_of_true rfl rfl
  | obj fields => exact iff_of_true rfl rfl

/-- An alert as its row keeps it. -/
def AlertRow.kept (env : Env) (row : AlertRow) : AlertRow :=
  { row with
    srcIp := textColumn env row.srcIp
    dstIp := textColumn env row.dstIp
    attackType := textColumn env row.attackType }

def FlowRow.kept (env : Env) (row : FlowRow) : FlowRow :=
  { row with ip := textColumn env row.ip }

theorem AlertRow.kept_eq_iff (env : Env) (row : AlertRow) :
    row.kept env = row ↔ row.srcIp.isNumber = false ∧ row.dstIp.isNumber = false ∧
      row.attackType.isNumber = false := by
  rw [← textColumn_eq_iff env row.srcIp, ← textColumn_eq_iff env row.dstIp,
    ← textColumn_eq_iff env row.attackType]
  constructor
  · intro same
    exact ⟨congrArg AlertRow.srcIp same, congrArg AlertRow.dstIp same,
      congrArg AlertRow.attackType same⟩
  · rintro ⟨srcIp, dstIp, attackType⟩
    rw [AlertRow.kept, srcIp, dstIp, attackType]

/-- A committed alert is in its table. -/
def World.store (env : Env) (world : World) (row : AlertRow) : World :=
  { world with alerts := world.alerts ++ [row.kept env], lastAlertId := row.id }

/-- A committed flow rate is in its table. -/
def World.storeFlow (env : Env) (world : World) (row : FlowRow) : World :=
  { world with flowRates := world.flowRates ++ [row.kept env], lastFlowId := row.id }

/-! ## The handlers -/

/-- The fields that `save_alert` reads. -/
structure AlertFields where
  srcIp : Json
  dstIp : Json
  alertType : Text
  timestampNs : ℤ

def alertFields (env : Env) (fields : List (Text × Json)) : Except PyExn AlertFields :=
  match pyInt env (getD fields "timestamp_ns" (getD fields "timestamp" (.int 0))) with
  | .error e => .error e
  | .ok timestampNs =>
      .ok ⟨getD fields "src_ip" (.str []), getD fields "dst_ip" (.str []),
        pyStr env (getD fields "alert_type" (.str [])), timestampNs⟩

def saveAlert (env : Env) (fields : List (Text × Json)) (world : World) : World × Option PyExn :=
  match alertFields env fields with
  | .error e => (world, some e)
  | .ok read =>
      match callInference env fields with
      | .error e => (world, some e)
      | .ok attackType =>
          match getIpLoc env read.srcIp with
          | .error e => (world, some e)
          | .ok srcLoc =>
              let row : AlertRow := ⟨world.lastAlertId + 1, read.srcIp, read.dstIp,
                read.alertType, attackType, srcLoc, read.timestampNs⟩
              match env.insertAlert row with
              | some e => (world, some e)
              | none =>
                  let world := world.store env row
                  match env.log (.alertStored row) with
                  | some e => (world, some e)
                  | none =>
                      match env.emitAlarm row with
                      | some e => (world, some e)
                      | none => ({ world with newAlarm := world.newAlarm ++ [row] }, none)

/-- The fields that `save_flow_rate` reads. -/
structure FlowFields where
  ip : Json
  pps : ℤ
  bytesPerSec : ℤ
  totalPkts : ℤ
  totalBytes : ℤ
  timestamp : ℤ

def flowFields (env : Env) (fields : List (Text × Json)) : Except PyExn FlowFields := do
  let pps ← pyInt env (getD fields "pps" (.int 0))
  let bytesPerSec ← pyInt env (getD fields "bytes_per_sec" (.int 0))
  let totalPkts ← pyInt env (getD fields "total_pkts" (.int 0))
  let totalBytes ← pyInt env (getD fields "total_bytes" (.int 0))
  let timestamp ← pyInt env (getD fields "timestamp" (.int env.now))
  return ⟨getD fields "ip" (.str []), pps, bytesPerSec, totalPkts, totalBytes, timestamp⟩

def saveFlowRate (env : Env) (fields : List (Text × Json)) (world : World) :
    World × Option PyExn :=
  match flowFields env fields with
  | .error e => (world, some e)
  | .ok read =>
      let row : FlowRow := ⟨world.lastFlowId + 1, read.ip, read.pps, read.bytesPerSec,
        read.totalPkts, read.totalBytes, read.timestamp⟩
      match env.insertFlow row with
      | some e => (world, some e)
      | none =>
          let world := world.storeFlow env row
          match env.log (.flowRateStored row) with
          | some e => (world, some e)
          | none =>
              match env.emitFlowRate row with
              | some e => (world, some e)
              | none => ({ world with flowRate := world.flowRate ++ [row] }, none)

/-- Which handler a message goes to. -/
inductive Route where
  | saveAlert
  | saveFlowRate
  | unknown
deriving DecidableEq, Repr

def route (fields : List (Text × Json)) : Route :=
  match getD fields "type" (.str []) with
  | .str msgType =>
      if msgType = text "alert" then .saveAlert
      else if msgType = text "flow_rate" then .saveFlowRate
      else .unknown
  | _ => .unknown

/-- A message that is no object has no `get`. -/
def handleXdpMsg (env : Env) (world : World) (msg : Json) : World × Option PyExn :=
  match msg with
  | .obj fields =>
      match route fields with
      | .saveAlert => saveAlert env fields world
      | .saveFlowRate => saveFlowRate env fields world
      | .unknown => (world, env.log (.unknownType fields))
  | _ => (world, some .attributeError)

end EbpfNids.Backend
