import EbpfNids.Backend.Messages

/-!
# The model and the rules

`call_inference` imports the model, builds its features, asks it, and then lets
the alert of the data plane decide if there is one. Whatever raises on the way,
the handler lets the alert decide again, in a second copy of the same rules. So
the model decides only for messages that carry no alert
(`model_never_overrides`).

The model is whatever the import and `predict` do: they may raise, and `predict`
may return any object. What the caller asks of that object is whether it equals
0, whether it equals 1, and its text, and each of these may raise too. Python's
floating-point numbers are a type with the operations that the features use.

`callInference` of `EbpfNids.Backend` has one answer for the whole of this and
one copy of the rules. It is the same function for a model that returns integers
(`callInference_eq`).
-/

set_option autoImplicit false

namespace EbpfNids.Backend.Inference

open Library Library.Decimal

/-! ## Features -/

/-- Floating-point numbers: `float` of a value, and comparison with an integer. -/
structure Floats (F : Type) where
  float : Json → Except PyExn F
  lt : F → ℤ → Bool

/-- A feature is a float, or one of the integers that the code puts in its place. -/
inductive Feature (F : Type) where
  | float (x : F)
  | int (z : ℤ)

/-- The argument of `predict`: the features that the message brings, or those
that are built. -/
inductive Features (F : Type) where
  | given (items : List Json)
  | built (values : List (Feature F))

variable {F : Type}

/-- `max(x, z)`. -/
def pyMax (floats : Floats F) (x : F) (z : ℤ) : Feature F :=
  if floats.lt x z then .int z else .float x

/-- `int(msg.get("alert_type", 0))`, and 0 when that raises. -/
def alertTypeOrZero (env : Env) (fields : List (Text × Json)) : ℤ :=
  match pyInt env (getD fields "alert_type" (.int 0)) with
  | .ok alertType => alertType
  | .error _ => 0

def builtFeatures (env : Env) (floats : Floats F) (fields : List (Text × Json)) :
    Except PyExn (List (Feature F)) := do
  let alertType := alertTypeOrZero env fields
  let flowDuration ← floats.float (getD fields "flow_duration" (.int 10000))
  let totalFwdPackets ← floats.float (getD fields "total_fwd_packets" (.int 10))
  let totalBwdPackets ← floats.float (getD fields "total_backward_packets" (.int 0))
  let totalLenFwd ← floats.float (getD fields "total_length_fwd" (.int 600))
  let totalLenBwd ← floats.float (getD fields "total_length_bwd" (.int 0))
  let fwdLenMax ← floats.float (getD fields "fwd_packet_length_max" (.int 60))
  let fwdLenMin ← floats.float (getD fields "fwd_packet_length_min" (.int 40))
  let bwdLenMax ← floats.float (getD fields "bwd_packet_length_max" (.int 0))
  let bwdLenMin ← floats.float (getD fields "bwd_packet_length_min" (.int 0))
  let flowBytesS ← floats.float
    (getD fields "bytes_per_sec" (getD fields "flow_bytes_s" (.int 0)))
  let flowPacketsS ← floats.float (getD fields "pps" (getD fields "flow_packets_s" (.int 0)))
  let fwdIatMean ← floats.float (getD fields "fwd_iat_mean" (.int 1000))
  let bwdIatMean ← floats.float (getD fields "bwd_iat_mean" (.int 0))
  let synFlagCount ← floats.float (getD fields "syn_flag_count" (.int 0))
  let ackFlagCount ← floats.float (getD fields "ack_flag_count" (.int 0))
  let raised := fun (x : F) (syn scan : ℤ) =>
    if alertType = 1 then pyMax floats x syn
    else if alertType = 2 then pyMax floats x scan
    else .float x
  return [.float flowDuration, raised totalFwdPackets 120 30, .float totalBwdPackets,
    raised totalLenFwd 7200 1800, .float totalLenBwd, .float fwdLenMax, .float fwdLenMin,
    .float bwdLenMax, .float bwdLenMin, .float flowBytesS, raised flowPacketsS 100 30,
    .float fwdIatMean, .float bwdIatMean, raised synFlagCount 120 30,
    if alertType = 1 ∨ alertType = 2 then .int 0 else .float ackFlagCount]

def buildFeaturesForModel (env : Env) (floats : Floats F) (fields : List (Text × Json)) :
    Except PyExn (Features F) :=
  match getField fields (text "features") with
  | some (.arr items) =>
      if items.length = 15 then .ok (.given items)
      else (builtFeatures env floats fields).map .built
  | _ => (builtFeatures env floats fields).map .built

/-! ## The model -/

/-- What the caller asks of the object that `predict` returns: whether it equals
0, whether it equals 1, and its text. -/
structure ModelResult where
  eqZero : Except PyExn Bool
  eqOne : Except PyExn Bool
  format : Except PyExn Text

/-- The module `inference`: whether the import raises, and `predict`. -/
structure Model (F : Type) where
  imported : Except PyExn Unit
  predict : Features F → Except PyExn ModelResult

/-- The import, the features and the answer of the model. -/
def modelAnswer (env : Env) (floats : Floats F) (model : Model F) (fields : List (Text × Json)) :
    Except PyExn ModelResult := do
  model.imported
  let features ← buildFeaturesForModel env floats fields
  model.predict features

/-! ## The two copies of the rules -/

/-- What the body of the `try` returns after the model has answered. -/
def afterModel (env : Env) (modelResult : ModelResult) (fields : List (Text × Json)) :
    Except PyExn Json :=
  let alertName := getD fields "alert_name" .null
  if truthy env alertName then .ok alertName
  else
    let alertType := alertTypeOrZero env fields
    if alertType = 1 then .ok (.str (text "syn_flood"))
    else if alertType = 2 then .ok (.str (text "port_scan"))
    else
      match modelResult.eqZero with
      | .error e => .error e
      | .ok true => .ok (.str (text "normal"))
      | .ok false =>
          match modelResult.eqOne with
          | .error e => .error e
          | .ok true => .ok (.str (text "attack"))
          | .ok false => modelResult.format.map fun t => .str (text "attack_" ++ t)

/-- What the handler of the exceptions returns. -/
def afterException (env : Env) (fields : List (Text × Json)) : Json :=
  let alertName := getD fields "alert_name" .null
  if truthy env alertName then alertName
  else
    let alertType := alertTypeOrZero env fields
    if alertType = 1 then .str (text "syn_flood")
    else if alertType = 2 then .str (text "port_scan")
    else .str (text "unknown")

/-- An exception of the body is logged; here the logging raises nothing. -/
def callInference (env : Env) (floats : Floats F) (model : Model F)
    (fields : List (Text × Json)) : Json :=
  match modelAnswer env floats model fields >>= fun result => afterModel env result fields with
  | .ok attackType => attackType
  | .error _ => afterException env fields

/-! ## What the rules decide -/

section Rules

variable {env : Env} {fields : List (Text × Json)}

/-- **Both copies follow the rules.** Where the rules decide, the two give the same
answer, and where they do not, each gives its own. -/
theorem rules_cases (env : Env) (fields : List (Text × Json)) :
    (∃ attackType, ruleType env fields = some attackType ∧
        (∀ modelResult, afterModel env modelResult fields = .ok attackType) ∧
        afterException env fields = attackType) ∨
      ruleType env fields = none ∧
        (∀ modelResult, afterModel env modelResult fields =
          match modelResult.eqZero with
          | .error e => .error e
          | .ok true => .ok (.str (text "normal"))
          | .ok false =>
              match modelResult.eqOne with
              | .error e => .error e
              | .ok true => .ok (.str (text "attack"))
              | .ok false => modelResult.format.map fun t => .str (text "attack_" ++ t)) ∧
        afterException env fields = .str (text "unknown") := by
  have rules : ruleType env fields =
      if truthy env (getD fields "alert_name" .null) then some (getD fields "alert_name" .null)
      else if alertTypeOrZero env fields = 1 then some (.str (text "syn_flood"))
      else if alertTypeOrZero env fields = 2 then some (.str (text "port_scan"))
      else none := rfl
  rw [rules, afterException]
  simp only [afterModel]
  by_cases named : truthy env (getD fields "alert_name" .null) = true
  · exact Or.inl ⟨_, if_pos named, fun _ => if_pos named, if_pos named⟩
  · simp only [if_neg named]
    by_cases syn : alertTypeOrZero env fields = 1
    · exact Or.inl ⟨_, if_pos syn, fun _ => if_pos syn, if_pos syn⟩
    · simp only [if_neg syn]
      by_cases scan : alertTypeOrZero env fields = 2
      · exact Or.inl ⟨_, if_pos scan, fun _ => if_pos scan, if_pos scan⟩
      · exact Or.inr ⟨if_neg scan, fun _ => if_neg scan, if_neg scan⟩

/-- The exceptional path gives what the rules decide, and `unknown` when they
decide nothing. -/
theorem afterException_eq :
    afterException env fields = (ruleType env fields).getD (.str (text "unknown")) := by
  rcases rules_cases env fields with ⟨attackType, decided, -, exception⟩ | ⟨undecided, -, exception⟩
  · rw [exception, decided, Option.getD_some]
  · rw [exception, undecided, Option.getD_none]

/-- After the model has answered, what the rules decide is returned. -/
theorem afterModel_of_rule {attackType : Json} (modelResult : ModelResult)
    (decided : ruleType env fields = some attackType) :
    afterModel env modelResult fields = .ok attackType := by
  rcases rules_cases env fields with ⟨attackType', decided', model, -⟩ | ⟨undecided, -⟩
  · rw [decided] at decided'
    rw [model, Option.some.inj decided']
  · rw [decided] at undecided
    cases undecided

/-- Whatever the model does, what the rules decide is the attack type. -/
theorem callInference_of_rule {attackType : Json} (floats : Floats F) (model : Model F)
    (decided : ruleType env fields = some attackType) :
    callInference env floats model fields = attackType := by
  rw [callInference]
  cases modelAnswer env floats model fields with
  | ok modelResult =>
      show (match afterModel env modelResult fields with
        | .ok attackType => attackType
        | .error _ => afterException env fields) = attackType
      rw [afterModel_of_rule modelResult decided]
  | error e =>
      show afterException env fields = attackType
      rw [afterException_eq, decided]
      rfl

end Rules

def ModelResult.ofInt (z : ℤ) : ModelResult := ⟨.ok (z == 0), .ok (z == 1), .ok (decimalInt z)⟩

/-- For a model that returns integers, as `predict` says it does, the function is
the one that has the whole model as one answer, when the logging raises nothing. -/
theorem callInference_eq (env : Env) (floats : Floats F) (model : Model F)
    (fields : List (Text × Json)) (answer : Option ℤ)
    (answers : (modelAnswer env floats model fields).toOption = answer.map .ofInt)
    (logs : env.log (.modelFailed fields) = none) :
    Backend.callInference { env with modelResult := fun _ => answer.map .int } fields =
      .ok (callInference env floats model fields) := by
  -- The rules do not ask the model.
  have rules : ruleType { env with modelResult := fun _ => answer.map .int } fields =
      ruleType env fields := rfl
  rcases rules_cases env fields with ⟨attackType, decided, -⟩ | ⟨undecided, verdict, -⟩
  · rw [callInference_of_rule floats model decided]
    exact callInference_ruled (fun _ => logs) (rules.trans decided)
  · rw [callInference]
    cases answered : modelAnswer env floats model fields with
    | error e =>
        rw [answered] at answers
        cases answer with
        | some z => cases answers
        | none =>
            simp only [Backend.callInference, Option.map_none, logs]
            exact congrArg Except.ok afterException_eq.symm
    | ok modelResult =>
        rw [answered] at answers
        cases answer with
        | none => cases answers
        | some z =>
            obtain rfl : modelResult = .ofInt z := Option.some.inj answers
            show _ = Except.ok (match afterModel env (.ofInt z) fields with
              | .ok attackType => attackType
              | .error _ => afterException env fields)
            rw [verdict, callInference_int rfl (rules.trans undecided)]
            by_cases zero : z = 0
            · subst zero
              rfl
            · by_cases one : z = 1
              · subst one
                rfl
              · simp only [ModelResult.ofInt, beq_false_of_ne zero, beq_false_of_ne one,
                  Except.map, if_neg zero, if_neg one]

end EbpfNids.Backend.Inference
