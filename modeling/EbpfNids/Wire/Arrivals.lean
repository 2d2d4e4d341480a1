import EbpfNids.Backend.Chunks
import EbpfNids.Wire.JsonLines

/-!
# What arrives of the loader's lines

The backend has received a beginning of what its connection has accepted. So
what its handler has been given are messages of lines accepted whole, each at
most once and in order, whatever was cut off and whatever the handler raised:
nothing is made up of parts of two lines (`handled_part`).

When no line is accepted in part and nothing fails in the backend, its tables
hold the values of the first lines, all of them when everything has been
received (`stored_whole`).
-/

set_option autoImplicit false

namespace EbpfNids.Wire

open Library Library.Decimal Library.Framing
open EbpfNids.DataPlane EbpfNids.Loader EbpfNids.Backend

/-! ## Lines of a part of the stream -/

/-- The lines of what has been received are the first ones of the stream. -/
theorem drain_received {stream received rest : Text} (split : received ++ rest = stream) :
    (drain 10 received).1 <+: (drain 10 stream).1 := by
  rw [← split, drain_append]
  exact List.prefix_append _ _

/-- The handler gets the messages of the first lines that can be read. -/
theorem messagesFrom_filterMap {S : Type} (handle : S → Json → S × Option PyExn) (world : S)
    (lines : List Text) :
    messagesFrom jsonLoads handle world lines <+: lines.filterMap (readLine jsonLoads) := by
  induction lines generalizing world with
  | nil => exact List.prefix_rfl
  | cons line rest ih =>
      cases read : readLine jsonLoads line with
      | none =>
          rw [List.filterMap_cons_none read]
          rcases messagesFrom_of_none read with nothing | skipped
          · rw [nothing]
            exact List.nil_prefix
          · rw [skipped]
            exact ih world
      | some msg =>
          rw [List.filterMap_cons_some read, messagesFrom_of_some read]
          apply (List.prefix_cons_inj msg).mpr
          split
          · exact List.nil_prefix
          · exact ih _

/-- A line that can be read is a line accepted whole. -/
theorem readable_linesAfter {waiting : Text} (either : waiting = [] ∨ Beginning waiting)
    (sends : List Send) :
    ((linesAfter waiting sends).filterMap (readLine jsonLoads)).Sublist
      ((sends.filter Send.isWhole).map fun s => .obj (message s.ev)) := by
  induction sends generalizing waiting with
  | nil => exact List.Sublist.refl []
  | cons s rest ih =>
      rw [linesAfter]
      rcases taken_cases s with ⟨whole, -, -⟩ | ⟨cut, -, beginning⟩ | ⟨nothing, -, taken⟩
      · rw [if_pos whole, List.filter_cons_of_pos whole, List.map_cons]
        have later := ih (Or.inl rfl)
        rcases either with rfl | behind
        · rw [List.nil_append, List.filterMap_cons_some (readLine_body s.ev)]
          exact later.cons_cons _
        · rw [List.filterMap_cons_none (readLine_behind behind s.ev)]
          exact later.cons _
      · rw [if_neg (by simp [cut]), List.filter_cons_of_neg (by simp [cut])]
        apply ih
        rcases either with rfl | behind
        · exact Or.inr beginning
        · exact Or.inr (behind.append beginning.noNewline)
      · rw [if_neg (by simp [nothing]), List.filter_cons_of_neg (by simp [nothing]), taken,
          List.append_nil]
        exact ih either

section Received

variable {sends : List Send} {chunks : List (List UInt8)} {rest : Text}

/-- The lines that the backend has are the first ones of what was accepted. -/
theorem lines_received_part (stream : received chunks ++ rest = sends.flatMap Send.taken) :
    (drain 10 (received chunks)).1 <+: linesAfter [] sends := by
  have lines : (drain 10 (sends.flatMap Send.taken)).1 = linesAfter [] sends :=
    drain_sends List.not_mem_nil sends
  rw [← lines]
  exact drain_received stream

/-- **Nothing is made up.** -/
theorem handled_part {S : Type} (handle : S → Json → S × Option PyExn) (world : S)
    (stream : received chunks ++ rest = sends.flatMap Send.taken) :
    ((receive ⟨jsonLoads, handle⟩ world chunks).1.calls.map Call.msg).Sublist
      ((sends.filter Send.isWhole).map fun s => .obj (message s.ev)) := by
  rw [(receive_session _ _ _).1, messages_handleLines_eq jsonLoads handle _ rfl, List.map_nil,
    List.nil_append]
  have readable := readable_linesAfter (Or.inl rfl) sends
  have first := (lines_received_part stream).filterMap (readLine jsonLoads)
  exact ((messagesFrom_filterMap handle world _).trans first).sublist.trans readable

end Received

/-! ## What the tables hold -/

def alertsOf (events : List LoaderEvent) : List AlertEvent :=
  events.filterMap fun
    | .alert e => some e
    | .flowRate _ => none

def flowsOf (events : List LoaderEvent) : List FlowRate :=
  events.filterMap fun
    | .alert _ => none
    | .flowRate f => some f

/-- The location of an address, which `get_ip_loc` always finds a text for. -/
def locationText (env : Env) (ip : Text) : Text :=
  match getIpLoc env (.str ip) with
  | .ok location => location
  | .error _ => []

theorem getIpLoc_str (env : Env) (ip : Text) :
    getIpLoc env (.str ip) = .ok (locationText env ip) := by
  have found : ∃ location, getIpLoc env (.str ip) = .ok location := by
    rw [getIpLoc]
    split
    · exact ⟨_, rfl⟩
    · split
      · split
        · exact ⟨_, rfl⟩
        · exact ⟨_, rfl⟩
      · exact ⟨_, rfl⟩
  obtain ⟨location, found⟩ := found
  rw [locationText, found]

/-- The row of an alert. The type is the one of the rule that was broken, whether
or not the model has an answer. -/
def alertRow (env : Env) (id : ℕ) (e : AlertEvent) : AlertRow where
  id := id
  srcIp := .str (inetNtop e.srcIp)
  dstIp := .str (inetNtop e.dstIp)
  alertType := decimal e.alertType.toNat
  attackType := .str (alertTypeToString e.alertType)
  srcLoc := locationText env (inetNtop e.srcIp)
  timestampNs := e.timestamp.toNat

def flowRow (id : ℕ) (f : FlowRate) : FlowRow where
  id := id
  ip := .str (inetNtop f.ip)
  pps := f.pps.toNat
  bytesPerSec := f.bytesPerSec.toNat
  totalPkts := f.totalPkts.toNat
  totalBytes := f.totalBytes.toNat
  timestamp := f.timestamp.toInt

theorem decimal_type_injective : Function.Injective fun type : UInt8 => decimal type.toNat := by
  intro a b same
  have values := congrArg value same
  rw [value_decimal, value_decimal] at values
  exact UInt8.toNat_inj.mp values

/-- The rows of some alerts, when `last` is the last id given out. -/
def alertRows (env : Env) (last : ℕ) (alerts : List AlertEvent) : List AlertRow :=
  alerts.mapIdx fun i e => alertRow env (last + i + 1) e

def flowRows (last : ℕ) (flows : List FlowRate) : List FlowRow :=
  flows.mapIdx fun i f => flowRow (last + i + 1) f

/-- The tables have grown by the rows of some lines, and each was pushed. -/
structure Stored (env : Env) (before : World) (events : List LoaderEvent) (world : World) :
    Prop where
  alerts : world.alerts = before.alerts ++ alertRows env before.lastAlertId (alertsOf events)
  flowRates : world.flowRates = before.flowRates ++ flowRows before.lastFlowId (flowsOf events)
  newAlarm : world.newAlarm = before.newAlarm ++ alertRows env before.lastAlertId (alertsOf events)
  flowRate : world.flowRate = before.flowRate ++ flowRows before.lastFlowId (flowsOf events)
  lastAlertId : world.lastAlertId = before.lastAlertId + (alertsOf events).length
  lastFlowId : world.lastFlowId = before.lastFlowId + (flowsOf events).length

/-- Surroundings in which nothing fails for some lines: their rows are inserted,
logged and pushed, and when the model fails on one of their alerts that is logged. -/
structure Quiet (env : Env) (before : World) (events : List LoaderEvent) : Prop where
  alerts : ∀ row ∈ alertRows env before.lastAlertId (alertsOf events),
    env.insertAlert row = none ∧ env.log (.alertStored row) = none ∧ env.emitAlarm row = none
  flows : ∀ row ∈ flowRows before.lastFlowId (flowsOf events),
    env.insertFlow row = none ∧ env.log (.flowRateStored row) = none ∧
      env.emitFlowRate row = none
  infers : ∀ e ∈ alertsOf events, Infers env (message (.alert e))

theorem quiet_calmEnv (before : World) (events : List LoaderEvent) :
    Quiet calmEnv before events :=
  ⟨fun _ _ => ⟨rfl, rfl, rfl⟩, fun _ _ => ⟨rfl, rfl, rfl⟩, fun _ _ _ => rfl⟩

section Quiet

variable {env : Env} {before world : World} {events : List LoaderEvent}

theorem stored_nil (env : Env) (world : World) : Stored env world [] world :=
  ⟨(List.append_nil _).symm, (List.append_nil _).symm, (List.append_nil _).symm,
    (List.append_nil _).symm, rfl, rfl⟩

theorem alertRows_concat (last : ℕ) (alerts : List AlertEvent) (e : AlertEvent) :
    alertRows env last (alerts ++ [e]) =
      alertRows env last alerts ++ [alertRow env (last + alerts.length + 1) e] := List.mapIdx_concat

theorem flowRows_concat (last : ℕ) (flows : List FlowRate) (f : FlowRate) :
    flowRows last (flows ++ [f]) =
      flowRows last flows ++ [flowRow (last + flows.length + 1) f] := List.mapIdx_concat

theorem alertsOf_append (first second : List LoaderEvent) :
    alertsOf (first ++ second) = alertsOf first ++ alertsOf second := List.filterMap_append

theorem flowsOf_append (first second : List LoaderEvent) :
    flowsOf (first ++ second) = flowsOf first ++ flowsOf second := List.filterMap_append

/-- What is quiet for some lines is so for the first of them. -/
theorem Quiet.first {more : List LoaderEvent} (quiet : Quiet env before (events ++ more)) :
    Quiet env before events := by
  refine ⟨fun row member => quiet.alerts row ?_, fun row member => quiet.flows row ?_,
    fun e member => quiet.infers e ?_⟩
  · rw [alertsOf_append, alertRows, List.mapIdx_append]
    exact List.mem_append_left _ member
  · rw [flowsOf_append, flowRows, List.mapIdx_append]
    exact List.mem_append_left _ member
  · rw [alertsOf_append]
    exact List.mem_append_left _ member

/-- The rule decides the type of an alert of the loader. -/
theorem callInference_message {e : AlertEvent} (infers : Infers env (message (.alert e))) :
    callInference env (message (.alert e)) = .ok (.str (alertTypeToString e.alertType)) := by
  apply callInference_ruled infers
  have named : getD (message (.alert e)) "alert_name" .null =
      .str (alertTypeToString e.alertType) := rfl
  have content : truthy env (.str (alertTypeToString e.alertType)) = true := by
    rw [alertTypeToString.eq_def]
    split
    · rfl
    · rfl
    · rfl
  rw [ruleType, named]
  exact if_pos content

/-- The columns keep the rows of the loader's lines as they are. -/
theorem kept_alertRow (env : Env) (id : ℕ) (e : AlertEvent) :
    (alertRow env id e).kept env = alertRow env id e :=
  (AlertRow.kept_eq_iff env _).mpr ⟨rfl, rfl, rfl⟩

theorem handleXdpMsg_alert {e : AlertEvent} (infers : Infers env (message (.alert e)))
    (works : env.insertAlert (alertRow env (world.lastAlertId + 1) e) = none ∧
      env.log (.alertStored (alertRow env (world.lastAlertId + 1) e)) = none ∧
      env.emitAlarm (alertRow env (world.lastAlertId + 1) e) = none) :
    handleXdpMsg env world (.obj (message (.alert e))) =
      ({ world with
          alerts := world.alerts ++ [alertRow env (world.lastAlertId + 1) e]
          lastAlertId := world.lastAlertId + 1
          newAlarm := world.newAlarm ++ [alertRow env (world.lastAlertId + 1) e] }, none) := by
  have fields : alertFields env (message (.alert e)) =
      .ok ⟨.str (inetNtop e.srcIp), .str (inetNtop e.dstIp), decimal e.alertType.toNat,
        e.timestamp.toNat⟩ :=
    congrArg (fun type => Except.ok (AlertFields.mk _ _ type _)) (decimalInt_natCast _)
  obtain ⟨inserts, logs, emits⟩ := works
  rw [alertRow] at inserts logs emits
  show saveAlert env (message (.alert e)) world = _
  simp only [saveAlert, fields, getIpLoc_str, callInference_message infers, inserts, logs, emits,
    World.store]
  rw [← alertRow, kept_alertRow]

theorem handleXdpMsg_flowRate {f : FlowRate}
    (works : env.insertFlow (flowRow (world.lastFlowId + 1) f) = none ∧
      env.log (.flowRateStored (flowRow (world.lastFlowId + 1) f)) = none ∧
      env.emitFlowRate (flowRow (world.lastFlowId + 1) f) = none) :
    handleXdpMsg env world (.obj (message (.flowRate f))) =
      ({ world with
          flowRates := world.flowRates ++ [flowRow (world.lastFlowId + 1) f]
          lastFlowId := world.lastFlowId + 1
          flowRate := world.flowRate ++ [flowRow (world.lastFlowId + 1) f] }, none) := by
  have fields : flowFields env (message (.flowRate f)) =
      .ok ⟨.str (inetNtop f.ip), f.pps.toNat, f.bytesPerSec.toNat, f.totalPkts.toNat,
        f.totalBytes.toNat, f.timestamp.toInt⟩ := rfl
  obtain ⟨inserts, logs, emits⟩ := works
  rw [flowRow] at inserts logs emits
  show saveFlowRate env (message (.flowRate f)) world = _
  simp only [saveFlowRate, fields, inserts, logs, emits]
  rfl

/-- **Step lemma.** A line is stored, and nothing is raised. -/
theorem Stored.step {ev : LoaderEvent} (stored : Stored env before events world)
    (quiet : Quiet env before (events ++ [ev])) :
    (handleXdpMsg env world (.obj (message ev))).2 = none ∧
      Stored env before (events ++ [ev]) (handleXdpMsg env world (.obj (message ev))).1 := by
  cases ev with
  | alert e =>
      have more : alertsOf (events ++ [.alert e]) = alertsOf events ++ [e] :=
        alertsOf_append events _
      have same : flowsOf (events ++ [.alert e]) = flowsOf events :=
        (flowsOf_append events _).trans (List.append_nil _)
      have works := quiet.alerts (alertRow env (world.lastAlertId + 1) e) (by
        rw [more, alertRows_concat, stored.lastAlertId]
        exact List.mem_append_right _ (List.mem_singleton_self _))
      have infers := quiet.infers e (by
        rw [more]
        exact List.mem_append_right _ (List.mem_singleton_self _))
      rw [handleXdpMsg_alert infers works]
      refine ⟨rfl, ?_, ?_, ?_, ?_, ?_, ?_⟩
      · rw [more, alertRows_concat, ← List.append_assoc, ← stored.alerts, ← stored.lastAlertId]
      · rw [same]
        exact stored.flowRates
      · rw [more, alertRows_concat, ← List.append_assoc, ← stored.newAlarm, ← stored.lastAlertId]
      · rw [same]
        exact stored.flowRate
      · rw [more, List.length_append, ← Nat.add_assoc, ← stored.lastAlertId]
        rfl
      · rw [same]
        exact stored.lastFlowId
  | flowRate f =>
      have more : flowsOf (events ++ [.flowRate f]) = flowsOf events ++ [f] :=
        flowsOf_append events _
      have same : alertsOf (events ++ [.flowRate f]) = alertsOf events :=
        (alertsOf_append events _).trans (List.append_nil _)
      have works := quiet.flows (flowRow (world.lastFlowId + 1) f) (by
        rw [more, flowRows_concat, stored.lastFlowId]
        exact List.mem_append_right _ (List.mem_singleton_self _))
      rw [handleXdpMsg_flowRate works]
      refine ⟨rfl, ?_, ?_, ?_, ?_, ?_, ?_⟩
      · rw [same]
        exact stored.alerts
      · rw [more, flowRows_concat, ← List.append_assoc, ← stored.flowRates, ← stored.lastFlowId]
      · rw [same]
        exact stored.newAlarm
      · rw [more, flowRows_concat, ← List.append_assoc, ← stored.flowRate, ← stored.lastFlowId]
      · rw [same]
        exact stored.lastAlertId
      · rw [more, List.length_append, ← Nat.add_assoc, ← stored.lastFlowId]
        rfl

/-- The body of a line, in a loop that is running. -/
theorem handleLine_body (env : Env) (session : Session World) (ev : LoaderEvent) :
    (handleLine (xdpHandler env) session (body ev)).world =
        (handleXdpMsg env session.world (.obj (message ev))).1 ∧
      (handleLine (xdpHandler env) session (body ev)).raised =
        uncaught (handleXdpMsg env session.world (.obj (message ev))).2 := by
  have content : body ev ≠ [] := List.cons_ne_nil _ _
  have parsed : (xdpHandler env).loads (body ev) = .ok (.obj (message ev)) := jsonLoads_body ev
  simp only [handleLine, strip_body, if_neg content, parsed]
  exact ⟨rfl, rfl⟩

/-- **Run lemma.** Lines that arrive whole are stored. -/
theorem Stored.run {session : Session World} {more : List LoaderEvent}
    (stored : Stored env before events session.world)
    (quiet : Quiet env before (events ++ more)) (running : session.raised = none) :
    Stored env before (events ++ more)
      (handleLines (xdpHandler env) session (more.map body)).world := by
  induction more generalizing session events with
  | nil =>
      rw [List.append_nil]
      exact stored
  | cons ev rest ih =>
      rw [List.append_cons] at quiet
      obtain ⟨world, raised⟩ := handleLine_body env session ev
      obtain ⟨succeeds, here⟩ := stored.step quiet.first
      rw [succeeds] at raised
      rw [← world] at here
      rw [List.map_cons, handleLines_cons _ running, List.append_cons]
      exact ih here quiet raised

end Quiet

/-- The events of the lines accepted whole. -/
def wholeEvents (sends : List Send) : List LoaderEvent := (sends.filter Send.isWhole).map Send.ev

/-- **Whole lines.** The tables hold the values of the first lines, and of all of
them when nothing is left to receive. -/
theorem stored_whole {env : Env} {world : World} {sends : List Send}
    (quiet : Quiet env world (wholeEvents sends))
    (uncut : ∀ s ∈ sends, s.isShort = false) {chunks : List (List UInt8)} {rest : Text}
    (stream : received chunks ++ rest = sends.flatMap Send.taken) :
    ∃ stored, stored <+: wholeEvents sends ∧
      Stored env world stored (receive (xdpHandler env) world chunks).1.world ∧
      (rest = [] → stored = wholeEvents sends) := by
  have clean : NoWholeBehind sends :=
    List.Pairwise.imp_of_mem (fun member _ _ short => absurd short (by simp [uncut _ member]))
      (List.pairwise_of_forall fun _ _ => True.intro)
  have lines : linesAfter [] sends = (wholeEvents sends).map body := by
    rw [linesAfter_of_noWholeBehind clean, wholeEvents, List.map_map]
    rfl
  have part := lines_received_part stream
  rw [lines] at part
  obtain ⟨stored, first, same⟩ := List.prefix_map_iff.mp part
  refine ⟨stored, first, ?_, ?_⟩
  · rw [(receive_session _ _ _).1, same]
    have start : Stored env world [] (⟨world, [], none⟩ : Session World).world :=
      stored_nil env world
    obtain ⟨later, split⟩ := first
    rw [← split] at quiet
    exact start.run quiet.first rfl
  · intro all
    have every : (drain 10 (received chunks)).1 = linesAfter [] sends := by
      rw [all, List.append_nil] at stream
      rw [stream]
      exact drain_sends List.not_mem_nil sends
    apply first.eq_of_length
    have count := congrArg List.length ((same.symm.trans every).trans lines)
    rwa [List.length_map, List.length_map] at count

end EbpfNids.Wire
