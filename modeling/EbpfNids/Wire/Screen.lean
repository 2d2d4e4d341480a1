import EbpfNids.Dashboard.AlertRows
import EbpfNids.Wire.Pipeline

/-!
# From the packet to the page

The page asks the backend for its alerts and statistics, at any moment. By then
the tables hold the first of the lines that the loader has sent (`stored_run`),
so the rows of the table are alerts of packets that crossed a threshold, the
newest ten of them, the newest first, each with the addresses of its packet and
the label and the tag of the rule that was broken, before older rows
(`screen_faithful`).

The chart has a slice for each type. The keys that it gets are the numerals of
the types, which its table of names does not have, so the slices are named by
them.
-/

set_option autoImplicit false

namespace EbpfNids.Wire

open Library Library.Decimal Library.Runs Library.Refinement
open EbpfNids.DataPlane EbpfNids.Loader EbpfNids.Backend EbpfNids.Dashboard

variable {ι : Type*}

/-! ## What a row shows -/

/-- The tables, as the requests of the page see them. -/
def databaseOf (world : World) : Database :=
  ⟨world.alerts, world.flowRates, world.lastAlertId, world.lastFlowId⟩

/-- The label and the class of the tag of a type. -/
def alertTag (type : UInt8) : Text × Text :=
  if type = 1 then (text "SYN FLOOD", text "tag-syn-flood")
  else if type = 2 then (text "PORT SCAN", text "tag-port-scan")
  else (text "UNKNOWN", text "tag-other")

/-- The row of an alert of the data plane. -/
def shownAlert (env : Env) (browser : Browser) (e : AlertEvent) : TableRow where
  srcIp := .str (inetNtop e.srcIp)
  type := (alertTag e.alertType).1
  typeRaw := alertTypeToString e.alertType
  port := .str (inetNtop e.dstIp)
  srcLoc := .str (locationText env (inetNtop e.srcIp))
  tagClass := (alertTag e.alertType).2
  time := if e.timestamp = 0 then text "--:--:--" else browser.timeOfInt e.timestamp.toNat

/-- The row of an alert that was stored before, if the page can show it. -/
def shownRow (browser : Browser) (row : AlertRow) : Option TableRow :=
  (shownType browser row).map (tableRow browser row)

/-- The alerts stored of a type, before and since. -/
def countOf (world : World) (stored : List AlertEvent) (type : UInt8) : ℕ :=
  (world.alerts.map (·.alertType)).count (decimal type.toNat) +
    (stored.map (·.alertType)).count type

/-- What the page gets when some alerts have been stored. -/
structure Shown (env : Env) (browser : Browser) (world : World) (stored : List AlertEvent)
    (db : Database) : Prop where
  table : fetchAlerts browser (alertsResponse db) =
    some (((stored.map (shownAlert env browser)).reverse ++
      (world.alerts.filterMap (shownRow browser)).reverse).take 10)
  total : fetchTotalAlerts browser (statsResponse (statsOf db)) =
    some (.int (world.alerts.length + stored.length : ℕ))
  slices : ∃ slices, fetchAttackTypes browser (statsResponse (statsOf db)) = some slices ∧
    ∀ type, countOf world stored type ≠ 0 →
      (.text (decimal type.toNat), .int (countOf world stored type)) ∈ slices

section Rows

variable {browser : Browser} {env : Env}

theorem typeLabel_alertType (type : UInt8) :
    typeLabel browser (alertTypeToString type) = (alertTag type).1 := by
  rw [alertTypeToString_eq, alertTag]
  split
  · rfl
  · split
    · rfl
    · rfl

theorem tagClass_alertType (type : UInt8) :
    tagClass (alertTypeToString type) = (alertTag type).2 := by
  rw [alertTypeToString_eq, alertTag]
  split
  · decide
  · split
    · decide
    · decide

theorem inetNtop_ne_nil (addr : UInt32) : inetNtop addr ≠ [] :=
  List.append_ne_nil_of_right_ne_nil _ (List.cons_ne_nil _ _)

theorem locationText_ne_nil (env : Env) (ip : Text) : locationText env ip ≠ [] := by
  have answered : ∀ answer location, locationOf env answer = .ok location → location ≠ [] := by
    intro answer location found
    rw [locationOf.eq_def] at found
    split at found
    · split at found
      · split at found
        · cases found
          simp [text]
        · cases found
          decide
      · cases found
        decide
    · cases found
  have found := getIpLoc_str env ip
  rw [getIpLoc] at found
  split at found
  · rw [← Except.ok.inj found]
    decide
  · split at found
    · split at found
      · rename_i location here
        rw [← Except.ok.inj found]
        exact answered _ _ here
      · rw [← Except.ok.inj found]
        decide
    · rw [← Except.ok.inj found]
      decide

theorem alertTypeToString_ne_nil (type : UInt8) : alertTypeToString type ≠ [] := by
  rw [alertTypeToString.eq_def]
  split
  · decide
  · decide
  · decide

/-- The row of an alert that the backend has stored. -/
theorem shownRow_alertRow (id : ℕ) (e : AlertEvent) :
    shownRow browser (alertRow env id e) = some (shownAlert env browser e) := by
  have shown : shownType browser (alertRow env id e) = some (alertTypeToString e.alertType) :=
    congrArg asString (orElse_str (alertTypeToString_ne_nil _) _)
  have time : ((e.timestamp.toNat : ℤ) = 0) = (e.timestamp = 0) := by
    rw [Int.natCast_eq_zero, ← UInt64.toNat_inj]
    rfl
  rw [shownRow, shown, Option.map_some, tableRow, rowOf, shownAlert, typeLabel_alertType,
    tagClass_alertType]
  simp only [alertRow, orElse_str (inetNtop_ne_nil _), orElse_str (locationText_ne_nil _ _), time]

theorem shownRow_alertRows (last : ℕ) (alerts : List AlertEvent) :
    (alertRows env last alerts).filterMap (shownRow browser) =
      alerts.map (shownAlert env browser) := by
  induction alerts using List.reverseRecOn with
  | nil => rfl
  | append_singleton earlier e ih =>
      rw [alertRows_concat, List.filterMap_append, ih, List.map_append, List.filterMap_cons,
        shownRow_alertRow]
      rfl

/-- When every row can be shown, all of them are. -/
theorem mapM_shownRow {rows : List AlertRow} (all : ∀ row ∈ rows, (shownRow browser row).isSome) :
    rows.mapM (shownRow browser) = some (rows.filterMap (shownRow browser)) := by
  induction rows with
  | nil => rfl
  | cons row rest ih =>
      obtain ⟨here, later⟩ := List.forall_mem_cons.mp all
      obtain ⟨shown, same⟩ := Option.isSome_iff_exists.mp here
      rw [List.mapM_cons, same, ih later, List.filterMap_cons_some same]
      rfl

/-- The first rows shown are those of the first alerts. -/
theorem filterMap_take {rows : List AlertRow} (all : ∀ row ∈ rows, (shownRow browser row).isSome)
    (n : ℕ) : (rows.take n).filterMap (shownRow browser) =
      (rows.filterMap (shownRow browser)).take n := by
  induction rows generalizing n with
  | nil => rw [List.take_nil, List.filterMap_nil, List.take_nil]
  | cons row rest ih =>
      obtain ⟨here, later⟩ := List.forall_mem_cons.mp all
      obtain ⟨shown, same⟩ := Option.isSome_iff_exists.mp here
      cases n with
      | zero => rfl
      | succ n =>
          rw [List.take_succ_cons, List.filterMap_cons_some same, List.filterMap_cons_some same,
            List.take_succ_cons, ih later]

theorem count_alertRows (last : ℕ) (alerts : List AlertEvent) (type : UInt8) :
    ((alertRows env last alerts).map (·.alertType)).count (decimal type.toNat) =
      (alerts.map (·.alertType)).count type := by
  have types : (alertRows env last alerts).map (·.alertType) =
      (alerts.map (·.alertType)).map fun type => decimal type.toNat := by
    rw [List.map_map]
    refine List.ext_getElem (by simp [alertRows]) fun k _ _ => ?_
    simp [alertRows, alertRow]
  rw [types]
  exact List.count_map_of_injective _ _ decimal_type_injective _

/-- A numeral is its own name: the tables have no such key, and it has no letters. -/
theorem sliceName_decimal (n : ℕ) : sliceName browser (decimal n) = .text (decimal n) := by
  have digits : (decimal n).all isDigit = true :=
    List.all_eq_true.mpr fun c member => isDigit_of_mem_decimal member
  have names : ∀ key ∈ typeNames.map Prod.fst ++ objectPrototype, key ≠ decimal n := by
    intro key member same
    have letters : ∀ key ∈ typeNames.map Prod.fst ++ objectPrototype, key.all isDigit = false := by
      decide
    have := letters key member
    rw [same, digits] at this
    cases this
  have noName : typeNames.lookup (decimal n) = none := by
    rw [List.lookup_eq_none_iff]
    intro entry member
    exact bne_iff_ne.mpr
      (names entry.1 (List.mem_append_left _ (List.mem_map_of_mem member))).symm
  have notInherited : ¬objectPrototype.contains (decimal n) = true := fun contains =>
    names _ (List.mem_append_right _ (List.contains_iff_mem.mp contains)) rfl
  have label : typeLabel browser (decimal n) = decimal n := by
    have same : ∀ c ∈ decimal n, (if c = 95 then 32 else c) = c ∧ upperChar browser c = [c] := by
      intro c member
      have digit := isDigit_iff.mp (isDigit_of_mem_decimal member)
      refine ⟨if_neg (by omega), ?_⟩
      rw [upperChar, if_pos (by omega), if_neg (by omega)]
    rw [typeLabel, List.map_congr_left fun c member => (same c member).1, List.map_id',
      List.flatMap_congr fun c member => (same c member).2, List.flatMap_singleton']
  rw [sliceName, noName, label]
  exact if_neg notInherited

theorem mem_typeCount {alerts : List AlertRow} {type : Text}
    (some : (alerts.map (·.alertType)).count type ≠ 0) :
    (type, (alerts.map (·.alertType)).count type) ∈ typeCount alerts := by
  refine List.mem_map.mpr ⟨type, ?_, rfl⟩
  rw [List.mem_insertionSort, List.mem_dedup]
  exact List.count_pos_iff.mp (Nat.pos_of_ne_zero some)

end Rows

/-! ## What the page gets -/

section Page

variable {env : Env} {before after : World} {events : List LoaderEvent}

/-- **What is stored is shown.** -/
theorem shown_of_stored (browser : Browser) (stored : Stored env before events after)
    (textual : ∀ row ∈ before.alerts, Textual row) :
    Shown env browser before (alertsOf events) (databaseOf after) := by
  have rows : (databaseOf after).alerts =
      before.alerts ++ alertRows env before.lastAlertId (alertsOf events) := stored.alerts
  have every : ∀ row ∈ (databaseOf after).alerts, (shownRow browser row).isSome := by
    intro row member
    rw [rows, List.mem_append, alertRows, List.mem_mapIdx] at member
    rcases member with earlier | ⟨k, bound, rfl⟩
    · rw [shownRow, Option.isSome_map]
      exact (textual row earlier).shownType
    · rw [shownRow_alertRow]
      rfl
  have everyNewest : ∀ row ∈ (databaseOf after).alerts.reverse, (shownRow browser row).isSome :=
    fun row member => every row (List.mem_reverse.mp member)
  refine ⟨?_, ?_, ?_⟩
  · rw [fetchAlerts_getAlerts]
    refine (mapM_shownRow fun row member => everyNewest row (List.mem_of_mem_take member)).trans ?_
    rw [filterMap_take everyNewest, List.filterMap_reverse, rows, List.filterMap_append,
      shownRow_alertRows, List.reverse_append]
  · rw [fetchTotalAlerts_stats, rows, List.length_append, alertRows, List.length_mapIdx]
  · obtain ⟨slices, fetched, order⟩ := @fetchAttackTypes_stats browser (databaseOf after)
    refine ⟨slices, fetched, fun type some => ?_⟩
    have number : ((databaseOf after).alerts.map (·.alertType)).count (decimal type.toNat) =
        countOf before (alertsOf events) type := by
      rw [rows, List.map_append, List.count_append, count_alertRows, countOf]
    have counted := @mem_typeCount (databaseOf after).alerts (decimal type.toNat)
      (number ▸ some)
    rw [number] at counted
    have slice := List.mem_map_of_mem (f := fun count : Text × ℕ =>
      (sliceName browser count.1, Json.int count.2)) counted
    rw [sliceName_decimal] at slice
    exact order.mem_iff.mpr slice

end Page

/-! ## The whole way -/

/-- **From the packet to the page.** In every interleaving in which the backend
stays connected, nothing fails in it and no line is cut, the page shows alerts
that waited in the ring buffer or whose packets have crossed a threshold, each
once, in their order, above the older ones, and counts them under their types.
When every line is accepted whole and nothing waits any more it shows all of
them. -/
theorem screen_faithful (env : Env) (browser : Browser) (i : Fin maxClients)
    (loop : LoopState ι) (ring : List AlertEvent) (clients : Clients) (world : World)
    (events : List PipeEvent) (connected : (clients i).isSome)
    (stays : ∀ s ∈ sends env i (.connect loop ring clients world) events, s.result ≠ .failed)
    (quiet : Quiet env world
      (wholeEvents (sends env i (.connect loop ring clients world) events)))
    (uncut : ∀ s ∈ sends env i (.connect loop ring clients world) events, s.isShort = false)
    (textual : ∀ row ∈ world.alerts, Textual row) :
    let start : Pipeline ι := .connect loop ring clients world
    let after := exec (pipeStep env i) start events
    let detected := operations (pipeStep env i) placed start events
    (∀ e ∈ detected, ∃ p ∈ steps (pipeStep env i) start events, Detects e p) ∧
      ∃ stored, stored.Sublist (ring ++ detected) ∧
        Shown env browser world stored (databaseOf after.backend.1.world) ∧
        ((∀ s ∈ sends env i start events, s.isWhole = true) → after.wire = [] →
          after.ring = [] → stored = ring ++ detected) := by
  intro start after detected
  constructor
  · intro e member
    obtain ⟨p, inRun, here⟩ := List.mem_flatMap.mp member
    exact ⟨p, inRun, mem_placed_iff.mp here⟩
  · obtain ⟨kept, first, tables, all⟩ := stored_run connected stays quiet uncut
    have relayed := relayed_run env i start events
    refine ⟨alertsOf kept, ?_, shown_of_stored browser tables textual, ?_⟩
    · exact (alertsOf_sublist first.sublist).trans
        ((List.sublist_append_left _ _).trans relayed)
    · intro accepted nothing empty
      have alerts := @alertsOf_whole _ env i events start accepted
      have drained : (exec (pipeStep env i) start events).ring = [] := empty
      rw [drained, List.append_nil] at alerts
      rw [all nothing]
      exact alerts

/-- A browser that shows the milliseconds. -/
def plainBrowser : Browser := ⟨fun _ => false, fun c => [c], decimalInt, fun _ => none⟩

/-- A record that waits when the backend connects, and that of a packet after it,
come to the page, the newest first. -/
theorem waiting_record_shown :
    fetchAlerts plainBrowser (alertsResponse (databaseOf (exec (pipeStep calmEnv 0)
      (.connect floodedLoader [floodEvent] (acceptClients 1 initClients) World.empty)
      (lastSyn synFrame)).backend.1.world)) =
        some [shownAlert calmEnv plainBrowser synEvent,
          shownAlert calmEnv plainBrowser floodEvent] := by
  obtain ⟨-, stored, -, shown, all⟩ := screen_faithful calmEnv plainBrowser 0 floodedLoader
    [floodEvent] (acceptClients 1 initClients) World.empty (lastSyn synFrame) (by decide)
    (by decide +kernel) (quiet_calmEnv _ _) (by decide +kernel) (List.forall_mem_nil _)
  have placed : operations (pipeStep calmEnv 0) placed
      (.connect floodedLoader [floodEvent] (acceptClients 1 initClients) World.empty)
        (lastSyn synFrame) = [synEvent] := by
    decide +kernel
  have both := all (by decide +kernel) (by decide +kernel) (by decide +kernel)
  rw [placed] at both
  rw [shown.table, both]
  rfl

end EbpfNids.Wire
