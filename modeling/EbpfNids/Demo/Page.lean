import EbpfNids.Dashboard.AlertRows
import EbpfNids.Demo.Alerts
import EbpfNids.Net.Address

/-!
# The dashboard over the demo backend

The containers serve the dashboard in front of the demo backend. The page asks
for the alerts without a limit and gets the newest twenty, the oldest of them
first, and keeps the first ten. So as soon as more than ten alerts have been
generated the newest of them are not in the table: ten of them, once there are
twenty. The chart counts the newest fifty by the names of their types, which it
has its own names for, while the card counts all (`demo_page`).
-/

set_option autoImplicit false

namespace EbpfNids.Demo

open Library Library.Decimal Library.Runs Library.Window
open EbpfNids.Backend EbpfNids.Dashboard EbpfNids.Net

/-! ## What is made up -/

inductive AttackType where
  | synFlood
  | portScan
  | sshBrute
  | dnsAmp
  | other
deriving DecidableEq, Repr

/-- `ATTACK_TYPES` -/
def attackTypes : List AttackType := [.synFlood, .portScan, .sshBrute, .dnsAmp, .other]

def AttackType.name : AttackType → Text
  | .synFlood => text "syn_flood"
  | .portScan => text "port_scan"
  | .sshBrute => text "ssh_brute"
  | .dnsAmp => text "dns_amp"
  | .other => text "other"

/-- `PROVINCES`, each with its region in `CITIES`. -/
def provinces : Vector (Text × Text) 15 :=
  #v[(text "北京", text "北京"), (text "上海", text "上海"), (text "广州", text "广东"),
    (text "深圳", text "广东"), (text "杭州", text "浙江"), (text "成都", text "四川"),
    (text "武汉", text "湖北"), (text "南京", text "江苏"), (text "西安", text "陕西"),
    (text "重庆", text "重庆"), (text "长沙", text "湖南"), (text "郑州", text "河南"),
    (text "济南", text "山东"), (text "沈阳", text "辽宁"), (text "昆明", text "云南")]

/-- The location of a province. -/
def srcLoc (province : Fin 15) : Text :=
  (provinces.get province).2 ++ text " " ++ (provinces.get province).1

/-- What `generate_mock_flow` chooses, with the numeral of its time. -/
structure MockFlow where
  ip : Quad
  bytesPerSec : ℕ
  totalBytes : ℕ
  pps : ℕ
  timestamp : Text
  province : Fin 15

/-- What `generate_mock_alert` chooses, and its time. -/
structure MockAlert where
  srcIp : Quad
  dstIp : Quad
  attackType : AttackType
  province : Fin 15
  timestampNs : ℤ

def MockFlow.object (f : MockFlow) : Json :=
  .obj [(text "ip", .str (inetNtoa f.ip)), (text "bytes_per_sec", .int f.bytesPerSec),
    (text "total_bytes", .int f.totalBytes), (text "pps", .int f.pps),
    (text "timestamp", .float f.timestamp), (text "src_loc", .str (srcLoc f.province))]

def MockAlert.object (a : MockAlert) : Json :=
  .obj [(text "src_ip", .str (inetNtoa a.srcIp)), (text "dst_ip", .str (inetNtoa a.dstIp)),
    (text "attack_type", .str a.attackType.name), (text "src_loc", .str (srcLoc a.province)),
    (text "timestamp_ns", .int a.timestampNs)]

/-! ## The answers -/

abbrev MockSim := Sim MockFlow MockAlert

/-- What `GET /api/alerts` answers with. -/
def alertsResponse (decimalDigit : ℕ → Option (Fin 10)) (arg : Option Text) (sim : MockSim) :
    Json := .obj [(text "data", .arr ((alerts decimalDigit arg sim).map MockAlert.object))]

/-- `type_count[t] = type_count.get(t, 0) + 1` -/
def countType (typeCount : List (Text × ℕ)) (t : Text) : List (Text × ℕ) :=
  if (typeCount.map Prod.fst).contains t then
    typeCount.map fun entry => if entry.1 = t then (t, entry.2 + 1) else entry
  else typeCount ++ [(t, 1)]

def typeCount (simAlerts : List MockAlert) : List (Text × ℕ) :=
  simAlerts.foldl (fun counts a => countType counts a.attackType.name) []

/-- What `GET /api/stats` answers with. `jsonify` sorts the keys. -/
def statsResponse (sim : MockSim) : Json :=
  .obj [(text "latest_flows", .arr ((sliceFrom (-10) sim.simFlows).map MockFlow.object)),
    (text "total_alerts", .int sim.simTotalAlerts),
    (text "type_count", .obj (((typeCount sim.simAlerts).insertionSort (·.1 ≤ ·.1)).map
      fun entry => (entry.1, .int entry.2)))]

/-! ## What the page shows -/

/-- The name of a type in the chart. -/
def AttackType.displayName : AttackType → Text
  | .synFlood => text "SYN Flood"
  | .portScan => text "端口扫描"
  | .sshBrute => text "SSH 爆破"
  | .dnsAmp => text "DNS 放大"
  | .other => text "其他"

/-- The label and the class of the tag of a type in the table. -/
def AttackType.tag : AttackType → Text × Text
  | .synFlood => (text "SYN FLOOD", text "tag-syn-flood")
  | .portScan => (text "PORT SCAN", text "tag-port-scan")
  | .sshBrute => (text "SSH BRUTE", text "tag-ssh-brute")
  | .dnsAmp => (text "DNS AMP", text "tag-dns-amp")
  | .other => (text "OTHER", text "tag-other")

def MockAlert.row (browser : Browser) (a : MockAlert) : TableRow where
  srcIp := .str (inetNtoa a.srcIp)
  type := a.attackType.tag.1
  typeRaw := a.attackType.name
  port := .str (inetNtoa a.dstIp)
  srcLoc := .str (srcLoc a.province)
  tagClass := a.attackType.tag.2
  time := if a.timestampNs = 0 then text "--:--:--" else browser.timeOfInt a.timestampNs

/-- How many of some alerts are of a type. -/
def countOf (alerts : List MockAlert) (t : AttackType) : ℕ :=
  (alerts.map MockAlert.attackType).count t

/-- The page, when these alerts have been generated. -/
structure Shows (browser : Browser) (decimalDigit : ℕ → Option (Fin 10))
    (history : List MockAlert) (sim : MockSim) : Prop where
  table : ∃ older shown newer, history = older ++ shown ++ newer ∧
    shown.length = min 10 history.length ∧ newer.length = min 10 (history.length - 10) ∧
    fetchAlerts browser (alertsResponse decimalDigit none sim) =
      some (shown.map (MockAlert.row browser))
  card : fetchTotalAlerts browser (statsResponse sim) = some (.int history.length)
  chart : ∃ slices, fetchAttackTypes browser (statsResponse sim) = some slices ∧
    slices.Perm ((attackTypes.filter fun t => countOf (history.rtake 50) t ≠ 0).map fun t =>
      (.text t.displayName, .int (countOf (history.rtake 50) t)))
  counted : (attackTypes.map (countOf (history.rtake 50))).sum = min 50 history.length

/-! ## The table -/

section Table

variable {browser : Browser}

theorem inetNtoa_ne_nil (q : Quad) : inetNtoa q ≠ [] :=
  List.append_ne_nil_of_right_ne_nil _ (List.cons_ne_nil _ _)

theorem srcLoc_ne_nil (province : Fin 15) : srcLoc province ≠ [] :=
  List.append_ne_nil_of_left_ne_nil
    (List.append_ne_nil_of_right_ne_nil _ (List.cons_ne_nil _ _)) _

theorem AttackType.name_ne_nil (t : AttackType) : t.name ≠ [] := by
  cases t <;> exact List.cons_ne_nil _ _

theorem AttackType.tag_eq (browser : Browser) (t : AttackType) :
    t.tag = (typeLabel browser t.name, tagClass t.name) := by
  have label : t.tag.1 = typeLabel browser t.name := by
    cases t <;> rfl
  have tagged : t.tag.2 = tagClass t.name := by
    cases t <;> decide
  exact Prod.ext label tagged

theorem fetchAlert_object (a : MockAlert) :
    fetchAlert browser a.object = some (a.row browser) := by
  have read := @fetchAlert_of_props browser a.object (.str a.attackType.name)
    (.str (inetNtoa a.srcIp)) (.str (inetNtoa a.dstIp)) (.str (srcLoc a.province))
    a.timestampNs rfl rfl rfl rfl rfl
  rw [read, orElse_str a.attackType.name_ne_nil, asString, Option.map_some, rowOf, MockAlert.row,
    orElse_str (inetNtoa_ne_nil _), orElse_str (inetNtoa_ne_nil _), orElse_str (srcLoc_ne_nil _),
    AttackType.tag_eq browser]

/-- The ten oldest of the twenty newest. -/
theorem middle_ten {α : Type*} (history : List α) :
    ∃ older newer, history = older ++ (history.rtake 20).take 10 ++ newer ∧
      ((history.rtake 20).take 10).length = min 10 history.length ∧
      newer.length = min 10 (history.length - 10) := by
  refine ⟨history.take (history.length - 20), (history.rtake 20).drop 10, ?_, ?_, ?_⟩
  · rw [List.append_assoc, List.take_append_drop, List.rtake, List.take_append_drop]
  · rw [List.length_take, length_rtake]
    omega
  · rw [List.length_drop, length_rtake]
    omega

theorem fetchAlerts_demo (decimalDigit : ℕ → Option (Fin 10)) {history : List MockAlert}
    {sim : MockSim} (keeps : Keeps history sim) :
    fetchAlerts browser (alertsResponse decimalDigit none sim) =
      some (((history.rtake 20).take 10).map (MockAlert.row browser)) := by
  have newest : alerts decimalDigit none sim = history.rtake 20 := by
    rw [alerts, keeps.newest]
    show sliceFrom (-((20 : ℕ) : ℤ)) _ = _
    rw [sliceFrom_neg (by decide), rtake_rtake]
    rfl
  have found : prop (alertsResponse decimalDigit none sim) "data" =
      some (some (.arr ((alerts decimalDigit none sim).map MockAlert.object))) := rfl
  rw [fetchAlerts, found, newest]
  show (((history.rtake 20).map MockAlert.object).take 10).mapM (fetchAlert browser) = _
  rw [← List.map_take, List.mapM_map]
  exact (congrArg (fun f => List.mapM f _) (funext fetchAlert_object)).trans List.mapM_pure

end Table

/-! ## The chart -/

section Chart

/-- A dictionary of counts: every text once, with its count. -/
structure Tallies (types keys : List Text) (counts : List (Text × ℕ)) : Prop where
  nodup : keys.Nodup
  mem : ∀ t, t ∈ keys ↔ t ∈ types
  entries : counts = keys.map fun t => (t, types.count t)

theorem tallies_nil : Tallies [] [] [] := ⟨List.nodup_nil, fun _ => Iff.rfl, rfl⟩

/-- **Step lemma.** -/
theorem Tallies.countType {types keys : List Text} {counts : List (Text × ℕ)}
    (tallies : Tallies types keys counts) (t : Text) :
    ∃ keys', Tallies (types ++ [t]) keys' (countType counts t) := by
  have known : counts.map Prod.fst = keys := by
    rw [tallies.entries, List.map_map]
    exact List.map_id' keys
  rw [Demo.countType, known]
  split
  · rename_i contains
    have old := List.contains_iff_mem.mp contains
    refine ⟨keys, tallies.nodup, fun k => ?_, ?_⟩
    · rw [tallies.mem, List.mem_append, List.mem_singleton]
      refine (or_iff_left_of_imp ?_).symm
      rintro rfl
      exact (tallies.mem k).mp old
    · rw [tallies.entries, List.map_map]
      refine List.map_congr_left fun k _ => ?_
      rw [Function.comp_apply, List.count_append]
      by_cases same : k = t
      · rw [if_pos same, same, List.count_singleton_self]
      · rw [if_neg same, List.count_singleton, if_neg (by simp [Ne.symm same])]
        rfl
  · rename_i absent
    have new : t ∉ keys := fun member => absent (List.contains_iff_mem.mpr member)
    have unseen : t ∉ types := fun seen => new ((tallies.mem t).mpr seen)
    refine ⟨keys ++ [t], ?_, fun k => ?_, ?_⟩
    · rw [List.nodup_append]
      refine ⟨tallies.nodup, List.nodup_singleton t, ?_⟩
      rintro k member _ isNew rfl
      rw [List.mem_singleton.mp isNew] at member
      exact new member
    · rw [List.mem_append, List.mem_append, tallies.mem]
    · rw [List.map_append, tallies.entries]
      congr 1
      · refine List.map_congr_left fun k member => ?_
        have other : k ≠ t := fun same => new (same ▸ member)
        rw [List.count_append, List.count_singleton, if_neg (by simp [other.symm])]
        rfl
      · rw [List.map_singleton, List.count_append, List.count_eq_zero_of_not_mem unseen,
          List.count_singleton_self]

/-- **Run lemma.** -/
theorem tallies_typeCount (simAlerts : List MockAlert) :
    ∃ keys, Tallies (simAlerts.map fun a => a.attackType.name) keys (typeCount simAlerts) := by
  induction simAlerts using List.reverseRecOn with
  | nil => exact ⟨[], tallies_nil⟩
  | append_singleton earlier a ih =>
      obtain ⟨keys, tallies⟩ := ih
      rw [typeCount, List.foldl_append, List.map_append]
      exact tallies.countType a.attackType.name

theorem name_injective : Function.Injective AttackType.name := by
  intro s t same
  cases s <;> cases t <;> first | rfl | exact absurd same (by decide)

theorem count_name (alerts : List MockAlert) (t : AttackType) :
    (alerts.map fun a => a.attackType.name).count t.name = countOf alerts t := by
  have types : (alerts.map fun a => a.attackType.name) =
      (alerts.map MockAlert.attackType).map AttackType.name := by rw [List.map_map]; rfl
  rw [types, List.count_map_of_injective _ _ name_injective, countOf]

theorem mem_attackTypes (t : AttackType) : t ∈ attackTypes := by
  cases t <;> decide

/-- The counts are those of the types that there are. -/
theorem typeCount_perm (simAlerts : List MockAlert) :
    (typeCount simAlerts).Perm
      ((attackTypes.filter fun t => countOf simAlerts t ≠ 0).map fun t =>
        (t.name, countOf simAlerts t)) := by
  obtain ⟨keys, tallies⟩ := tallies_typeCount simAlerts
  have names : keys.Perm
      ((attackTypes.filter fun t => countOf simAlerts t ≠ 0).map AttackType.name) := by
    refine (List.perm_ext_iff_of_nodup tallies.nodup ?_).mpr fun k => ?_
    · exact (List.Nodup.filter _ (by decide)).map name_injective
    · rw [tallies.mem]
      constructor
      · intro seen
        obtain ⟨a, member, rfl⟩ := List.mem_map.mp seen
        refine List.mem_map_of_mem (List.mem_filter.mpr ⟨mem_attackTypes _, ?_⟩)
        rw [decide_eq_true_iff, ← count_name]
        exact Nat.pos_iff_ne_zero.mp (List.count_pos_iff.mpr seen)
      · intro member
        obtain ⟨t, counted, rfl⟩ := List.mem_map.mp member
        have some := of_decide_eq_true (List.mem_filter.mp counted).2
        rw [← count_name] at some
        exact List.count_pos_iff.mp (Nat.pos_of_ne_zero some)
  rw [tallies.entries]
  refine (names.map _).trans (.of_eq ?_)
  rw [List.map_map]
  exact List.map_congr_left fun t _ => congrArg (t.name, ·) (count_name simAlerts t)

theorem sum_countOf (alerts : List MockAlert) :
    (attackTypes.map (countOf alerts)).sum = alerts.length := by
  induction alerts with
  | nil => rfl
  | cons a rest ih =>
      have step : ∀ t, countOf (a :: rest) t =
          countOf rest t + if a.attackType = t then 1 else 0 := by
        intro t
        rw [countOf, List.map_cons, List.count_cons]
        simp [countOf]
      rw [List.length_cons, ← ih, List.map_congr_left fun t _ => step t]
      cases a.attackType <;> simp [attackTypes] <;> omega

theorem sliceName_name (browser : Browser) (t : AttackType) :
    sliceName browser t.name = .text t.displayName := by
  cases t <;> rfl

theorem fetchAttackTypes_demo (browser : Browser) (sim : MockSim) :
    ∃ slices, fetchAttackTypes browser (statsResponse sim) = some slices ∧
      slices.Perm ((attackTypes.filter fun t => countOf sim.simAlerts t ≠ 0).map fun t =>
        (.text t.displayName, .int (countOf sim.simAlerts t))) := by
  refine ⟨_, rfl, (slices_perm _).trans ?_⟩
  refine (((List.perm_insertionSort _ _).trans (typeCount_perm sim.simAlerts)).map _).trans
    (.of_eq ?_)
  rw [List.map_map]
  refine List.map_congr_left fun t _ => ?_
  rw [Function.comp_apply, sliceName_name]

end Chart

/-- **The page over the demo backend.** After every run of the generator, the
table has lost sight of the newest alerts as soon as there are more than ten, and
the chart counts fifty at most. -/
theorem demo_page (browser : Browser) (decimalDigit : ℕ → Option (Fin 10))
    (rounds : List (Round MockFlow MockAlert)) :
    Shows browser decimalDigit (generated rounds) (exec generate Sim.init rounds) := by
  have keeps := keeps_init.exec rounds
  rw [List.nil_append] at keeps
  obtain ⟨older, newer, split, shown, unseen⟩ := middle_ten (generated rounds)
  refine ⟨⟨older, _, newer, split, shown, unseen, fetchAlerts_demo decimalDigit keeps⟩, ?_, ?_, ?_⟩
  · rw [← keeps.total]
    exact congrArg some (orElse_int _)
  · rw [← keeps.newest]
    exact fetchAttackTypes_demo browser _
  · rw [sum_countOf, length_rtake]

end EbpfNids.Demo
