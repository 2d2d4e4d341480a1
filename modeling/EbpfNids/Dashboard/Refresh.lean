import EbpfNids.Dashboard.Toasts
import EbpfNids.Library.Runs
import Mathlib.Logic.Function.Basic
import Mathlib.Data.List.Infix

/-!
# Refreshes that overlap

Every three seconds `refreshAll` sends five requests, and when all five have
been answered it writes their results to the page. It does not look whether an
earlier refresh is still waiting or a later one has been shown. In between, the
web socket puts new alerts at the top of the table, and the next refresh replaces
the table by what its response says.

A response says what the server knew when it was produced. So the page goes back
to older data exactly when the last response of a refresh comes after all those
of a later one, or when the table has meanwhile got an alert that did not exist
when the response was produced (`never_older_iff`).
-/

set_option autoImplicit false

namespace EbpfNids.Dashboard

open Library.Runs Library.Loops Page

variable {S : Type*}

/-! ## The server -/

/-- What the server answers from: the statistics, and the ids of the alerts in
the order in which they were stored. No id is above the last one given out. -/
structure Source (S : Type*) where
  stats : S
  alerts : List ℕ
  lastId : ℕ
  bounded : ∀ id ∈ alerts, id ≤ lastId

namespace Source

def setStats (source : Source S) (stats : S) : Source S := { source with stats := stats }

/-- An alert is stored under the next id. -/
def store (source : Source S) : Source S where
  stats := source.stats
  alerts := source.alerts ++ [source.lastId + 1]
  lastId := source.lastId + 1
  bounded := by
    intro id member
    rcases List.mem_append.mp member with earlier | new
    · exact Nat.le_succ_of_le (source.bounded id earlier)
    · exact Nat.le_of_eq (List.mem_singleton.mp new)

def clear (source : Source S) : Source S where
  stats := source.stats
  alerts := []
  lastId := source.lastId
  bounded _ member := absurd member List.not_mem_nil

/-- `/api/alerts`: the hundred latest alerts. -/
def latestAlerts (source : Source S) : List ℕ := source.alerts.reverse.take 100

end Source

/-! ## The page -/

/-- The five requests of a refresh. All but the last ask for `/api/stats`. -/
inductive Endpoint where
  | stats
  | trafficSeries
  | attackTypes
  | mapData
  | alerts
deriving DecidableEq, Repr

/-- A request and its response, which is known by the state of the server that it
was produced from. -/
inductive Fetch (S : Type*) where
  | unsent
  | waiting
  | produced (response : Source S)
  | arrived (response : Source S)
  | failed

def Fetch.result : Fetch S → Option (Source S)
  | .arrived response => some response
  | _ => none

/-- The responses of a refresh. -/
structure Results (S : Type*) where
  stats : Source S
  trafficSeries : Source S
  attackTypes : Source S
  mapFlowData : Source S
  alerts : Source S

/-- `Promise.all`: the five results, once all of them are there. -/
def promiseAll (fetches : Endpoint → Fetch S) : Option (Results S) := do
  let stats ← (fetches .stats).result
  let trafficSeries ← (fetches .trafficSeries).result
  let attackTypes ← (fetches .attackTypes).result
  let mapFlowData ← (fetches .mapData).result
  let alerts ← (fetches .alerts).result
  return ⟨stats, trafficSeries, attackTypes, mapFlowData, alerts⟩

/-- The cards, the three charts, the rows of the table and its count. -/
structure Display (S : Type*) where
  cards : Option S
  lineChart : Option S
  pieChart : Option S
  mapChart : Option S
  rows : List ℕ
  count : ℕ

namespace Display

/-- `renderAlerts`, of what `fetchAlerts` keeps of a response. -/
def renderAlerts (alerts : List ℕ) (d : Display S) : Display S :=
  { d with rows := alerts, count := alerts.length }

def fetchAlerts (response : Source S) : List ℕ := response.latestAlerts.take 10

/-- What `refreshAll` writes when its results are there. -/
def render (mapReady : Bool) (results : Results S) (d : Display S) : Display S :=
  renderAlerts (fetchAlerts results.alerts)
    { d with
      cards := some results.stats.stats
      lineChart := some results.trafficSeries.stats
      pieChart := some results.attackTypes.stats
      mapChart := if mapReady then some results.mapFlowData.stats else d.mapChart }

/-- `prependAlertToTable` -/
def prependAlert (id : ℕ) (d : Display S) : Display S :=
  { d with rows := (id :: d.rows).take 15, count := d.count + 1 }

/-- `clearAlerts` -/
def clearAlerts (d : Display S) : Display S := { d with rows := [], count := 0 }

end Display

/-- The rows that the trimming loop of the table leaves. -/
theorem Lists.rows_eq {id : ℕ} {p p' : Page ℕ} (lists : Lists id p p') {d : Display S}
    (same : d.rows = p.rows) : p'.rows = (d.prependAlert id).rows := by
  have cut : ∃ k, 15 ≤ k ∧ p'.rows = (id :: p.rows).take k := by
    refine Returns.invariant (I := fun s : Page ℕ => ∃ k, 15 ≤ k ∧ s.rows = (id :: p.rows).take k)
      ?_ lists ⟨_, Nat.le_max_left 15 (id :: p.rows).length,
        (List.take_of_length_le (Nat.le_max_right _ _)).symm⟩
    rintro s many ⟨k, above, rows⟩
    have long := of_decide_eq_true many
    refine ⟨min (s.rows.length - 1) k, by omega, ?_⟩
    rw [dropLastRow, List.dropLast_eq_take]
    dsimp only
    rw [← List.take_take, ← rows]
  obtain ⟨k, above, rows⟩ := cut
  have short : p'.rows.length ≤ 15 := Nat.le_of_not_lt (of_decide_eq_false lists.test_false)
  rw [Display.prependAlert, same, ← List.take_of_length_le short, rows, List.take_take,
    Nat.min_eq_left above]

/-- The server and the page. Refreshes are numbered in the order in which they
were started; `rendered` and `pushed` are the refreshes written to the page and
the alerts that came over the web socket so far. -/
structure Site (S : Type*) where
  source : Source S
  mapReady : Bool
  started : ℕ
  fetches : ℕ → Endpoint → Fetch S
  display : Display S
  rendered : List ℕ
  pushed : List ℕ

def Site.loaded (source : Source S) (mapReady : Bool) : Site S :=
  ⟨source, mapReady, 0, fun _ _ => .unsent, ⟨none, none, none, none, [], 0⟩, [], []⟩

inductive DashEvent (S : Type*) where
  /-- The statistics of the server change. -/
  | setStats (stats : S)
  /-- The server stores an alert. -/
  | store
  /-- The tables of the server are cleared. -/
  | clearServer
  /-- The page handles the message of an alert. -/
  | push (id : ℕ)
  /-- The button that clears the table. -/
  | clearTable
  /-- The timer. -/
  | refreshAll
  /-- The server answers a request. -/
  | produce (refresh : ℕ) (endpoint : Endpoint)
  /-- A response arrives at the page. -/
  | arrive (refresh : ℕ) (endpoint : Endpoint)
  /-- A request fails, or its response cannot be read. The JSON body of an error of
  `/api/alerts` can: `fetchAlerts` takes its missing `data` for an empty table. No
  event here is that answer. -/
  | fail (refresh : ℕ) (endpoint : Endpoint)

namespace Site

def setFetch (site : Site S) (k : ℕ) (endpoint : Endpoint) (fetch : Fetch S) : Site S :=
  { site with
    fetches := Function.update site.fetches k (Function.update (site.fetches k) endpoint fetch) }

/-- A refresh whose results are there is written to the page. -/
def settle (site : Site S) (k : ℕ) : Site S :=
  match promiseAll (site.fetches k) with
  | none => site
  | some results => { site with
      display := site.display.render site.mapReady results, rendered := site.rendered ++ [k] }

end Site

/-- A response that arrives is handled at once: no other event comes between the
last one of a refresh and the writing of its results. -/
def dashStep (site : Site S) : DashEvent S → Site S
  | .setStats stats => { site with source := site.source.setStats stats }
  | .store => { site with source := site.source.store }
  | .clearServer => { site with source := site.source.clear }
  | .push id =>
      if 0 < id ∧ id ≤ site.source.lastId then
        { site with display := site.display.prependAlert id, pushed := id :: site.pushed }
      else site
  | .clearTable => { site with display := site.display.clearAlerts }
  | .refreshAll =>
      { site with
        started := site.started + 1
        fetches := Function.update site.fetches site.started fun _ => .waiting }
  | .produce k endpoint =>
      match site.fetches k endpoint with
      | .waiting => site.setFetch k endpoint (.produced site.source)
      | _ => site
  | .arrive k endpoint =>
      match site.fetches k endpoint with
      | .produced response => (site.setFetch k endpoint (.arrived response)).settle k
      | _ => site
  | .fail k endpoint =>
      match site.fetches k endpoint with
      | .waiting | .produced _ => site.setFetch k endpoint .failed
      | _ => site

/-! ## Going back to older data -/

/-- The refresh whose last missing response an event brings, with its results. -/
def completes (site : Site S) : DashEvent S → Option (ℕ × Results S)
  | .arrive k endpoint =>
      match site.fetches k endpoint with
      | .produced response =>
          (promiseAll (Function.update (site.fetches k) endpoint (.arrived response))).map (k, ·)
      | _ => none
  | _ => none

/-- An alert that was pushed into the table is not removed by a refresh whose
response was produced before the alert existed. -/
def KeepsPushed (p : Site S × DashEvent S) : Prop :=
  ∀ k results, completes p.1 p.2 = some (k, results) →
    ∀ id ∈ p.1.display.rows, id ∈ p.1.pushed → results.alerts.lastId < id →
      id ∈ (dashStep p.1 p.2).display.rows

/-- In a run, refreshes are written to the page in the order in which they were
started, and keep what they cannot know of. -/
structure NeverOlder (start : Site S) (events : List (DashEvent S)) : Prop where
  inOrder : (exec dashStep start events).rendered.Pairwise (· < ·)
  keepsPushed : ∀ p ∈ steps dashStep start events, KeepsPushed p

/-- All responses of a refresh have arrived. -/
def Complete (site : Site S) (k : ℕ) : Prop := ∀ endpoint, ∃ r, site.fetches k endpoint = .arrived r

/-- When a refresh gets its last response, no later one is complete, and every
pushed alert in the table existed when its alerts were read. -/
def Timely (p : Site S × DashEvent S) : Prop :=
  ∀ k results, completes p.1 p.2 = some (k, results) →
    (∀ later, k < later → ¬ Complete p.1 later) ∧
      ∀ id ∈ p.1.display.rows, id ∈ p.1.pushed → id ≤ results.alerts.lastId

/-! ## Fetches -/

section Fetches

variable {fetches : Endpoint → Fetch S} {site : Site S}

theorem Fetch.result_eq_some {fetch : Fetch S} {response : Source S} :
    fetch.result = some response ↔ fetch = .arrived response := by
  cases fetch with
  | unsent => simp [Fetch.result]
  | waiting => simp [Fetch.result]
  | produced other => simp [Fetch.result]
  | arrived other => simp [Fetch.result]
  | failed => simp [Fetch.result]

/-- The results are there when all five responses have arrived. -/
theorem promiseAll_isSome :
    (promiseAll fetches).isSome ↔ ∀ endpoint, ∃ r, fetches endpoint = .arrived r := by
  constructor
  · intro some
    obtain ⟨results, all⟩ := Option.isSome_iff_exists.mp some
    simp only [promiseAll, bind, Option.bind_eq_some_iff] at all
    obtain ⟨a, first, b, second, c, third, d, fourth, e, fifth, -⟩ := all
    intro endpoint
    cases endpoint with
    | stats => exact ⟨a, Fetch.result_eq_some.mp first⟩
    | trafficSeries => exact ⟨b, Fetch.result_eq_some.mp second⟩
    | attackTypes => exact ⟨c, Fetch.result_eq_some.mp third⟩
    | mapData => exact ⟨d, Fetch.result_eq_some.mp fourth⟩
    | alerts => exact ⟨e, Fetch.result_eq_some.mp fifth⟩
  · intro arrived
    obtain ⟨a, first⟩ := arrived .stats
    obtain ⟨b, second⟩ := arrived .trafficSeries
    obtain ⟨c, third⟩ := arrived .attackTypes
    obtain ⟨d, fourth⟩ := arrived .mapData
    obtain ⟨e, fifth⟩ := arrived .alerts
    simp [promiseAll, first, second, third, fourth, fifth, Fetch.result]

theorem complete_iff {k : ℕ} : Complete site k ↔ (promiseAll (site.fetches k)).isSome :=
  promiseAll_isSome.symm

theorem setFetch_self (site : Site S) (k : ℕ) (endpoint : Endpoint) (fetch : Fetch S) :
    (site.setFetch k endpoint fetch).fetches k =
      Function.update (site.fetches k) endpoint fetch := Function.update_self ..

theorem setFetch_of_ne (site : Site S) {k j : ℕ} (other : j ≠ k) (endpoint : Endpoint)
    (fetch : Fetch S) : (site.setFetch k endpoint fetch).fetches j = site.fetches j :=
  Function.update_of_ne other ..

/-- A request that has not been answered keeps its refresh from being complete. -/
theorem not_complete_of {k : ℕ} (endpoint : Endpoint)
    (open_ : (site.fetches k endpoint).result = none) : ¬ Complete site k := by
  intro complete
  obtain ⟨r, arrived⟩ := complete endpoint
  rw [arrived] at open_
  exact Option.some_ne_none r open_

/-- Changes before the arrival complete nothing. -/
theorem complete_setFetch {k : ℕ} {endpoint : Endpoint} {fetch : Fetch S}
    (before : (site.fetches k endpoint).result = none) (after : fetch.result = none) (j : ℕ) :
    Complete (site.setFetch k endpoint fetch) j ↔ Complete site j := by
  by_cases same : j = k
  · subst same
    refine iff_of_false (not_complete_of endpoint ?_) (not_complete_of endpoint before)
    rw [setFetch_self, Function.update_self]
    exact after
  · rw [Complete, setFetch_of_ne site same, Complete]

/-- The last response of a refresh completes it and no other one. -/
theorem complete_arrive {k : ℕ} {endpoint : Endpoint} {response : Source S}
    (all : (promiseAll (Function.update (site.fetches k) endpoint (.arrived response))).isSome)
    (j : ℕ) :
    Complete (site.setFetch k endpoint (.arrived response)) j ↔ j = k ∨ Complete site j := by
  by_cases same : j = k
  · subst same
    refine iff_of_true ?_ (Or.inl rfl)
    rw [complete_iff, setFetch_self]
    exact all
  · rw [Complete, setFetch_of_ne site same, Complete]
    exact (or_iff_right same).symm

/-- A response after which others are missing completes nothing. -/
theorem complete_arrive_none {k : ℕ} {endpoint : Endpoint} {response : Source S}
    (before : (site.fetches k endpoint).result = none)
    (missing : promiseAll (Function.update (site.fetches k) endpoint (.arrived response)) = none)
    (j : ℕ) : Complete (site.setFetch k endpoint (.arrived response)) j ↔ Complete site j := by
  by_cases same : j = k
  · subst same
    refine iff_of_false ?_ (not_complete_of endpoint before)
    rw [complete_iff, setFetch_self, missing]
    exact Bool.false_ne_true
  · rw [Complete, setFetch_of_ne site same, Complete]

end Fetches

/-! ## One step -/

section Steps

variable {site : Site S} {event : DashEvent S}

/-- Refreshes that have not been started have sent nothing, and the refreshes
written to the page are the complete ones. -/
structure Tracked (site : Site S) : Prop where
  unsent : ∀ j, site.started ≤ j → ∀ endpoint, site.fetches j endpoint = .unsent
  rendered : ∀ j, j ∈ site.rendered ↔ Complete site j

/-- **What an event can do to the refreshes**: nothing, start one, change a request
that is under way without answering it, or bring a response that was produced. -/
theorem dashStep_cases (site : Site S) (event : DashEvent S) :
    (completes site event = none ∧ (dashStep site event).fetches = site.fetches ∧
      (dashStep site event).rendered = site.rendered ∧
      (dashStep site event).started = site.started) ∨
    event = .refreshAll ∨
    (∃ k endpoint fetch, completes site event = none ∧
      dashStep site event = site.setFetch k endpoint fetch ∧
      (site.fetches k endpoint).result = none ∧ site.fetches k endpoint ≠ .unsent ∧
      fetch.result = none) ∨
    ∃ k endpoint response, event = .arrive k endpoint ∧
      site.fetches k endpoint = .produced response := by
  cases event with
  | setStats stats => exact Or.inl ⟨rfl, rfl, rfl, rfl⟩
  | store => exact Or.inl ⟨rfl, rfl, rfl, rfl⟩
  | clearServer => exact Or.inl ⟨rfl, rfl, rfl, rfl⟩
  | clearTable => exact Or.inl ⟨rfl, rfl, rfl, rfl⟩
  | refreshAll => exact Or.inr (Or.inl rfl)
  | push id =>
      left
      rw [dashStep]
      split
      · exact ⟨rfl, rfl, rfl, rfl⟩
      · exact ⟨rfl, rfl, rfl, rfl⟩
  | produce k endpoint =>
      rw [dashStep]
      cases now : site.fetches k endpoint with
      | waiting =>
          exact Or.inr (Or.inr (Or.inl ⟨k, endpoint, .produced site.source, rfl, rfl,
            by rw [now]; rfl, by simp [now], rfl⟩))
      | _ => exact Or.inl ⟨rfl, rfl, rfl, rfl⟩
  | fail k endpoint =>
      rw [dashStep]
      cases now : site.fetches k endpoint with
      | waiting =>
          exact Or.inr (Or.inr (Or.inl ⟨k, endpoint, .failed, rfl, rfl, by rw [now]; rfl,
            by simp [now], rfl⟩))
      | produced response =>
          exact Or.inr (Or.inr (Or.inl ⟨k, endpoint, .failed, rfl, rfl, by rw [now]; rfl,
            by simp [now], rfl⟩))
      | _ => exact Or.inl ⟨rfl, rfl, rfl, rfl⟩
  | arrive k endpoint =>
      cases now : site.fetches k endpoint with
      | produced response => exact Or.inr (Or.inr (Or.inr ⟨k, endpoint, response, rfl, now⟩))
      | _ =>
          left
          rw [dashStep, completes]
          simp only [now, and_self]

/-- A response that arrives is recorded, and the refresh settled. -/
theorem dashStep_arrive {k : ℕ} {endpoint : Endpoint} {response : Source S}
    (now : site.fetches k endpoint = .produced response) :
    dashStep site (.arrive k endpoint) =
      (site.setFetch k endpoint (.arrived response)).settle k := by
  rw [dashStep, now]

theorem fetches_settle (site : Site S) (k : ℕ) :
    (site.settle k).fetches = site.fetches ∧ (site.settle k).started = site.started := by
  rw [Site.settle]
  cases promiseAll (site.fetches k) with
  | none => exact ⟨rfl, rfl⟩
  | some results => exact ⟨rfl, rfl⟩

/-- An event either brings the last response of a refresh, which is written to
the page, or it writes no refresh and completes none. -/
theorem step_cases (tracked : Tracked site) (event : DashEvent S) :
    (∃ k results, completes site event = some (k, results) ∧ ¬ Complete site k ∧
      (dashStep site event).rendered = site.rendered ++ [k] ∧
      (dashStep site event).display = site.display.render site.mapReady results ∧
      ∀ j, Complete (dashStep site event) j ↔ j = k ∨ Complete site j) ∨
    (completes site event = none ∧ (dashStep site event).rendered = site.rendered ∧
      ∀ j, Complete (dashStep site event) j ↔ Complete site j) := by
  rcases dashStep_cases site event with ⟨nothing, fetches, rendered, -⟩ | rfl |
    ⟨k, endpoint, fetch, nothing, next, open_, -, unanswered⟩ |
    ⟨k, endpoint, response, rfl, now⟩
  · refine Or.inr ⟨nothing, rendered, fun j => ?_⟩
    rw [Complete, fetches, Complete]
  · refine Or.inr ⟨rfl, rfl, fun j => ?_⟩
    by_cases same : j = site.started
    · subst same
      refine iff_of_false (not_complete_of .stats ?_) (not_complete_of .stats ?_)
      · rw [dashStep]
        dsimp only
        rw [Function.update_self]
        rfl
      · rw [tracked.unsent _ (Nat.le_refl _)]
        rfl
    · rw [Complete, dashStep]
      dsimp only
      rw [Function.update_of_ne same, Complete]
  · refine Or.inr ⟨nothing, ?_, ?_⟩
    · rw [next]
      rfl
    · rw [next]
      exact complete_setFetch open_ unanswered
  · have open_ : (site.fetches k endpoint).result = none := by
      rw [now]
      rfl
    rw [dashStep_arrive now, completes, now, Site.settle, setFetch_self]
    dsimp only
    cases all : promiseAll (Function.update (site.fetches k) endpoint (.arrived response)) with
    | none => exact Or.inr ⟨rfl, rfl, complete_arrive_none open_ all⟩
    | some results =>
        refine Or.inl ⟨k, results, rfl, not_complete_of endpoint open_, rfl, rfl, ?_⟩
        exact complete_arrive (by rw [all]; rfl)

theorem unsent_setFetch (tracked : Tracked site) {k : ℕ} {endpoint : Endpoint}
    (sent : site.fetches k endpoint ≠ .unsent) (fetch : Fetch S) :
    ∀ j, site.started ≤ j → ∀ e, (site.setFetch k endpoint fetch).fetches j e = .unsent := by
  intro j later e
  have other : j ≠ k := by
    rintro rfl
    exact sent (tracked.unsent j later endpoint)
  rw [setFetch_of_ne site other]
  exact tracked.unsent j later e

theorem unsent_step (tracked : Tracked site) :
    ∀ j, (dashStep site event).started ≤ j →
      ∀ endpoint, (dashStep site event).fetches j endpoint = .unsent := by
  rcases dashStep_cases site event with ⟨-, fetches, -, started⟩ | rfl |
    ⟨k, endpoint, fetch, -, next, -, sent, -⟩ | ⟨k, endpoint, response, rfl, now⟩
  · rw [fetches, started]
    exact tracked.unsent
  · intro j later endpoint
    have other : j ≠ site.started := Nat.ne_of_gt later
    rw [dashStep]
    dsimp only
    rw [Function.update_of_ne other]
    exact tracked.unsent j (Nat.le_of_succ_le later) endpoint
  · rw [next]
    exact unsent_setFetch tracked sent fetch
  · rw [dashStep_arrive now, (fetches_settle _ k).1, (fetches_settle _ k).2]
    exact unsent_setFetch tracked (by simp [now]) _

theorem tracked_step (tracked : Tracked site) (event : DashEvent S) :
    Tracked (dashStep site event) := by
  refine ⟨unsent_step tracked, fun j => ?_⟩
  rcases step_cases tracked event with
    ⟨k, results, -, -, rendered, -, complete⟩ | ⟨-, rendered, complete⟩
  · rw [rendered, complete, List.mem_append, List.mem_singleton, tracked.rendered, or_comm]
  · rw [rendered, complete, tracked.rendered]

theorem tracked_loaded (source : Source S) (mapReady : Bool) :
    Tracked (Site.loaded source mapReady) where
  unsent _ _ _ := rfl
  rendered j := by
    refine iff_of_false List.not_mem_nil (not_complete_of .stats ?_)
    rfl

/-- What is written to the page stays recorded. -/
theorem rendered_step (tracked : Tracked site) (event : DashEvent S) :
    site.rendered <+: (dashStep site event).rendered := by
  rcases step_cases tracked event with
    ⟨k, results, -, -, rendered, -⟩ | ⟨-, rendered, -⟩
  · exact rendered ▸ List.prefix_append _ _
  · exact rendered ▸ List.prefix_refl _

/-- A refresh shows no alert that did not exist when its response was
produced. -/
theorem le_lastId_of_fetchAlerts {response : Source S} {id : ℕ}
    (member : id ∈ Display.fetchAlerts response) : id ≤ response.lastId := by
  apply response.bounded
  rw [Display.fetchAlerts, Source.latestAlerts] at member
  exact List.mem_reverse.mp (List.mem_of_mem_take (List.mem_of_mem_take member))

/-- **One step.** A refresh removes a pushed alert that it cannot know of exactly
when there is one in the table. -/
theorem keepsPushed_iff (tracked : Tracked site) :
    KeepsPushed (site, event) ↔
      ∀ k results, completes site event = some (k, results) →
        ∀ id ∈ site.display.rows, id ∈ site.pushed → id ≤ results.alerts.lastId := by
  rcases step_cases tracked event with
    ⟨k, results, completing, -, -, display, -⟩ | ⟨nothing, -⟩
  · constructor
    · intro keeps k' results' completing' id inTable pushed
      obtain ⟨rfl, rfl⟩ := Prod.mk.inj (Option.some.inj (completing.symm.trans completing'))
      by_contra newer
      have kept := keeps k results completing id inTable pushed (Nat.lt_of_not_le newer)
      rw [display] at kept
      exact newer (le_lastId_of_fetchAlerts kept)
    · intro older k' results' completing' id inTable pushed newer
      exact absurd (older k' results' completing' id inTable pushed) (Nat.not_le_of_lt newer)
  · refine iff_of_true ?_ ?_
    · intro k results completing
      exact absurd (nothing.symm.trans completing) (Option.some_ne_none _).symm
    · intro k results completing
      exact absurd (nothing.symm.trans completing) (Option.some_ne_none _).symm

/-- **One step.** The order of what is written stays that of the starts exactly
when a refresh is completed before all later ones. -/
theorem pairwise_step_iff (tracked : Tracked site) (ordered : site.rendered.Pairwise (· < ·)) :
    (dashStep site event).rendered.Pairwise (· < ·) ↔
      ∀ k results, completes site event = some (k, results) →
        ∀ later, k < later → ¬ Complete site later := by
  rcases step_cases tracked event with
    ⟨k, results, completing, notYet, rendered, -, -⟩ | ⟨nothing, rendered, -⟩
  · rw [rendered, List.pairwise_append]
    constructor
    · rintro ⟨-, -, before⟩ k' results' completing' later after complete
      obtain ⟨rfl, rfl⟩ := Prod.mk.inj (Option.some.inj (completing.symm.trans completing'))
      have earlier := before later ((tracked.rendered later).mpr complete) k
        (List.mem_singleton_self k)
      exact Nat.lt_asymm after earlier
    · intro timely
      refine ⟨ordered, List.pairwise_singleton _ _, ?_⟩
      intro j written k' isNew
      obtain rfl := List.mem_singleton.mp isNew
      have complete := (tracked.rendered j).mp written
      have notLater : ¬ k' < j := fun after => timely k' results completing j after complete
      have other : j ≠ k' := fun same => notYet (same ▸ complete)
      omega
  · rw [rendered]
    refine iff_of_true ordered ?_
    intro k results completing
    exact absurd (nothing.symm.trans completing) (Option.some_ne_none _).symm

end Steps

/-! ## Runs -/

section Runs

variable {start : Site S}

theorem tracked_steps (tracked : Tracked start) (events : List (DashEvent S)) :
    ∀ p ∈ steps dashStep start events, Tracked p.1 :=
  steps_invariant tracked fun p _ before => tracked_step before p.2

theorem rendered_exec (tracked : Tracked start) (events : List (DashEvent S)) :
    start.rendered <+: (exec dashStep start events).rendered := by
  induction events generalizing start with
  | nil => exact List.prefix_refl _
  | cons event rest ih =>
      exact (rendered_step tracked event).trans (ih (tracked_step tracked event))

/-- Over a run, the order of what is written is that of the starts exactly when
every refresh is completed before all later ones. -/
theorem pairwise_exec_iff (tracked : Tracked start) (ordered : start.rendered.Pairwise (· < ·))
    (events : List (DashEvent S)) :
    (exec dashStep start events).rendered.Pairwise (· < ·) ↔
      ∀ p ∈ steps dashStep start events, ∀ k results, completes p.1 p.2 = some (k, results) →
        ∀ later, k < later → ¬ Complete p.1 later := by
  induction events generalizing start with
  | nil => exact iff_of_true ordered fun _ member => absurd member List.not_mem_nil
  | cons event rest ih =>
      rw [steps_cons, List.forall_mem_cons, exec_cons, ← pairwise_step_iff tracked ordered]
      constructor
      · intro whole
        have here := whole.sublist
          (rendered_exec (tracked_step tracked event) rest).sublist
        exact ⟨here, (ih (tracked_step tracked event) here).mp whole⟩
      · rintro ⟨here, later⟩
        exact (ih (tracked_step tracked event) here).mpr later

/-- **Never older data.** In a run the page never goes back to older data if and
only if every refresh gets its last response before all later ones are complete,
and no alert that did not exist when its alerts were read has been pushed into
the table by then. -/
theorem never_older_iff (source : Source S) (mapReady : Bool) (events : List (DashEvent S)) :
    NeverOlder (Site.loaded source mapReady) events ↔
      ∀ p ∈ steps dashStep (Site.loaded source mapReady) events, Timely p := by
  have tracked := tracked_loaded source mapReady
  have order := pairwise_exec_iff tracked List.Pairwise.nil events
  have everywhere := tracked_steps tracked events
  constructor
  · intro never p member k results completing
    exact ⟨order.mp never.inOrder p member k results completing,
      (keepsPushed_iff (everywhere p member)).mp (never.keepsPushed p member) k results
        completing⟩
  · intro timely
    constructor
    · exact order.mpr fun p member k results completing =>
        (timely p member k results completing).1
    · exact fun p member => (keepsPushed_iff (everywhere p member)).mpr
        fun k results completing => (timely p member k results completing).2

end Runs

def allEndpoints : List Endpoint := [.stats, .trafficSeries, .attackTypes, .mapData, .alerts]

/-- A refresh whose responses are slow overtakes the next one: it is written last,
and the alert that was pushed and shown in between is gone. -/
theorem slow_refresh_overwrites :
    let start : Site Unit := Site.loaded ⟨(), [], 0, fun _ member => absurd member List.not_mem_nil⟩
      true
    let events := .refreshAll :: allEndpoints.map (.produce 0) ++
      .store :: .push 1 :: .refreshAll :: allEndpoints.map (.produce 1) ++
      allEndpoints.map (.arrive 1) ++ allEndpoints.map (.arrive 0)
    (exec dashStep start events).rendered = [1, 0] ∧
      (exec dashStep start events).display.rows = [] ∧ ¬ NeverOlder start events := by
  refine ⟨rfl, rfl, fun never => ?_⟩
  have inOrder := never.inOrder
  exact absurd inOrder (show ¬ List.Pairwise (· < ·) [1, 0] by decide)

end EbpfNids.Dashboard
