import EbpfNids.Library.Loops

/-!
# The notification toasts of the dashboard

`showAlertNotification` appends a toast and then trims the container: while it
has more than five children, it marks the oldest one and sets a timer that will
remove it. No timer runs before the call has returned, so the trimming changes
nothing that its test looks at. The call returns exactly when there were fewer
than five toasts (`alert_shown_iff`). The table of alerts, which removes its
last row at once, always stops (`lists_returns`).
-/

set_option autoImplicit false

namespace EbpfNids.Dashboard

open Library.Loops

variable {α : Type*}

/-! ## The page -/

/-- A toast, with the alert that it shows. -/
structure Toast (α : Type*) where
  id : ℕ
  alert : α
  removing : Bool
deriving DecidableEq, Repr

/-- What `setTimeout` has been given. -/
inductive Timer where
  | autoHide (id : ℕ)
  | remove (id : ℕ)
deriving DecidableEq, Repr

/-- The children of the container, the oldest first, the timers that have not run
yet, the number of toasts made so far, and the rows of the table, the newest
first. -/
structure Page (α : Type*) where
  container : List (Toast α)
  timers : List Timer
  created : ℕ
  rows : List α
deriving DecidableEq, Repr

namespace Page

/-- The page as it is loaded. -/
def loaded (rows : List α) : Page α := ⟨[], [], 0, rows⟩

def ids (p : Page α) : List ℕ := p.container.map (·.id)

/-- A toast gets the class `removing`, and a timer to remove it. -/
def startRemoval (id : ℕ) (p : Page α) : Page α :=
  { p with
    container := p.container.map fun t => if t.id = id then { t with removing := true } else t
    timers := p.timers ++ [.remove id] }

/-- A timer runs. -/
def fire (p : Page α) : Timer → Page α
  | .autoHide id => if id ∈ p.ids then p.startRemoval id else p
  | .remove id => { p with container := p.container.filter (·.id ≠ id) }

/-! ## An alert arrives -/

/-- The first part of `showAlertNotification`. -/
def appendToast (alert : α) (p : Page α) : Page α :=
  { p with
    container := p.container ++ [⟨p.created, alert, false⟩]
    timers := p.timers ++ [.autoHide p.created]
    created := p.created + 1 }

/-- The test of the trimming loop. -/
def tooMany (p : Page α) : Bool := 5 < p.container.length

/-- The body of the trimming loop. -/
def trimOldest (p : Page α) : Page α :=
  match p.container with
  | [] => p
  | oldest :: _ => p.startRemoval oldest.id

/-- `showAlertNotification` returns, and leaves the second page. -/
def Shows (alert : α) (p p' : Page α) : Prop :=
  Returns tooMany trimOldest (p.appendToast alert) p'

/-- The test of the loop of `prependAlertToTable`. -/
def tooManyRows (p : Page α) : Bool := 15 < p.rows.length

/-- Its body. -/
def dropLastRow (p : Page α) : Page α := { p with rows := p.rows.dropLast }

/-- `prependAlertToTable` returns, and leaves the second page. -/
def Lists (alert : α) (p p' : Page α) : Prop :=
  Returns tooManyRows dropLastRow { p with rows := alert :: p.rows } p'

/-- The removals that a call between two pages has scheduled. -/
def scheduled (p p' : Page α) : List Timer :=
  (p'.timers.drop p.timers.length).filter fun t => t matches .remove _

end Page

open Page

/-- The call returns, and when the removals that it has scheduled have run, at
most five toasts are left, the last ones. -/
def AlertShown (alert : α) (p : Page α) : Prop :=
  ∃ p', Shows alert p p' ∧
    ((scheduled p p').foldl fire p').ids.length ≤ 5 ∧
      ((scheduled p p').foldl fire p').ids <:+ (p.appendToast alert).ids

/-- A message of the web socket, a click on a toast, or a timer. -/
inductive PageEvent (α : Type*) where
  | message (alert : α)
  | click (id : ℕ)
  | timer (index : ℕ)
deriving DecidableEq, Repr

/-- One event is handled to its end before the next. -/
inductive Step : Page α → PageEvent α → Page α → Prop
  | message {alert : α} {p shown listed : Page α} (shows : Shows alert p shown)
      (lists : Lists alert shown listed) : Step p (.message alert) listed
  | click {id : ℕ} {p : Page α} (there : id ∈ p.ids) : Step p (.click id) (p.startRemoval id)
  | timer {index : ℕ} {t : Timer} {p : Page α} (pending : p.timers[index]? = some t) :
      Step p (.timer index) (fire { p with timers := p.timers.eraseIdx index } t)

/-- Events handled one after the other. -/
inductive Run (start : Page α) : List (PageEvent α) → Page α → Prop
  | start : Run start [] start
  | step {events : List (PageEvent α)} {p p' : Page α} {event : PageEvent α}
      (run : Run start events p) (step : Step p event p') : Run start (events ++ [event]) p'

/-! ## The loops -/

@[simp]
theorem ids_startRemoval (id : ℕ) (p : Page α) : (p.startRemoval id).ids = p.ids := by
  rw [ids, startRemoval, List.map_map, ids]
  refine List.map_congr_left fun t _ => ?_
  by_cases same : t.id = id
  · simp [same]
  · simp [same]

theorem length_container (p : Page α) : p.container.length = p.ids.length := by
  rw [ids, List.length_map]

@[simp]
theorem ids_trimOldest (p : Page α) : (trimOldest p).ids = p.ids := by
  rw [trimOldest]
  split
  · rfl
  · exact ids_startRemoval _ p

theorem ids_appendToast (alert : α) (p : Page α) :
    (p.appendToast alert).ids = p.ids ++ [p.created] := by
  rw [ids, appendToast, List.map_append, ids]
  rfl

/-- With five toasts on the page the trimming never ends. -/
theorem not_shows {alert : α} {p p' : Page α} (full : 5 ≤ p.container.length) :
    ¬Shows alert p p' := by
  refine not_returns (I := fun p => 5 < p.ids.length) ?_ ?_ ?_
  · intro p many
    rw [tooMany, length_container]
    exact decide_eq_true many
  · intro p many
    rwa [ids_trimOldest]
  · rw [ids_appendToast, List.length_append, ← length_container]
    exact Nat.lt_succ_of_le full

/-- With fewer there is nothing to trim. -/
theorem shows_of_room {alert : α} {p : Page α} (room : p.container.length < 5) :
    Shows alert p (p.appendToast alert) := by
  refine returns_self (decide_eq_false ?_)
  rw [appendToast, List.length_append, List.length_singleton]
  omega

theorem Shows.eq_append {alert : α} {p p' : Page α} (shows : Shows alert p p') :
    p.container.length < 5 ∧ p' = p.appendToast alert := by
  have room : p.container.length < 5 := by
    by_contra full
    exact not_shows (Nat.le_of_not_lt full) shows
  refine ⟨room, ?_⟩
  refine Returns.invariant (I := (· = p.appendToast alert)) ?_ shows rfl
  rintro s goes rfl
  rw [tooMany, appendToast, List.length_append, List.length_singleton] at goes
  have := of_decide_eq_true goes
  omega

/-- The table's loop stops, with at most 15 rows. -/
theorem lists_returns (alert : α) (p : Page α) :
    ∃ p', Lists alert p p' ∧ p'.rows.length ≤ 15 := by
  have shorter : ∀ p : Page α, tooManyRows p = true →
      (dropLastRow p).rows.length < p.rows.length := by
    intro p many
    have := of_decide_eq_true many
    rw [dropLastRow, List.length_dropLast]
    omega
  obtain ⟨p', lists⟩ := returns_of_measure (fun p : Page α => p.rows.length) shorter
    { p with rows := alert :: p.rows }
  exact ⟨p', lists, Nat.le_of_not_lt (of_decide_eq_false lists.test_false)⟩

/-- The table's loop leaves the rest of the page alone. -/
theorem Lists.container {alert : α} {p p' : Page α} (lists : Lists alert p p') :
    p'.container = p.container ∧ p'.created = p.created :=
  Returns.invariant (I := fun s : Page α => s.container = p.container ∧ s.created = p.created)
    (fun s _ (kept : (dropLastRow s).container = p.container ∧ _) => kept) lists ⟨rfl, rfl⟩

/-! ## What every run keeps -/

/-- The container has at most five toasts, in the order in which they were
made. -/
structure InOrder (p : Page α) : Prop where
  atMost : p.ids.length ≤ 5
  ordered : p.ids.Pairwise (· < ·)
  made : ∀ id ∈ p.ids, id < p.created

theorem inOrder_loaded (rows : List α) : InOrder (Page.loaded rows) :=
  ⟨Nat.zero_le 5, List.Pairwise.nil, fun _ member => nomatch member⟩

/-- A page whose toasts are some of those of another one. -/
theorem InOrder.of_sublist {p p' : Page α} (order : InOrder p) (fewer : p'.ids.Sublist p.ids)
    (created : p'.created = p.created) : InOrder p' where
  atMost := fewer.length_le.trans order.atMost
  ordered := order.ordered.sublist fewer
  made id member := created ▸ order.made id (fewer.subset member)

theorem ids_fire (p : Page α) (t : Timer) :
    (p.fire t).ids.Sublist p.ids ∧ (p.fire t).created = p.created := by
  cases t with
  | autoHide id =>
      rw [fire]
      split
      · rw [ids_startRemoval]
        exact ⟨List.Sublist.refl _, rfl⟩
      · exact ⟨List.Sublist.refl _, rfl⟩
  | remove id => exact ⟨List.filter_sublist.map _, rfl⟩

/-- **Step lemma.** -/
theorem InOrder.step {p p' : Page α} {event : PageEvent α} (order : InOrder p)
    (step : Step p event p') : InOrder p' := by
  cases step with
  | message shows lists =>
      obtain ⟨room, rfl⟩ := Shows.eq_append shows
      obtain ⟨container, created⟩ := Lists.container lists
      have ids : p'.ids = p.ids ++ [p.created] := by
        rw [← ids_appendToast, Page.ids, container, Page.ids]
      refine ⟨?_, ?_, ?_⟩
      · rw [ids, List.length_append, ← length_container]
        exact room
      · rw [ids, List.pairwise_append]
        refine ⟨order.ordered, List.pairwise_singleton _ _, ?_⟩
        intro id member new isNew
        rw [List.mem_singleton.mp isNew]
        exact order.made id member
      · intro id member
        rw [created]
        rw [ids, List.mem_append, List.mem_singleton] at member
        rcases member with older | rfl
        · exact Nat.lt_succ_of_lt (order.made id older)
        · exact Nat.lt_succ_self _
  | @click id p there =>
      have same : (p.startRemoval id).ids = p.ids := ids_startRemoval id p
      exact order.of_sublist (same ▸ List.Sublist.refl _) rfl
  | timer pending =>
      obtain ⟨fewer, created⟩ := ids_fire _ _
      exact order.of_sublist fewer created

/-- **Run lemma.** -/
theorem InOrder.run {start p : Page α} {events : List (PageEvent α)}
    (order : InOrder start) (run : Run start events p) : InOrder p := by
  induction run with
  | start => exact order
  | step run step ih => exact ih.step step

/-- **An alert is shown.** The call returns, and leaves at most the last five
toasts, exactly when fewer than five were in the container. On every page that is
reached there are at most five, in the order in which they were made. -/
theorem alert_shown_iff :
    (∀ (alert : α) (p : Page α), AlertShown alert p ↔ p.container.length < 5) ∧
      ∀ (rows : List α) (events : List (PageEvent α)) (p : Page α),
        Run (.loaded rows) events p → p.ids.length ≤ 5 ∧ p.ids.Pairwise (· < ·) := by
  constructor
  · intro alert p
    constructor
    · rintro ⟨p', shows, -⟩
      exact (Shows.eq_append shows).1
    · intro room
      have nothing : scheduled p (p.appendToast alert) = [] := by
        rw [scheduled, appendToast, List.drop_left]
        rfl
      refine ⟨p.appendToast alert, shows_of_room room, ?_⟩
      rw [nothing, List.foldl_nil, ids_appendToast, List.length_append, ← length_container]
      exact ⟨room, List.suffix_rfl⟩
  · intro rows events p run
    have order := (inOrder_loaded rows).run run
    exact ⟨order.atMost, order.ordered⟩

/-- The page after some alerts, one right after the other. -/
def afterAlerts : List ℕ → Page ℕ
  | [] => .loaded []
  | alert :: earlier =>
      let p := (afterAlerts earlier).appendToast alert
      { p with rows := alert :: p.rows }

/-- The sixth of six alerts that come within five seconds is never handled to its
end. -/
theorem sixth_alert_hangs :
    Run (.loaded []) (([0, 1, 2, 3, 4].map .message)) (afterAlerts [4, 3, 2, 1, 0]) ∧
      (∀ alert p', ¬Shows alert (afterAlerts [4, 3, 2, 1, 0]) p') ∧
      ∀ alert, ¬AlertShown alert (afterAlerts [4, 3, 2, 1, 0]) := by
  have hangs : ∀ alert p', ¬Shows alert (afterAlerts [4, 3, 2, 1, 0]) p' :=
    fun alert p' => not_shows (by decide)
  have arrives : ∀ {events : List (PageEvent ℕ)} (earlier : List ℕ) (alert : ℕ),
      Run (.loaded []) events (afterAlerts earlier) →
      (afterAlerts earlier).container.length < 5 →
      (afterAlerts (alert :: earlier)).rows.length ≤ 15 →
      Run (.loaded []) (events ++ [.message alert]) (afterAlerts (alert :: earlier)) := by
    intro events earlier alert run room short
    have listed : tooManyRows (afterAlerts (alert :: earlier)) = false :=
      decide_eq_false (Nat.not_lt_of_le short)
    exact run.step (.message (shows_of_room room) (returns_self listed))
  refine ⟨?_, hangs, fun alert ⟨p', shows, _⟩ => hangs alert p' shows⟩
  have one := arrives [] 0 .start (by decide) (by decide)
  have two := arrives [0] 1 one (by decide) (by decide)
  have three := arrives [1, 0] 2 two (by decide) (by decide)
  have four := arrives [2, 1, 0] 3 three (by decide) (by decide)
  exact arrives [3, 2, 1, 0] 4 four (by decide) (by decide)

theorem fifth_alert_shown : AlertShown 4 (afterAlerts [3, 2, 1, 0]) :=
  (alert_shown_iff.1 4 (afterAlerts [3, 2, 1, 0])).mpr (by decide)

end EbpfNids.Dashboard
