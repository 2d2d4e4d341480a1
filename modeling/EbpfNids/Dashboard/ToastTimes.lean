import EbpfNids.Dashboard.Toasts
import Mathlib.Data.List.InsertIdx
import Mathlib.Data.List.Perm.Subperm

/-!
# How long a toast stays

A toast is marked for removal after five seconds, or when it is clicked, and
removed 0.3 seconds later. Timers run when they are due or a little later, at
most `late` milliseconds. So no toast stays for longer than 5.3 seconds and twice
that, and an alert is handled to its end unless five others have come in that
time; without clicks, it is not when five have come in less than 5.3 seconds
(`toasts_in_time`).
-/

set_option autoImplicit false

namespace EbpfNids.Dashboard

open Library.Loops Page

variable {α : Type*}

/-! ## The page in time -/

/-- The delay that `setTimeout` is called with, in milliseconds. -/
def Timer.delay : Timer → ℕ
  | .autoHide _ => 5000
  | .remove _ => 300

/-- The page, the timers with the times at which they are due, the time, and when
each toast was made. -/
structure Timed (α : Type*) where
  page : Page α
  schedule : List (Timer × ℕ)
  now : ℕ
  shownAt : List ℕ

namespace Timed

def loaded (rows : List α) : Timed α := ⟨.loaded rows, [], 0, []⟩

/-- The timers that are left when an event is taken up. -/
def kept (t : Timed α) : PageEvent α → List (Timer × ℕ)
  | .timer index => t.schedule.eraseIdx index
  | _ => t.schedule

/-- An event has been handled. -/
def after (t : Timed α) (event : PageEvent α) (p : Page α) : Timed α where
  page := p
  schedule := t.kept event ++
    (p.timers.drop (t.kept event).length).map fun timer => (timer, t.now + timer.delay)
  now := t.now
  shownAt := t.shownAt ++ List.replicate (p.created - t.page.created) t.now

/-- A timer is not run before it is due. -/
def IsReady (t : Timed α) : PageEvent α → Prop
  | .timer index => ∃ timer due, t.schedule[index]? = some (timer, due) ∧ due ≤ t.now
  | _ => True

end Timed

inductive TimedEvent (α : Type*) where
  | passes (milliseconds : ℕ)
  | handles (event : PageEvent α)
deriving DecidableEq, Repr

/-- Time passes, but no timer gets overdue by more than `late`, or an event is
handled to its end. -/
inductive TimedStep (late : ℕ) (t : Timed α) : TimedEvent α → Timed α → Prop
  | passes {d : ℕ} (punctual : ∀ entry ∈ t.schedule, t.now + d ≤ entry.2 + late) :
      TimedStep late t (.passes d) { t with now := t.now + d }
  | handles {event : PageEvent α} {p : Page α} (ready : t.IsReady event)
      (step : Step t.page event p) : TimedStep late t (.handles event) (t.after event p)

inductive TimedRun (late : ℕ) (start : Timed α) : List (TimedEvent α) → Timed α → Prop
  | start : TimedRun late start [] start
  | step {events : List (TimedEvent α)} {t t' : Timed α} {event : TimedEvent α}
      (run : TimedRun late start events t) (step : TimedStep late t event t') :
      TimedRun late start (events ++ [event]) t'

/-! ## What an event does -/

theorem Lists.timers {alert : α} {p p' : Page α} (lists : Lists alert p p') :
    p'.timers = p.timers :=
  Returns.invariant (I := fun s : Page α => s.timers = p.timers)
    (fun s _ (kept : (dropLastRow s).timers = p.timers) => kept) lists rfl

/-- What an event does to the toasts and to the timers. -/
inductive Handled (t : Timed α) : PageEvent α → Timed α → Prop
  | message (alert : α) (p : Page α) (room : t.page.ids.length < 5)
      (ids : p.ids = t.page.ids ++ [t.page.created]) (created : p.created = t.page.created + 1)
      (timers : p.timers = t.page.timers ++ [.autoHide t.page.created]) :
      Handled t (.message alert)
        ⟨p, t.schedule ++ [(.autoHide t.page.created, t.now + 5000)], t.now,
          t.shownAt ++ [t.now]⟩
  | click (id : ℕ) (there : id ∈ t.page.ids) (p : Page α) (ids : p.ids = t.page.ids)
      (created : p.created = t.page.created) (timers : p.timers = t.page.timers ++ [.remove id]) :
      Handled t (.click id)
        ⟨p, t.schedule ++ [(.remove id, t.now + 300)], t.now, t.shownAt⟩
  | hides (index id due : ℕ) (pending : t.schedule[index]? = some (.autoHide id, due))
      (isDue : due ≤ t.now) (there : id ∈ t.page.ids) (p : Page α) (ids : p.ids = t.page.ids)
      (created : p.created = t.page.created)
      (timers : p.timers = t.page.timers.eraseIdx index ++ [.remove id]) :
      Handled t (.timer index)
        ⟨p, t.schedule.eraseIdx index ++ [(.remove id, t.now + 300)], t.now, t.shownAt⟩
  | passesBy (index id due : ℕ) (pending : t.schedule[index]? = some (.autoHide id, due))
      (gone : id ∉ t.page.ids) (p : Page α) (ids : p.ids = t.page.ids)
      (created : p.created = t.page.created) (timers : p.timers = t.page.timers.eraseIdx index) :
      Handled t (.timer index) ⟨p, t.schedule.eraseIdx index, t.now, t.shownAt⟩
  | removes (index id due : ℕ) (pending : t.schedule[index]? = some (.remove id, due))
      (isDue : due ≤ t.now) (p : Page α) (ids : p.ids = t.page.ids.filter (· ≠ id))
      (created : p.created = t.page.created) (timers : p.timers = t.page.timers.eraseIdx index) :
      Handled t (.timer index) ⟨p, t.schedule.eraseIdx index, t.now, t.shownAt⟩

theorem after_eq {t : Timed α} {event : PageEvent α} {p : Page α} {new : List Timer}
    (timers : p.timers = (t.kept event).map Prod.fst ++ new) :
    t.after event p =
      ⟨p, t.kept event ++ new.map fun timer => (timer, t.now + timer.delay), t.now,
        t.shownAt ++ List.replicate (p.created - t.page.created) t.now⟩ := by
  rw [Timed.after, timers, List.drop_left' (List.length_map _)]

/-- The same for an event that makes no toast. -/
theorem after_quiet {t : Timed α} {event : PageEvent α} (p : Page α) (new : List Timer)
    (created : p.created = t.page.created)
    (timers : p.timers = (t.kept event).map Prod.fst ++ new) :
    t.after event p =
      ⟨p, t.kept event ++ new.map fun timer => (timer, t.now + timer.delay), t.now,
        t.shownAt⟩ := by
  rw [after_eq timers, created, Nat.sub_self, List.replicate_zero, List.append_nil]

theorem handled_of_step {t : Timed α} {event : PageEvent α} {p : Page α}
    (same : t.page.timers = t.schedule.map Prod.fst) (ready : t.IsReady event)
    (step : Step t.page event p) : Handled t event (t.after event p) := by
  cases step with
  | @message alert _ shown _ shows lists =>
      obtain ⟨room, rfl⟩ := Shows.eq_append shows
      obtain ⟨container, created⟩ := Lists.container lists
      have timers : p.timers = t.page.timers ++ [.autoHide t.page.created] := Lists.timers lists
      rw [length_container] at room
      have ids : p.ids = t.page.ids ++ [t.page.created] := by
        rw [← ids_appendToast alert, Page.ids, container, Page.ids]
      have one : p.created - t.page.created = 1 := by
        rw [created]
        exact Nat.add_sub_cancel_left ..
      rw [after_eq (same ▸ timers), one]
      exact .message alert p room ids created timers
  | @click id _ there =>
      have timers : (t.page.startRemoval id).timers = t.page.timers ++ [.remove id] := rfl
      rw [after_quiet (t.page.startRemoval id) [.remove id] rfl (same ▸ timers)]
      exact .click id there _ (ids_startRemoval id t.page) rfl timers
  | @timer index timer _ pending =>
      obtain ⟨timer', due, there, isDue⟩ := ready
      have agree : timer' = timer := by
        rw [same, List.getElem?_map, there] at pending
        exact Option.some.inj pending
      subst agree
      have rest : t.page.timers.eraseIdx index =
          (t.kept (.timer index : PageEvent α)).map Prod.fst := by
        rw [same, Timed.kept, List.eraseIdx_map]
      cases timer' with
      | autoHide id =>
          rw [fire]
          split
          · rename_i member
            rw [after_quiet (startRemoval id { t.page with timers := t.page.timers.eraseIdx index })
              [.remove id] rfl (by rw [← rest]; rfl)]
            exact .hides index id due there isDue member _ (ids_startRemoval id _) rfl rfl
          · rename_i gone
            rw [after_quiet { t.page with timers := t.page.timers.eraseIdx index } [] rfl
              (by rw [← rest, List.append_nil]), List.map_nil, List.append_nil]
            exact .passesBy index id due there gone _ rfl rfl rfl
      | remove id =>
          rw [after_quiet (fire { t.page with timers := t.page.timers.eraseIdx index }
            (.remove id)) [] rfl (by rw [← rest, List.append_nil]; rfl), List.map_nil,
            List.append_nil]
          refine .removes index id due there isDue _ ?_ rfl rfl
          rw [Page.ids, Page.ids, List.filter_map]
          rfl

/-! ## What every run keeps -/

/-- A timer that will make the toast disappear in time. -/
def Leaves (late id shown : ℕ) (entry : Timer × ℕ) : Prop :=
  entry = (.autoHide id, shown + 5000) ∨
    ∃ due, entry = (.remove id, due) ∧ due ≤ shown + 5300 + late

/-- The invariant. -/
structure Timed.Holds (late : ℕ) (t : Timed α) : Prop where
  timers : t.page.timers = t.schedule.map Prod.fst
  made : t.shownAt.length = t.page.created
  order : InOrder t.page
  punctual : ∀ entry ∈ t.schedule, t.now ≤ entry.2 + late
  autoHides : ∀ id due, (.autoHide id, due) ∈ t.schedule →
    ∃ shown, t.shownAt[id]? = some shown ∧ due = shown + 5000
  leaves : ∀ id ∈ t.page.ids, ∃ shown, t.shownAt[id]? = some shown ∧
    ∃ entry ∈ t.schedule, Leaves late id shown entry

theorem mem_eraseIdx_of_ne {β : Type*} {l : List β} {index : ℕ} {x y : β}
    (there : l[index]? = some x) (member : y ∈ l) (other : y ≠ x) : y ∈ l.eraseIdx index := by
  obtain ⟨k, here⟩ := List.mem_iff_getElem?.mp member
  refine List.mem_eraseIdx_iff_getElem?.mpr ⟨k, ?_, here⟩
  rintro rfl
  exact other (Option.some.inj (here.symm.trans there))

/-- A toast that stays keeps one of its timers, if the timer that runs is not one
of them. -/
theorem Timed.Holds.leaves_eraseIdx {late : ℕ} {t : Timed α} (holds : t.Holds late)
    {index id : ℕ} {entry : Timer × ℕ} (pending : t.schedule[index]? = some entry)
    (member : id ∈ t.page.ids) (other : ∀ shown, ¬ Leaves late id shown entry) :
    ∃ shown, t.shownAt[id]? = some shown ∧
      ∃ entry ∈ t.schedule.eraseIdx index, Leaves late id shown entry := by
  obtain ⟨shown, made, kept, there, leaves⟩ := holds.leaves id member
  refine ⟨shown, made, kept, mem_eraseIdx_of_ne pending there ?_, leaves⟩
  rintro rfl
  exact other shown leaves

theorem getElem?_append_singleton {β : Type*} {l : List β} {index : ℕ} {x : β}
    (there : l[index]? = some x) (y : β) : (l ++ [y])[index]? = some x := by
  rw [List.getElem?_append_left (List.getElem?_eq_some_iff.mp there).1]
  exact there

theorem Timed.Holds.handled {late : ℕ} {t t' : Timed α} {event : PageEvent α}
    (holds : t.Holds late) (order : InOrder t'.page) (handled : Handled t event t') :
    t'.Holds late := by
  have erased : ∀ {index : ℕ}, ∀ entry ∈ t.schedule.eraseIdx index, t.now ≤ entry.2 + late :=
    fun entry member => holds.punctual entry (List.mem_of_mem_eraseIdx member)
  have autoHides : ∀ {entries : List (Timer × ℕ)} {removed at' : ℕ}, entries ⊆ t.schedule →
      ∀ id due, (.autoHide id, due) ∈ entries ++ [(.remove removed, at')] →
        ∃ shown, t.shownAt[id]? = some shown ∧ due = shown + 5000 := by
    intro entries removed at' older id due member
    rcases List.mem_append.mp member with before | new
    · exact holds.autoHides id due (older before)
    · cases List.mem_singleton.mp new
  have added : ∀ {entries : List (Timer × ℕ)} (timer : Timer) (delay : ℕ),
      (∀ entry ∈ entries, t.now ≤ entry.2 + late) →
      ∀ entry ∈ entries ++ [(timer, t.now + delay)], t.now ≤ entry.2 + late := by
    intro entries timer delay before entry member
    rcases List.mem_append.mp member with older | new
    · exact before entry older
    · rw [List.mem_singleton.mp new]
      dsimp only
      omega
  cases handled with
  | message alert p room ids created timers =>
      have last : (t.shownAt ++ [t.now])[t.page.created]? = some t.now := by
        rw [← holds.made]
        exact List.getElem?_concat_length
      refine ⟨?_, ?_, order, added _ _ holds.punctual, ?_, ?_⟩
      · rw [timers, List.map_append, holds.timers]
        rfl
      · rw [List.length_append, holds.made, created]
        rfl
      · intro id due member
        rcases List.mem_append.mp member with older | new
        · obtain ⟨shown, made, same⟩ := holds.autoHides id due older
          exact ⟨shown, getElem?_append_singleton made _, same⟩
        · cases List.mem_singleton.mp new
          exact ⟨t.now, last, rfl⟩
      · intro id member
        dsimp only at member ⊢
        rw [ids] at member
        rcases List.mem_append.mp member with older | new
        · obtain ⟨shown, made, entry, pending, leaves⟩ := holds.leaves id older
          exact ⟨shown, getElem?_append_singleton made _, entry,
            List.mem_append_left _ pending, leaves⟩
        · rw [List.mem_singleton] at new
          subst new
          exact ⟨t.now, last, _, List.mem_append_right _ (List.mem_singleton_self _), Or.inl rfl⟩
  | click id there p ids created timers =>
      refine ⟨?_, created ▸ holds.made, order, added _ _ holds.punctual,
        autoHides (List.Subset.refl _), ?_⟩
      · rw [timers, List.map_append, holds.timers]
        rfl
      · intro id member
        obtain ⟨shown, made, entry, pending, leaves⟩ := holds.leaves id (ids ▸ member)
        exact ⟨shown, made, entry, List.mem_append_left _ pending, leaves⟩
  | hides index id due pending isDue there p ids created timers =>
      refine ⟨?_, created ▸ holds.made, order, added _ _ erased,
        autoHides (List.eraseIdx_subset ..), ?_⟩
      · rw [timers, List.map_append, holds.timers, List.eraseIdx_map]
        rfl
      · intro other member
        by_cases own : other = id
        · subst own
          obtain ⟨shown, made, same⟩ :=
            holds.autoHides other due (List.mem_of_getElem? pending)
          have inTime := holds.punctual _ (List.mem_of_getElem? pending)
          refine ⟨shown, made, _, List.mem_append_right _ (List.mem_singleton_self _),
            Or.inr ⟨_, rfl, ?_⟩⟩
          dsimp only at inTime
          omega
        · obtain ⟨shown, made, entry, pending', leaves⟩ :=
            holds.leaves_eraseIdx pending (ids ▸ member) (by
              rintro shown (same | ⟨due, same, -⟩)
              · exact own (Timer.autoHide.inj (Prod.mk.inj same).1).symm
              · cases (Prod.mk.inj same).1)
          exact ⟨shown, made, entry, List.mem_append_left _ pending', leaves⟩
  | passesBy index id due pending gone p ids created timers =>
      refine ⟨?_, created ▸ holds.made, order, erased,
        fun id due member => holds.autoHides id due (List.mem_of_mem_eraseIdx member), ?_⟩
      · rw [timers, holds.timers, List.eraseIdx_map]
      · intro other member
        refine holds.leaves_eraseIdx pending (ids ▸ member) ?_
        rintro shown (same | ⟨due, same, -⟩)
        · obtain rfl := Timer.autoHide.inj (Prod.mk.inj same).1
          exact gone (ids ▸ member)
        · cases (Prod.mk.inj same).1
  | removes index id due pending isDue p ids created timers =>
      refine ⟨?_, created ▸ holds.made, order, erased,
        fun id due member => holds.autoHides id due (List.mem_of_mem_eraseIdx member), ?_⟩
      · rw [timers, holds.timers, List.eraseIdx_map]
      · intro other member
        dsimp only at member
        rw [ids, List.mem_filter] at member
        refine holds.leaves_eraseIdx pending member.1 ?_
        rintro shown (same | ⟨due, same, -⟩)
        · cases (Prod.mk.inj same).1
        · obtain rfl := Timer.remove.inj (Prod.mk.inj same).1
          simp at member

theorem Timed.holds_loaded (late : ℕ) (rows : List α) : (Timed.loaded rows).Holds late where
  timers := rfl
  made := rfl
  order := inOrder_loaded rows
  punctual _ impossible := by cases impossible
  autoHides _ _ impossible := by cases impossible
  leaves _ impossible := by cases impossible

/-- **Step lemma.** -/
theorem Timed.Holds.step {late : ℕ} {t t' : Timed α} {event : TimedEvent α}
    (holds : t.Holds late) (step : TimedStep late t event t') : t'.Holds late := by
  cases step with
  | passes punctual =>
      exact ⟨holds.timers, holds.made, holds.order, punctual, holds.autoHides, holds.leaves⟩
  | handles ready step =>
      exact holds.handled (holds.order.step step) (handled_of_step holds.timers ready step)

/-- **Run lemma.** -/
theorem Timed.Holds.run {late : ℕ} {start t : Timed α} {events : List (TimedEvent α)}
    (holds : start.Holds late) (run : TimedRun late start events t) : t.Holds late := by
  induction run with
  | start => exact holds
  | step run step ih => exact ih.step step

/-! ## Without clicks -/

/-- No toast disappears early. -/
structure Timed.Unhurried (t : Timed α) : Prop where
  removes : ∀ id due, (.remove id, due) ∈ t.schedule →
    ∃ shown, t.shownAt[id]? = some shown ∧ shown + 5300 ≤ due
  stays : ∀ id shown, t.shownAt[id]? = some shown → t.now < shown + 5300 → id ∈ t.page.ids

def TimedEvent.isClick : TimedEvent α → Bool
  | .handles (.click _) => true
  | _ => false

theorem Timed.Unhurried.step {late : ℕ} {t t' : Timed α} {event : TimedEvent α}
    (unhurried : t.Unhurried) (holds : t.Holds late) (step : TimedStep late t event t')
    (noClick : event.isClick = false) : t'.Unhurried := by
  cases step with
  | passes punctual =>
      exact ⟨unhurried.removes, fun id shown made recent =>
        unhurried.stays id shown made (Nat.lt_of_le_of_lt (Nat.le_add_right _ _) recent)⟩
  | handles ready step =>
      have handled := handled_of_step holds.timers ready step
      generalize t.after _ _ = next at handled ⊢
      cases handled with
      | message alert p room ids created timers =>
          refine ⟨?_, ?_⟩
          · intro id due member
            rcases List.mem_append.mp member with older | new
            · obtain ⟨shown, made, after⟩ := unhurried.removes id due older
              exact ⟨shown, getElem?_append_singleton made _, after⟩
            · cases List.mem_singleton.mp new
          · intro id shown made recent
            dsimp only at made recent ⊢
            rw [ids, List.mem_append, List.mem_singleton, ← holds.made]
            rcases Nat.lt_or_ge id t.shownAt.length with older | new
            · rw [List.getElem?_append_left older] at made
              exact Or.inl (unhurried.stays id shown made recent)
            · have bound := (List.getElem?_eq_some_iff.mp made).1
              rw [List.length_append, List.length_singleton] at bound
              exact Or.inr (Nat.le_antisymm (Nat.le_of_lt_succ bound) new)
      | click id there p ids created timers => cases noClick
      | hides index id due pending isDue there p ids created timers =>
          refine ⟨?_, fun other shown made recent => ?_⟩
          · intro other later member
            rcases List.mem_append.mp member with older | new
            · exact unhurried.removes other later (List.mem_of_mem_eraseIdx older)
            · obtain ⟨shown, made, same⟩ := holds.autoHides id due (List.mem_of_getElem? pending)
              cases List.mem_singleton.mp new
              refine ⟨shown, made, ?_⟩
              omega
          · dsimp only
            rw [ids]
            exact unhurried.stays other shown made recent
      | passesBy index id due pending gone p ids created timers =>
          refine ⟨fun other later member =>
            unhurried.removes other later (List.mem_of_mem_eraseIdx member), ?_⟩
          intro other shown made recent
          dsimp only
          rw [ids]
          exact unhurried.stays other shown made recent
      | removes index id due pending isDue p ids created timers =>
          refine ⟨fun other later member =>
            unhurried.removes other later (List.mem_of_mem_eraseIdx member), ?_⟩
          intro other shown made recent
          dsimp only at made recent ⊢
          rw [ids, List.mem_filter]
          refine ⟨unhurried.stays other shown made recent, ?_⟩
          obtain ⟨shown', made', after⟩ := unhurried.removes id due (List.mem_of_getElem? pending)
          refine decide_eq_true ?_
          rintro rfl
          obtain rfl := Option.some.inj (made.symm.trans made')
          omega

theorem Timed.unhurried_loaded (rows : List α) : (Timed.loaded rows).Unhurried where
  removes _ _ impossible := by cases impossible
  stays _ _ impossible := by cases impossible

/-- **Run lemma.** -/
theorem Timed.Unhurried.run {late : ℕ} {start t : Timed α} {events : List (TimedEvent α)}
    (unhurried : start.Unhurried) (holds : start.Holds late)
    (run : TimedRun late start events t) (noClick : ∀ event ∈ events, event.isClick = false) :
    t.Unhurried := by
  induction run with
  | start => exact unhurried
  | @step earlier _ _ event run step ih =>
      have before := ih fun e member => noClick e (List.mem_append_left _ member)
      refine before.step (holds.run run) step (noClick event ?_)
      exact List.mem_append_right _ (List.mem_singleton_self event)

/-! ## How many toasts there are -/

theorem countP_eq_length_filter {β : Type*} (test : β → Bool) (l : List β) :
    l.countP test = ((List.range l.length).filter fun i => l[i]?.any test).length := by
  induction l with
  | nil => rfl
  | cons x l ih =>
      rw [List.length_cons, List.range_succ_eq_map, List.filter_cons, List.filter_map,
        List.countP_cons, ih]
      by_cases first : test x = true
      · simp [first, Function.comp_def]
      · simp [first, Function.comp_def]

/-- Increasing indices of elements that satisfy a test. -/
theorem length_le_countP {β : Type*} {test : β → Bool} {l : List β} {ids : List ℕ}
    (ordered : ids.Pairwise (· < ·)) (all : ∀ id ∈ ids, ∃ x, l[id]? = some x ∧ test x = true) :
    ids.length ≤ l.countP test := by
  rw [countP_eq_length_filter]
  refine (List.subperm_of_subset (ordered.imp Nat.ne_of_lt) ?_).length_le
  intro id member
  obtain ⟨x, there, holds⟩ := all id member
  rw [List.mem_filter, List.mem_range, there]
  exact ⟨(List.getElem?_eq_some_iff.mp there).1, holds⟩

/-- All the indices of elements that satisfy a test. -/
theorem countP_le_length {β : Type*} {test : β → Bool} {l : List β} {ids : List ℕ}
    (all : ∀ id x, l[id]? = some x → test x = true → id ∈ ids) : l.countP test ≤ ids.length := by
  rw [countP_eq_length_filter]
  refine (List.subperm_of_subset (List.nodup_range.filter _) ?_).length_le
  intro id member
  rw [List.mem_filter, Option.any_eq_true] at member
  obtain ⟨-, x, there, holds⟩ := member
  exact all id x there holds

/-- How many toasts were made in the last milliseconds. -/
def Timed.recent (t : Timed α) (milliseconds : ℕ) : ℕ :=
  t.shownAt.countP fun shown => t.now ≤ shown + milliseconds

/-- **Toasts in time.** -/
theorem toasts_in_time {late : ℕ} {rows : List α} {events : List (TimedEvent α)} {t : Timed α}
    (run : TimedRun late (.loaded rows) events t) :
    (∀ id ∈ t.page.ids, ∃ shown, t.shownAt[id]? = some shown ∧
        t.now ≤ shown + (5300 + 2 * late)) ∧
      (t.recent (5300 + 2 * late) < 5 →
        ∀ alert, ∃ t', TimedStep late t (.handles (.message alert)) t') ∧
      ((∀ event ∈ events, event.isClick = false) → 5 ≤ t.recent 5299 →
        ∀ alert t', ¬TimedStep late t (.handles (.message alert)) t') := by
  have holds := (Timed.holds_loaded late rows).run run
  have young : ∀ id ∈ t.page.ids, ∃ shown, t.shownAt[id]? = some shown ∧
      t.now ≤ shown + (5300 + 2 * late) := by
    intro id member
    obtain ⟨shown, made, entry, pending, leaves⟩ := holds.leaves id member
    have inTime := holds.punctual entry pending
    refine ⟨shown, made, ?_⟩
    rcases leaves with rfl | ⟨due, rfl, early⟩
    · dsimp only at inTime
      omega
    · dsimp only at inTime
      omega
  refine ⟨young, ?_, ?_⟩
  · intro few alert
    have room : t.page.container.length < 5 := by
      rw [length_container]
      refine Nat.lt_of_le_of_lt (length_le_countP holds.order.ordered ?_) few
      intro id member
      obtain ⟨shown, made, recent⟩ := young id member
      exact ⟨shown, made, decide_eq_true recent⟩
    obtain ⟨p, lists, -⟩ := lists_returns alert (t.page.appendToast alert)
    exact ⟨_, .handles trivial (.message (shows_of_room room) lists)⟩
  · intro noClick many alert t' step
    have unhurried := (Timed.unhurried_loaded rows).run (Timed.holds_loaded late rows) run noClick
    have full : 5 ≤ t.page.container.length := by
      rw [length_container]
      refine many.trans (countP_le_length ?_)
      intro id shown made recent
      exact unhurried.stays id shown made (Nat.lt_succ_of_le (of_decide_eq_true recent))
    cases step with
    | handles ready step =>
        cases step with
        | message shows lists => exact not_shows full shows

/-- The page after some alerts at the same time. -/
def alertsAtOnce : List ℕ → Timed ℕ
  | [] => .loaded []
  | alert :: earlier =>
      let t := alertsAtOnce earlier
      t.after (.message alert) { t.page.appendToast alert with rows := alert :: t.page.rows }

theorem alertsAtOnce_run {events : List (TimedEvent ℕ)} (earlier : List ℕ) (alert : ℕ)
    (run : TimedRun 0 (.loaded []) events (alertsAtOnce earlier))
    (room : (alertsAtOnce earlier).page.container.length < 5)
    (short : (alertsAtOnce (alert :: earlier)).page.rows.length ≤ 15) :
    TimedRun 0 (.loaded []) (events ++ [.handles (.message alert)])
      (alertsAtOnce (alert :: earlier)) := by
  have listed : tooManyRows (alertsAtOnce (alert :: earlier)).page = false :=
    decide_eq_false (Nat.not_lt_of_le short)
  exact run.step (.handles trivial (.message (shows_of_room room) (returns_self listed)))

/-- Some milliseconds pass, or the timer that was set first runs. -/
def Timed.waited (t : Timed ℕ) : Option ℕ → Timed ℕ
  | some d => { t with now := t.now + d }
  | none =>
      match t.page.timers with
      | timer :: rest => t.after (.timer 0) (fire { t.page with timers := rest } timer)
      | [] => t

/-- No timer gets overdue, and the one that runs is due. -/
def Timed.canWait (t : Timed ℕ) : Option ℕ → Bool
  | some d => t.schedule.all fun entry => t.now + d ≤ entry.2
  | none => t.page.timers ≠ [] ∧ t.schedule.head?.any fun entry => entry.2 ≤ t.now

def Timed.canWaits : Timed ℕ → List (Option ℕ) → Bool
  | _, [] => true
  | t, wait :: rest => t.canWait wait && (t.waited wait).canWaits rest

theorem waited_run {events : List (TimedEvent ℕ)} {t : Timed ℕ} {wait : Option ℕ}
    (run : TimedRun 0 (.loaded []) events t) (can : t.canWait wait) :
    ∃ event, event.isClick = false ∧
      TimedRun 0 (.loaded []) (events ++ [event]) (t.waited wait) := by
  cases wait with
  | some d =>
      refine ⟨.passes d, rfl, run.step (.passes fun entry pending => ?_)⟩
      exact of_decide_eq_true (List.all_eq_true.mp can entry pending)
  | none =>
      obtain ⟨some_, due⟩ := of_decide_eq_true can
      obtain ⟨⟨timer, at_⟩, pending, isDue⟩ := (Option.any_eq_true ..).mp due
      rw [List.head?_eq_getElem?] at pending
      have ready : t.IsReady (.timer 0) := ⟨timer, at_, pending, of_decide_eq_true isDue⟩
      refine ⟨.handles (.timer 0), rfl, ?_⟩
      rw [Timed.waited]
      cases timers : t.page.timers with
      | nil => exact absurd timers some_
      | cons first rest =>
          have next : t.page.timers[0]? = some first := by rw [timers]; rfl
          have fired := run.step (.handles ready (.timer next))
          rwa [show t.page.timers.eraseIdx 0 = rest by rw [timers]; rfl] at fired

theorem waits_run (waits : List (Option ℕ)) {events : List (TimedEvent ℕ)} {t : Timed ℕ}
    (run : TimedRun 0 (.loaded []) events t) (noClick : ∀ event ∈ events, event.isClick = false)
    (can : t.canWaits waits) :
    ∃ events', (∀ event ∈ events', event.isClick = false) ∧
      TimedRun 0 (.loaded []) events' (waits.foldl Timed.waited t) := by
  induction waits generalizing events t with
  | nil => exact ⟨events, noClick, run⟩
  | cons wait rest ih =>
      obtain ⟨here, later⟩ := (Bool.and_eq_true ..).mp can
      obtain ⟨event, quiet, next⟩ := waited_run run here
      refine ih next ?_ later
      intro e member
      rcases List.mem_append.mp member with before | new
      · exact noClick e before
      · exact List.mem_singleton.mp new ▸ quiet

/-- The timers of five toasts run, and one millisecond is missing. -/
def almost : List (Option ℕ) := some 5000 :: List.replicate 5 none ++ [some 299]

/-- The toasts are removed, and one millisecond passes. -/
def removed : List (Option ℕ) := almost ++ some 1 :: List.replicate 5 none ++ [some 1]

/-- Of six alerts at the same time the fifth is handled and the sixth is not. Nor is
it 5299 milliseconds later, but 5301 milliseconds later it is. -/
theorem sixth_at_once :
    (∃ t', TimedStep 0 (alertsAtOnce [3, 2, 1, 0]) (.handles (.message 4)) t') ∧
      (∀ t', ¬TimedStep 0 (alertsAtOnce [4, 3, 2, 1, 0]) (.handles (.message 5)) t') ∧
      (∀ t', ¬TimedStep 0 (almost.foldl Timed.waited (alertsAtOnce [4, 3, 2, 1, 0]))
        (.handles (.message 5)) t') ∧
      ∃ t', TimedStep 0 (removed.foldl Timed.waited (alertsAtOnce [4, 3, 2, 1, 0]))
        (.handles (.message 5)) t' := by
  have one := alertsAtOnce_run [] 0 .start (by decide) (by decide)
  have two := alertsAtOnce_run [0] 1 one (by decide) (by decide)
  have three := alertsAtOnce_run [1, 0] 2 two (by decide) (by decide)
  have four := alertsAtOnce_run [2, 1, 0] 3 three (by decide) (by decide)
  have five := alertsAtOnce_run [3, 2, 1, 0] 4 four (by decide) (by decide)
  obtain ⟨_, noClick, full⟩ := waits_run almost five (by decide) (by decide)
  obtain ⟨_, -, empty⟩ := waits_run removed five (by decide) (by decide)
  exact ⟨(toasts_in_time four).2.1 (by decide) 4,
    (toasts_in_time five).2.2 (by decide) (by decide) 5,
    (toasts_in_time full).2.2 noClick (by decide) 5, (toasts_in_time empty).2.1 (by decide) 5⟩

end EbpfNids.Dashboard
