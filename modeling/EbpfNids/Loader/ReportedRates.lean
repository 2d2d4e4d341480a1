import EbpfNids.Loader.MainLoop

/-!
# The rates that the loader reports

A report divides the growth of a counter since the source's last report by the
interval of the configuration, whatever time has passed between the two passes.
So the rate is that of what was counted over what has elapsed exactly when some
whole number per second fits both (`reported_rates_iff`). It does when the passes
come an interval apart; it need not when an iteration is late, when a pass has
skipped the source, or when a reload has changed the interval.

Beside a run of the loop goes what has been counted for the source and how often
its entry has been deleted; every report is put down with these as they were at
its lookup.
-/

set_option autoImplicit false

namespace EbpfNids.Loader

open Library Library.Runs Library.Snapshots EbpfNids.DataPlane

variable {ι : Type*}

/-! ## The reports of a source -/

def perSec : Meter → Report → UInt64
  | .packets, r => r.pps
  | .bytes, r => r.bps

/-- The mark of a source after a step. -/
def markAfter (meter : Meter) (ip : UInt32) (mark : Mark) (p : System × SysEvent) : Mark where
  counted := mark.counted + countedIn meter ip p
  resets := mark.resets + if p.2 = .data (.mapDelete .flowStats ip) then 1 else 0

/-- The mark at the last lookup after a step. -/
def lookupMark (mark atLookup : Mark) (p : System × SysEvent) : Mark :=
  if isLookup p then mark else atLookup

/-- A report of a source: `now` of the iteration that made it, the interval of
the configuration, what it read with the mark at the lookup, and the rate. -/
structure Rate where
  time : ℤ
  interval : ℤ
  read : Marked
  perSec : ℕ
deriving DecidableEq, Repr

/-- The step of the system that a step of the loop makes, if it makes one. -/
def asSystem (p : LoopState ι × LoopEvent) : Option (System × SysEvent) :=
  match p.2 with
  | .sys event => if enabled p.1 event then some (p.1.system, event) else none
  | _ => none

/-- The report of a source that a step makes, with the mark at the last lookup. -/
def ownRate (meter : Meter) (ip : UInt32) (atLookup : Mark) (p : LoopState ι × LoopEvent) :
    Option Rate :=
  ((asSystem p).bind (ownReport ip)).map fun r =>
    { time := p.1.now
      interval := p.1.globals.cfg.statsIntervalSec
      read := ⟨(total meter r).toNat, atLookup⟩
      perSec := (perSec meter r).toNat }

/-- The reports of a source in a run of the loop, after a mark and a mark at the
last lookup. -/
def rates (meter : Meter) (ip : UInt32) :
    Mark → Mark → List (LoopState ι × LoopEvent) → List Rate
  | _, _, [] => []
  | mark, atLookup, p :: rest =>
      (ownRate meter ip atLookup p).toList ++
        match asSystem p with
        | some q => rates meter ip (markAfter meter ip mark q) (lookupMark mark atLookup q) rest
        | none => rates meter ip mark atLookup rest

/-! ## What is said of consecutive reports -/

namespace Rate

/-- What was counted between the lookups of two reports. -/
def counted (a b : Rate) : ℕ := b.read.mark.counted - a.read.mark.counted

/-- The time between the passes of two reports. -/
def elapsed (a b : Rate) : ℕ := (b.time - a.time).toNat

/-- A later pass, and the entry was not deleted between the two lookups. -/
def Continues (a b : Rate) : Prop :=
  a.time < b.time ∧ a.read.mark.resets = b.read.mark.resets

/-- The rate is what was counted over what has elapsed. -/
def IsRate (a b : Rate) : Prop := Continues a b → b.perSec = counted a b / elapsed a b

/-- How much more the 64-bit counter shows at the second lookup: what was
counted, unless it has wrapped. -/
def shown (a b : Rate) : ℕ := (a.read.total + counted a b) % 2 ^ 64 - a.read.total

/-- Some whole number per second fits what was counted in the time that has
elapsed, and what the counter shows in the interval. -/
def Fits (a b : Rate) : Prop :=
  Continues a b → ∃ q,
    (q * elapsed a b ≤ counted a b ∧ counted a b < (q + 1) * elapsed a b) ∧
      q * b.interval.toNat ≤ shown a b ∧ shown a b < (q + 1) * b.interval.toNat

/-- The passes are an interval apart, and the counter has not wrapped. -/
def Timely (a b : Rate) : Prop :=
  Continues a b → b.time - a.time = b.interval ∧ a.read.total + counted a b < 2 ^ 64

/-- What the code makes of two consecutive reports. -/
structure Linked (a b : Rate) : Prop where
  interval : 0 < b.interval
  wraps : Wraps (2 ^ 64) a.read b.read
  perSec : b.perSec = (b.read.total - a.read.total) / b.interval.toNat

end Rate

/-- Two quotients agree if a whole number fits both. -/
theorem div_eq_div_iff_fits {m n k l : ℕ} (pos : 0 < k) (pos' : 0 < l) :
    m / k = n / l ↔ ∃ q, (q * l ≤ n ∧ n < (q + 1) * l) ∧ q * k ≤ m ∧ m < (q + 1) * k := by
  constructor
  · intro same
    refine ⟨m / k, ?_, Nat.div_mul_le_self m k,
      (Nat.div_lt_iff_lt_mul pos).mp (Nat.lt_succ_self _)⟩
    rw [same]
    exact ⟨Nat.div_mul_le_self n l, (Nat.div_lt_iff_lt_mul pos').mp (Nat.lt_succ_self _)⟩
  · rintro ⟨q, ⟨low, high⟩, low', high'⟩
    rw [Nat.div_eq_of_lt_le low' high', Nat.div_eq_of_lt_le low high]

namespace Rate

theorem isRate_iff_fits {a b : Rate} (linked : Linked a b) : IsRate a b ↔ Fits a b := by
  apply imp_congr_right
  rintro ⟨later, kept⟩
  have shows : b.perSec = shown a b / b.interval.toNat := by
    rw [linked.perSec, linked.wraps.2.2 kept, shown, counted]
  have interval := linked.interval
  have apart : 0 < elapsed a b := by
    rw [elapsed]
    omega
  rw [shows]
  exact div_eq_div_iff_fits (by omega) apart

theorem Timely.isRate {a b : Rate} (timely : Timely a b) (linked : Linked a b) : IsRate a b := by
  rintro ⟨later, kept⟩
  obtain ⟨apart, fits⟩ := timely ⟨later, kept⟩
  rw [counted] at fits
  rw [linked.perSec, linked.wraps.2.2 kept, Nat.mod_eq_of_lt fits, elapsed, apart,
    Nat.add_sub_cancel_left, counted]

end Rate

/-! ## One step -/

/-- What the loader holds of a source and what is counted for it: the node is
that of the last report, and the last report, the value that was read and the
counter are readings of one counter that wraps. -/
structure Seen (meter : Meter) (ip : UInt32) (sys : System) (mark atLookup : Mark)
    (last : Option Marked) : Prop where
  tracks : Tracks (fun _ _ => True) meter ip sys mark.counted atLookup.counted
    (last.map fun l => ⟨l.total, l.mark.counted⟩)
  current : ∀ l ∈ last, Wraps (2 ^ 64) l ⟨flowTotal meter sys.maps.flowStats ip, mark⟩
  pending : ∀ value, sys.stage = .report ip value →
    Wraps (2 ^ 64) ⟨(meter.read value).toNat, atLookup⟩
        ⟨flowTotal meter sys.maps.flowStats ip, mark⟩ ∧
      ∀ l ∈ last, Wraps (2 ^ 64) l ⟨(meter.read value).toNat, atLookup⟩

section Step

variable {meter : Meter} {ip : UInt32} {sys : System} {event : SysEvent} {mark atLookup : Mark}
  {last : Option Marked}

/-- Only steps of the data plane count anything. -/
theorem sysStep_flowTotal (meter : Meter) (ip : UInt32) (sys : System) (event : SysEvent) :
    (∃ change, event = .data change) ∨
      flowTotal meter (sysStep sys event).maps.flowStats ip =
          flowTotal meter sys.maps.flowStats ip ∧
        countedIn meter ip (sys, event) = 0 := by
  rcases sysStep_cases sys event with data | ⟨key, value, rfl, -, -, next⟩ |
    ⟨allocated, now, key, value, rfl, stage⟩ | ⟨-, nothing, ⟨same, -⟩ | ⟨stage, -, next⟩⟩
  · exact Or.inl data
  · exact Or.inr ⟨by rw [next], rfl⟩
  · exact Or.inr ⟨by simp only [sysStep, stage], rfl⟩
  · exact Or.inr ⟨by rw [same], nothing meter ip⟩
  · exact Or.inr ⟨by rw [next], nothing meter ip⟩

/-- The counter of a source is the same counter after a step. -/
theorem wraps_step (meter : Meter) (ip : UInt32) (mark : Mark) (sys : System) (event : SysEvent) :
    Wraps (2 ^ 64) ⟨flowTotal meter sys.maps.flowStats ip, mark⟩
      ⟨flowTotal meter (sysStep sys event).maps.flowStats ip,
        markAfter meter ip mark (sys, event)⟩ := by
  refine ⟨Nat.le_add_right _ _, Nat.le_add_right _ _, ?_⟩
  simp only [markAfter]
  intro same
  rw [Nat.add_sub_cancel_left]
  rcases sysStep_flowTotal meter ip sys event with ⟨change, rfl⟩ | ⟨unchanged, nothing⟩
  · have stays : change ≠ .mapDelete .flowStats ip := by
      rintro rfl
      simp at same
    exact (flowTotal_wraps meter ip (sys.maps, change)).1 stays
  · rw [unchanged, nothing, Nat.add_zero, Nat.mod_eq_of_lt (flowTotal_lt ..)]

/-- A value is pending after a step if it was before, or if the step has read
it. -/
theorem pending_step {value : FlowStats} (pends : (sysStep sys event).stage = .report ip value) :
    sys.stage = .report ip value ∧ isLookup (sys, event) = false ∨
      isLookup (sys, event) = true ∧
        (meter.read value).toNat = flowTotal meter sys.maps.flowStats ip := by
  rcases sysStep_cases sys event with ⟨change, rfl⟩ | ⟨key, read, rfl, stage, found, next⟩ |
    ⟨allocated, now, key, read, rfl, stage⟩ | ⟨-, -, ⟨same, noLookup⟩ | ⟨stage, other, next⟩⟩
  · exact Or.inl ⟨pends, rfl⟩
  · rw [next] at pends
    obtain ⟨rfl, rfl⟩ := Stage.report.inj pends
    right
    refine ⟨by simp only [isLookup, stage], ?_⟩
    rw [flowTotal, found]
    rfl
  · simp only [sysStep, stage] at pends
    cases pends
  · rw [same] at pends
    exact Or.inl ⟨pends, noLookup⟩
  · rw [next] at pends
    exact absurd pends (other ip value)

/-- **Step lemma.** A step that does not report the source keeps what is held of
it. One that does makes what was read the last report, a reading of the same
counter, and its rate is the growth over the interval. -/
theorem Seen.step (seen : Seen meter ip sys mark atLookup last) (event : SysEvent) :
    (ownReport ip (sys, event) = none →
      Seen meter ip (sysStep sys event) (markAfter meter ip mark (sys, event))
        (lookupMark mark atLookup (sys, event)) last) ∧
    (∀ r, ownReport ip (sys, event) = some r →
      Seen meter ip (sysStep sys event) (markAfter meter ip mark (sys, event))
          (lookupMark mark atLookup (sys, event)) (some ⟨(total meter r).toNat, atLookup⟩) ∧
        ∀ l ∈ last, Wraps (2 ^ 64) l ⟨(total meter r).toNat, atLookup⟩ ∧
          (perSec meter r).toNat =
            ((total meter r).toNat - l.total) / (divisor sys.statsIntervalSec).toNat) := by
  have moved := wraps_step meter ip mark sys event
  have moves : Moves (fun _ _ => True) meter ip (sys, event) := fun _ _ _ => trivial
  have lookup : (if isLookup (sys, event) then mark.counted else atLookup.counted) =
      (lookupMark mark atLookup (sys, event)).counted := by
    rw [lookupMark]
    split
    · rfl
    · rfl
  obtain ⟨silent, reports⟩ := seen.tracks.step (fun _ => trivial) (fun _ _ _ _ _ => trivial) moves
  rw [lookup] at silent reports
  constructor
  · intro none
    refine ⟨silent none, fun l held => wraps_trans (seen.current l held) moved, ?_⟩
    intro value pends
    rcases pending_step pends with ⟨before, notLookup⟩ | ⟨lookedUp, read⟩
    · obtain ⟨current, previous⟩ := seen.pending value before
      rw [lookupMark, if_neg (by simp [notLookup])]
      exact ⟨wraps_trans current moved, previous⟩
    · rw [lookupMark, if_pos lookedUp, read]
      exact ⟨moved, seen.current⟩
  · intro r own
    obtain ⟨tracks, -, growth⟩ := reports r own
    obtain ⟨allocated, now, value, rfl, stage, outcome⟩ := ownReport_eq_some own
    obtain ⟨current, previous⟩ := seen.pending value stage
    have read : total meter r = meter.read value := by
      obtain ⟨⟨-, packets, bytes⟩, -⟩ := reportFlowRate_some outcome
      cases meter with
      | packets => exact packets
      | bytes => exact bytes
    rw [← read] at current previous
    refine ⟨⟨tracks, ?_, ?_⟩, ?_⟩
    · rintro l ⟨⟩
      exact wraps_trans current moved
    · intro later pends
      dsimp only at stage
      simp only [sysStep, stage] at pends
      cases pends
    · rintro l held
      refine ⟨previous l held, ?_⟩
      obtain rfl := Option.mem_def.mp held
      have rate : perSec meter r = delta meter r / divisor sys.statsIntervalSec := by
        obtain ⟨pps, bps⟩ := reportFlowRate_rates outcome
        cases meter with
        | packets => exact pps
        | bytes => exact bps
      rw [rate, UInt64.toNat_div, growth]
      rfl

end Step

/-! ## Runs of the loop -/

section Run

variable {meter : Meter} {ip : UInt32} {g : Globals ι} {s : LoopState ι} {mark atLookup : Mark}

/-- What is seen of a source does not depend on the interval. -/
theorem Seen.congr {sys sys' : System} {last : Option Marked}
    (seen : Seen meter ip sys mark atLookup last) (maps : sys'.maps = sys.maps)
    (cacheHead : sys'.cacheHead = sys.cacheHead) (stage : sys'.stage = sys.stage) :
    Seen meter ip sys' mark atLookup last := by
  refine ⟨⟨fun _ _ => trivial, fun _ _ => ⟨trivial, fun _ _ => trivial⟩, ?_⟩, ?_, ?_⟩
  · rw [cacheHead]
    exact seen.tracks.node
  · rw [maps]
    exact seen.current
  · rw [maps, stage]
    exact seen.pending

/-- **What a step of the loop can do**: a step of the system, or none, which
leaves the maps, the cache and the pass alone, unless it leaves the loop. -/
theorem loopStep_cases (s : LoopState ι) (event : LoopEvent) :
    (∃ call, asSystem (s, event) = some (s.system, call) ∧
        (loopStep s event).maps = (sysStep s.system call).maps ∧
        (loopStep s event).cacheHead = (sysStep s.system call).cacheHead ∧
        (loopStep s event).stage = (sysStep s.system call).stage) ∨
      asSystem (s, event) = none ∧
        ((loopStep s event).phase = .left ∨
          (loopStep s event).maps = s.maps ∧ (loopStep s event).cacheHead = s.cacheHead ∧
            (loopStep s event).stage = s.stage) := by
  cases event with
  | sighup => exact Or.inr ⟨rfl, Or.inr ⟨rfl, rfl, rfl⟩⟩
  | terminate => exact Or.inr ⟨rfl, Or.inr ⟨rfl, rfl, rfl⟩⟩
  | iterate now file opens =>
      refine Or.inr ⟨rfl, Or.inr ?_⟩
      rw [loopStep]
      split
      · exact ⟨rfl, rfl, rfl⟩
      · exact ⟨rfl, rfl, rfl⟩
  | leave unlinks =>
      refine Or.inr ⟨rfl, ?_⟩
      rw [loopStep]
      split
      · exact Or.inl rfl
      · exact Or.inr ⟨rfl, rfl, rfl⟩
  | sys call =>
      rw [loopStep]
      split
      · rename_i able
        exact Or.inl ⟨call, if_pos able, rfl, rfl, rfl⟩
      · rename_i unable
        exact Or.inr ⟨if_neg unable, Or.inr ⟨rfl, rfl, rfl⟩⟩

/-- Out of the loop nothing is reported. -/
theorem left_step (meter : Meter) (ip : UInt32) (atLookup : Mark) (gone : s.phase = .left)
    (event : LoopEvent) :
    (loopStep s event).phase = .left ∧ ownRate meter ip atLookup (s, event) = none := by
  cases event with
  | sighup => exact ⟨gone, rfl⟩
  | terminate => exact ⟨gone, rfl⟩
  | iterate now file opens =>
      refine ⟨?_, rfl⟩
      rw [loopStep, if_neg (by simp [gone])]
      exact gone
  | leave unlinks =>
      refine ⟨?_, rfl⟩
      rw [loopStep, if_neg (by simp [gone])]
      exact gone
  | sys call =>
      cases call with
      | data change => exact ⟨gone, rfl⟩
      | _ => simp [loopStep, enabled, ownRate, asSystem, gone]

theorem rates_left (gone : s.phase = .left) (events : List LoopEvent) :
    rates meter ip mark atLookup (steps loopStep s events) = [] := by
  induction events generalizing s mark atLookup with
  | nil => rfl
  | cons event rest ih =>
      obtain ⟨stays, silent⟩ := left_step meter ip atLookup gone event
      rw [steps_cons, rates, silent, Option.toList_none, List.nil_append]
      split
      · exact ih stays
      · exact ih stays

theorem isChain_toList {α : Type*} {R : α → α → Prop} (last : Option α) :
    List.IsChain R last.toList := by
  cases last with
  | none => exact List.IsChain.nil
  | some a => exact List.IsChain.singleton a

/-- **Run lemma.** Consecutive reports of a run are linked, from the last report
before it on. -/
theorem rates_linked {events : List LoopEvent} {last : Option Rate} (holds : Holds g s)
    (seen : s.phase ≠ .left → Seen meter ip s.system mark atLookup (last.map Rate.read)) :
    List.IsChain Rate.Linked
      (last.toList ++ rates meter ip mark atLookup (steps loopStep s events)) := by
  induction events generalizing s mark atLookup last with
  | nil =>
      rw [steps_nil, rates, List.append_nil]
      exact isChain_toList last
  | cons event rest ih =>
      by_cases gone : s.phase = .left
      · rw [rates_left gone, List.append_nil]
        exact isChain_toList last
      have next := holds.step event
      have here := seen gone
      rw [steps_cons, rates, ownRate]
      rcases loopStep_cases s event with ⟨call, makes, maps, cacheHead, stage⟩ |
        ⟨idle, leaves | ⟨maps, cacheHead, stage⟩⟩
      · obtain ⟨silent, reports⟩ := here.step call
        rw [makes]
        dsimp only [Option.bind_some]
        cases own : ownReport ip (s.system, call) with
        | none => exact ih next fun _ => (silent own).congr maps cacheHead stage
        | some r =>
            obtain ⟨seen', linked⟩ := reports r own
            let rate : Rate :=
              { time := s.now
                interval := s.globals.cfg.statsIntervalSec
                read := ⟨(total meter r).toNat, atLookup⟩
                perSec := (perSec meter r).toNat }
            have chain := ih next (show _ → Seen meter ip (loopStep s event).system _ _
              (Option.map Rate.read (some rate)) from fun _ => seen'.congr maps cacheHead stage)
            cases last with
            | none => exact chain
            | some a =>
                obtain ⟨wraps, perSecond⟩ := linked a.read rfl
                refine List.isChain_cons_cons.mpr ⟨⟨?_, wraps, ?_⟩, chain⟩
                · exact Int.lt_of_lt_of_le Int.zero_lt_one holds.sound.interval.1
                · rw [← toNat_divisor holds.sound.interval]
                  exact perSecond
      · rw [idle]
        exact ih next fun stays => absurd leaves stays
      · rw [idle]
        exact ih next fun _ => here.congr maps cacheHead stage

end Run

/-- **The rates that the loader reports.** In every run of the main loop, for
packets and for bytes: every rate is that of what was counted over what has
elapsed exactly when consecutive reports fit, and it is so when they are
timely. -/
theorem reported_rates_iff {me : ι} {os : Answers} {options : List CliOption}
    {files : List UInt8 → ConfigFile} {names : Names ι} {g : Globals ι}
    (up : startUp me os options files names = .running g) (maps : Maps)
    (events : List LoopEvent) (meter : Meter) (ip : UInt32) :
    let reports := rates meter ip ⟨0, 0⟩ ⟨0, 0⟩ (steps loopStep (.enter g maps) events)
    (List.IsChain Rate.IsRate reports ↔ List.IsChain Rate.Fits reports) ∧
      (List.IsChain Rate.Timely reports → List.IsChain Rate.IsRate reports) := by
  intro reports
  obtain ⟨attached, sound, -⟩ := startUp_running up
  have start : Seen meter ip (LoopState.enter g maps).system ⟨0, 0⟩ ⟨0, 0⟩ none :=
    ⟨tracks_start rfl rfl, fun _ held => (nomatch held), fun _ pends => (nomatch pends)⟩
  have linked : List.IsChain Rate.Linked ((none : Option Rate).toList ++ reports) :=
    rates_linked (holds_enter attached sound maps) fun _ => start
  rw [Option.toList_none, List.nil_append] at linked
  simp only [List.isChain_iff_forall_rel_of_append_cons_cons] at linked ⊢
  refine ⟨?_, ?_⟩
  · constructor
    · intro right a b before after split
      exact (Rate.isRate_iff_fits (linked split)).mp (right split)
    · intro fits a b before after split
      exact (Rate.isRate_iff_fits (linked split)).mpr (fits split)
  · intro timely a b before after split
    exact (timely split).isRate (linked split)

/-- A packet from 10.0.0.1 to 10.0.0.2. -/
def flowPacket : LoopEvent :=
  .sys (.data (.packet 0 (Frame.ofTcp ⟨10, 0, 0, 1⟩ ⟨10, 0, 0, 2⟩ 0 80 0x10) (.ready 0)))

/-- An iteration at a time, with a pass that reports 10.0.0.1. -/
def passAt (now : ℤ) : List LoopEvent :=
  [.iterate now .missing true, .sys (.firstKey (some (Quad.le ⟨10, 0, 0, 1⟩))), .sys .lookupElem,
    .sys (.reportFlowRate true (Int64.ofInt now)), .sys (.nextKey none)]

/-- Five packets between two passes, the second of them one second late. -/
def latePass : List LoopEvent :=
  flowPacket :: passAt 100 ++ List.replicate 5 flowPacket ++ passAt 106

/-- Five packets in six seconds are reported as one packet per second. -/
theorem late_pass_misreports :
    ¬ List.IsChain Rate.IsRate
      (rates .packets (Quad.le ⟨10, 0, 0, 1⟩) ⟨0, 0⟩ ⟨0, 0⟩
        (steps loopStep firstLoader latePass)) := by
  have reports : rates .packets (Quad.le ⟨10, 0, 0, 1⟩) ⟨0, 0⟩ ⟨0, 0⟩
      (steps loopStep firstLoader latePass) =
        [⟨100, 5, ⟨1, 1, 0⟩, 0⟩, ⟨106, 5, ⟨6, 6, 0⟩, 1⟩] := by
    decide +kernel
  rw [reports, List.isChain_pair]
  intro right
  have claimed := right ⟨by decide, rfl⟩
  revert claimed
  decide

/-- Two passes an interval apart. -/
theorem reported_rates_timely :
    List.IsChain Rate.IsRate (rates .packets (Quad.le ⟨10, 0, 0, 1⟩) ⟨0, 0⟩ ⟨0, 0⟩
      (steps loopStep firstLoader (flowPacket :: passAt 100 ++ flowPacket :: passAt 105))) := by
  have reports : rates .packets (Quad.le ⟨10, 0, 0, 1⟩) ⟨0, 0⟩ ⟨0, 0⟩
      (steps loopStep firstLoader (flowPacket :: passAt 100 ++ flowPacket :: passAt 105)) =
        [⟨100, 5, ⟨1, 1, 0⟩, 0⟩, ⟨105, 5, ⟨2, 2, 0⟩, 0⟩] := by
    decide +kernel
  have timely : List.IsChain Rate.Timely (rates .packets (Quad.le ⟨10, 0, 0, 1⟩) ⟨0, 0⟩ ⟨0, 0⟩
      (steps loopStep firstLoader (flowPacket :: passAt 100 ++ flowPacket :: passAt 105))) := by
    rw [reports, List.isChain_pair]
    exact fun _ => ⟨by decide, by decide⟩
  exact (reported_rates_iff firstLoader_running Maps.empty _ .packets _).2 timely

end EbpfNids.Loader
