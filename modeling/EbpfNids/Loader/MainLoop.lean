import EbpfNids.Loader.StatsPass
import EbpfNids.Loader.StartUp

/-!
# The main loop

An iteration of the loop of `main` reads the clock, reloads the configuration if
a SIGHUP has asked for it, and starts a pass over `flow_stats` if the interval
has passed since the last one. Signals, packets and the map cleaner come at any
time. The calls of a pass are those of `sysStep`, with the interval of the
configuration as it is at each of them.

A reload takes over the interval, the daemon flag and the log file of an
accepted file, and nothing else (`reload_cases`). So at any exit `cleanup` finds
in the configuration what the start has attached and bound
(`configuration_kept`).
-/

set_option autoImplicit false

namespace EbpfNids.Loader

open Library Library.Runs EbpfNids.DataPlane
open scoped CharArray

variable {ι : Type*}

/-! ## The reload -/

/-- What a running loader cannot change is put back to what it was. -/
def revertFixed (cfg newCfg : AppConfig) : AppConfig :=
  let newCfg :=
    if newCfg.ifname ≠ cfg.ifname ∨ newCfg.xdpFlags ≠ cfg.xdpFlags then
      { newCfg with ifname := .print cfg.ifname.bytes, xdpFlags := cfg.xdpFlags }
    else newCfg
  if newCfg.socketPath ≠ cfg.socketPath then
    { newCfg with socketPath := .print cfg.socketPath.bytes }
  else newCfg

/-- The reload, and why it is rejected, if it is. -/
def reloadConfigRuntime (file : ConfigFile) (opens : Bool) (g : Globals ι) :
    Globals ι × Option ConfigError :=
  match loadConfigFile file g.cfg with
  | (_, some e) => (g, some e)
  | (newCfg, none) =>
      let newCfg := revertFixed g.cfg newCfg
      let cfg :=
        { g.cfg with
          statsIntervalSec := newCfg.statsIntervalSec, daemonMode := newCfg.daemonMode }
      if newCfg.logFile ≠ cfg.logFile then
        let cfg := { cfg with logFile := .print newCfg.logFile.bytes }
        (({ g with cfg := cfg }.openLogFile opens).1, none)
      else ({ g with cfg := cfg }, none)

theorem revertFixed_eq (cfg newCfg : AppConfig) :
    revertFixed cfg newCfg =
      { newCfg with
        ifname := cfg.ifname, xdpFlags := cfg.xdpFlags, socketPath := cfg.socketPath } := by
  have fixed : (if newCfg.ifname ≠ cfg.ifname ∨ newCfg.xdpFlags ≠ cfg.xdpFlags then
      { newCfg with ifname := .print cfg.ifname.bytes, xdpFlags := cfg.xdpFlags }
      else newCfg) = { newCfg with ifname := cfg.ifname, xdpFlags := cfg.xdpFlags } := by
    split
    · rw [CharArray.print_bytes]
    · rename_i same
      rw [not_or, not_not, not_not] at same
      rw [← same.1, ← same.2]
  rw [revertFixed, fixed]
  dsimp only
  split
  · rw [CharArray.print_bytes]
  · rename_i same
    rw [not_not] at same
    rw [← same]

/-- **What a reload can do**: nothing when the file is rejected, and otherwise
take over the interval, the daemon flag and the log file. -/
theorem reload_cases (file : ConfigFile) (opens : Bool) (g : Globals ι) :
    (∃ e, reloadConfigRuntime file opens g = (g, some e) ∧
        (loadConfigFile file g.cfg).2 = some e) ∨
      (loadConfigFile file g.cfg).2 = none ∧ ∃ logFp,
        reloadConfigRuntime file opens g =
          ({ g with
            cfg := { g.cfg with
              statsIntervalSec := (loadConfigFile file g.cfg).1.statsIntervalSec
              daemonMode := (loadConfigFile file g.cfg).1.daemonMode
              logFile := (loadConfigFile file g.cfg).1.logFile }
            logFp := logFp }, none) := by
  rw [reloadConfigRuntime]
  obtain ⟨newCfg, rejected⟩ := loadConfigFile file g.cfg
  cases rejected with
  | some e => exact Or.inl ⟨e, rfl, rfl⟩
  | none =>
      refine Or.inr ⟨rfl, ?_⟩
      dsimp only
      rw [revertFixed_eq]
      split
      · rw [CharArray.print_bytes, openLogFile_eq]
        exact ⟨_, rfl⟩
      · rename_i same
        rw [not_not] at same
        rw [same]
        exact ⟨g.logFp, rfl⟩

/-! ## The loop -/

/-- Where `main` is: at the top of its loop, in a pass, or past its `cleanup`. -/
inductive Phase where
  | waiting
  | passing
  | left
deriving DecidableEq, Repr

structure LoopState (ι : Type*) where
  globals : Globals ι
  cacheHead : List IpCache
  exiting : Bool
  reloadRequested : Bool
  lastStatsTs : ℤ
  now : ℤ
  phase : Phase
  stage : Stage
  maps : Maps

/-- `main` before its loop. -/
def LoopState.enter (g : Globals ι) (maps : Maps) : LoopState ι where
  globals := g
  cacheHead := []
  exiting := false
  reloadRequested := false
  lastStatsTs := 0
  now := 0
  phase := .waiting
  stage := .idle
  maps := maps

/-- The maps and the pass, as they are between two calls. -/
def LoopState.system (s : LoopState ι) : System where
  maps := s.maps
  cacheHead := s.cacheHead
  stage := s.stage
  statsIntervalSec := s.globals.cfg.statsIntervalSec

/-- A signal, the top of the loop with what the clock and the configuration file
give, or a step of the data plane or of a pass. -/
inductive LoopEvent where
  | sighup
  | terminate
  | iterate (now : ℤ) (file : ConfigFile) (opens : Bool)
  | leave (unlinks : Bool)
  | sys (event : SysEvent)
deriving DecidableEq, Repr

/-- The step of a pass can be made, or is one of the data plane. -/
def enabled (s : LoopState ι) (event : SysEvent) : Bool :=
  match event with
  | .data _ => true
  | _ => s.phase == .passing

/-- There is no further key. -/
def passEnds (s : LoopState ι) (event : SysEvent) : Bool :=
  match event, s.stage with
  | .firstKey none, .idle => true
  | .nextKey none, .next _ => true
  | _, _ => false

def loopStep (s : LoopState ι) (event : LoopEvent) : LoopState ι :=
  match event with
  | .sighup => { s with reloadRequested := true }
  | .terminate => { s with exiting := true }
  | .iterate now file opens =>
      if s.phase = .waiting ∧ s.exiting = false then
        let globals :=
          if s.reloadRequested then (reloadConfigRuntime file opens s.globals).1 else s.globals
        { s with
          globals := globals
          reloadRequested := false
          now := now
          phase :=
            if now - s.lastStatsTs ≥ globals.cfg.statsIntervalSec then .passing else .waiting }
      else s
  | .leave unlinks =>
      if s.phase = .waiting ∧ s.exiting = true then
        { s with globals := s.globals.cleanup unlinks, cacheHead := [], phase := .left }
      else s
  | .sys event =>
      if enabled s event then
        let sys := sysStep s.system event
        { s with
          maps := sys.maps
          cacheHead := sys.cacheHead
          stage := sys.stage
          phase := if passEnds s event then .waiting else s.phase
          lastStatsTs := if passEnds s event then s.now else s.lastStatsTs }
      else s

/-! ## What every run keeps -/

/-- The step reloads the configuration and the file is rejected. -/
def Rejects (p : LoopState ι × LoopEvent) : Prop :=
  match p.2 with
  | .iterate _ file _ =>
      p.1.phase = .waiting ∧ p.1.exiting = false ∧ p.1.reloadRequested = true ∧
        (loadConfigFile file p.1.globals.cfg).2.isSome = true
  | _ => False

instance : (p : LoopState ι × LoopEvent) → Decidable (Rejects p)
  | (s, .iterate _ file _) =>
      inferInstanceAs (Decidable (s.phase = .waiting ∧ s.exiting = false ∧
        s.reloadRequested = true ∧ (loadConfigFile file s.globals.cfg).2.isSome = true))
  | (_, .sighup) => isFalse not_false
  | (_, .terminate) => isFalse not_false
  | (_, .leave _) => isFalse not_false
  | (_, .sys _) => isFalse not_false

/-- What a state of the loop keeps of the globals with which `main` has entered
it. The record holds three calls until `cleanup`, and then the whole session. -/
structure Kept (g : Globals ι) (s : LoopState ι) : Prop where
  ifname : s.globals.cfg.ifname = g.cfg.ifname
  xdpFlags : s.globals.cfg.xdpFlags = g.cfg.xdpFlags
  socketPath : s.globals.cfg.socketPath = g.cfg.socketPath
  interval : 1 ≤ s.globals.cfg.statsIntervalSec ∧ s.globals.cfg.statsIntervalSec ≤ 3600
  divisor : divisor s.globals.cfg.statsIntervalSec ≠ 0
  calls : s.globals.calls =
    if s.phase = .left then session g.cfg.socketPath.bytes g.ifindex g.cfg.xdpFlags
    else (session g.cfg.socketPath.bytes g.ifindex g.cfg.xdpFlags).take 3

theorem toNat_divisor {n : ℤ} (interval : 1 ≤ n ∧ n ≤ 3600) :
    (divisor n).toNat = n.toNat := by
  rw [divisor, if_pos (by omega), UInt64.toNat_ofNat_of_lt']
  have : UInt64.size = 2 ^ 64 := rfl
  omega

/-- The invariant of the loop. -/
structure Holds (g : Globals ι) (s : LoopState ι) : Prop where
  ifname : s.globals.cfg.ifname = g.cfg.ifname
  xdpFlags : s.globals.cfg.xdpFlags = g.cfg.xdpFlags
  socketPath : s.globals.cfg.socketPath = g.cfg.socketPath
  sound : s.globals.cfg.Sound
  running : s.phase ≠ .left → Attached s.globals
  ifindex : s.phase ≠ .left → s.globals.ifindex = g.ifindex
  names : s.phase ≠ .left → s.globals.names = g.names
  left : s.phase = .left →
    s.globals.calls = session g.cfg.socketPath.bytes g.ifindex g.cfg.xdpFlags

theorem Holds.kept {g : Globals ι} {s : LoopState ι} (holds : Holds g s) : Kept g s where
  ifname := holds.ifname
  xdpFlags := holds.xdpFlags
  socketPath := holds.socketPath
  interval := holds.sound.interval
  divisor := by
    intro zero
    have value := toNat_divisor holds.sound.interval
    have := holds.sound.interval
    rw [zero] at value
    have : (0 : UInt64).toNat = 0 := rfl
    omega
  calls := by
    split
    · rename_i here
      exact holds.left here
    · rename_i here
      rw [(holds.running here).calls, holds.socketPath, holds.ifindex here, holds.xdpFlags]
      rfl

theorem holds_enter {g : Globals ι} (attached : Attached g) (sound : g.cfg.Sound) (maps : Maps) :
    Holds g (.enter g maps) :=
  ⟨rfl, rfl, rfl, sound, fun _ => attached, fun _ => rfl, fun _ => rfl, fun left => (nomatch left)⟩

/-- A step that changes neither the globals nor whether the loop has been left. -/
theorem Holds.of_globals {g : Globals ι} {s s' : LoopState ι} (holds : Holds g s)
    (globals : s'.globals = s.globals) (phase : s'.phase = .left ↔ s.phase = .left) :
    Holds g s' := by
  obtain ⟨ifname, xdpFlags, socketPath, sound, running, ifindex, names, left⟩ := holds
  rw [← globals] at ifname xdpFlags socketPath sound running ifindex names left
  have before : s'.phase ≠ .left → s.phase ≠ .left := mt phase.mpr
  exact ⟨ifname, xdpFlags, socketPath, sound, fun stays => running (before stays),
    fun stays => ifindex (before stays), fun stays => names (before stays),
    fun gone => left (phase.mp gone)⟩

/-- A reload of a running loader. -/
theorem Holds.reload {g : Globals ι} {s : LoopState ι} (holds : Holds g s)
    (running : s.phase ≠ .left) (file : ConfigFile) (opens : Bool) :
    Holds g { s with globals := (reloadConfigRuntime file opens s.globals).1 } := by
  rcases reload_cases file opens s.globals with ⟨e, rejected, -⟩ | ⟨-, logFp, accepted⟩
  · rw [rejected]
    exact holds
  · rw [accepted]
    have attached := holds.running running
    exact ⟨holds.ifname, holds.xdpFlags, holds.socketPath,
      ⟨(loadConfigFile_sound file holds.sound).interval, holds.sound.noexist⟩,
      fun _ => ⟨attached.attached, attached.index, attached.serving, attached.calls⟩,
      holds.ifindex, holds.names, fun left => absurd left running⟩

theorem startPass_ne_left (due : Prop) [Decidable due] :
    (if due then Phase.passing else Phase.waiting) ≠ .left := by
  split
  · exact Phase.noConfusion
  · exact Phase.noConfusion

/-- Only a pass ends. -/
theorem passing_of_passEnds {s : LoopState ι} {event : SysEvent} (able : enabled s event = true)
    (ends : passEnds s event = true) : s.phase = .passing := by
  cases event with
  | data change => cases ends
  | _ => exact of_decide_eq_true able

/-- **Step lemma.** -/
theorem Holds.step {g : Globals ι} {s : LoopState ι} (holds : Holds g s) (event : LoopEvent) :
    Holds g (loopStep s event) := by
  cases event with
  | sighup => exact holds.of_globals rfl Iff.rfl
  | terminate => exact holds.of_globals rfl Iff.rfl
  | iterate now file opens =>
      rw [loopStep]
      split
      · rename_i top
        have running : s.phase ≠ .left := by simp [top.1]
        have reloaded : Holds g { s with globals :=
            if s.reloadRequested then (reloadConfigRuntime file opens s.globals).1
            else s.globals } := by
          split
          · exact holds.reload running file opens
          · exact holds
        exact reloaded.of_globals rfl (iff_of_false (startPass_ne_left _) running)
      · exact holds
  | leave unlinks =>
      rw [loopStep]
      split
      · rename_i exits
        have running : s.phase ≠ .left := by simp [exits.1]
        refine ⟨?_, ?_, ?_, ?_, fun stays => absurd rfl stays, fun stays => absurd rfl stays,
          fun stays => absurd rfl stays, ?_⟩
        · rw [cleanup_cfg, holds.ifname]
        · rw [cleanup_cfg, holds.xdpFlags]
        · rw [cleanup_cfg, holds.socketPath]
        · rw [cleanup_cfg]
          exact holds.sound
        · intro _
          rw [(holds.running running).cleanup, holds.socketPath, holds.ifindex running,
            holds.xdpFlags]
      · exact holds
  | sys event =>
      rw [loopStep]
      split
      · rename_i able
        refine holds.of_globals rfl ?_
        dsimp only
        split
        · rename_i ends
          rw [passing_of_passEnds able ends]
          simp
        · exact Iff.rfl
      · exact holds

/-- A rejected reload changes nothing of the globals. -/
theorem rejects_step {p : LoopState ι × LoopEvent} (rejects : Rejects p) :
    (loopStep p.1 p.2).globals = p.1.globals := by
  obtain ⟨s, event⟩ := p
  cases event with
  | iterate now file opens =>
      obtain ⟨waiting, stays, requested, rejected⟩ := rejects
      rw [loopStep, if_pos ⟨waiting, stays⟩]
      dsimp only at requested ⊢
      rw [if_pos requested]
      rcases reload_cases file opens s.globals with ⟨e, kept, -⟩ | ⟨accepted, -⟩
      · rw [kept]
      · rw [accepted] at rejected
        cases rejected
  | _ => cases rejects

/-- **Run lemma.** -/
theorem holds_run {me : ι} {os : Answers} {options : List CliOption}
    {files : List UInt8 → ConfigFile} {names : Names ι} {g : Globals ι}
    (up : startUp me os options files names = .running g) (maps : Maps)
    (events : List LoopEvent) : Holds g (exec loopStep (.enter g maps) events) := by
  obtain ⟨attached, sound, -⟩ := startUp_running up
  exact exec_invariant (holds_enter attached sound maps) fun p _ holds => holds.step p.2

/-- **The configuration over whole runs.** Whatever the command line, the file,
the answers of the kernel, and the events of the loop, with any file at each
reload: a start that fails after its attach has made the calls of a session when
`main` returns, a run of the loop keeps what it was entered with, and a rejected
reload changes nothing. -/
theorem configuration_kept (me : ι) (os : Answers) (options : List CliOption)
    (files : List UInt8 → ConfigFile) (names : Names ι) :
    match startUp me os options files names with
    | .exited _ g =>
        (1 ≤ g.cfg.statsIntervalSec ∧ g.cfg.statsIntervalSec ≤ 3600) ∧
          ∀ ifindex flags, .attachXdp ifindex flags true ∈ g.calls →
            g.calls = session g.cfg.socketPath.bytes ifindex flags
    | .running g =>
        ∀ maps events,
          Kept g (exec loopStep (.enter g maps) events) ∧
            ∀ p ∈ steps loopStep (.enter g maps) events, Rejects p →
              (loopStep p.1 p.2).globals = p.1.globals := by
  split
  · rename_i down
    obtain ⟨sound, attached⟩ := startUp_exited down
    exact ⟨sound.interval, fun ifindex flags member => (attached ifindex flags member).2⟩
  · rename_i g up
    intro maps events
    exact ⟨(holds_run up maps events).kept, fun p _ => rejects_step⟩

/-- A loader that has been started with no options and no file, at its loop. -/
def firstLoader : LoopState ℕ :=
  .enter (plainStart 0 .allGood fun _ => none).globals Maps.empty

theorem firstLoader_running :
    plainStart 0 .allGood (fun _ => none) = .running firstLoader.globals :=
  rfl

/-- A reload of a file with the interval 9, one of a file with the interval 0, and
the exit. -/
def reloadsThenExit : List LoopEvent :=
  [.sighup, .iterate 1 (.contents (chars "stats_interval_sec=9\n")) true,
    .sys (.firstKey none), .sighup,
    .iterate 2 (.contents (chars "stats_interval_sec=0\n")) true, .terminate, .leave true]

/-- The first file is accepted and the second rejected, and `cleanup` makes the
calls of the session. -/
theorem configuration_kept_reloads :
    let exited := exec loopStep firstLoader reloadsThenExit
    Kept firstLoader.globals exited ∧ exited.phase = .left ∧
      exited.globals.cfg.statsIntervalSec = 9 ∧
      (steps loopStep firstLoader reloadsThenExit).countP (fun p => Rejects p) = 1 := by
  intro exited
  have started := configuration_kept 0 .allGood [] (fun _ => .missing) fun _ => none
  rw [show startUp 0 .allGood [] (fun _ => .missing) (fun _ => none) =
    .running firstLoader.globals from firstLoader_running] at started
  exact ⟨(started Maps.empty reloadsThenExit).1, by decide +kernel, by decide +kernel,
    by decide +kernel⟩

end EbpfNids.Loader
