import EbpfNids.Loader.ConfigGrammar
import EbpfNids.Loader.MainLoop

/-!
# Reloading and restarting

A start makes the configuration from the defaults, the file and the options, in
this order. A reload starts from the configuration that is in force and applies
only the file. So a reload leaves the settings of a restart exactly when the
file assigns them, or what was in force is what a restart falls back to
(`reload_agrees_iff`).

A reload that takes over a new log path closes the stream before it opens the
new one, and does not look whether that has worked. So it takes full effect, or
none, unless the new path cannot be opened (`reload_all_or_nothing_iff`).
-/

set_option autoImplicit false

namespace EbpfNids.Loader

open scoped CharArray

variable {ι : Type*}

/-- The settings that a reload takes over. -/
@[ext]
structure HotSettings where
  statsIntervalSec : ℤ
  logFile : CharArray 256
  daemonMode : Bool
deriving DecidableEq, Repr

def AppConfig.hot (c : AppConfig) : HotSettings := ⟨c.statsIntervalSec, c.logFile, c.daemonMode⟩

/-- SIGHUPs one after the other, each with the file that is read and whether the
log file can be opened. -/
def reloadAll (g : Globals ι) (reloads : List (ConfigFile × Bool)) : Globals ι :=
  reloads.foldl (fun g reload => (reloadConfigRuntime reload.1 reload.2 g).1) g

/-- The settings are those of a loader started with the options and the file. -/
def AgreesWithRestart (options : List CliOption) (file : ConfigFile) (g : Globals ι) : Prop :=
  ∃ path cfg, configure options (fun _ => file) = .ok (path, cfg) ∧ g.cfg.hot = cfg.hot

/-- The parser accepts the file. -/
def ConfigFile.Accepted (file : ConfigFile) : Prop := (loadConfigFile file configDefaults).2 = none

/-- The last value that the file assigns to a setting. -/
def ConfigFile.assigns {α : Type*} (file : ConfigFile) (setting : Settings → Option α) :
    Option α :=
  file.settings.bind setting

/-- The last value that some files assign to a setting, one file after the
other. -/
def lastAssigned {α : Type*} (setting : Settings → Option α) (files : List ConfigFile) :
    Option α :=
  (files.filterMap (·.assigns setting)).getLast?

/-- The last file assigns a setting, or what the earlier ones have left of it is
what a restart falls back to. A restart with `-d` falls back to the daemon mode,
and takes no other. -/
structure NothingLeftOver (dashD : Bool) (first : ConfigFile) (between : List ConfigFile)
    (last : ConfigFile) : Prop where
  interval : last.assigns (·.statsIntervalSec) = none →
    (lastAssigned (·.statsIntervalSec) (first :: between)).getD configDefaults.statsIntervalSec =
      configDefaults.statsIntervalSec
  logFile : last.assigns (·.logFile) = none →
    (lastAssigned (·.logFile) (first :: between)).getD configDefaults.logFile =
      configDefaults.logFile
  daemonKept : last.assigns (·.daemonMode) = none →
    (lastAssigned (·.daemonMode) between).getD
      (dashD || (first.assigns (·.daemonMode)).getD false) = dashD
  daemonAssigned : ∀ on, last.assigns (·.daemonMode) = some on → dashD = true → on = true

/-! ## What a start and a reload leave -/

theorem ConfigFile.accepted_iff (file : ConfigFile) :
    file.Accepted ↔ ∃ s, file.settings = some s := by
  have loaded := loadConfigFile_settings file configDefaults
  rw [ConfigFile.Accepted]
  cases settings : file.settings with
  | none =>
      rw [settings] at loaded
      exact iff_of_false loaded (fun ⟨_, impossible⟩ => nomatch impossible)
  | some s =>
      rw [settings] at loaded
      exact iff_of_true (by rw [loaded]) ⟨s, rfl⟩

theorem ConfigFile.assigns_of_settings {file : ConfigFile} {s : Settings}
    (settings : file.settings = some s) {α : Type*} (setting : Settings → Option α) :
    file.assigns setting = setting s := by
  rw [ConfigFile.assigns, settings, Option.bind_some]

/-- A reload takes what the file assigns. -/
theorem reload_hot {file : ConfigFile} {s : Settings} (settings : file.settings = some s)
    (opens : Bool) (g : Globals ι) :
    (reloadConfigRuntime file opens g).1.cfg.hot = (s.applied g.cfg).hot := by
  have loaded := loadConfigFile_settings file g.cfg
  rw [settings] at loaded
  rcases reload_cases file opens g with ⟨e, -, rejected⟩ | ⟨-, logFp, accepted⟩
  · rw [loaded] at rejected
    cases rejected
  · rw [accepted, loaded]
    rfl

/-- What the settings are after the reloads, one by one. -/
theorem reloadAll_setting {α : Type*} (setting : Settings → Option α) (read : AppConfig → α)
    (applies : ∀ (s : Settings) (c : AppConfig),
      read (s.applied c) = (setting s).getD (read c))
    (ofHot : ∀ c c' : AppConfig, c.hot = c'.hot → read c = read c')
    {reloads : List (ConfigFile × Bool)} (accepted : ∀ reload ∈ reloads, reload.1.Accepted)
    (g : Globals ι) :
    read (reloadAll g reloads).cfg =
      (lastAssigned setting (reloads.map Prod.fst)).getD (read g.cfg) := by
  induction reloads generalizing g with
  | nil => rfl
  | cons reload rest ih =>
      obtain ⟨s, settings⟩ := reload.1.accepted_iff.mp (accepted _ List.mem_cons_self)
      have step : read (reloadConfigRuntime reload.1 reload.2 g).1.cfg =
          (setting s).getD (read g.cfg) :=
        (ofHot _ _ (reload_hot settings reload.2 g)).trans (applies s g.cfg)
      have assigns : reload.1.assigns setting = setting s :=
        ConfigFile.assigns_of_settings settings setting
      have later := ih (fun reload member => accepted reload (List.mem_cons_of_mem _ member))
        (reloadConfigRuntime reload.1 reload.2 g).1
      rw [step, lastAssigned] at later
      rw [reloadAll, List.foldl_cons, ← reloadAll, later, lastAssigned, List.map_cons,
        List.filterMap_cons, assigns]
      cases setting s with
      | none => rfl
      | some v =>
          dsimp only
          rw [List.getLast?_cons, Option.getD_some, Option.getD_some]

theorem lastAssigned_append {α : Type*} (setting : Settings → Option α) (files : List ConfigFile)
    (last : ConfigFile) :
    lastAssigned setting (files ++ [last]) =
      (last.assigns setting).or (lastAssigned setting files) := by
  rw [lastAssigned, List.filterMap_append, List.getLast?_append, List.filterMap_cons]
  cases last.assigns setting with
  | none => rfl
  | some v => rfl

/-- What a setting is when the last of the reloads is over. -/
theorem reloadAll_append_setting {α : Type*} (setting : Settings → Option α)
    (read : AppConfig → α)
    (applies : ∀ (s : Settings) (c : AppConfig),
      read (s.applied c) = (setting s).getD (read c))
    (ofHot : ∀ c c' : AppConfig, c.hot = c'.hot → read c = read c')
    {between : List (ConfigFile × Bool)} (accepted : ∀ reload ∈ between, reload.1.Accepted)
    {last : ConfigFile} (lastAccepted : last.Accepted) (opens : Bool) (g : Globals ι) :
    read (reloadAll g (between ++ [(last, opens)])).cfg =
      ((last.assigns setting).or (lastAssigned setting (between.map Prod.fst))).getD
        (read g.cfg) := by
  have all : ∀ reload ∈ between ++ [(last, opens)], reload.1.Accepted := by
    intro reload member
    rcases List.mem_append.mp member with earlier | now
    · exact accepted reload earlier
    · rw [List.mem_singleton.mp now]
      exact lastAccepted
  rw [reloadAll_setting setting read applies ofHot all, List.map_append, List.map_singleton,
    lastAssigned_append]

theorem lastAssigned_cons {α : Type*} (setting : Settings → Option α) (first : ConfigFile)
    (files : List ConfigFile) :
    lastAssigned setting (first :: files) =
      (lastAssigned setting files).or (first.assigns setting) := by
  rw [lastAssigned, List.filterMap_cons, lastAssigned]
  cases first.assigns setting with
  | none => rw [Option.or_none]
  | some v =>
      dsimp only
      rw [List.getLast?_cons]
      cases (files.filterMap (·.assigns setting)).getLast? with
      | none => rfl
      | some w => rfl

theorem cliDaemon_of_parseOptions {options : List CliOption} {cli cli' : Cli}
    (parsed : parseOptions cli options = .ok cli') :
    cli'.cliDaemon = (cli.cliDaemon || decide (.d ∈ options)) := by
  induction options generalizing cli with
  | nil =>
      cases parsed
      simp
  | cons option rest ih =>
      cases option with
      | c optarg => rw [ih parsed]; simp
      | i optarg => rw [ih parsed]; simp
      | d => rw [ih parsed]; simp
      | h => cases parsed
      | unknown => cases parsed

/-- The settings after a start. -/
theorem hot_of_configure {options : List CliOption} {file : ConfigFile} {path : CharArray 256}
    {cfg : AppConfig} (configured : configure options (fun _ => file) = .ok (path, cfg)) :
    cfg.hot =
      ⟨(file.assigns (·.statsIntervalSec)).getD configDefaults.statsIntervalSec,
        (file.assigns (·.logFile)).getD configDefaults.logFile,
        decide (.d ∈ options) || (file.assigns (·.daemonMode)).getD false⟩ := by
  rw [configure] at configured
  cases parsed : parseOptions ⟨.print defaultConfigPath, .print [], false⟩ options with
  | error code => rw [parsed] at configured; cases configured
  | ok cli =>
      rw [parsed] at configured
      have dashD := cliDaemon_of_parseOptions parsed
      rw [Bool.false_or] at dashD
      have loaded := loadConfigFile_settings file configDefaults
      dsimp only at configured
      cases settings : file.settings with
      | none =>
          rw [settings] at loaded
          obtain ⟨e, rejected⟩ := Option.ne_none_iff_exists'.mp loaded
          cases load : loadConfigFile file configDefaults with
          | mk cfg' why =>
              rw [load] at rejected configured
              subst rejected
              cases configured
      | some s =>
          rw [settings] at loaded
          rw [loaded] at configured
          cases configured
          simp only [ConfigFile.assigns_of_settings settings, ← dashD]
          rfl

/-- An accepted file is accepted by a start with options that are. -/
theorem configure_of_accepted {options : List CliOption} {file other : ConfigFile}
    {path : CharArray 256} {cfg : AppConfig}
    (configured : configure options (fun _ => other) = .ok (path, cfg)) (accepted : file.Accepted) :
    ∃ path' cfg', configure options (fun _ => file) = .ok (path', cfg') := by
  rw [configure] at configured ⊢
  cases parsed : parseOptions ⟨.print defaultConfigPath, .print [], false⟩ options with
  | error code => rw [parsed] at configured; cases configured
  | ok cli =>
      obtain ⟨s, settings⟩ := file.accepted_iff.mp accepted
      have loaded := loadConfigFile_settings file configDefaults
      rw [settings] at loaded
      dsimp only
      rw [loaded]
      exact ⟨_, _, rfl⟩

theorem configure_of_running {me : ι} {os : Answers} {options : List CliOption}
    {files : List UInt8 → ConfigFile} {names : Names ι} {g : Globals ι}
    (started : startUp me os options files names = .running g) :
    ∃ path, configure options files = .ok (path, g.cfg) := by
  obtain ⟨-, -, -, reaches⟩ := startUp_running started
  rw [reachesServer] at reaches
  cases configured : configure options files with
  | error both => rw [configured] at reaches; cases reaches
  | ok both =>
      rw [configured] at reaches
      dsimp only at reaches
      split at reaches
      · cases reaches
      · split at reaches
        · rw [← Option.some.inj reaches]
          exact ⟨both.1, rfl⟩
        · cases reaches

/-! ## Reload and restart -/

/-- A setting that the last file, the files between and the first one assign, in
force and after a restart. -/
theorem leftOver_iff {α : Type*} (last between first : Option α) (fallback : α) :
    (last.or between).getD (first.getD fallback) = last.getD fallback ↔
      (last = none → (between.or first).getD fallback = fallback) := by
  cases last with
  | none =>
      have inForce : between.getD (first.getD fallback) = (between.or first).getD fallback := by
        cases between with
        | none => rfl
        | some v => rfl
      rw [Option.none_or, inForce]
      exact ⟨fun same _ => same, fun same => same rfl⟩
  | some v => exact iff_of_true rfl (fun impossible => nomatch impossible)

/-- The daemon mode, in force and after a restart. -/
theorem daemonLeftOver_iff (dashD : Bool) (last between first : Option Bool) :
    (last.or between).getD (dashD || first.getD false) = (dashD || last.getD false) ↔
      (last = none → between.getD (dashD || first.getD false) = dashD) ∧
        ∀ on, last = some on → dashD = true → on = true := by
  cases last with
  | none => simp
  | some on =>
      cases dashD with
      | false => simp
      | true => simp

/-- **Reload and restart.** After a start and any accepted reloads, the settings
are those of a restart with the last file exactly when nothing of the earlier
files is left over in them. -/
theorem reload_agrees_iff {me : ι} {os : Answers} {options : List CliOption} {first : ConfigFile}
    {names : Names ι} {g : Globals ι}
    (started : startUp me os options (fun _ => first) names = .running g)
    (between : List (ConfigFile × Bool)) (accepted : ∀ reload ∈ between, reload.1.Accepted)
    (last : ConfigFile) (opens : Bool) (lastAccepted : last.Accepted) :
    AgreesWithRestart options last (reloadAll g (between ++ [(last, opens)])) ↔
      NothingLeftOver (decide (.d ∈ options)) first (between.map Prod.fst) last := by
  obtain ⟨path, configured⟩ := configure_of_running started
  obtain ⟨path', fresh, restarted⟩ := configure_of_accepted configured lastAccepted
  have agrees : AgreesWithRestart options last (reloadAll g (between ++ [(last, opens)])) ↔
      (reloadAll g (between ++ [(last, opens)])).cfg.hot = fresh.hot := by
    constructor
    · rintro ⟨path'', cfg, again, same⟩
      rw [restarted] at again
      cases again
      exact same
    · exact fun same => ⟨path', fresh, restarted, same⟩
  -- What is in force after the reloads, setting by setting, and after the start.
  have interval := reloadAll_append_setting (·.statsIntervalSec) (·.statsIntervalSec)
    (fun _ _ => rfl) (fun _ _ same => congrArg HotSettings.statsIntervalSec same) accepted
    lastAccepted opens g
  have logFile := reloadAll_append_setting (·.logFile) (·.logFile)
    (fun _ _ => rfl) (fun _ _ same => congrArg HotSettings.logFile same) accepted
    lastAccepted opens g
  have daemonMode := reloadAll_append_setting (·.daemonMode) (·.daemonMode)
    (fun _ _ => rfl) (fun _ _ same => congrArg HotSettings.daemonMode same) accepted
    lastAccepted opens g
  have startInterval := congrArg HotSettings.statsIntervalSec (hot_of_configure configured)
  have startLogFile := congrArg HotSettings.logFile (hot_of_configure configured)
  have startDaemon := congrArg HotSettings.daemonMode (hot_of_configure configured)
  dsimp only [AppConfig.hot] at startInterval startLogFile startDaemon
  rw [agrees, hot_of_configure restarted, HotSettings.ext_iff]
  dsimp only [AppConfig.hot]
  rw [interval, logFile, daemonMode, startInterval, startLogFile, startDaemon, leftOver_iff,
    leftOver_iff, daemonLeftOver_iff, ← lastAssigned_cons, ← lastAssigned_cons]
  constructor
  · rintro ⟨intervalLeft, logFileLeft, daemonKept, daemonAssigned⟩
    exact ⟨intervalLeft, logFileLeft, daemonKept, daemonAssigned⟩
  · rintro ⟨intervalLeft, logFileLeft, daemonKept, daemonAssigned⟩
    exact ⟨intervalLeft, logFileLeft, daemonKept, daemonAssigned⟩

/-- A loader started with the file and the options, on a system where every step
goes well. -/
def startedWith (options : List CliOption) (file : ConfigFile) : Globals ℕ :=
  (startUp 0 .allGood options (fun _ => file) fun _ => none).globals

/-- A reload with the unchanged file ends the daemon mode that `-d` has set. -/
theorem unchanged_file_drops_option :
    let file := ConfigFile.contents (chars "daemon=0\n")
    startUp 0 .allGood [.d] (fun _ => file) (fun _ => none) = .running (startedWith [.d] file) ∧
      ¬AgreesWithRestart [.d] file (reloadAll (startedWith [.d] file) [(file, true)]) := by
  refine ⟨rfl, ?_⟩
  rintro ⟨path, cfg, restarted, same⟩
  have restart : cfg.daemonMode = true := by
    cases restarted
    decide +kernel
  have reloaded : (reloadAll (startedWith [.d] (.contents (chars "daemon=0\n")))
      [(.contents (chars "daemon=0\n"), true)]).cfg.daemonMode = false := by decide +kernel
  have agree := congrArg HotSettings.daemonMode same
  exact absurd (reloaded.symm.trans (agree.trans restart)) (by decide)

/-- A file that assigns the interval anew. -/
theorem new_interval_agrees :
    AgreesWithRestart [] (.contents (chars "stats_interval_sec=9\n"))
      (reloadAll (startedWith [] (.contents (chars "stats_interval_sec=7\n")))
        ([] ++ [(.contents (chars "stats_interval_sec=9\n"), true)])) := by
  have started : startUp 0 .allGood [] (fun _ => .contents (chars "stats_interval_sec=7\n"))
      (fun _ => none) = .running (startedWith [] (.contents (chars "stats_interval_sec=7\n"))) :=
    rfl
  have accepted : (loadConfigFile (.contents (chars "stats_interval_sec=9\n")) configDefaults).2 =
      none := by decide +kernel
  refine (reload_agrees_iff started [] (fun _ member => nomatch member) _ true accepted).mpr ?_
  exact ⟨by decide +kernel, by decide +kernel, by decide +kernel, by decide +kernel⟩

/-! ## The log stream -/

/-- The globals, with the path at which the log stream has been opened. -/
structure Logged (ι : Type*) where
  globals : Globals ι
  log : Option (CharArray 256)
  isOpen : globals.logFp = log.isSome

/-- Where a log path sends the log: to a file, or to `syslog` alone. -/
def logDestination (path : CharArray 256) : Option (CharArray 256) :=
  if path.bytes = [] ∨ path.bytes = chars "syslog" then none else some path

namespace Logged

/-- `open_log_file`, and whether it succeeded. The stream that was open is closed
in any case. -/
def openLogFile (opens : Bool) (g : Logged ι) : Logged ι × Bool :=
  ({ globals := (g.globals.openLogFile opens).1
     log := if opens then logDestination g.globals.cfg.logFile else none
     isOpen := by
       rw [Globals.openLogFile, logDestination]
       split
       · cases opens with
         | false => rfl
         | true => rfl
       · cases opens with
         | false => rfl
         | true => rfl },
    (g.globals.openLogFile opens).2)

/-- The reload, and why it is rejected, if it is. -/
def reloadConfigRuntime (file : ConfigFile) (opens : Bool) (g : Logged ι) :
    Logged ι × Option ConfigError :=
  match loadConfigFile file g.globals.cfg with
  | (_, some e) => (g, some e)
  | (newCfg, none) =>
      let newCfg := revertFixed g.globals.cfg newCfg
      let cfg :=
        { g.globals.cfg with
          statsIntervalSec := newCfg.statsIntervalSec, daemonMode := newCfg.daemonMode }
      if newCfg.logFile ≠ cfg.logFile then
        let cfg := { cfg with logFile := .print newCfg.logFile.bytes }
        let g : Logged ι := ⟨{ g.globals with cfg := cfg }, g.log, g.isOpen⟩
        ((g.openLogFile opens).1, none)
      else (⟨{ g.globals with cfg := cfg }, g.log, g.isOpen⟩, none)

/-- The globals are those of the reload that does not know the path. -/
theorem reloadConfigRuntime_globals (file : ConfigFile) (opens : Bool) (g : Logged ι) :
    ((g.reloadConfigRuntime file opens).1.globals, (g.reloadConfigRuntime file opens).2) =
      Loader.reloadConfigRuntime file opens g.globals := by
  rw [reloadConfigRuntime, Loader.reloadConfigRuntime]
  obtain ⟨newCfg, rejected⟩ := loadConfigFile file g.globals.cfg
  cases rejected with
  | some e => rfl
  | none =>
      dsimp only
      split
      · rfl
      · rfl

/-- The reload takes full effect, or reports an error and changes nothing. -/
inductive AllOrNothing (file : ConfigFile) (opens : Bool) (g : Logged ι) : Prop
  | all (accepted : (g.reloadConfigRuntime file opens).2 = none)
      (settings : (g.reloadConfigRuntime file opens).1.globals.cfg.hot =
        (loadConfigFile file g.globals.cfg).1.hot)
      (stream : (g.reloadConfigRuntime file opens).1.log =
        logDestination (loadConfigFile file g.globals.cfg).1.logFile)
  | nothing (rejected : (g.reloadConfigRuntime file opens).2 ≠ none)
      (settings : (g.reloadConfigRuntime file opens).1.globals.cfg = g.globals.cfg)
      (stream : (g.reloadConfigRuntime file opens).1.log = g.log)

/-- The file is rejected, or it keeps the log path and the stream is as that path
wants it, or it changes the path to one that needs no file or can be opened. -/
def LogFollows (file : ConfigFile) (opens : Bool) (g : Logged ι) : Prop :=
  let path := (file.assigns (·.logFile)).getD g.globals.cfg.logFile
  ¬file.Accepted ∨
    path = g.globals.cfg.logFile ∧ g.log = logDestination path ∨
      path ≠ g.globals.cfg.logFile ∧ (logDestination path = none ∨ opens = true)

/-- What an accepted reload leaves. -/
theorem reload_accepted {file : ConfigFile} {s : Settings} (settings : file.settings = some s)
    (opens : Bool) (g : Logged ι) :
    (g.reloadConfigRuntime file opens).2 = none ∧
      (g.reloadConfigRuntime file opens).1.log =
        if (s.applied g.globals.cfg).logFile = g.globals.cfg.logFile then g.log
        else if opens then logDestination (s.applied g.globals.cfg).logFile else none := by
  have loaded := loadConfigFile_settings file g.globals.cfg
  rw [settings] at loaded
  dsimp only at loaded
  rw [reloadConfigRuntime, loaded]
  dsimp only
  rw [revertFixed_eq]
  dsimp only
  by_cases same : (s.applied g.globals.cfg).logFile = g.globals.cfg.logFile
  · rw [if_neg (not_not.mpr same), if_pos same]
    exact ⟨rfl, rfl⟩
  · rw [if_pos same, if_neg same, CharArray.print_bytes]
    exact ⟨rfl, rfl⟩

/-- **All or nothing.** -/
theorem reload_all_or_nothing_iff (file : ConfigFile) (opens : Bool) (g : Logged ι) :
    AllOrNothing file opens g ↔ LogFollows file opens g := by
  have loaded := loadConfigFile_settings file g.globals.cfg
  cases settings : file.settings with
  | none =>
      rw [settings] at loaded
      have rejected : ¬file.Accepted := by
        rw [file.accepted_iff, settings]
        exact fun ⟨_, impossible⟩ => nomatch impossible
      obtain ⟨e, why⟩ := Option.ne_none_iff_exists'.mp loaded
      have unchanged : g.reloadConfigRuntime file opens = (g, some e) := by
        rw [reloadConfigRuntime]
        cases load : loadConfigFile file g.globals.cfg with
        | mk newCfg reason =>
            rw [load] at why
            subst why
            rfl
      exact iff_of_true (.nothing (by rw [unchanged]; exact Option.some_ne_none e)
        (by rw [unchanged]) (by rw [unchanged])) (Or.inl rejected)
  | some s =>
      rw [settings] at loaded
      have accepted : file.Accepted := file.accepted_iff.mpr ⟨s, settings⟩
      have assigns : (file.assigns (·.logFile)).getD g.globals.cfg.logFile =
          (s.applied g.globals.cfg).logFile := by
        rw [ConfigFile.assigns, settings]
        rfl
      obtain ⟨succeeds, stream⟩ := reload_accepted settings opens g
      have hot : (g.reloadConfigRuntime file opens).1.globals.cfg.hot =
          (s.applied g.globals.cfg).hot := by
        have globals := congrArg Prod.fst (reloadConfigRuntime_globals file opens g)
        dsimp only at globals
        rw [globals]
        exact reload_hot settings opens g.globals
      have whole : AllOrNothing file opens g ↔
          (g.reloadConfigRuntime file opens).1.log =
            logDestination (s.applied g.globals.cfg).logFile := by
        constructor
        · intro either
          cases either with
          | all _ _ opened => rw [opened, loaded]
          | nothing rejected _ _ => exact absurd succeeds rejected
        · intro opened
          exact .all succeeds (by rw [hot, loaded]) (by rw [opened, loaded])
      rw [whole, stream, LogFollows, assigns]
      by_cases same : (s.applied g.globals.cfg).logFile = g.globals.cfg.logFile
      · simp [same, accepted]
      · cases opens with
        | true => simp [same]
        | false => simp [same, accepted, eq_comm]

/-- A loader started with no options and no file, its log open. -/
def afterStart : Logged ℕ where
  globals := startedWith [] .missing
  log := some configDefaults.logFile
  isOpen := rfl

/-- The new log file cannot be opened: the reload succeeds and nothing is logged
to a file any more. -/
theorem failed_open_silences_log :
    let file := ConfigFile.contents (chars "log_file=/missing/loader.log\n")
    (afterStart.reloadConfigRuntime file false).2 = none ∧
      (afterStart.reloadConfigRuntime file false).1.log = none ∧
      ¬AllOrNothing file false afterStart := by
  have accepted : (afterStart.reloadConfigRuntime
      (.contents (chars "log_file=/missing/loader.log\n")) false).2 = none := by decide +kernel
  have silent : (afterStart.reloadConfigRuntime
      (.contents (chars "log_file=/missing/loader.log\n")) false).1.log = none := by
    decide +kernel
  have configured : logDestination (loadConfigFile
      (.contents (chars "log_file=/missing/loader.log\n")) afterStart.globals.cfg).1.logFile ≠
        none := by decide +kernel
  refine ⟨accepted, silent, ?_⟩
  intro either
  cases either with
  | all _ _ stream => exact configured (stream.symm.trans silent)
  | nothing rejected _ _ => exact rejected accepted

end Logged

end EbpfNids.Loader
