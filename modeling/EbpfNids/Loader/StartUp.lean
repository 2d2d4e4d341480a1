import Mathlib.Logic.Function.Basic
import EbpfNids.Loader.Config

/-!
# Starting and stopping the loader

`main` reads its options and its configuration file, and then sets up the
listening socket, the XDP program and the ring buffer, in this order. After a
failure it calls `cleanup` and exits. What the kernel answers to the calls is an
input (`Answers`), but for `bind`: a path that leads to a socket is in use.

The state holds the names that all processes share and a record of the loader's
own calls, which no step reads. A start that gets through has made exactly
three recorded calls (`startUp_running`), and one that fails after it has
attached the program takes back what it did (`startUp_exited`).
-/

set_option autoImplicit false

namespace EbpfNids.Loader

open scoped CharArray

/-! ## Calls and answers -/

/-- A call that leaves a trace outside the process. -/
inductive Call where
  | unlink (path : List UInt8)
  | bind (path : List UInt8) (bound : Bool)
  | attachXdp (ifindex : ℕ) (flags : UInt32) (attached : Bool)
  | detachXdp (ifindex : ℕ) (flags : UInt32)
deriving DecidableEq, Repr

/-- The index of an interface. The kernel numbers them from 1, in an `int`. -/
structure IfIndex where
  val : ℕ
  pos : 0 < val
  isInt : val < 2 ^ 31
deriving DecidableEq, Repr

/-- What the calls of a start answer, in the order in which they are made. -/
structure Answers where
  daemon : Bool
  openLog : Bool
  socket : Bool
  unlinkOld : Bool
  bind : Bool
  listen : Bool
  unlinkUnheard : Bool
  openSkeleton : Bool
  loadSkeleton : Bool
  ifNametoindex : Option IfIndex
  findProgram : Bool
  programFd : Bool
  attach : Bool
  alertFd : Bool
  newRingBuffer : Bool
  statsFd : Bool
  unlinkAtExit : Bool
deriving DecidableEq, Repr

/-- Every call succeeds. -/
def Answers.allGood : Answers where
  daemon := true
  openLog := true
  socket := true
  unlinkOld := true
  bind := true
  listen := true
  unlinkUnheard := true
  openSkeleton := true
  loadSkeleton := true
  ifNametoindex := some ⟨1, by decide, by decide⟩
  findProgram := true
  programFd := true
  attach := true
  alertFd := true
  newRingBuffer := true
  statsFd := true
  unlinkAtExit := true

/-! ## The loader's globals -/

/-- To which process's socket a path leads. Paths are taken as resolved: two
different ones lead to two different places, without `.` and `..`, links, or a
working directory that changes. The empty path is the abstract address that `bind`
makes of it. -/
abbrev Names (ι : Type*) := List UInt8 → Option ι

variable {ι : Type*}

/-- The globals, without the clients and the cache, beside the names and the
record of calls. `logFp`, `skel`, `rb` and `serverFd` say whether there is one. -/
structure Globals (ι : Type*) where
  cfg : AppConfig
  configPath : CharArray 256
  logFp : Bool
  skel : Bool
  rb : Bool
  ifindex : ℕ
  xdpAttached : Bool
  serverFd : Bool
  names : Names ι
  calls : List Call

def Globals.init (names : Names ι) : Globals ι where
  cfg := configDefaults
  configPath := .print defaultConfigPath
  logFp := false
  skel := false
  rb := false
  ifindex := 0
  xdpAttached := false
  serverFd := false
  names := names
  calls := []

namespace Globals

/-- The end of `open_log_file`, and whether it failed. -/
def openLogFile (opens : Bool) (g : Globals ι) : Globals ι × Bool :=
  if g.cfg.logFile.bytes = [] ∨ g.cfg.logFile.bytes = chars "syslog" then
    ({ g with logFp := false }, true)
  else ({ g with logFp := opens }, opens)

/-- `unlink` of the path of a socket, if it is permitted. There is no file at an
abstract address. -/
def unlink (path : List UInt8) (permitted : Bool) (g : Globals ι) : Globals ι :=
  { g with
    names := if permitted ∧ path ≠ [] then Function.update g.names path none else g.names
    calls := g.calls ++ [.unlink path] }

/-- `bind` to a path, unless it is in use, and whether it succeeded. -/
def bind (me : ι) (path : List UInt8) (allowed : Bool) (g : Globals ι) : Globals ι × Bool :=
  if allowed = true ∧ (g.names path).isNone = true then
    ({ g with
      names := Function.update g.names path (some me)
      calls := g.calls ++ [.bind path true] }, true)
  else ({ g with calls := g.calls ++ [.bind path false] }, false)

def setupUnixServer (me : ι) (os : Answers) (path : List UInt8) (g : Globals ι) :
    Globals ι × Bool :=
  if !os.socket then (g, false)
  else
    match (g.unlink path os.unlinkOld).bind me path os.bind with
    | (g, false) => (g, false)
    | (g, true) =>
        if !os.listen then (g.unlink path os.unlinkUnheard, false)
        else ({ g with serverFd := true }, true)

def loadAndAttachBpf (os : Answers) (g : Globals ι) : Globals ι × Bool :=
  if !os.openSkeleton then ({ g with skel := false }, false)
  else
    let g := { g with skel := true }
    if !os.loadSkeleton then (g, false)
    else
      match os.ifNametoindex with
      | none => ({ g with ifindex := 0 }, false)
      | some index =>
          let g := { g with ifindex := index.val }
          if !os.findProgram then (g, false)
          else if !os.programFd then (g, false)
          else
            let g := { g with
              calls := g.calls ++ [.attachXdp g.ifindex g.cfg.xdpFlags os.attach] }
            if !os.attach then (g, false) else ({ g with xdpAttached := true }, true)

def setupRingBuffer (os : Answers) (g : Globals ι) : Globals ι × Bool :=
  if !os.alertFd then (g, false) else ({ g with rb := os.newRingBuffer }, os.newRingBuffer)

def cleanup (unlinks : Bool) (g : Globals ι) : Globals ι :=
  let g := { g with rb := false }
  let g :=
    if g.xdpAttached ∧ g.ifindex > 0 then
      { g with
        calls := g.calls ++
          [.detachXdp g.ifindex (g.cfg.xdpFlags &&& ~~~xdpFlagsUpdateIfNoexist)]
        xdpAttached := false }
    else g
  let g := { g with skel := false }
  let g :=
    if g.serverFd then unlink g.cfg.socketPath.bytes unlinks { g with serverFd := false } else g
  { g with logFp := false }

end Globals

/-! ## The start of `main` -/

/-- What `getopt` returns for the command line, one after the other. -/
inductive CliOption where
  | c (optarg : List UInt8)
  | i (optarg : List UInt8)
  | d
  | h
  | unknown
deriving DecidableEq, Repr

/-- `config_path`, `cli_ifname` and whether `cli_daemon` is set. -/
structure Cli where
  configPath : CharArray 256
  cliIfname : CharArray 16
  cliDaemon : Bool
deriving DecidableEq, Repr

/-- What the options leave set, or the code with which `main` returns. -/
def parseOptions : Cli → List CliOption → Except ℕ Cli
  | cli, [] => .ok cli
  | cli, .c optarg :: rest => parseOptions { cli with configPath := .print optarg } rest
  | cli, .i optarg :: rest => parseOptions { cli with cliIfname := .print optarg } rest
  | cli, .d :: rest => parseOptions { cli with cliDaemon := true } rest
  | _, .h :: _ => .error 0
  | _, .unknown :: _ => .error 1

/-- The path of the configuration file and the configuration: the defaults, then
the file, then the options. Or the code of the exit, with what `cfg` holds. -/
def configure (options : List CliOption) (files : List UInt8 → ConfigFile) :
    Except (ℕ × AppConfig) (CharArray 256 × AppConfig) :=
  match parseOptions ⟨.print defaultConfigPath, .print [], false⟩ options with
  | .error code => .error (code, configDefaults)
  | .ok cli =>
      match loadConfigFile (files cli.configPath.bytes) configDefaults with
      | (cfg, some _) => .error (1, cfg)
      | (cfg, none) =>
          .ok (cli.configPath,
            { cfg with
              ifname :=
                if cli.cliIfname.bytes ≠ [] then .print cli.cliIfname.bytes else cfg.ifname
              daemonMode := cli.cliDaemon || cfg.daemonMode })

/-- The four steps that end in `cleanup` when they fail. -/
def bringUp (me : ι) (os : Answers) (g : Globals ι) : Globals ι × Bool :=
  match g.setupUnixServer me os g.cfg.socketPath.bytes with
  | (g, false) => (g, false)
  | (g, true) =>
      match g.loadAndAttachBpf os with
      | (g, false) => (g, false)
      | (g, true) =>
          match g.setupRingBuffer os with
          | (g, false) => (g, false)
          | (g, true) => (g, os.statsFd)

/-- `main` has returned, or it enters its loop. -/
inductive Start (ι : Type*) where
  | exited (code : ℕ) (g : Globals ι)
  | running (g : Globals ι)

/-- `main` up to its loop. -/
def startUp (me : ι) (os : Answers) (options : List CliOption) (files : List UInt8 → ConfigFile)
    (names : Names ι) : Start ι :=
  match configure options files with
  | .error (code, cfg) => .exited code { Globals.init names with cfg := cfg }
  | .ok (configPath, cfg) =>
      let g := { Globals.init names with configPath := configPath, cfg := cfg }
      if cfg.daemonMode && !os.daemon then .exited 1 g
      else
        match g.openLogFile os.openLog with
        | (g, false) => .exited 1 g
        | (g, true) =>
            match bringUp me os g with
            | (g, false) => .exited 1 (g.cleanup os.unlinkAtExit)
            | (g, true) => .running g

/-! ## What the steps do -/

section Steps

variable {me : ι} {os : Answers} {g g' : Globals ι} {path : List UInt8}

theorem unlink_names (path : List UInt8) (permitted : Bool) (g : Globals ι) :
    (g.unlink path permitted).names path =
      if permitted = true ∧ path ≠ [] then none else g.names path := by
  rw [Globals.unlink]
  split
  · exact Function.update_self ..
  · rfl

theorem bind_true {allowed : Bool} (bound : g.bind me path allowed = (g', true)) :
    g.names path = none ∧
      g' = { g with
        names := Function.update g.names path (some me)
        calls := g.calls ++ [.bind path true] } := by
  rw [Globals.bind] at bound
  split at bound
  · rename_i free
    exact ⟨Option.isNone_iff_eq_none.mp free.2, (Prod.mk.inj bound).1.symm⟩
  · cases bound

theorem bind_false {allowed : Bool} (refused : g.bind me path allowed = (g', false)) :
    g' = { g with calls := g.calls ++ [.bind path false] } := by
  rw [Globals.bind] at refused
  split at refused
  · cases refused
  · exact (Prod.mk.inj refused).1.symm

/-- `setup_unix_server` removes the file that it finds at its path. -/
def RemovesOld (os : Answers) (path : List UInt8) : Prop :=
  os.socket = true ∧ os.unlinkOld = true ∧ path ≠ []

instance (os : Answers) (path : List UInt8) : Decidable (RemovesOld os path) :=
  inferInstanceAs (Decidable (_ ∧ _ ∧ _))

/-- A path that leads to a socket is free after the `unlink` only if that has
removed it. -/
theorem removesOld_of_free {other : ι} (socket : os.socket = true)
    (there : g.names path = some other) (free : (g.unlink path os.unlinkOld).names path = none) :
    RemovesOld os path := by
  rw [unlink_names, there] at free
  by_contra kept
  rw [if_neg fun removed => kept ⟨socket, removed⟩] at free
  cases free

/-- The server listens at its path, at which it has found no other socket. -/
theorem setupUnixServer_true (up : g.setupUnixServer me os path = (g', true)) :
    os.socket = true ∧ (g.unlink path os.unlinkOld).names path = none ∧
      g'.names path = some me ∧
      g' = { g with
        names := g'.names
        calls := g.calls ++ [.unlink path, .bind path true]
        serverFd := true } := by
  rw [Globals.setupUnixServer] at up
  split at up
  · cases up
  · rename_i socket
    split at up
    · cases up
    · rename_i bound
      obtain ⟨free, rfl⟩ := bind_true bound
      split at up
      · cases up
      · obtain rfl := (Prod.mk.inj up).1
        refine ⟨by simpa using socket, free, ?_, ?_⟩
        · exact Function.update_self ..
        · simp [Globals.unlink]

/-- Nothing but the names and the record changes, and a socket found at the path
is there afterwards, unless `unlink` has removed it. -/
theorem setupUnixServer_false (down : g.setupUnixServer me os path = (g', false)) :
    g' = { g with names := g'.names, calls := g'.calls } ∧
      (∀ i f, .attachXdp i f true ∈ g'.calls → .attachXdp i f true ∈ g.calls) ∧
      ∀ other, other ≠ me → g.names path = some other →
        (g'.names path = some other ↔ ¬ RemovesOld os path) := by
  rw [Globals.setupUnixServer] at down
  split at down
  · rename_i noSocket
    obtain rfl := (Prod.mk.inj down).1
    refine ⟨rfl, fun _ _ => id, ?_⟩
    intro other _ there
    have missing : os.socket = false := by simpa using noSocket
    simp [there, RemovesOld, missing]
  · rename_i socket
    have made : os.socket = true := by simpa using socket
    split at down
    · rename_i refused
      obtain rfl := bind_false refused
      obtain rfl := (Prod.mk.inj down).1
      refine ⟨rfl, ?_, ?_⟩
      · intro i f
        simp [Globals.unlink]
      · intro other _ there
        dsimp only
        rw [unlink_names, there]
        simp [RemovesOld, made]
    · rename_i bound
      obtain ⟨free, rfl⟩ := bind_true bound
      split at down
      · obtain rfl := (Prod.mk.inj down).1
        refine ⟨rfl, ?_, ?_⟩
        · intro i f
          simp [Globals.unlink]
        · intro other different there
          have removes := removesOld_of_free made there free
          have notMe : some me ≠ some other := fun same => different (Option.some.inj same).symm
          rw [unlink_names]
          dsimp only
          rw [Function.update_self]
          split
          · simp [removes]
          · simp [removes, notMe]
      · cases down

/-- Either the program is attached to the interface of the name, with the flags
of the configuration, or nothing is attached. -/
theorem loadAndAttachBpf_cases {ok : Bool} (done : g.loadAndAttachBpf os = (g', ok)) :
    (ok = true ∧ 0 < g'.ifindex ∧
        g' = { g with
          skel := true
          ifindex := g'.ifindex
          calls := g.calls ++ [.attachXdp g'.ifindex g.cfg.xdpFlags true]
          xdpAttached := true }) ∨
      ok = false ∧ g' = { g with skel := g'.skel, ifindex := g'.ifindex, calls := g'.calls } ∧
        ∀ i f, .attachXdp i f true ∈ g'.calls → .attachXdp i f true ∈ g.calls := by
  have early : ∀ {g₁ : Globals ι},
      g₁ = { g with skel := g₁.skel, ifindex := g₁.ifindex } → (g₁, false) = (g', ok) →
      ok = false ∧ g' = { g with skel := g'.skel, ifindex := g'.ifindex, calls := g'.calls } ∧
        ∀ i f, .attachXdp i f true ∈ g'.calls → .attachXdp i f true ∈ g.calls := by
    rintro g₁ same ⟨⟩
    rw [same]
    exact ⟨rfl, rfl, fun _ _ => id⟩
  rw [Globals.loadAndAttachBpf] at done
  split at done
  · exact Or.inr (early rfl done)
  · dsimp only at done
    split at done
    · exact Or.inr (early rfl done)
    · split at done
      · exact Or.inr (early rfl done)
      · rename_i index _
        split at done
        · exact Or.inr (early rfl done)
        · split at done
          · exact Or.inr (early rfl done)
          · cases accepted : os.attach with
            | false =>
                rw [if_pos (by rw [accepted]; rfl)] at done
                obtain ⟨rfl, rfl⟩ := Prod.mk.inj done
                refine Or.inr ⟨rfl, rfl, ?_⟩
                intro i f
                simp [accepted]
            | true =>
                rw [if_neg (by rw [accepted]; decide)] at done
                obtain ⟨rfl, rfl⟩ := Prod.mk.inj done
                exact Or.inl ⟨rfl, index.pos, by simp [accepted]⟩

theorem setupRingBuffer_eq {ok : Bool} (done : g.setupRingBuffer os = (g', ok)) :
    g' = { g with rb := g'.rb } := by
  rw [Globals.setupRingBuffer] at done
  split at done
  · obtain rfl := (Prod.mk.inj done).1
    rfl
  · obtain rfl := (Prod.mk.inj done).1
    rfl

end Steps

/-! ## What a start has done -/

/-- The socket is bound and the program attached, after three calls. -/
structure Attached (g : Globals ι) : Prop where
  attached : g.xdpAttached = true
  index : 0 < g.ifindex
  serving : g.serverFd = true
  calls : g.calls = [.unlink g.cfg.socketPath.bytes, .bind g.cfg.socketPath.bytes true,
    .attachXdp g.ifindex g.cfg.xdpFlags true]

/-- Nothing has been attached. -/
structure Unattached (g : Globals ι) : Prop where
  attached : g.xdpAttached = false
  calls : ∀ i f, .attachXdp i f true ∉ g.calls

/-- The calls of a process that has attached its program and has taken back what
it did: the interface loses the program in the mode in which it was attached,
and the path that was bound is removed. -/
def session (path : List UInt8) (ifindex : ℕ) (flags : UInt32) : List Call :=
  [.unlink path, .bind path true, .attachXdp ifindex flags true,
    .detachXdp ifindex (flags &&& ~~~xdpFlagsUpdateIfNoexist), .unlink path]

section Start

variable {me : ι} {os : Answers} {g g' : Globals ι}

theorem Attached.cleanup (attached : Attached g) (unlinks : Bool) :
    (g.cleanup unlinks).calls =
      session g.cfg.socketPath.bytes g.ifindex g.cfg.xdpFlags := by
  simp [Globals.cleanup, Globals.unlink, attached.attached, attached.index, attached.serving,
    attached.calls, session]

theorem Unattached.cleanup (unattached : Unattached g) (unlinks : Bool) :
    ∀ i f, .attachXdp i f true ∉ (g.cleanup unlinks).calls := by
  intro i f
  cases serving : g.serverFd with
  | true =>
      simp [Globals.cleanup, Globals.unlink, unattached.attached, serving, unattached.calls]
  | false => simp [Globals.cleanup, unattached.attached, serving, unattached.calls]

theorem cleanup_cfg (g : Globals ι) (unlinks : Bool) : (g.cleanup unlinks).cfg = g.cfg := by
  rw [Globals.cleanup]
  dsimp only
  split
  · split
    · rfl
    · rfl
  · split
    · rfl
    · rfl

theorem cleanup_names_silent (silent : g.serverFd = false) (unlinks : Bool) :
    (g.cleanup unlinks).names = g.names := by
  rw [Globals.cleanup]
  dsimp only
  split
  · simp [silent]
  · simp [silent]

theorem cleanup_names (serving : g.serverFd = true) (unlinks : Bool) :
    (g.cleanup unlinks).names g.cfg.socketPath.bytes =
      if unlinks = true ∧ g.cfg.socketPath.bytes ≠ [] then none
      else g.names g.cfg.socketPath.bytes := by
  rw [← unlink_names, Globals.cleanup]
  dsimp only
  split
  · simp [serving, Globals.unlink]
  · simp [serving, Globals.unlink]

/-- The steps after the server is up attach the program or nothing. -/
theorem bringUp_cases {ok : Bool} (fresh : g.calls = []) (unattached : g.xdpAttached = false)
    (silent : g.serverFd = false) (done : bringUp me os g = (g', ok)) :
    g'.cfg = g.cfg ∧
      (ok = false ∧ Unattached g' ∧ g'.serverFd = false ∧
          (∀ other, other ≠ me → g.names g.cfg.socketPath.bytes = some other →
            (g'.names g.cfg.socketPath.bytes = some other ↔
              ¬ RemovesOld os g.cfg.socketPath.bytes)) ∨
        (os.socket = true ∧
          (g.unlink g.cfg.socketPath.bytes os.unlinkOld).names g.cfg.socketPath.bytes = none) ∧
          g'.names g.cfg.socketPath.bytes = some me ∧ g'.serverFd = true ∧
          (Attached g' ∨ ok = false ∧ Unattached g')) := by
  rw [bringUp] at done
  split at done
  · rename_i g₁ down
    obtain ⟨rfl, rfl⟩ := Prod.mk.inj done
    obtain ⟨same, attaches, names⟩ := setupUnixServer_false down
    rw [same]
    refine ⟨rfl, Or.inl ⟨rfl, ⟨unattached, ?_⟩, silent, names⟩⟩
    intro i f member
    have before := attaches i f member
    rw [fresh] at before
    cases before
  · rename_i g₁ up
    obtain ⟨socket, free, here, same⟩ := setupUnixServer_true up
    have noAttach : ∀ i f, .attachXdp i f true ∉ g₁.calls := by
      intro i f
      rw [same, fresh]
      simp
    have attached : g₁.xdpAttached = false := by rw [same, unattached]
    have config : g₁.cfg = g.cfg := by rw [same]
    have serving : g₁.serverFd = true := by rw [same]
    cases loads : g₁.loadAndAttachBpf os with
    | mk g₂ loaded =>
        rw [loads] at done
        rcases loadAndAttachBpf_cases loads with ⟨rfl, index, kept⟩ | ⟨rfl, kept, attaches⟩
        · have ready : Attached g₂ := by
            rw [kept]
            refine ⟨rfl, index, serving, ?_⟩
            rw [same, fresh]
            rfl
          have config₂ : g₂.cfg = g.cfg := by rw [kept, config]
          have here₂ : g₂.names g.cfg.socketPath.bytes = some me := by rw [kept, here]
          have polled : ∃ more, g₂.setupRingBuffer os = (g', more) := by
            dsimp only at done
            split at done
            · rename_i polled
              exact ⟨false, (Prod.mk.inj done).1 ▸ polled⟩
            · rename_i polled
              exact ⟨true, (Prod.mk.inj done).1 ▸ polled⟩
          obtain ⟨more, polled⟩ := polled
          rw [setupRingBuffer_eq polled]
          refine ⟨config₂, Or.inr ⟨⟨socket, free⟩, here₂, ready.serving, Or.inl ?_⟩⟩
          exact ⟨ready.attached, ready.index, ready.serving, ready.calls⟩
        · obtain ⟨rfl, rfl⟩ := Prod.mk.inj done
          rw [kept]
          refine ⟨config, Or.inr ⟨⟨socket, free⟩, here, serving, Or.inr ⟨rfl, attached, ?_⟩⟩⟩
          exact fun i f member => noAttach i f (attaches i f member)

/-! ## The whole start -/

variable {options : List CliOption} {files : List UInt8 → ConfigFile} {names : Names ι}

/-- Whatever the options and the file, and whether or not they are accepted. -/
theorem configure_sound (options : List CliOption) (files : List UInt8 → ConfigFile) :
    match configure options files with
    | .error (_, cfg) => cfg.Sound
    | .ok (_, cfg) => cfg.Sound := by
  rw [configure]
  cases parseOptions ⟨.print defaultConfigPath, .print [], false⟩ options with
  | error code => exact configDefaults_sound
  | ok cli =>
      have loaded := loadConfigFile_sound (files cli.configPath.bytes) configDefaults_sound
      dsimp only
      split
      · rename_i accepted
        split at accepted
        · rename_i rejected
          rw [rejected] at loaded
          cases accepted
          exact loaded
        · cases accepted
      · rename_i accepted
        split at accepted
        · cases accepted
        · rename_i read
          rw [read] at loaded
          cases accepted
          exact ⟨loaded.interval, loaded.noexist⟩

theorem openLogFile_eq (opens : Bool) (g : Globals ι) :
    (g.openLogFile opens).1 = { g with logFp := (g.openLogFile opens).1.logFp } := by
  rw [Globals.openLogFile]
  split
  · rfl
  · rfl

/-- The configuration with which the process gets as far as `setup_unix_server`. -/
def reachesServer (os : Answers) (options : List CliOption) (files : List UInt8 → ConfigFile) :
    Option AppConfig :=
  match configure options files with
  | .error _ => none
  | .ok (_, cfg) =>
      if cfg.daemonMode && !os.daemon then none
      else if cfg.logFile.bytes = [] ∨ cfg.logFile.bytes = chars "syslog" ∨ os.openLog then some cfg
      else none


/-- The process exits before `setup_unix_server`, with no call made, or goes
through the four steps. -/
theorem startUp_cases (me : ι) (os : Answers) (options : List CliOption)
    (files : List UInt8 → ConfigFile) (names : Names ι) :
    (reachesServer os options files = none ∧
        ∃ code g, startUp me os options files names = .exited code g ∧
          g.cfg.Sound ∧ g.calls = [] ∧ g.names = names) ∨
      ∃ g₀, reachesServer os options files = some g₀.cfg ∧ g₀.cfg.Sound ∧
        (g₀.calls = [] ∧ g₀.xdpAttached = false ∧ g₀.serverFd = false ∧ g₀.names = names) ∧
        startUp me os options files names =
          match bringUp me os g₀ with
          | (g, false) => .exited 1 (g.cleanup os.unlinkAtExit)
          | (g, true) => .running g := by
  have sound := configure_sound options files
  rw [startUp, reachesServer]
  cases configured : configure options files with
  | error both =>
      rw [configured] at sound
      exact Or.inl ⟨rfl, both.1, _, rfl, sound, rfl, rfl⟩
  | ok both =>
      obtain ⟨configPath, cfg⟩ := both
      rw [configured] at sound
      dsimp only at sound ⊢
      by_cases stays : (cfg.daemonMode && !os.daemon) = true
      · rw [if_pos stays, if_pos stays]
        exact Or.inl ⟨rfl, 1, _, rfl, sound, rfl, rfl⟩
      · rw [if_neg stays, if_neg stays]
        cases opened : Globals.openLogFile os.openLog
            { Globals.init names with configPath := configPath, cfg := cfg } with
        | mk g₀ ok =>
            have same := openLogFile_eq os.openLog
              { Globals.init names with configPath := configPath, cfg := cfg }
            rw [opened] at same
            dsimp only at same
            have config : g₀.cfg = cfg := by rw [same]
            rw [Globals.openLogFile] at opened
            cases ok with
            | false =>
                left
                refine ⟨?_, 1, g₀, rfl, config ▸ sound, by rw [same]; rfl, by rw [same]; rfl⟩
                split at opened
                · cases (Prod.mk.inj opened).2
                · rename_i named
                  have refused : os.openLog = false := (Prod.mk.inj opened).2
                  rw [not_or] at named
                  rw [if_neg]
                  simp [named, refused]
            | true =>
                right
                refine ⟨g₀, ?_, config ▸ sound, ?_, rfl⟩
                · rw [if_pos, config]
                  split at opened
                  · rename_i unnamed
                    exact unnamed.elim Or.inl fun syslog => Or.inr (Or.inl syslog)
                  · exact Or.inr (Or.inr (Prod.mk.inj opened).2)
                · rw [same]
                  exact ⟨rfl, rfl, rfl, rfl⟩

/-- **A start that gets through.** The program is attached and the path of the
configuration leads to the process. -/
theorem startUp_running (up : startUp me os options files names = .running g) :
    Attached g ∧ g.cfg.Sound ∧ g.names g.cfg.socketPath.bytes = some me ∧
      reachesServer os options files = some g.cfg := by
  rcases startUp_cases me os options files names with ⟨-, code, g', exits, -⟩ |
    ⟨g₀, reaches, sound, ⟨fresh, unattached, silent, -⟩, outcome⟩
  · rw [exits] at up
    cases up
  · rw [outcome] at up
    cases done : bringUp me os g₀ with
    | mk g' ok =>
        rw [done] at up
        cases ok with
        | false => cases up
        | true =>
            cases up
            obtain ⟨same, ⟨impossible, -⟩ | ⟨-, here, -, attached | ⟨impossible, -⟩⟩⟩ :=
              bringUp_cases fresh unattached silent done
            · cases impossible
            · rw [← same] at reaches sound here
              exact ⟨attached, sound, here, reaches⟩
            · cases impossible

/-- **A start that fails.** If it had attached the program, it takes it off the
interface and removes its path. -/
theorem startUp_exited {code : ℕ} (down : startUp me os options files names = .exited code g) :
    g.cfg.Sound ∧ ∀ ifindex flags, .attachXdp ifindex flags true ∈ g.calls →
      flags = g.cfg.xdpFlags ∧ g.calls = session g.cfg.socketPath.bytes ifindex flags := by
  rcases startUp_cases me os options files names with ⟨-, code', g', exits, sound, fresh, -⟩ |
    ⟨g₀, -, sound, ⟨fresh, unattached, silent, -⟩, outcome⟩
  · rw [exits] at down
    cases down
    refine ⟨sound, ?_⟩
    intro ifindex flags member
    rw [fresh] at member
    cases member
  · rw [outcome] at down
    cases done : bringUp me os g₀ with
    | mk g' ok =>
        rw [done] at down
        cases ok with
        | true => cases down
        | false =>
            cases down
            have cases := bringUp_cases fresh unattached silent done
            rw [cleanup_cfg]
            refine ⟨cases.1 ▸ sound, ?_⟩
            intro ifindex flags member
            obtain ⟨-, ⟨-, none, -⟩ | ⟨-, -, -, attached | ⟨-, none⟩⟩⟩ := cases
            · exact absurd member (none.cleanup _ _ _)
            · rw [attached.cleanup] at member ⊢
              obtain ⟨rfl, rfl⟩ : ifindex = g'.ifindex ∧ flags = g'.cfg.xdpFlags := by
                simpa [session] using member
              exact ⟨rfl, rfl⟩
            · exact absurd member (none.cleanup _ _ _)

/-- The names after a failed start: a socket of another process is still at the
path of the configuration unless `setup_unix_server` has removed it. -/
theorem startUp_exited_names {code : ℕ}
    (down : startUp me os options files names = .exited code g) {path : List UInt8}
    {other : ι} (different : other ≠ me) (there : names path = some other)
    (same : ∀ cfg, reachesServer os options files = some cfg → cfg.socketPath.bytes = path) :
    g.names path = some other ↔
      ¬ ((reachesServer os options files).isSome = true ∧ RemovesOld os path) := by
  rcases startUp_cases me os options files names with ⟨stops, code', g', exits, -, -, kept⟩ |
    ⟨g₀, reaches, -, ⟨fresh, unattached, silent, kept⟩, outcome⟩
  · rw [exits] at down
    cases down
    rw [kept, stops]
    simp [there]
  · obtain rfl := same g₀.cfg reaches
    rw [outcome] at down
    cases done : bringUp me os g₀ with
    | mk g' ok =>
        rw [done] at down
        cases ok with
        | true => cases down
        | false =>
            cases down
            rw [← kept] at there
            obtain ⟨same', ⟨-, -, silent', names⟩ | ⟨⟨socket, free⟩, here, serving, -⟩⟩ :=
              bringUp_cases fresh unattached silent done
            · rw [cleanup_names_silent silent', names other different there, reaches]
              simp
            · have removes := removesOld_of_free socket there free
              have notMe : some me ≠ some other := fun same => different (Option.some.inj same).symm
              rw [← same', cleanup_names serving, same', here, reaches]
              split
              · simp [removes]
              · simp [removes, notMe]

end Start

def Start.globals : Start ι → Globals ι
  | .exited _ g => g
  | .running g => g

/-- A start with no options and no configuration file. -/
def plainStart (me : ℕ) (os : Answers) (names : Names ℕ) : Start ℕ :=
  startUp me os [] (fun _ => .missing) names

end EbpfNids.Loader
