import EbpfNids.Library.Paths
import EbpfNids.Loader.MainLoop

/-!
# The path of the configuration file

`main` opens the configuration file in the directory that it is started in. If
it then becomes a daemon, `daemon(0, 0)` changes to the root directory, and a
reload opens the same path from there. A reload reads the file that the start
would have read exactly when the loader is in the foreground, or the path is
absolute, or it leads to the same file from the root (`reload_rereads_iff`).
-/

set_option autoImplicit false

namespace EbpfNids.Loader

open Library.Decimal Library.Paths
open scoped CharArray

/-! ## Opening a file -/

/-- A file system at some time: what a path leads to from a directory, if there
is such a file, and what `load_config_file` finds in it. -/
structure FileSystem (Dir File : Type*) where
  lookup : Dir → List UInt8 → Option File
  contents : File → ConfigFile

variable {ι Dir File : Type*}

def isAbsolute (path : List UInt8) : Prop := path.head? = some '/'.toUInt8

instance decidableIsAbsolute (path : List UInt8) : Decidable (isAbsolute path) :=
  inferInstanceAs (Decidable (path.head? = some '/'.toUInt8))

namespace FileSystem

/-- The file that a process in the directory `cwd` opens. -/
def resolve (fs : FileSystem Dir File) (root cwd : Dir) (path : List UInt8) : Option File :=
  fs.lookup (if isAbsolute path then root else cwd) path

/-- `fopen(path, "r")` and what can be read then. -/
def fopen (fs : FileSystem Dir File) (root cwd : Dir) (path : List UInt8) : ConfigFile :=
  match fs.resolve root cwd path with
  | none => .missing
  | some file => fs.contents file

end FileSystem

/-! ## The loader and its directory -/

/-- The globals and the working directory. -/
structure Placed (ι Dir : Type*) where
  globals : Globals ι
  cwd : Dir

/-- The path with which the configuration was opened, as it is stored. -/
def Placed.path (p : Placed ι Dir) : List UInt8 := p.globals.configPath.bytes

/-- A start in the directory `cwd` that gets as far as the main loop. -/
def startIn (root : Dir) (fs : FileSystem Dir File) (me : ι) (os : Answers)
    (options : List CliOption) (cwd : Dir) (names : Names ι) : Option (Placed ι Dir) :=
  match startUp me os options (fs.fopen root cwd) names with
  | .exited _ _ => none
  | .running g => some ⟨g, if g.cfg.daemonMode then root else cwd⟩

/-- A reload with the file system as it is then, and why it is rejected, if it
is. -/
def Placed.reload (root : Dir) (fs : FileSystem Dir File) (opens : Bool) (p : Placed ι Dir) :
    Placed ι Dir × Option ConfigError :=
  let file := fs.fopen root p.cwd p.path
  (⟨(reloadConfigRuntime file opens p.globals).1, p.cwd⟩,
    (reloadConfigRuntime file opens p.globals).2)

/-- Reloads one after the other. -/
def Placed.reloads (root : Dir) (p : Placed ι Dir)
    (earlier : List (FileSystem Dir File × Bool)) : Placed ι Dir :=
  earlier.foldl (fun p reload => (p.reload root reload.1 reload.2).1) p

/-- The reload opens what the path leads to from the directory of the start, and
if that is a file, its outcome is that of reading this file. -/
structure Rereads (root start : Dir) (fs : FileSystem Dir File) (opens : Bool)
    (p : Placed ι Dir) : Prop where
  same : fs.resolve root p.cwd p.path = fs.resolve root start p.path
  informed : ∀ file, fs.resolve root start p.path = some file →
    ((p.reload root fs opens).1.globals, (p.reload root fs opens).2) =
      reloadConfigRuntime (fs.contents file) opens p.globals

/-! ## What a run keeps -/

theorem reload_configPath (file : ConfigFile) (opens : Bool) (g : Globals ι) :
    (reloadConfigRuntime file opens g).1.configPath = g.configPath := by
  rcases reload_cases file opens g with ⟨e, rejected, -⟩ | ⟨-, logFp, accepted⟩
  · rw [rejected]
  · rw [accepted]

/-- A reload changes neither the path nor the directory. -/
theorem Placed.reload_keeps (root : Dir) (fs : FileSystem Dir File) (opens : Bool)
    (p : Placed ι Dir) :
    (p.reload root fs opens).1.path = p.path ∧ (p.reload root fs opens).1.cwd = p.cwd :=
  ⟨congrArg CharArray.bytes (reload_configPath _ opens p.globals), rfl⟩

theorem Placed.reloads_keep (root : Dir) (p : Placed ι Dir)
    (earlier : List (FileSystem Dir File × Bool)) :
    (p.reloads root earlier).path = p.path ∧ (p.reloads root earlier).cwd = p.cwd := by
  induction earlier generalizing p with
  | nil => exact ⟨rfl, rfl⟩
  | cons reload rest ih =>
      obtain ⟨path, cwd⟩ := p.reload_keeps root reload.1 reload.2
      obtain ⟨pathLater, cwdLater⟩ := ih (p.reload root reload.1 reload.2).1
      exact ⟨pathLater.trans path, cwdLater.trans cwd⟩

/-- A file that is opened is read. -/
theorem rereads_iff_same (root start : Dir) (fs : FileSystem Dir File) (opens : Bool)
    (p : Placed ι Dir) :
    Rereads root start fs opens p ↔
      fs.resolve root p.cwd p.path = fs.resolve root start p.path := by
  constructor
  · exact Rereads.same
  · intro same
    refine ⟨same, fun file found => ?_⟩
    have opened : fs.fopen root p.cwd p.path = fs.contents file := by
      rw [FileSystem.fopen, same, found]
    rw [Placed.reload, opened]

/-! ## A tree of directories -/

/-- The components of a path. Empty ones lead nowhere. -/
def components (path : List UInt8) : List (Component (List UInt8)) :=
  ((path.splitOn '/'.toUInt8).filter (· ≠ [])).map fun part =>
    if part = chars "." then .here else if part = chars ".." then .up else .down part

/-- A tree without links: files are known by the way to them from the root. -/
def tree (contents : List (List UInt8) → ConfigFile) :
    FileSystem (List (List UInt8)) (List (List UInt8)) where
  lookup dir path := some (walk dir (components path))
  contents := contents

/-- **The file of a reload.** It is the file that the path leads to from the
directory of the start exactly when the loader is in the foreground, or the path
is absolute, or it leads to the same file from the root; in a tree, when some
beginning of the path climbs out of the directory of the start. -/
theorem reload_rereads_iff {root start : Dir} {fs₀ : FileSystem Dir File} {me : ι} {os : Answers}
    {options : List CliOption} {names : Names ι} {p : Placed ι Dir}
    (started : startIn root fs₀ me os options start names = some p)
    (earlier : List (FileSystem Dir File × Bool)) (fs : FileSystem Dir File) (opens : Bool) :
    (Rereads root start fs opens (p.reloads root earlier) ↔
        p.globals.cfg.daemonMode = false ∨ isAbsolute p.path ∨
          fs.lookup root p.path = fs.lookup start p.path) ∧
      ∀ (contents : List (List UInt8) → ConfigFile) (dir : List (List UInt8)),
        (tree contents).lookup [] p.path = (tree contents).lookup dir p.path ↔
          Climbs dir.length (components p.path) := by
  constructor
  · have cwd : p.cwd = if p.globals.cfg.daemonMode then root else start := by
      rw [startIn] at started
      split at started
      · cases started
      · obtain rfl := Option.some.inj started
        rfl
    obtain ⟨path, cwdLater⟩ := p.reloads_keep root earlier
    rw [rereads_iff_same, path, cwdLater, cwd, FileSystem.resolve, FileSystem.resolve]
    by_cases absolute : isAbsolute p.path
    · rw [if_pos absolute, if_pos absolute]
      exact iff_of_true rfl (Or.inr (Or.inl absolute))
    · rw [if_neg absolute, if_neg absolute]
      cases p.globals.cfg.daemonMode with
      | false => exact iff_of_true rfl (Or.inl rfl)
      | true => simp [absolute]
  · intro contents dir
    rw [← walk_eq_iff]
    exact Option.some_inj.trans eq_comm

/-- `/opt/nids`, where the loader is started with no options. -/
def installDir : List (List UInt8) := [chars "nids", chars "opt"]

/-- The only file is the configuration file at its default path there. -/
def configOnly (text : String) : FileSystem (List (List UInt8)) (List (List UInt8)) :=
  tree fun file =>
    if file = walk installDir (components defaultConfigPath) then .contents (chars text)
    else .missing

/-- The loader after its start with some configuration. -/
def startedIn (text : String) : Placed ℕ (List (List UInt8)) :=
  let g := (startUp 0 .allGood [] ((configOnly text).fopen [] installDir) fun _ => none).globals
  ⟨g, if g.cfg.daemonMode then [] else installDir⟩

/-- The daemon reports that it has reloaded a file that it has not read. -/
theorem daemon_misses_its_file :
    startIn [] (configOnly "daemon=1\n") 0 .allGood [] installDir (fun _ => none) =
        some (startedIn "daemon=1\n") ∧
      ((startedIn "daemon=1\n").reload [] (configOnly "stats_interval_sec=9\n") true).2 = none ∧
      ((startedIn "daemon=1\n").reload []
          (configOnly "stats_interval_sec=9\n") true).1.globals.cfg.statsIntervalSec = 5 ∧
      ¬Rereads [] installDir (configOnly "stats_interval_sec=9\n") true
        (startedIn "daemon=1\n") := by
  refine ⟨rfl, by decide +kernel, by decide +kernel, ?_⟩
  intro rereads
  have elsewhere : (configOnly "stats_interval_sec=9\n").resolve [] (startedIn "daemon=1\n").cwd
      (startedIn "daemon=1\n").path ≠
        (configOnly "stats_interval_sec=9\n").resolve [] installDir
          (startedIn "daemon=1\n").path := by decide +kernel
  exact elsewhere rereads.same

/-- In the foreground the second reload still finds the file. -/
theorem foreground_rereads :
    Rereads [] installDir (configOnly "stats_interval_sec=9\n") true
      ((startedIn "daemon=0\n").reloads [] [(configOnly "stats_interval_sec=7\n", true)]) := by
  have started : startIn [] (configOnly "daemon=0\n") 0 .allGood [] installDir (fun _ => none) =
      some (startedIn "daemon=0\n") := rfl
  exact (reload_rereads_iff started [(configOnly "stats_interval_sec=7\n", true)]
    (configOnly "stats_interval_sec=9\n") true).1.mpr (Or.inl (by decide +kernel))

end EbpfNids.Loader
