import EbpfNids.Loader.MainLoop

/-!
# A second loader that fails to start

Two loaders share the names of sockets. The second one is refused the interface
while the first is attached, and takes back on failure only what it has itself
attached and bound. But before it knows whether it may run, `setup_unix_server`
has unlinked the path, under which the first one listens; from then on no name
leads to the first one (`reachable_after_failure_iff`).
-/

set_option autoImplicit false

namespace EbpfNids.Loader

open Library Library.Runs EbpfNids.DataPlane

variable {ι : Type*}

/-- The loader `a` is in its loop, attached, and its path leads to its socket. -/
structure Listening (a : ι) (s : LoopState ι) (names : Names ι) : Prop where
  attached : Attached s.globals
  inLoop : s.phase ≠ .left
  leads : names s.globals.cfg.socketPath.bytes = some a

/-- A loader listens all through its loop. -/
theorem listening_run {a : ι} {os : Answers} {options : List CliOption}
    {files : List UInt8 → ConfigFile} {names : Names ι} {g : Globals ι}
    (up : startUp a os options files names = .running g) (maps : Maps) (events : List LoopEvent)
    (inLoop : (exec loopStep (.enter g maps) events).phase ≠ .left) :
    Listening a (exec loopStep (.enter g maps) events)
      (exec loopStep (.enter g maps) events).globals.names := by
  have holds := holds_run up maps events
  refine ⟨holds.running inLoop, inLoop, ?_⟩
  rw [holds.names inLoop, holds.socketPath]
  exact (startUp_running up).2.2.1

/-- **A failed start leaves the running loader reachable exactly when it has not
removed its path**: it has failed before `setup_unix_server`, or there without a
socket, or the `unlink` was refused or named no file. -/
theorem reachable_after_failure_iff {a b : ι} {s : LoopState ι} {names : Names ι}
    {os : Answers} {options : List CliOption} {files : List UInt8 → ConfigFile} {code : ℕ}
    {g : Globals ι} (listening : Listening a s names) (different : a ≠ b)
    (sameConfig : ∀ cfg, reachesServer os options files = some cfg →
      cfg.socketPath = s.globals.cfg.socketPath)
    (fails : startUp b os options files names = .exited code g) :
    g.names s.globals.cfg.socketPath.bytes = some a ↔
      ¬ ((reachesServer os options files).isSome = true ∧
        RemovesOld os s.globals.cfg.socketPath.bytes) := by
  apply startUp_exited_names fails different listening.leads
  intro cfg reaches
  rw [sameConfig cfg reaches]

/-- The second loader after a start with some answers. -/
def secondLoader (os : Answers) : Globals ℕ :=
  (plainStart 1 os firstLoader.globals.names).globals

theorem listening_firstLoader : Listening 0 firstLoader firstLoader.globals.names :=
  listening_run firstLoader_running Maps.empty [] (by decide)

/-- The attach of the second loader is refused, and no name leads to the first
one any more. -/
theorem refused_attach_hides_loader :
    let os := { Answers.allGood with attach := false }
    plainStart 1 os firstLoader.globals.names = .exited 1 (secondLoader os) ∧
      ¬ (secondLoader os).names firstLoader.globals.cfg.socketPath.bytes = some 0 := by
  refine ⟨rfl, ?_⟩
  decide +kernel

/-- The second loader does not get a socket, and the first one is reachable. -/
theorem reachable_after_failure_no_socket :
    (secondLoader { Answers.allGood with socket := false }).names
      firstLoader.globals.cfg.socketPath.bytes = some 0 := by
  have fails : plainStart 1 { Answers.allGood with socket := false } firstLoader.globals.names =
      .exited 1 (secondLoader { Answers.allGood with socket := false }) := rfl
  refine (reachable_after_failure_iff listening_firstLoader (by decide) ?_ fails).mpr ?_
  · intro cfg reaches
    cases reaches
    rfl
  · decide +kernel

end EbpfNids.Loader
