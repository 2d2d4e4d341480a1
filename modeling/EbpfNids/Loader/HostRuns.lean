import EbpfNids.Loader.Host

/-!
# One loader at a hook

No two loaders are ever attached to one interface, unless one of them is in the
hardware, and no loader loses its program to another one: the kernel lets nobody
take a hook that is in use, as every configuration asks for that, and `cleanup`
detaches only what the process has attached itself. A loader that is killed
leaves its program for ever, and one that returns leaves none if the kernel lets
it be taken off (`loaders_exclusive`).

The names are weaker: a loader in its loop is reachable at its path only as long
as no other one has removed that path.
-/

set_option autoImplicit false

namespace EbpfNids.Loader

open Library Library.Runs Library.Places EbpfNids.DataPlane

variable {ι : Type*}

section Steps

variable {native : ℕ → Bool} {me : ι} {inputs : Inputs} {hooks : Hooks ι} {flags : UInt32}

/-! ## What a process keeps -/

/-- What `xdp_attached` is at a place of `main`, where that is certain. -/
def Pc.attached : Pc → Option Bool
  | .options | .removeOld | .bind | .listen | .attach => some false
  | .ringBuffer | .loop => some true
  | .removeSocket _ | .ended _ => some false
  | .detach _ | .killed => none

/-- Whether there is a listening socket, where that is certain. -/
def Pc.serving : Pc → Option Bool
  | .options | .removeOld | .bind | .listen => some false
  | .attach | .ringBuffer | .loop => some true
  | .ended _ => some false
  | .detach _ | .removeSocket _ | .killed => none

structure Proc.Sane (p : Proc ι) : Prop where
  sound : p.globals.cfg.Sound
  attached : ∀ b, p.pc.attached = some b → p.globals.xdpAttached = b
  serving : ∀ b, p.pc.serving = some b → p.globals.serverFd = b
  index : p.globals.xdpAttached = true → 0 < p.globals.ifindex

theorem Globals.hook_eq_none {g : Globals ι} (unattached : g.xdpAttached = false) :
    g.hook native = none := by
  rw [Globals.hook, unattached]
  rfl

theorem Globals.hook_eq_some {g : Globals ι} (attached : g.xdpAttached = true) :
    g.hook native = some (g.ifindex, xdpMode native g.ifindex g.cfg.xdpFlags) := by
  rw [Globals.hook, attached]
  rfl

theorem cleanupXdp_spec (g : Globals ι) (index : g.xdpAttached = true → 0 < g.ifindex) :
    g.cleanupXdp.xdpAttached = false ∧ g.cleanupXdp.cfg = g.cfg ∧
      g.cleanupXdp.serverFd = g.serverFd ∧ g.cleanupXdp.names = g.names ∧
      ∃ more, g.cleanupXdp.calls = g.calls ++ more := by
  rw [Globals.cleanupXdp]
  cases attached : g.xdpAttached with
  | true =>
      simp only [index attached, and_self, if_true]
      exact ⟨trivial, trivial, trivial, trivial, _, rfl⟩
  | false =>
      simp only [Bool.false_eq_true, false_and, if_false]
      exact ⟨trivial, trivial, trivial, trivial, [], (List.append_nil _).symm⟩

theorem cleanupSocket_spec (unlinks : Bool) (g : Globals ι) :
    (g.cleanupSocket unlinks).serverFd = false ∧
      (g.cleanupSocket unlinks).xdpAttached = g.xdpAttached ∧
      (g.cleanupSocket unlinks).cfg = g.cfg ∧
      (g.cleanupSocket unlinks).ifindex = g.ifindex := by
  rw [Globals.cleanupSocket]
  cases g.serverFd with
  | true => exact ⟨rfl, rfl, rfl, rfl⟩
  | false => exact ⟨rfl, rfl, rfl, rfl⟩

/-- A step that changes neither the configuration nor what is attached or served. -/
theorem Proc.Sane.goTo {p : Proc ι} (sane : p.Sane) {pc : Pc} {g : Globals ι}
    (cfg : g.cfg = p.globals.cfg) (attached : g.xdpAttached = p.globals.xdpAttached)
    (serverFd : g.serverFd = p.globals.serverFd) (ifindex : g.ifindex = p.globals.ifindex)
    (fromAttached : ∀ b, pc.attached = some b → p.pc.attached = some b)
    (fromServing : ∀ b, pc.serving = some b → p.pc.serving = some b) : (p.goTo pc g).Sane where
  sound := cfg.symm ▸ sane.sound
  attached b certain := attached.trans (sane.attached b (fromAttached b certain))
  serving b certain := serverFd.trans (sane.serving b (fromServing b certain))
  index there := ifindex.symm ▸ sane.index (attached.symm.trans there)

/-- A step that ends up with nothing attached. -/
theorem Proc.Sane.unattached {p : Proc ι} {pc : Pc} {g : Globals ι} (sound : g.cfg.Sound)
    (idle : g.xdpAttached = false) (attached : pc.attached ≠ some true)
    (serving : ∀ b, pc.serving = some b → g.serverFd = b) : (p.goTo pc g).Sane where
  sound := sound
  attached b certain := by
    cases b with
    | true => exact absurd certain attached
    | false => exact idle
  serving := serving
  index there := absurd (idle.symm.trans there) (by decide)

/-- Reading the configuration attaches and serves nothing. -/
theorem Proc.Sane.configured {p : Proc ι} (sane : p.Sane) (start : p.pc = .options)
    {g : Globals ι}
    (same : g = { p.globals with cfg := g.cfg, configPath := g.configPath, logFp := g.logFp }) :
    p.globals.xdpAttached = false ∧ g.xdpAttached = false ∧ g.serverFd = false := by
  have attached := sane.attached
  have serving := sane.serving
  rw [start] at attached serving
  refine ⟨attached _ rfl, ?_, ?_⟩
  · rw [same]
    exact attached _ rfl
  · rw [same]
    exact serving _ rfl

theorem Proc.Sane.advance {p : Proc ι} (sane : p.Sane) {next : Proc ι × Hooks ι}
    (outcome : Advanced native me inputs p hooks next) : next.1.Sane := by
  have attached := sane.attached
  have serving := sane.serving
  cases outcome with
  | rests gone => exact sane
  | gives start code g sound same =>
      obtain ⟨-, idle, silent⟩ := sane.configured start same
      refine .unattached sound idle (fun impossible => by cases impossible) ?_
      rintro b ⟨⟩
      exact silent
  | configures start g sound same =>
      obtain ⟨-, idle, silent⟩ := sane.configured start same
      refine .unattached sound idle (by decide) ?_
      rintro b ⟨⟩
      exact silent
  | fails before g same =>
      exact sane.goTo (by rw [same]) (by rw [same]) (by rw [same]) (by rw [same])
        (fun b impossible => by cases impossible) (fun b impossible => by cases impossible)
  | removes before =>
      refine sane.goTo rfl rfl rfl rfl ?_ ?_
      · rw [before]
        exact fun b => id
      · rw [before]
        exact fun b => id
  | refused before g same =>
      exact sane.goTo (by rw [same]) (by rw [same]) (by rw [same]) (by rw [same])
        (fun b impossible => by cases impossible) (fun b impossible => by cases impossible)
  | binds before free g same =>
      refine sane.goTo (by rw [same]) (by rw [same]) (by rw [same]) (by rw [same]) ?_ ?_
      · rw [before]
        exact fun b => id
      · rw [before]
        exact fun b => id
  | unheard before =>
      exact sane.goTo rfl rfl rfl rfl
        (fun b impossible => by cases impossible) (fun b impossible => by cases impossible)
  | listens before =>
      rw [before] at attached
      refine .unattached sane.sound (attached _ rfl) (by decide) ?_
      rintro b ⟨⟩
      rfl
  | misses before g more same =>
      rw [before] at attached
      refine .unattached ?_ ?_ (fun impossible => by cases impossible)
        (fun b impossible => by cases impossible)
      · rw [same]
        exact sane.sound
      · rw [same]
        exact attached _ rfl
  | attaches before g index granted same =>
      rw [before] at serving
      have config : g.cfg = p.globals.cfg := by rw [same]
      refine ⟨config.symm ▸ sane.sound, ?_, ?_, fun _ => index⟩
      · rintro b ⟨⟩
        show g.xdpAttached = true
        rw [same]
      · rintro b ⟨⟩
        show g.serverFd = true
        rw [same]
        exact serving _ rfl
  | enters before g same =>
      refine sane.goTo (by rw [same]) (by rw [same]) (by rw [same]) (by rw [same]) ?_ ?_
      · rw [before]
        exact fun b => id
      · rw [before]
        exact fun b => id
  | leaves before =>
      exact sane.goTo rfl rfl rfl rfl
        (fun b impossible => by cases impossible) (fun b impossible => by cases impossible)
  | detaches code before =>
      obtain ⟨idle, cfg, -⟩ := cleanupXdp_spec p.globals sane.index
      exact .unattached (cfg.symm ▸ sane.sound) idle (fun impossible => by cases impossible)
        (fun b impossible => by cases impossible)
  | ends code before =>
      obtain ⟨silent, same, cfg, -⟩ := cleanupSocket_spec inputs.os.unlinkAtExit p.globals
      rw [before] at attached
      refine .unattached (cfg.symm ▸ sane.sound) (same.trans (attached _ rfl))
        (fun impossible => by cases impossible) ?_
      rintro b ⟨⟩
      exact silent

/-! ## What a step does to the hooks -/

/-- A step leaves its process with what it has, or takes a free hook, or gives its
hook back, or leaves its program there because the kernel does not let it go. -/
inductive Turn (me : ι) (lets : Bool) (held : Option Hook) (hooks : Hooks ι) :
    Option Hook → Hooks ι → Prop where
  | keeps : Turn me lets held hooks held hooks
  | takes (hook : Hook) (idle : held = none) (free : hooks hook = none)
      (alone : hooks.rivalled hook = false) :
      Turn me lets held hooks (some hook) (Function.update hooks hook (some me))
  | gives (hook : Hook) (mine : held = some hook) :
      Turn me lets held hooks none (Function.update hooks hook none)
  | abandons (kept : lets = false) : Turn me lets held hooks none hooks

theorem Turn.same {lets : Bool} {held after : Option Hook} (same : after = held) :
    Turn me lets held hooks after hooks := by
  rw [same]
  exact .keeps

theorem Globals.hook_congr {g g' : Globals ι} (attached : g'.xdpAttached = g.xdpAttached)
    (ifindex : g'.ifindex = g.ifindex) (xdpFlags : g'.cfg.xdpFlags = g.cfg.xdpFlags) :
    g'.hook native = g.hook native := by
  rw [Globals.hook, Globals.hook, attached, ifindex, xdpFlags]

theorem Proc.Sane.turn {p : Proc ι} (sane : p.Sane) {next : Proc ι × Hooks ι}
    (outcome : Advanced native me inputs p hooks next) :
    Turn me inputs.detach (p.globals.hook native) hooks (next.1.globals.hook native) next.2 := by
  have attached := sane.attached
  cases outcome with
  | rests gone => exact .same rfl
  | gives start code g sound same =>
      obtain ⟨before, after, -⟩ := sane.configured start same
      exact .same ((Globals.hook_eq_none after).trans (Globals.hook_eq_none before).symm)
  | configures start g sound same =>
      obtain ⟨before, after, -⟩ := sane.configured start same
      exact .same ((Globals.hook_eq_none after).trans (Globals.hook_eq_none before).symm)
  | fails before g same =>
      have kept : g.hook native = p.globals.hook native :=
        Globals.hook_congr (by rw [same]) (by rw [same]) (by rw [same])
      exact .same kept
  | removes before => exact .same rfl
  | refused before g same =>
      have kept : g.hook native = p.globals.hook native :=
        Globals.hook_congr (by rw [same]) (by rw [same]) (by rw [same])
      exact .same kept
  | binds before free g same =>
      have kept : g.hook native = p.globals.hook native :=
        Globals.hook_congr (by rw [same]) (by rw [same]) (by rw [same])
      exact .same kept
  | unheard before => exact .same rfl
  | listens before => exact .same rfl
  | misses before g more same =>
      rw [before] at attached
      have after : g.xdpAttached = false := by
        rw [same]
        exact attached _ rfl
      exact .same ((Globals.hook_eq_none after).trans
        (Globals.hook_eq_none (attached _ rfl)).symm)
  | attaches before g index granted same =>
      rw [before] at attached
      obtain ⟨free, alone, hooks'⟩ := attach_true sane.sound.noexist granted
      have now : g.hook native =
          some (g.ifindex, xdpMode native g.ifindex p.globals.cfg.xdpFlags) := by
        have config : g.cfg = p.globals.cfg := by rw [same]
        rw [Globals.hook_eq_some (by rw [same]), config]
      show Turn me inputs.detach (p.globals.hook native) hooks (g.hook native) _
      rw [hooks', now]
      exact .takes _ (Globals.hook_eq_none (attached _ rfl)) free alone
  | enters before g same =>
      have kept : g.hook native = p.globals.hook native :=
        Globals.hook_congr (by rw [same]) (by rw [same]) (by rw [same])
      exact .same kept
  | leaves before => exact .same rfl
  | detaches code before =>
      have idle := (cleanupXdp_spec p.globals sane.index).1
      have after : p.globals.cleanupXdp.hook native = none := Globals.hook_eq_none idle
      show Turn me inputs.detach (p.globals.hook native) hooks
        (p.globals.cleanupXdp.hook native) _
      rw [detach_eq, after]
      split
      · rename_i detaches
        exact .gives _ (Globals.hook_eq_some detaches.1)
      · rename_i stays
        cases there : p.globals.xdpAttached with
        | false => exact .same (Globals.hook_eq_none there).symm
        | true =>
            refine .abandons ?_
            exact Bool.eq_false_iff.mpr fun lets => stays ⟨there, sane.index there, lets⟩
  | ends code before =>
      rw [before] at attached
      have same := (cleanupSocket_spec inputs.os.unlinkAtExit p.globals).2.1
      exact .same ((Globals.hook_eq_none (same.trans (attached _ rfl))).trans
        (Globals.hook_eq_none (attached _ rfl)).symm)

/-! ## What a step does to the names -/

/-- A path leads to the process, as far as it goes by the process alone. -/
def Proc.serves (p : Proc ι) : Prop :=
  p.globals.serverFd = true ∨ p.pc = .listen

/-- A step hides another process only by the removal of its path, and leaves a
process that serves with its path leading to it. -/
structure Naming (me : ι) (p : Proc ι) (names : Names ι) (p' : Proc ι) (names' : Names ι) :
    Prop where
  grows : ∀ call ∈ p.globals.calls, call ∈ p'.globals.calls
  others : ∀ path other, other ≠ me → names path = some other →
    names' path = some other ∨ .unlink path ∈ p'.globals.calls
  own : p'.serves → names' p'.globals.cfg.socketPath.bytes = some me ∨
    p.serves ∧ p'.globals.cfg.socketPath = p.globals.cfg.socketPath ∧ names' = names

/-- A step that makes no change of the names. -/
theorem Naming.quiet {p p' : Proc ι} {names names' : Names ι} (same : names' = names)
    (grows : ∀ call ∈ p.globals.calls, call ∈ p'.globals.calls)
    (own : p'.serves → p.serves ∧ p'.globals.cfg.socketPath = p.globals.cfg.socketPath) :
    Naming me p names p' names' where
  grows := grows
  others _ _ _ there := Or.inl (same.symm ▸ there)
  own serves := Or.inr ⟨(own serves).1, (own serves).2, same⟩

theorem unlink_others (path : List UInt8) (permitted : Bool) (g : Globals ι) {q : List UInt8}
    {other : ι} (there : g.names q = some other) :
    (g.unlink path permitted).names q = some other ∨
      .unlink q ∈ (g.unlink path permitted).calls := by
  by_cases same : q = path
  · subst same
    exact Or.inr (by simp [Globals.unlink])
  · left
    rw [Globals.unlink]
    dsimp only
    split
    · rw [Function.update_of_ne same]
      exact there
    · exact there

/-- A step that removes a path and does not serve. -/
theorem Naming.removal {p p' : Proc ι} {path : List UInt8} {permitted : Bool}
    (names : p'.globals.names = (p.globals.unlink path permitted).names)
    (calls : p'.globals.calls = (p.globals.unlink path permitted).calls)
    (silent : ¬ p'.serves) : Naming me p p.globals.names p' p'.globals.names where
  grows call member := by
    rw [calls]
    exact List.mem_append_left _ member
  others q other different there := by
    rw [names, calls]
    exact unlink_others path permitted p.globals there
  own serves := absurd serves silent

theorem Proc.not_serves {p : Proc ι} {pc : Pc} {g : Globals ι} (silent : g.serverFd = false)
    (heard : pc ≠ .listen) : ¬ (p.goTo pc g).serves := by
  rintro (serving | here)
  · exact Bool.noConfusion (silent.symm.trans serving)
  · exact heard here

/-- A step that keeps the configuration and the socket, and adds calls. -/
theorem Naming.keeping {p : Proc ι} {pc : Pc} {g : Globals ι} (heard : pc ≠ .listen)
    (names : g.names = p.globals.names) (cfg : g.cfg = p.globals.cfg)
    (serverFd : g.serverFd = p.globals.serverFd) (more : List Call)
    (calls : g.calls = p.globals.calls ++ more) :
    Naming me p p.globals.names (p.goTo pc g) g.names := by
  refine .quiet names ?_ ?_
  · intro call member
    show call ∈ g.calls
    rw [calls]
    exact List.mem_append_left _ member
  · rintro (serving | here)
    · exact ⟨Or.inl (serverFd.symm.trans serving), congrArg _ cfg⟩
    · exact absurd here heard

theorem cleanupSocket_names (unlinks : Bool) (g : Globals ι) :
    ((g.cleanupSocket unlinks).names = (g.unlink g.cfg.socketPath.bytes unlinks).names ∧
        (g.cleanupSocket unlinks).calls = (g.unlink g.cfg.socketPath.bytes unlinks).calls) ∨
      (g.cleanupSocket unlinks).names = g.names ∧ (g.cleanupSocket unlinks).calls = g.calls := by
  rw [Globals.cleanupSocket]
  cases g.serverFd with
  | true => exact Or.inl ⟨rfl, rfl⟩
  | false => exact Or.inr ⟨rfl, rfl⟩

theorem Proc.Sane.naming {p : Proc ι} (sane : p.Sane) {next : Proc ι × Hooks ι}
    (outcome : Advanced native me inputs p hooks next) :
    Naming me p p.globals.names next.1 next.1.globals.names := by
  have serving := sane.serving
  have nothing := (List.append_nil p.globals.calls).symm
  cases outcome with
  | rests gone => exact .quiet rfl (fun _ => id) fun serves => ⟨serves, rfl⟩
  | gives start code g sound same =>
      obtain ⟨-, -, silent⟩ := sane.configured start same
      refine .quiet (by rw [Proc.goTo, Proc.globals, same]) ?_ ?_
      · intro call member
        show call ∈ g.calls
        rw [same]
        exact member
      · exact fun serves => absurd serves (Proc.not_serves silent (by simp))
  | configures start g sound same =>
      obtain ⟨-, -, silent⟩ := sane.configured start same
      refine .quiet (by rw [Proc.goTo, Proc.globals, same]) ?_ ?_
      · intro call member
        show call ∈ g.calls
        rw [same]
        exact member
      · exact fun serves => absurd serves (Proc.not_serves silent (by simp))
  | fails before g same =>
      exact .keeping (by simp) (by rw [same]) (by rw [same]) (by rw [same]) []
        (by rw [same]; exact nothing)
  | removes before =>
      rw [before] at serving
      exact .removal rfl rfl (Proc.not_serves (serving _ rfl) (by simp))
  | refused before g same =>
      exact .keeping (by simp) (by rw [same]) (by rw [same]) (by rw [same]) _ (by rw [same])
  | binds before free g same =>
      refine ⟨?_, ?_, ?_⟩
      · intro call member
        show call ∈ g.calls
        rw [same]
        exact List.mem_append_left _ member
      · intro path other different there
        left
        show g.names path = some other
        rw [same]
        dsimp only
        rw [Function.update_of_ne]
        · exact there
        · rintro rfl
          rw [free] at there
          cases there
      · intro serves
        left
        show g.names g.cfg.socketPath.bytes = some me
        rw [same]
        exact Function.update_self ..
  | unheard before =>
      rw [before] at serving
      exact .removal rfl rfl (Proc.not_serves (serving _ rfl) (by simp))
  | listens before =>
      exact .quiet rfl (fun _ => id) fun _ => ⟨Or.inr before, rfl⟩
  | misses before g more same =>
      exact .keeping (by simp) (by rw [same]) (by rw [same]) (by rw [same]) more (by rw [same])
  | attaches before g index granted same =>
      exact .keeping (by simp) (by rw [same]) (by rw [same]) (by rw [same]) _ (by rw [same])
  | enters before g same =>
      exact .keeping (by simp) (by rw [same]) (by rw [same]) (by rw [same]) []
        (by rw [same]; exact nothing)
  | leaves before => exact .keeping (by simp) rfl rfl rfl [] nothing
  | detaches code before =>
      obtain ⟨-, cfg, serverFd, names, more, calls⟩ := cleanupXdp_spec p.globals sane.index
      exact .keeping (by simp) names cfg serverFd more calls
  | ends code before =>
      have silent := (cleanupSocket_spec inputs.os.unlinkAtExit p.globals).1
      have gone := @Proc.not_serves _ p (.ended code) _ silent (by simp)
      rcases cleanupSocket_names inputs.os.unlinkAtExit p.globals with
        ⟨names, calls⟩ | ⟨names, calls⟩
      · exact .removal names calls gone
      · refine .quiet names (fun call member => ?_) fun serves => absurd serves gone
        exact (congrArg (call ∈ ·) calls).mpr member

/-! ## What the events of the loop do -/

/-- A reload changes the rest of the configuration and the log. -/
structure Refreshed (g g' : Globals ι) : Prop where
  same : g' = { g with cfg := g'.cfg, logFp := g'.logFp }
  xdpFlags : g'.cfg.xdpFlags = g.cfg.xdpFlags
  socketPath : g'.cfg.socketPath = g.cfg.socketPath
  sound : g.cfg.Sound → g'.cfg.Sound

theorem Refreshed.refl (g : Globals ι) : Refreshed g g := ⟨rfl, rfl, rfl, id⟩

theorem reload_refreshed (file : ConfigFile) (opens : Bool) (g : Globals ι) :
    Refreshed g (reloadConfigRuntime file opens g).1 := by
  rcases reload_cases file opens g with ⟨e, rejected, -⟩ | ⟨-, logFp, accepted⟩
  · rw [rejected]
    exact .refl g
  · rw [accepted]
    exact ⟨rfl, rfl, rfl, fun sound =>
      ⟨(loadConfigFile_sound file sound).interval, sound.noexist⟩⟩

theorem loopStep_refreshed (s : LoopState ι) (event : LoopEvent)
    (stays : ∀ unlinks, event ≠ .leave unlinks) :
    Refreshed s.globals (loopStep s event).globals := by
  cases event with
  | sighup => exact .refl _
  | terminate => exact .refl _
  | iterate now file opens =>
      rw [loopStep]
      split
      · dsimp only
        split
        · exact reload_refreshed file opens s.globals
        · exact .refl _
      · exact .refl _
  | leave unlinks => exact absurd rfl (stays unlinks)
  | sys event =>
      rw [loopStep]
      split
      · exact .refl _
      · exact .refl _

section Refreshed

variable {p p' : Proc ι} (refreshed : Refreshed p.globals p'.globals) (pc : p'.pc = p.pc)

include refreshed

theorem Refreshed.hook : p'.globals.hook native = p.globals.hook native :=
  Globals.hook_congr (by rw [refreshed.same]) (by rw [refreshed.same]) refreshed.xdpFlags

include pc

theorem Refreshed.sane (sane : p.Sane) : p'.Sane where
  sound := refreshed.sound sane.sound
  attached b certain := by
    rw [refreshed.same]
    exact sane.attached b (pc ▸ certain)
  serving b certain := by
    rw [refreshed.same]
    exact sane.serving b (pc ▸ certain)
  index there := by
    rw [refreshed.same] at there ⊢
    exact sane.index there

theorem Refreshed.naming (names : Names ι) : Naming me p names p' names := by
  refine .quiet rfl ?_ ?_
  · intro call member
    rw [refreshed.same]
    exact member
  · rintro (serving | here)
    · rw [refreshed.same] at serving
      exact ⟨Or.inl serving, refreshed.socketPath⟩
    · exact ⟨Or.inr (pc.symm.trans here), refreshed.socketPath⟩

end Refreshed

end Steps

/-! ## What every run keeps -/

def Host.held (native : ℕ → Bool) (host : Host ι) (i : ι) : Option Hook :=
  (host.procs i).globals.hook native

/-- The kernel lets every program be taken off. -/
def HostEvent.lets : HostEvent ι → Bool
  | .advance _ inputs => inputs.detach
  | _ => true

/-- The invariant. -/
structure Host.Holds (native : ℕ → Bool) (lenient : Prop) (host : Host ι) : Prop where
  sane : ∀ i, (host.procs i).Sane
  owned : Owned (host.held native) host.hooks
  known : lenient → Known (host.held native) host.hooks
  separate : ∀ ifindex, host.hooks (ifindex, .skb) = none ∨ host.hooks (ifindex, .drv) = none
  reachable : ∀ i, (host.procs i).serves →
    host.names (host.procs i).globals.cfg.socketPath.bytes = some i ∨
      ∃ j, j ≠ i ∧ .unlink (host.procs i).globals.cfg.socketPath.bytes ∈
        (host.procs j).globals.calls

section Invariant

variable {native : ℕ → Bool} {lenient : Prop} {host : Host ι}

/-- A process that is killed keeps everything but its place. -/
theorem Proc.Sane.kill {p : Proc ι} (sane : p.Sane) : Proc.Sane { p with pc := .killed } where
  sound := sane.sound
  attached _ impossible := by cases impossible
  serving _ impossible := by cases impossible
  index := sane.index

theorem Host.holds_start (native : ℕ → Bool) (lenient : Prop) :
    (Host.start : Host ι).Holds native lenient where
  sane i := by
    refine ⟨configDefaults_sound, ?_, ?_, ?_⟩
    · rintro b ⟨⟩
      rfl
    · rintro b ⟨⟩
      rfl
    · exact fun impossible => by cases impossible
  owned i hook impossible := by cases impossible
  known _ hook i impossible := by cases impossible
  separate ifindex := Or.inl rfl
  reachable i serves := by
    rcases serves with impossible | impossible
    · cases impossible
    · cases impossible

/-- The hook taken has no rival, so that there are none afterwards. -/
theorem separate_take {hooks : Hooks ι} {hook : Hook} (me : ι)
    (separate : ∀ ifindex, hooks (ifindex, .skb) = none ∨ hooks (ifindex, .drv) = none)
    (alone : hooks.rivalled hook = false) (ifindex : ℕ) :
    Function.update hooks hook (some me) (ifindex, .skb) = none ∨
      Function.update hooks hook (some me) (ifindex, .drv) = none := by
  obtain ⟨index, mode⟩ := hook
  by_cases here : ifindex = index
  · subst here
    cases mode with
    | skb =>
        right
        rw [Function.update_of_ne (by simp)]
        exact Option.not_isSome_iff_eq_none.mp (Bool.eq_false_iff.mp alone)
    | drv =>
        left
        rw [Function.update_of_ne (by simp)]
        exact Option.not_isSome_iff_eq_none.mp (Bool.eq_false_iff.mp alone)
    | hw =>
        rw [Function.update_of_ne (by simp), Function.update_of_ne (by simp)]
        exact separate ifindex
  · rw [Function.update_of_ne (by simp [here]), Function.update_of_ne (by simp [here])]
    exact separate ifindex

theorem separate_give {hooks : Hooks ι} (hook : Hook)
    (separate : ∀ ifindex, hooks (ifindex, .skb) = none ∨ hooks (ifindex, .drv) = none)
    (ifindex : ℕ) :
    Function.update hooks hook none (ifindex, .skb) = none ∨
      Function.update hooks hook none (ifindex, .drv) = none := by
  have empties : ∀ other, hooks other = none → Function.update hooks hook none other = none := by
    intro other free
    by_cases here : other = hook
    · rw [here, Function.update_self]
    · rw [Function.update_of_ne here]
      exact free
  exact (separate ifindex).imp (empties _) (empties _)

section Turn

variable {i : ι} {lets : Bool} {now : Option Hook} {hooks hooks' : Hooks ι}
  {held : ι → Option Hook}

theorem Turn.separate (turn : Turn i lets (held i) hooks now hooks')
    (separate : ∀ ifindex, hooks (ifindex, .skb) = none ∨ hooks (ifindex, .drv) = none) :
    ∀ ifindex, hooks' (ifindex, .skb) = none ∨ hooks' (ifindex, .drv) = none := by
  cases turn with
  | keeps => exact separate
  | takes hook idle free alone => exact separate_take i separate alone
  | gives hook mine => exact separate_give hook separate
  | abandons kept => exact separate

variable [DecidableEq ι]

theorem Turn.owned (turn : Turn i lets (held i) hooks now hooks') (owned : Owned held hooks) :
    Owned (Function.update held i now) hooks' := by
  cases turn with
  | keeps =>
      rw [Function.update_eq_self]
      exact owned
  | takes hook idle free alone => exact owned.take free
  | gives hook mine => exact owned.give mine
  | abandons kept => exact owned.forget

theorem Turn.known (turn : Turn i lets (held i) hooks now hooks') (allowed : lets = true)
    (known : Known held hooks) : Known (Function.update held i now) hooks' := by
  cases turn with
  | keeps =>
      rw [Function.update_eq_self]
      exact known
  | takes hook idle free alone => exact known.take idle
  | gives hook mine => exact known.give mine
  | abandons kept =>
      rw [allowed] at kept
      cases kept

end Turn

variable [DecidableEq ι]

theorem Host.held_update (i : ι) (p : Proc ι) (names : Names ι) (hooks : Hooks ι) :
    Host.held native
        { procs := Function.update host.procs i p, names := names, hooks := hooks } =
      Function.update (host.held native) i (p.globals.hook native) := by
  funext j
  by_cases own : j = i
  · subst own
    simp [Host.held]
  · simp [Host.held, own]

/-- A step of one process, with what it does to the hooks and to the names. -/
theorem Host.Holds.update (holds : host.Holds native lenient) {i : ι} {p : Proc ι}
    {names : Names ι} {hooks : Hooks ι} {lets : Bool} (sane : p.Sane)
    (turn : Turn i lets (host.held native i) host.hooks (p.globals.hook native) hooks)
    (allowed : lenient → lets = true) (naming : Naming i (host.procs i) host.names p names) :
    Host.Holds native lenient
      { procs := Function.update host.procs i p, names := names, hooks := hooks } := by
  obtain ⟨grows, others, own⟩ := naming
  refine ⟨?_, ?_, ?_, turn.separate holds.separate, ?_⟩
  · intro j
    dsimp only
    by_cases here : j = i
    · subst here
      rw [Function.update_self]
      exact sane
    · rw [Function.update_of_ne here]
      exact holds.sane j
  · rw [Host.held_update]
    exact turn.owned holds.owned
  · intro all
    rw [Host.held_update]
    exact turn.known (allowed all) (holds.known all)
  · intro j serves
    dsimp only at serves ⊢
    by_cases here : j = i
    · subst here
      rw [Function.update_self] at serves ⊢
      rcases own serves with leads | ⟨served, path, same⟩
      · exact Or.inl leads
      · rw [path, same]
        refine (holds.reachable j served).imp id ?_
        rintro ⟨k, different, removed⟩
        refine ⟨k, different, ?_⟩
        rw [Function.update_of_ne different]
        exact removed
    · rw [Function.update_of_ne here] at serves ⊢
      rcases holds.reachable j serves with leads | ⟨k, different, removed⟩
      · refine (others _ j here leads).imp id fun removed => ⟨i, Ne.symm here, ?_⟩
        rw [Function.update_self]
        exact removed
      · refine Or.inr ⟨k, different, ?_⟩
        by_cases actor : k = i
        · subst actor
          rw [Function.update_self]
          exact grows _ removed
        · rw [Function.update_of_ne actor]
          exact removed

/-- An event of the loop of one process. -/
theorem Host.Holds.refresh (holds : host.Holds native lenient) (i : ι) (event : LoopEvent)
    (stays : ∀ unlinks, event ≠ .leave unlinks) :
    Host.Holds native lenient { host with
      procs := Function.update host.procs i
        { host.procs i with state := loopStep (host.procs i).state event } } := by
  have refreshed : Refreshed (host.procs i).globals
      (Proc.globals { host.procs i with state := loopStep (host.procs i).state event }) :=
    loopStep_refreshed _ event stays
  exact @Host.Holds.update _ native lenient host _ holds i _ _ _ true
    (refreshed.sane rfl (holds.sane i)) (.same refreshed.hook) (fun _ => rfl)
    (refreshed.naming rfl _)

/-- **Step lemma.** -/
theorem Host.Holds.step (holds : host.Holds native lenient) (event : HostEvent ι)
    (allowed : lenient → event.lets = true) :
    (hostStep native host event).Holds native lenient := by
  cases event with
  | advance i inputs =>
      have sane : ((host.procs i).sees host.names).Sane :=
        ⟨(holds.sane i).sound, (holds.sane i).attached, (holds.sane i).serving,
          (holds.sane i).index⟩
      have outcome := @advance_outcome _ native i inputs host.hooks ((host.procs i).sees host.names)
      obtain ⟨grows, others, own⟩ := sane.naming outcome
      exact holds.update (sane.advance outcome) (sane.turn outcome) allowed ⟨grows, others, own⟩
  | loop i event =>
      rw [hostStep]
      split
      · rename_i able
        refine holds.refresh i event ?_
        rintro unlinks rfl
        cases able
      · exact holds
  | kill i =>
      rw [hostStep]
      split
      · rw [Function.update_eq_self]
        exact holds
      · refine @Host.Holds.update _ native lenient host _ holds i _ _ _ true (holds.sane i).kill
          .keeps (fun _ => rfl) (.quiet rfl (fun _ => id) ?_)
        rintro (serving | impossible)
        · exact ⟨Or.inl serving, rfl⟩
        · cases impossible
  | arrive hook cpu frame kernel =>
      rw [hostStep]
      split
      · exact holds
      · rename_i i _
        exact holds.refresh i _ fun unlinks impossible => by cases impossible

/-- **Run lemma.** -/
theorem Host.holds_run (native : ℕ → Bool) (events : List (HostEvent ι)) :
    Host.Holds native (∀ event ∈ events, event.lets = true)
      (exec (hostStep native) .start events) := by
  apply exec_invariant (Host.holds_start native _)
  intro p member holds
  exact holds.step p.2 fun all => all p.2 (event_mem_of_mem_steps _ member)

/-! ## What is killed stays where it is -/

/-- The process has been killed and has its program at a hook. -/
structure Host.KilledAt (native : ℕ → Bool) (i : ι) (hook : Hook) (host : Host ι) : Prop where
  killed : (host.procs i).pc = .killed
  held : host.held native i = some hook

/-- A step of one process, which is not a killed one unless it keeps what it has. -/
theorem Host.KilledAt.update {i j : ι} {hook : Hook} (killed : host.KilledAt native i hook)
    {p : Proc ι} (names : Names ι) (hooks : Hooks ι)
    (stays : (host.procs j).pc = .killed →
      p.pc = .killed ∧ p.globals.hook native = (host.procs j).globals.hook native) :
    Host.KilledAt native i hook
      { procs := Function.update host.procs j p, names := names, hooks := hooks } := by
  by_cases here : i = j
  · subst here
    obtain ⟨pc, same⟩ := stays killed.killed
    refine ⟨?_, ?_⟩
    · dsimp only
      rw [Function.update_self]
      exact pc
    · rw [Host.held_update, Function.update_self, same]
      exact killed.held
  · refine ⟨?_, ?_⟩
    · dsimp only
      rw [Function.update_of_ne here]
      exact killed.killed
    · rw [Host.held_update, Function.update_of_ne here]
      exact killed.held

theorem Host.KilledAt.step {i : ι} {hook : Hook} (killed : host.KilledAt native i hook)
    (event : HostEvent ι) : (hostStep native host event).KilledAt native i hook := by
  cases event with
  | advance j inputs =>
      refine killed.update _ _ fun pc => ?_
      have rests : ((host.procs j).sees host.names).advance native j inputs host.hooks =
          ((host.procs j).sees host.names, host.hooks) := by
        have place : ((host.procs j).sees host.names).pc = .killed := pc
        rw [Proc.advance, place]
      rw [rests]
      exact ⟨pc, rfl⟩
  | loop j event =>
      rw [hostStep]
      split
      · rename_i able
        refine killed.update _ _ fun pc => ⟨pc, ?_⟩
        refine Refreshed.hook (loopStep_refreshed _ event ?_)
        rintro unlinks rfl
        cases able
      · exact killed
  | kill j =>
      refine killed.update _ _ fun pc => ?_
      rw [pc]
      exact ⟨pc, rfl⟩
  | arrive hook cpu frame kernel =>
      rw [hostStep]
      split
      · exact killed
      · refine killed.update _ _ fun pc => ⟨pc, ?_⟩
        exact Refreshed.hook (loopStep_refreshed _ _ fun unlinks impossible => by cases impossible)

/-! ## Several loaders on one host -/

/-- What holds of the host after a run. -/
structure Exclusive (native : ℕ → Bool) (events : List (HostEvent ι)) (host : Host ι) : Prop where
  owner : ∀ i hook, host.held native i = some hook → host.hooks hook = some i
  looping : ∀ i, (host.procs i).pc = .loop → ∃ hook, host.held native i = some hook
  apart : ∀ i j ifindex mode mode', i ≠ j → host.held native i = some (ifindex, mode) →
    host.held native j = some (ifindex, mode') → mode ≠ mode' ∧ (mode = .hw ∨ mode' = .hw)
  lasting : ∀ before after i hook, events = before ++ after →
    (exec (hostStep native) .start before).KilledAt native i hook → host.hooks hook = some i
  returned : (∀ event ∈ events, event.lets = true) → ∀ hook i, host.hooks hook = some i →
    host.held native i = some hook ∧ ∀ code, (host.procs i).pc ≠ .ended code
  reachable : ∀ i, (host.procs i).pc = .loop →
    host.names (host.procs i).globals.cfg.socketPath.bytes = some i ∨
      ∃ j, j ≠ i ∧ .unlink (host.procs i).globals.cfg.socketPath.bytes ∈
        (host.procs j).globals.calls

/-- **Several loaders on one host.** -/
theorem loaders_exclusive (native : ℕ → Bool) (events : List (HostEvent ι)) :
    Exclusive native events (exec (hostStep native) .start events) := by
  have holds := Host.holds_run native events
  refine ⟨holds.owned, ?_, ?_, ?_, ?_, ?_⟩
  · intro i looping
    have attached := (holds.sane i).attached
    rw [looping] at attached
    exact ⟨_, Globals.hook_eq_some (attached _ rfl)⟩
  · intro i j ifindex mode mode' different mine theirs
    have modes : mode ≠ mode' := by
      rintro rfl
      exact different (holds.owned.unique mine theirs)
    refine ⟨modes, ?_⟩
    have first := holds.owned i _ mine
    have second := holds.owned j _ theirs
    have free := holds.separate ifindex
    cases mode with
    | hw => exact Or.inl rfl
    | skb =>
        cases mode' with
        | hw => exact Or.inr rfl
        | skb => exact absurd rfl modes
        | drv =>
            rw [first, second] at free
            simp at free
    | drv =>
        cases mode' with
        | hw => exact Or.inr rfl
        | drv => exact absurd rfl modes
        | skb =>
            rw [first, second] at free
            simp at free
  · rintro before after i hook rfl killed
    rw [exec_append] at holds ⊢
    have stays : (exec (hostStep native) (exec (hostStep native) .start before)
        after).KilledAt native i hook :=
      exec_invariant killed fun p _ killed => killed.step p.2
    exact holds.owned i hook stays.held
  · intro all hook i there
    have held := holds.known all hook i there
    refine ⟨held, ?_⟩
    intro code ended
    have attached := (holds.sane i).attached
    rw [ended] at attached
    have none := @Globals.hook_eq_none _ native _ (attached _ rfl)
    exact Option.some_ne_none _ (held.symm.trans none)
  · intro i looping
    have serving := (holds.sane i).serving
    rw [looping] at serving
    exact holds.reachable i (Or.inl (serving _ rfl))

end Invariant

end EbpfNids.Loader
