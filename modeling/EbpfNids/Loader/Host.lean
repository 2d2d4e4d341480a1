import EbpfNids.Library.Places
import EbpfNids.Loader.MainLoop

/-!
# The loaders of one host

Any number of loaders run on one host. They share the names of sockets and the
XDP hooks of the interfaces, and take turns between any two calls that are seen
outside the process. What the kernel answers to `bind` and to
`bpf_set_link_xdp_fd` follows from what the loaders have done before; the other
answers are inputs.

An interface has one program in software, in one of two modes, and one in the
hardware. The flags of the configuration ask for a mode and that no program is
replaced; `cleanup` clears the second request, as otherwise it could not take its
program off (`detach_eq`). A loader on whose host nothing else happens starts as
`startUp` says (`alone_startUp`).
-/

set_option autoImplicit false

namespace EbpfNids.Loader

open Library Library.Runs Library.Places EbpfNids.DataPlane

variable {ι : Type*}

/-! ## The hooks of the interfaces -/

inductive XdpMode where
  | skb
  | drv
  | hw
deriving DecidableEq, Repr

/-- The mode that flags ask for. Without one, it is that of the driver if the
driver has one (`native`). -/
def xdpMode (native : ℕ → Bool) (ifindex : ℕ) (flags : UInt32) : XdpMode :=
  if flags &&& xdpFlagsHwMode ≠ 0 then .hw
  else if flags &&& xdpFlagsDrvMode ≠ 0 then .drv
  else if flags &&& xdpFlagsSkbMode ≠ 0 then .skb
  else if native ifindex then .drv
  else .skb

/-- The mode that an interface cannot have at the same time. -/
def XdpMode.rival : XdpMode → Option XdpMode
  | .skb => some .drv
  | .drv => some .skb
  | .hw => none

/-- An interface and a mode. -/
abbrev Hook := ℕ × XdpMode

/-- Whose program each hook runs. -/
abbrev Hooks (ι : Type*) := Owners Hook ι

/-- The hook is of a mode that cannot be used beside one in use. -/
def Hooks.rivalled (hooks : Hooks ι) (hook : Hook) : Bool :=
  (hook.2.rival.bind fun mode => hooks (hook.1, mode)).isSome

/-- `bpf_set_link_xdp_fd` with a program, or with -1, and whether it succeeds. -/
def bpfSetLinkXdpFd (native : ℕ → Bool) (program : Option ι) (ifindex : ℕ) (flags : UInt32)
    (hooks : Hooks ι) : Hooks ι × Bool :=
  let hook := (ifindex, xdpMode native ifindex flags)
  if flags &&& xdpFlagsUpdateIfNoexist ≠ 0 ∧ (hooks hook).isSome then (hooks, false)
  else if program.isSome ∧ hooks.rivalled hook then (hooks, false)
  else (Function.update hooks hook program, true)

/-! ## A loader -/

/-- Where `main` is. -/
inductive Pc where
  | options
  | removeOld
  | bind
  | listen
  | attach
  | ringBuffer
  | loop
  | detach (code : ℕ)
  | removeSocket (code : ℕ)
  | ended (code : ℕ)
  | killed
deriving DecidableEq, Repr

/-- The process is no more. -/
def Pc.isGone : Pc → Bool
  | .ended _ | .killed => true
  | _ => false

/-- The names among the globals are those that the process has seen last. -/
structure Proc (ι : Type*) where
  pc : Pc
  state : LoopState ι

namespace Proc

def globals (p : Proc ι) : Globals ι := p.state.globals

/-- The process gets somewhere with its globals. -/
def goTo (p : Proc ι) (pc : Pc) (g : Globals ι) : Proc ι where
  pc := pc
  state := { p.state with globals := g }

def sees (p : Proc ι) (names : Names ι) : Proc ι :=
  p.goTo p.pc { p.globals with names := names }

end Proc

/-- The hook at which the process has its program, as it remembers it. -/
def Globals.hook (native : ℕ → Bool) (g : Globals ι) : Option Hook :=
  if g.xdpAttached then some (g.ifindex, xdpMode native g.ifindex g.cfg.xdpFlags) else none

/-- `cleanup` up to the skeleton. -/
def Globals.cleanupXdp (g : Globals ι) : Globals ι :=
  let g := { g with rb := false }
  let g :=
    if g.xdpAttached ∧ g.ifindex > 0 then
      { g with
        calls := g.calls ++
          [.detachXdp g.ifindex (g.cfg.xdpFlags &&& ~~~xdpFlagsUpdateIfNoexist)]
        xdpAttached := false }
    else g
  { g with skel := false }

/-- The rest of `cleanup`. -/
def Globals.cleanupSocket (unlinks : Bool) (g : Globals ι) : Globals ι :=
  let g :=
    if g.serverFd then g.unlink g.cfg.socketPath.bytes unlinks else g
  { g with serverFd := false, logFp := false }

/-- What a process is given: its command line, the files, what the kernel answers
besides the sockets and the hooks, and whether it lets a program be taken off. -/
structure Inputs where
  options : List CliOption
  files : List UInt8 → ConfigFile
  os : Answers
  detach : Bool

/-- The answers to a process at the hooks of its host. -/
def Inputs.answers (native : ℕ → Bool) (me : ι) (inputs : Inputs) (flags : UInt32)
    (hooks : Hooks ι) : Answers :=
  { inputs.os with
    attach := inputs.os.attach &&
      inputs.os.ifNametoindex.all fun index =>
        (bpfSetLinkXdpFd native (some me) index.val flags hooks).2 }

/-- The next step of `main`, at most one of whose calls is seen outside. -/
def Proc.advance (native : ℕ → Bool) (me : ι) (inputs : Inputs) (p : Proc ι) (hooks : Hooks ι) :
    Proc ι × Hooks ι :=
  let g := p.globals
  let os := inputs.os
  let path := g.cfg.socketPath.bytes
  match p.pc with
  | .options =>
      match configure inputs.options inputs.files with
      | .error (code, cfg) => (p.goTo (.ended code) { g with cfg := cfg }, hooks)
      | .ok (configPath, cfg) =>
          let g := { g with configPath := configPath, cfg := cfg }
          if cfg.daemonMode && !os.daemon then (p.goTo (.ended 1) g, hooks)
          else
            match g.openLogFile os.openLog with
            | (g, false) => (p.goTo (.ended 1) g, hooks)
            | (g, true) => (p.goTo .removeOld g, hooks)
  | .removeOld =>
      if !os.socket then (p.goTo (.detach 1) g, hooks)
      else (p.goTo .bind (g.unlink path os.unlinkOld), hooks)
  | .bind =>
      match g.bind me path os.bind with
      | (g, false) => (p.goTo (.detach 1) g, hooks)
      | (g, true) => (p.goTo .listen g, hooks)
  | .listen =>
      if !os.listen then (p.goTo (.detach 1) (g.unlink path os.unlinkUnheard), hooks)
      else (p.goTo .attach { g with serverFd := true }, hooks)
  | .attach =>
      match g.loadAndAttachBpf (inputs.answers native me g.cfg.xdpFlags hooks) with
      | (g, false) => (p.goTo (.detach 1) g, hooks)
      | (g, true) =>
          (p.goTo .ringBuffer g,
            (bpfSetLinkXdpFd native (some me) g.ifindex g.cfg.xdpFlags hooks).1)
  | .ringBuffer =>
      match g.setupRingBuffer os with
      | (g, false) => (p.goTo (.detach 1) g, hooks)
      | (g, true) => (p.goTo (if os.statsFd then .loop else .detach 1) g, hooks)
  | .loop =>
      if p.state.phase = .waiting ∧ p.state.exiting = true then (p.goTo (.detach 0) g, hooks)
      else (p, hooks)
  | .detach code =>
      (p.goTo (.removeSocket code) g.cleanupXdp,
        if g.xdpAttached ∧ g.ifindex > 0 ∧ inputs.detach then
          (bpfSetLinkXdpFd native none g.ifindex
            (g.cfg.xdpFlags &&& ~~~xdpFlagsUpdateIfNoexist) hooks).1
        else hooks)
  | .removeSocket code => (p.goTo (.ended code) (g.cleanupSocket os.unlinkAtExit), hooks)
  | .ended _ => (p, hooks)
  | .killed => (p, hooks)

/-- The events of the loop that can happen to a process: a signal after `main` has
set its handlers, a change of its maps by another tool, and in the loop all but a
frame and the end. -/
def Proc.allows (p : Proc ι) : LoopEvent → Bool
  | .sighup => !p.pc.isGone && p.pc != .options
  | .terminate => !p.pc.isGone && p.pc != .options
  | .leave _ => false
  | .sys (.data (.packet _ _ _)) => false
  | .sys (.data _) => true
  | _ => p.pc == .loop

/-! ## The host -/

structure Host (ι : Type*) where
  procs : ι → Proc ι
  names : Names ι
  hooks : Hooks ι

def Host.start : Host ι where
  procs := fun _ => ⟨.options, .enter (Globals.init fun _ => none) Maps.empty⟩
  names := fun _ => none
  hooks := fun _ => none

/-- A process makes a step, has an event of its loop, or is killed; or a frame
comes to a hook. -/
inductive HostEvent (ι : Type*) where
  | advance (i : ι) (inputs : Inputs)
  | loop (i : ι) (event : LoopEvent)
  | kill (i : ι)
  | arrive (hook : Hook) (cpu : Cpu) (frame : Frame) (kernel : Kernel)

/-- A frame goes to the maps of the loader whose program the hook runs. -/
def hostStep [DecidableEq ι] (native : ℕ → Bool) (host : Host ι) : HostEvent ι → Host ι
  | .advance i inputs =>
      let next := ((host.procs i).sees host.names).advance native i inputs host.hooks
      { procs := Function.update host.procs i next.1
        names := next.1.globals.names
        hooks := next.2 }
  | .loop i event =>
      let p := host.procs i
      if p.allows event then
        { host with
          procs := Function.update host.procs i { p with state := loopStep p.state event } }
      else host
  | .kill i =>
      let p := host.procs i
      { host with
        procs := Function.update host.procs i
          (if p.pc.isGone then p else { p with pc := .killed }) }
  | .arrive hook cpu frame kernel =>
      match host.hooks hook with
      | none => host
      | some i =>
          let p := host.procs i
          { host with
            procs := Function.update host.procs i
              { p with state := loopStep p.state (.sys (.data (.packet cpu frame kernel))) } }

/-! ## What a step can do -/

section Steps

variable {native : ℕ → Bool} {me : ι} {inputs : Inputs} {hooks : Hooks ι} {flags : UInt32}

/-- Without its first flag, the flags ask for the same mode. -/
theorem xdpMode_masked (native : ℕ → Bool) (ifindex : ℕ) (flags : UInt32) :
    xdpMode native ifindex (flags &&& ~~~xdpFlagsUpdateIfNoexist) =
      xdpMode native ifindex flags := by
  have keeps : ∀ bit, ~~~xdpFlagsUpdateIfNoexist &&& bit = bit →
      (flags &&& ~~~xdpFlagsUpdateIfNoexist) &&& bit = flags &&& bit := by
    intro bit other
    rw [UInt32.and_assoc, other]
  rw [xdpMode, keeps xdpFlagsHwMode (by decide), keeps xdpFlagsDrvMode (by decide),
    keeps xdpFlagsSkbMode (by decide)]
  rfl

/-- The flags with which `cleanup` detaches take the program off that was attached
with the flags of the configuration. -/
theorem detach_eq (native : ℕ → Bool) (ifindex : ℕ) (flags : UInt32) (hooks : Hooks ι) :
    bpfSetLinkXdpFd native none ifindex (flags &&& ~~~xdpFlagsUpdateIfNoexist) hooks =
      (Function.update hooks (ifindex, xdpMode native ifindex flags) none, true) := by
  have masked : (flags &&& ~~~xdpFlagsUpdateIfNoexist) &&& xdpFlagsUpdateIfNoexist = 0 := by
    rw [UInt32.and_assoc]
    exact UInt32.and_zero
  rw [bpfSetLinkXdpFd, xdpMode_masked, if_neg fun replaces => replaces.1 masked,
    if_neg fun attaches => Bool.noConfusion attaches.1]

/-- An attach that succeeds finds the hook free, and none in the rival mode. -/
theorem attach_true {ifindex : ℕ}
    (noexist : flags &&& xdpFlagsUpdateIfNoexist = xdpFlagsUpdateIfNoexist)
    (attached : (bpfSetLinkXdpFd native (some me) ifindex flags hooks).2 = true) :
    hooks (ifindex, xdpMode native ifindex flags) = none ∧
      hooks.rivalled (ifindex, xdpMode native ifindex flags) = false ∧
      (bpfSetLinkXdpFd native (some me) ifindex flags hooks).1 =
        Function.update hooks (ifindex, xdpMode native ifindex flags) (some me) := by
  rw [bpfSetLinkXdpFd] at attached ⊢
  split at attached
  · cases attached
  · rename_i free
    split at attached
    · cases attached
    · rename_i alone
      rw [if_neg free, if_neg alone]
      refine ⟨?_, ?_, rfl⟩
      · have flagged : flags &&& xdpFlagsUpdateIfNoexist ≠ 0 := by
          rw [noexist]
          decide
        exact Option.not_isSome_iff_eq_none.mp fun taken => free ⟨flagged, taken⟩
      · exact Bool.eq_false_iff.mpr fun rival => alone ⟨rfl, rival⟩

/-- The two halves of `cleanup`. -/
theorem cleanup_eq (unlinks : Bool) (g : Globals ι) :
    g.cleanup unlinks = g.cleanupXdp.cleanupSocket unlinks := by
  rw [Globals.cleanup, Globals.cleanupXdp, Globals.cleanupSocket]
  dsimp only
  cases serving : g.serverFd with
  | true => split <;> simp [Globals.unlink]
  | false => split <;> simp

/-- What a step of `main` can do. -/
inductive Advanced (native : ℕ → Bool) (me : ι) (inputs : Inputs) (p : Proc ι)
    (hooks : Hooks ι) : Proc ι × Hooks ι → Prop where
  | rests (gone : p.pc.isGone = true ∨ p.pc = .loop) : Advanced native me inputs p hooks (p, hooks)
  | gives (start : p.pc = .options) (code : ℕ) (g : Globals ι) (sound : g.cfg.Sound)
      (same : g = { p.globals with cfg := g.cfg, configPath := g.configPath, logFp := g.logFp }) :
      Advanced native me inputs p hooks (p.goTo (.ended code) g, hooks)
  | configures (start : p.pc = .options) (g : Globals ι) (sound : g.cfg.Sound)
      (same : g = { p.globals with cfg := g.cfg, configPath := g.configPath, logFp := g.logFp }) :
      Advanced native me inputs p hooks (p.goTo .removeOld g, hooks)
  | fails (before : p.pc = .removeOld ∨ p.pc = .ringBuffer) (g : Globals ι)
      (same : g = { p.globals with rb := g.rb }) :
      Advanced native me inputs p hooks (p.goTo (.detach 1) g, hooks)
  | removes (before : p.pc = .removeOld) :
      Advanced native me inputs p hooks
        (p.goTo .bind (p.globals.unlink p.globals.cfg.socketPath.bytes inputs.os.unlinkOld), hooks)
  | refused (before : p.pc = .bind) (g : Globals ι)
      (same : g = { p.globals with
        calls := p.globals.calls ++ [.bind p.globals.cfg.socketPath.bytes false] }) :
      Advanced native me inputs p hooks (p.goTo (.detach 1) g, hooks)
  | binds (before : p.pc = .bind) (free : p.globals.names p.globals.cfg.socketPath.bytes = none)
      (g : Globals ι)
      (same : g = { p.globals with
        names := Function.update p.globals.names p.globals.cfg.socketPath.bytes (some me)
        calls := p.globals.calls ++ [.bind p.globals.cfg.socketPath.bytes true] }) :
      Advanced native me inputs p hooks (p.goTo .listen g, hooks)
  | unheard (before : p.pc = .listen) :
      Advanced native me inputs p hooks
        (p.goTo (.detach 1)
          (p.globals.unlink p.globals.cfg.socketPath.bytes inputs.os.unlinkUnheard), hooks)
  | listens (before : p.pc = .listen) :
      Advanced native me inputs p hooks
        (p.goTo .attach { p.globals with serverFd := true }, hooks)
  | misses (before : p.pc = .attach) (g : Globals ι) (more : List Call)
      (same : g = { p.globals with
        skel := g.skel, ifindex := g.ifindex, calls := p.globals.calls ++ more }) :
      Advanced native me inputs p hooks (p.goTo (.detach 1) g, hooks)
  | attaches (before : p.pc = .attach) (g : Globals ι) (index : 0 < g.ifindex)
      (granted : (bpfSetLinkXdpFd native (some me) g.ifindex p.globals.cfg.xdpFlags hooks).2 = true)
      (same : g = { p.globals with
        skel := true
        ifindex := g.ifindex
        calls := p.globals.calls ++ [.attachXdp g.ifindex p.globals.cfg.xdpFlags true]
        xdpAttached := true }) :
      Advanced native me inputs p hooks
        (p.goTo .ringBuffer g,
          (bpfSetLinkXdpFd native (some me) g.ifindex p.globals.cfg.xdpFlags hooks).1)
  | enters (before : p.pc = .ringBuffer) (g : Globals ι)
      (same : g = { p.globals with rb := g.rb }) :
      Advanced native me inputs p hooks (p.goTo .loop g, hooks)
  | leaves (before : p.pc = .loop) :
      Advanced native me inputs p hooks (p.goTo (.detach 0) p.globals, hooks)
  | detaches (code : ℕ) (before : p.pc = .detach code) :
      Advanced native me inputs p hooks
        (p.goTo (.removeSocket code) p.globals.cleanupXdp,
          if p.globals.xdpAttached ∧ p.globals.ifindex > 0 ∧ inputs.detach then
            (bpfSetLinkXdpFd native none p.globals.ifindex
              (p.globals.cfg.xdpFlags &&& ~~~xdpFlagsUpdateIfNoexist) hooks).1
          else hooks)
  | ends (code : ℕ) (before : p.pc = .removeSocket code) :
      Advanced native me inputs p hooks
        (p.goTo (.ended code) (p.globals.cleanupSocket inputs.os.unlinkAtExit), hooks)

theorem openLogFile_ends {opens ok : Bool} {g g' : Globals ι}
    (opened : g.openLogFile opens = (g', ok)) : g' = { g with logFp := g'.logFp } := by
  have same := openLogFile_eq opens g
  rwa [opened] at same

theorem loadAndAttachBpf_missed {os : Answers} {g g' : Globals ι}
    (done : g.loadAndAttachBpf os = (g', false)) :
    ∃ more, g' = { g with skel := g'.skel, ifindex := g'.ifindex, calls := g.calls ++ more } := by
  have early : ∀ {g₁ : Globals ι}, g₁ = { g with skel := g₁.skel, ifindex := g₁.ifindex } →
      (g₁, false) = (g', false) →
      ∃ more, g' = { g with
        skel := g'.skel, ifindex := g'.ifindex, calls := g.calls ++ more } := by
    rintro g₁ same ⟨⟩
    refine ⟨[], ?_⟩
    rw [List.append_nil, same]
  rw [Globals.loadAndAttachBpf] at done
  split at done
  · exact early rfl done
  · dsimp only at done
    split at done
    · exact early rfl done
    · split at done
      · exact early rfl done
      · rename_i index _
        split at done
        · exact early rfl done
        · split at done
          · exact early rfl done
          · split at done
            · obtain ⟨rfl, -⟩ := Prod.mk.inj done
              exact ⟨_, rfl⟩
            · cases (Prod.mk.inj done).2

/-- An attach that succeeds, with what the kernel has answered. -/
theorem loadAndAttachBpf_granted {os : Answers} {g g' : Globals ι}
    (done : g.loadAndAttachBpf os = (g', true)) :
    os.attach = true ∧ ∃ index, os.ifNametoindex = some index ∧ g'.ifindex = index.val := by
  rw [Globals.loadAndAttachBpf] at done
  split at done
  · cases done
  · dsimp only at done
    split at done
    · cases done
    · split at done
      · cases done
      · rename_i index found
        split at done
        · cases done
        · split at done
          · cases done
          · split at done
            · cases done
            · rename_i accepted
              obtain ⟨rfl, -⟩ := Prod.mk.inj done
              exact ⟨by simpa using accepted, index, found, rfl⟩

/-- The kernel has let the process attach only if the hook has. -/
theorem granted_of_attached {g g' : Globals ι}
    (done : g.loadAndAttachBpf (inputs.answers native me flags hooks) = (g', true)) :
    (bpfSetLinkXdpFd native (some me) g'.ifindex flags hooks).2 = true := by
  obtain ⟨accepted, index, found, same⟩ := loadAndAttachBpf_granted done
  rw [same]
  rw [Inputs.answers] at accepted found
  dsimp only at accepted found
  rw [found] at accepted
  exact (Bool.and_eq_true_iff.mp accepted).2

theorem advance_outcome (p : Proc ι) :
    Advanced native me inputs p hooks (p.advance native me inputs hooks) := by
  rw [Proc.advance]
  split
  · rename_i start
    have sound := configure_sound inputs.options inputs.files
    split
    · rename_i code cfg configured
      rw [configured] at sound
      exact .gives start code _ sound rfl
    · rename_i configPath cfg configured
      rw [configured] at sound
      dsimp only
      split
      · exact .gives start 1 _ sound rfl
      · split
        · rename_i g opened
          have same := openLogFile_ends opened
          exact .gives start 1 g (by rw [same]; exact sound) (by rw [same])
        · rename_i g opened
          have same := openLogFile_ends opened
          exact .configures start g (by rw [same]; exact sound) (by rw [same])
  · rename_i before
    split
    · exact .fails (Or.inl before) p.globals rfl
    · exact .removes before
  · rename_i before
    split
    · rename_i g refused
      exact .refused before g (bind_false refused)
    · rename_i g bound
      exact .binds before (bind_true bound).1 g (bind_true bound).2
  · rename_i before
    split
    · exact .unheard before
    · exact .listens before
  · rename_i before
    split
    · rename_i g missed
      obtain ⟨more, same⟩ := loadAndAttachBpf_missed missed
      exact .misses before g more same
    · rename_i g attached
      rcases loadAndAttachBpf_cases attached with ⟨-, index, same⟩ | ⟨impossible, -⟩
      · have config : g.cfg = p.globals.cfg := by rw [same]
        rw [config]
        exact .attaches before g index (granted_of_attached attached) same
      · cases impossible
  · rename_i before
    split
    · rename_i g missed
      exact .fails (Or.inr before) g (setupRingBuffer_eq missed)
    · rename_i g ready
      split
      · exact .enters before g (setupRingBuffer_eq ready)
      · exact .fails (Or.inr before) g (setupRingBuffer_eq ready)
  · rename_i before
    split
    · exact .leaves before
    · exact .rests (Or.inr before)
  · rename_i code before
    exact .detaches code before
  · rename_i code before
    exact .ends code before
  · rename_i code before
    exact .rests (Or.inl (by rw [before]; rfl))
  · rename_i before
    exact .rests (Or.inl (by rw [before]; rfl))

/-! ## A loader that is alone -/

/-- What a process does while nothing else happens on its host. -/
def Alone (native : ℕ → Bool) (me : ι) (inputs : Inputs) :
    Proc ι × Hooks ι → Proc ι × Hooks ι → Prop :=
  Relation.ReflTransGen fun before after => before.1.advance native me inputs before.2 = after

theorem Alone.head {before after : Proc ι × Hooks ι}
    (rest : Alone native me inputs (before.1.advance native me inputs before.2) after) :
    Alone native me inputs before after :=
  Relation.ReflTransGen.head rfl rest

/-- `cleanup`, in its two steps. -/
theorem alone_cleanup {p : Proc ι} {code : ℕ} (before : p.pc = .detach code) :
    ∃ hooks', Alone native me inputs (p, hooks)
      (p.goTo (.ended code) (p.globals.cleanup inputs.os.unlinkAtExit), hooks') := by
  have first : ∃ hooks', p.advance native me inputs hooks =
      (p.goTo (.removeSocket code) p.globals.cleanupXdp, hooks') := by
    rw [Proc.advance, before]
    exact ⟨_, rfl⟩
  obtain ⟨hooks', first⟩ := first
  refine ⟨hooks', .head ?_⟩
  dsimp only
  rw [first, cleanup_eq]
  exact .head .refl

/-- The steps of `load_and_attach_bpf` and `setup_ring_buffer`. -/
theorem alone_attach {p : Proc ι} (before : p.pc = .attach) {g : Globals ι} {ok : Bool}
    (done : (match p.globals.loadAndAttachBpf
        (inputs.answers native me p.globals.cfg.xdpFlags hooks) with
      | (g, false) => (g, false)
      | (g, true) =>
          match g.setupRingBuffer inputs.os with
          | (g, false) => (g, false)
          | (g, true) => (g, inputs.os.statsFd)) = (g, ok)) :
    ∃ hooks', Alone native me inputs (p, hooks)
      (p.goTo (if ok then .loop else .detach 1) g, hooks') := by
  rcases loaded : p.globals.loadAndAttachBpf
    (inputs.answers native me p.globals.cfg.xdpFlags hooks) with ⟨g₁, attached⟩
  rw [loaded] at done
  cases attached with
  | false =>
      obtain ⟨rfl, rfl⟩ := Prod.mk.inj done
      refine ⟨hooks, .head ?_⟩
      simp only [Proc.advance, before, loaded]
      exact .refl
  | true =>
      dsimp only at done
      rcases ready : g₁.setupRingBuffer inputs.os with ⟨g₂, polls⟩
      rw [ready] at done
      cases polls with
      | false =>
          obtain ⟨rfl, rfl⟩ := Prod.mk.inj done
          refine ⟨(bpfSetLinkXdpFd native (some me) g₁.ifindex g₁.cfg.xdpFlags hooks).1,
            .head ?_⟩
          simp only [Proc.advance, before, loaded]
          refine .head ?_
          simp only [Proc.advance, Proc.goTo, Proc.globals, ready]
          exact .refl
      | true =>
          obtain ⟨rfl, rfl⟩ := Prod.mk.inj done
          refine ⟨(bpfSetLinkXdpFd native (some me) g₁.ifindex g₁.cfg.xdpFlags hooks).1,
            .head ?_⟩
          simp only [Proc.advance, before, loaded]
          refine .head ?_
          simp only [Proc.advance, Proc.goTo, Proc.globals, ready]
          exact .refl

/-- The steps of `setup_unix_server`. -/
theorem alone_setup {p : Proc ι} (before : p.pc = .removeOld) {g : Globals ι} {ok : Bool}
    (done : p.globals.setupUnixServer me inputs.os p.globals.cfg.socketPath.bytes = (g, ok)) :
    Alone native me inputs (p, hooks) (p.goTo (if ok then .attach else .detach 1) g, hooks) := by
  rw [Globals.setupUnixServer] at done
  refine .head ?_
  simp only [Proc.advance, before]
  split at done
  · rename_i none
    obtain ⟨rfl, rfl⟩ := Prod.mk.inj done
    rw [if_pos none]
    exact .refl
  · rename_i socket
    rw [if_neg socket]
    refine .head ?_
    simp only [Proc.advance, Proc.goTo]
    have path : (p.globals.unlink p.globals.cfg.socketPath.bytes inputs.os.unlinkOld).cfg =
        p.globals.cfg := rfl
    simp only [Proc.globals] at done path ⊢
    rw [path]
    rcases bound : Globals.bind me p.state.globals.cfg.socketPath.bytes inputs.os.bind
      (p.state.globals.unlink p.state.globals.cfg.socketPath.bytes inputs.os.unlinkOld)
      with ⟨g₁, ok₁⟩
    rw [bound] at done
    cases ok₁ with
    | false =>
        obtain ⟨rfl, rfl⟩ := Prod.mk.inj done
        exact .refl
    | true =>
        dsimp only at done ⊢
        refine .head ?_
        have same := (bind_true bound).2
        have path' : g₁.cfg = p.state.globals.cfg := by rw [same]; rfl
        simp only [Proc.advance, Proc.globals]
        rw [← path'] at done
        by_cases unheard : (!inputs.os.listen) = true
        · rw [if_pos unheard] at done ⊢
          obtain ⟨rfl, rfl⟩ := Prod.mk.inj done
          exact .refl
        · rw [if_neg unheard] at done ⊢
          obtain ⟨rfl, rfl⟩ := Prod.mk.inj done
          exact .refl

/-- The steps from `setup_unix_server` on are `bringUp`. -/
theorem alone_bringUp {p : Proc ι} (before : p.pc = .removeOld) {g : Globals ι} {ok : Bool}
    (done : bringUp me (inputs.answers native me p.globals.cfg.xdpFlags hooks) p.globals =
      (g, ok)) :
    ∃ hooks', Alone native me inputs (p, hooks)
      (p.goTo (if ok then .loop else .detach 1) g, hooks') := by
  rw [bringUp] at done
  rcases served : p.globals.setupUnixServer me inputs.os p.globals.cfg.socketPath.bytes
    with ⟨g₁, ok₁⟩
  have first := @alone_setup _ native me inputs hooks p before _ _ served
  replace served : p.globals.setupUnixServer me
    (inputs.answers native me p.globals.cfg.xdpFlags hooks) p.globals.cfg.socketPath.bytes =
      (g₁, ok₁) := served
  rw [served] at done
  cases ok₁ with
  | false =>
      obtain ⟨rfl, rfl⟩ := Prod.mk.inj done
      exact ⟨hooks, first⟩
  | true =>
      have config : p.globals.cfg = (p.goTo .attach g₁).globals.cfg := by
        rw [(setupUnixServer_true served).2.2.2]
        rfl
      rw [config] at done
      obtain ⟨hooks', rest⟩ :=
        @alone_attach _ native me inputs hooks (p.goTo .attach g₁) rfl _ _ done
      exact ⟨hooks', first.trans rest⟩

/-- The flags with which a process would attach its program. -/
def Inputs.xdpFlags (inputs : Inputs) : UInt32 :=
  match configure inputs.options inputs.files with
  | .error (_, cfg) => cfg.xdpFlags
  | .ok (_, cfg) => cfg.xdpFlags

/-- Where `startUp` leaves a process. -/
def Start.pc : Start ι → Pc
  | .exited code _ => .ended code
  | .running _ => .loop

/-- **A loader that is alone starts as `startUp` says.** -/
theorem alone_startUp {p : Proc ι} (before : p.pc = .options) {names : Names ι}
    (fresh : p.globals = .init names) {start : Start ι}
    (started : startUp me (inputs.answers native me inputs.xdpFlags hooks) inputs.options
      inputs.files names = start) :
    ∃ hooks', Alone native me inputs (p, hooks) (p.goTo start.pc start.globals, hooks') := by
  rw [startUp, Inputs.xdpFlags, ← fresh] at started
  rcases configured : configure inputs.options inputs.files with ⟨code, cfg⟩ | ⟨configPath, cfg⟩
  · rw [configured] at started
    subst started
    refine ⟨hooks, .head ?_⟩
    simp only [Proc.advance, before, configured]
    exact .refl
  · rw [configured] at started
    dsimp only at started
    split at started
    · rename_i gone
      replace gone : (cfg.daemonMode && !inputs.os.daemon) = true := gone
      subst started
      refine ⟨hooks, .head ?_⟩
      simp only [Proc.advance, before, configured]
      rw [if_pos gone]
      exact .refl
    · rename_i stays
      replace stays : ¬ (cfg.daemonMode && !inputs.os.daemon) = true := stays
      rcases opened : Globals.openLogFile inputs.os.openLog
        { p.globals with configPath := configPath, cfg := cfg } with ⟨g₀, ok⟩
      have first : Alone native me inputs (p, hooks)
          (p.goTo (if ok then .removeOld else .ended 1) g₀, hooks) := by
        refine .head ?_
        simp only [Proc.advance, before, configured]
        rw [if_neg stays, opened]
        cases ok with
        | true => exact .refl
        | false => exact .refl
      have config : cfg = (p.goTo .removeOld g₀).globals.cfg := by
        rw [openLogFile_ends opened]
        rfl
      replace opened : Globals.openLogFile (inputs.answers native me cfg.xdpFlags hooks).openLog
        { p.globals with configPath := configPath, cfg := cfg } = (g₀, ok) := opened
      rw [opened] at started
      cases ok with
      | false =>
          subst started
          exact ⟨hooks, first⟩
      | true =>
          dsimp only at started
          rw [config] at started
          rcases brought : bringUp me (inputs.answers native me
            (p.goTo .removeOld g₀).globals.cfg.xdpFlags hooks) g₀ with ⟨g, ok⟩
          obtain ⟨hooks', second⟩ :=
            @alone_bringUp _ native me inputs hooks (p.goTo .removeOld g₀) rfl g ok brought
          rw [brought] at started
          cases ok with
          | true =>
              subst started
              exact ⟨hooks', first.trans second⟩
          | false =>
              subst started
              obtain ⟨last, third⟩ :=
                @alone_cleanup _ native me inputs hooks' (p.goTo (.detach 1) g) 1 rfl
              exact ⟨last, (first.trans second).trans third⟩

end Steps

end EbpfNids.Loader
