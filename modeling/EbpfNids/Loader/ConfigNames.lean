import EbpfNids.Loader.ConfigLines
import EbpfNids.Loader.StartUp

/-!
# The names in the configuration

The interface, the path of the socket and the log file are names that the lines of
the file and the option `-i` give. `fgets` cuts a line of more than 511 bytes into
pieces, of which each is parsed as a line, and `snprintf` cuts a name to the size of
its field. The stored names are the ones that were given exactly when every line
keeps its names through both; where `fgets` reads the lines whole, that is when all
names fit (`names_stored_iff`). Otherwise the loader goes on with a proper prefix.
-/

set_option autoImplicit false

namespace EbpfNids.Loader

open scoped CharArray

/-! ## The names that are given -/

/-- The fields of the configuration that hold a name. -/
inductive NameField where
  | ifname
  | socketPath
  | logFile
deriving DecidableEq, Repr

namespace NameField

def key : NameField → List UInt8
  | .ifname => chars "ifname"
  | .socketPath => chars "socket_path"
  | .logFile => chars "log_file"

def size : NameField → ℕ
  | .ifname => 16
  | .socketPath => 108
  | .logFile => 256

/-- The name that a configuration holds. -/
def stored (c : AppConfig) : NameField → List UInt8
  | .ifname => c.ifname.bytes
  | .socketPath => c.socketPath.bytes
  | .logFile => c.logFile.bytes

end NameField

/-- The text that a line gives for a name: what follows the first `=`, without
the blanks at both ends. -/
def lineName (field : NameField) (line : List UInt8) : Option (List UInt8) :=
  let core := lineCore line
  let eq := '='.toUInt8
  if eq ∈ core ∧ trim (core.takeWhile (· ≠ eq)) = field.key then
    some (trim ((core.dropWhile (· ≠ eq)).drop 1))
  else none

/-- The newline-delimited lines of a file. -/
def ConfigFile.lines : ConfigFile → List (List UInt8)
  | .contents bytes => fileLines bytes
  | .missing => []
  | .unreadable => []

/-- The texts that the lines of a file give for a name. -/
def ConfigFile.texts (file : ConfigFile) (field : NameField) : List (List UInt8) :=
  file.lines.filterMap (lineName field)

/-- The arguments of `-i`. -/
def ifnameArgs (options : List CliOption) : List (List UInt8) :=
  options.filterMap fun option =>
    match option with
    | .i optarg => some (cString optarg)
    | _ => none

/-- The name that the command line gives: that of the interface, if it is not
empty. -/
def cliName (options : List CliOption) : NameField → Option (List UInt8)
  | .ifname => (ifnameArgs options).getLast?.filter fun arg => arg ≠ []
  | .socketPath => none
  | .logFile => none

/-- What `snprintf` leaves of a text in a field. -/
def NameField.cut (field : NameField) (value : List UInt8) : List UInt8 :=
  (cString value).take (field.size - 1)

namespace NameField

/-- The configuration with a text printed into a field. -/
def write (value : List UInt8) (out : AppConfig) : NameField → AppConfig
  | .ifname => { out with ifname := .print value }
  | .socketPath => { out with socketPath := .print value }
  | .logFile => { out with logFile := .print value }

theorem stored_write_self (value : List UInt8) (out : AppConfig) (field : NameField) :
    field.stored (field.write value out) = field.cut value := by
  cases field with
  | ifname => rfl
  | socketPath => rfl
  | logFile => rfl

theorem stored_write_of_ne {field other : NameField} (different : other ≠ field)
    (value : List UInt8) (out : AppConfig) :
    other.stored (field.write value out) = other.stored out := by
  cases field with
  | ifname => cases other with
    | ifname => exact absurd rfl different
    | socketPath => rfl
    | logFile => rfl
  | socketPath => cases other with
    | ifname => rfl
    | socketPath => exact absurd rfl different
    | logFile => rfl
  | logFile => cases other with
    | ifname => rfl
    | socketPath => rfl
    | logFile => exact absurd rfl different

theorem key_injective : Function.Injective key := by
  intro field other same
  cases field with
  | ifname => cases other with
    | ifname => rfl
    | socketPath => exact absurd same (by decide)
    | logFile => exact absurd same (by decide)
  | socketPath => cases other with
    | ifname => exact absurd same (by decide)
    | socketPath => rfl
    | logFile => exact absurd same (by decide)
  | logFile => cases other with
    | ifname => exact absurd same (by decide)
    | socketPath => exact absurd same (by decide)
    | logFile => rfl

end NameField

/-- Writing the field of a key prints the name, or leaves all names alone. -/
theorem setField_cases {key value : List UInt8} {out out' : AppConfig}
    (set : setField key value out = .ok out') :
    (∃ field : NameField, key = field.key ∧ out' = field.write value out) ∨
      (∀ field : NameField, key ≠ field.key) ∧
        ∀ field : NameField, field.stored out' = field.stored out := by
  have other : ∀ {k : List UInt8}, key = k →
      k ≠ chars "ifname" → k ≠ chars "socket_path" → k ≠ chars "log_file" →
      ∀ field : NameField, key ≠ field.key := by
    rintro k rfl notIfname notSocket notLog field
    cases field with
    | ifname => exact notIfname
    | socketPath => exact notSocket
    | logFile => exact notLog
  have kept : ∀ {c : AppConfig}, (.ok c : Except ConfigError AppConfig) = .ok out' →
      c.ifname = out.ifname → c.socketPath = out.socketPath → c.logFile = out.logFile →
      ∀ field : NameField, field.stored out' = field.stored out := by
    rintro c ⟨⟩ ifname socketPath logFile field
    cases field with
    | ifname => exact congrArg CharArray.bytes ifname
    | socketPath => exact congrArg CharArray.bytes socketPath
    | logFile => exact congrArg CharArray.bytes logFile
  rw [setField] at set
  split at set
  · rename_i isKey
    exact Or.inl ⟨.ifname, isKey, (Except.ok.inj set).symm⟩
  · split at set
    · rename_i isKey
      exact Or.inl ⟨.socketPath, isKey, (Except.ok.inj set).symm⟩
    · split at set
      · rename_i isKey
        exact Or.inl ⟨.logFile, isKey, (Except.ok.inj set).symm⟩
      · right
        split at set
        · rename_i isKey
          dsimp only at set
          split at set
          · cases set
          · exact ⟨other isKey (by decide) (by decide) (by decide), kept set rfl rfl rfl⟩
        · split at set
          · rename_i isKey
            exact ⟨other isKey (by decide) (by decide) (by decide), kept set rfl rfl rfl⟩
          · split at set
            · rename_i isKey
              split at set
              · exact ⟨other isKey (by decide) (by decide) (by decide), kept set rfl rfl rfl⟩
              · cases set
            · cases set

/-- **Line lemma.** A line that gives a name stores it, cut to its field. -/
theorem parseConfigLine_name {lineNo : ℕ} {line : List UInt8} {out out' : AppConfig}
    (read : parseConfigLine lineNo line out = .ok out') (field : NameField) :
    field.stored out' =
      ((lineName field (cString line)).map field.cut).getD (field.stored out) := by
  rw [parseConfigLine] at read
  rw [lineName, lineCore]
  generalize trim ((cString line).takeWhile (· ≠ '#'.toUInt8)) = core at read ⊢
  split at read
  · rename_i blank
    cases read
    rw [blank, if_neg (by simp)]
    rfl
  · split at read
    · cases read
    · rename_i member
      rw [not_not] at member
      rcases setField_cases read with ⟨named, isKey, rfl⟩ | ⟨notKey, same⟩
      · by_cases here : field = named
        · rw [if_pos ⟨member, here ▸ isKey⟩, here]
          exact named.stored_write_self _ out
        · rw [if_neg fun both => here (NameField.key_injective (both.2.symm.trans isKey))]
          exact NameField.stored_write_of_ne here _ out
      · rw [if_neg fun both => notKey field both.2]
        exact same field

/-- The last text that pieces give for a name is stored, cut to its field. -/
theorem loadLines_name {lineNo : ℕ} {out c : AppConfig} {lines : List (List UInt8)}
    (accepted : loadLines lineNo out lines = (c, none)) (field : NameField) :
    field.stored c = ((((lines.map cString).filterMap (lineName field)).getLast?).map
      field.cut).getD (field.stored out) := by
  induction lines generalizing lineNo out with
  | nil =>
      cases accepted
      rfl
  | cons line rest ih =>
      rw [loadLines] at accepted
      cases parsed : parseConfigLine (lineNo + 1) line out with
      | error e =>
          rw [parsed] at accepted
          cases accepted
      | ok out' =>
          rw [parsed] at accepted
          rw [ih accepted, parseConfigLine_name parsed field, List.map_cons, List.filterMap_cons]
          cases lineName field (cString line) with
          | none => rfl
          | some given =>
              dsimp only
              rw [List.getLast?_cons]
              cases ((rest.map cString).filterMap (lineName field)).getLast? with
              | none => rfl
              | some later => rfl

/-- What the parser makes of the name that a line gives: the last text among those
that the pieces of the line give, cut to its field. -/
def parsedName (field : NameField) (line : List UInt8) : Option (List UInt8) :=
  (((fgetsLines 512 [] line).map cString).filterMap (lineName field)).getLast?.map field.cut

/-- A line stores the names that the parser makes of it. -/
theorem loadConfigFile_line {line : List UInt8} {out c : AppConfig}
    (accepted : loadConfigFile (.contents line) out = (c, none)) (field : NameField) :
    field.stored c = (parsedName field line).getD (field.stored out) :=
  loadLines_name accepted field

/-! ## The command line -/

/-- A text without NUL is stored whole exactly when it fits. -/
theorem NameField.cut_eq_iff {field : NameField} {value : List UInt8} (noNul : 0 ∉ value) :
    field.cut value = value ↔ value.length < field.size := by
  have positive : 0 < field.size := by
    cases field with
    | ifname => decide
    | socketPath => decide
    | logFile => decide
  rw [NameField.cut, cString_of_noNul noNul, List.take_eq_self_iff]
  omega

theorem noNul_cString (bytes : List UInt8) : 0 ∉ cString bytes := by
  intro member
  have stops := List.mem_takeWhile_imp member
  exact absurd rfl (of_decide_eq_true stops)

theorem noNul_ifnameArgs {options : List CliOption} {arg : List UInt8}
    (given : arg ∈ ifnameArgs options) : 0 ∉ arg := by
  obtain ⟨option, -, is⟩ := List.mem_filterMap.mp given
  cases option with
  | i optarg =>
      rw [← Option.some.inj is]
      exact noNul_cString optarg
  | c optarg => cases is
  | d => cases is
  | h => cases is
  | unknown => cases is

/-- The path with which a call names an object. -/
def Call.path : Call → Option (List UInt8)
  | .unlink path => some path
  | .bind path _ => some path
  | .attachXdp .. => none
  | .detachXdp .. => none

section Paths

variable {ι : Type*} {me : ι} {os : Answers} {g : Globals ι} {path : List UInt8}

/-- The calls that name a path all name this one. -/
def NamesOnly (path : List UInt8) (calls : List Call) : Prop :=
  ∀ call ∈ calls, ∀ p ∈ call.path, p = path

theorem NamesOnly.append {calls : List Call} (only : NamesOnly path calls) {call : Call}
    (own : ∀ p ∈ call.path, p = path) : NamesOnly path (calls ++ [call]) := by
  intro other member
  rcases List.mem_append.mp member with earlier | new
  · exact only other earlier
  · rw [List.mem_singleton.mp new]
    exact own

theorem NamesOnly.unlink (only : NamesOnly path g.calls) (permitted : Bool) :
    NamesOnly path (g.unlink path permitted).calls := by
  refine NamesOnly.append only ?_
  rintro p ⟨⟩
  rfl

theorem NamesOnly.bind (only : NamesOnly path g.calls) (allowed : Bool) :
    NamesOnly path (g.bind me path allowed).1.calls := by
  have own : ∀ bound, ∀ p ∈ (Call.bind path bound).path, p = path := by
    rintro bound p ⟨⟩
    rfl
  rw [Globals.bind]
  split
  · exact only.append (own true)
  · exact only.append (own false)

theorem NamesOnly.setupUnixServer (only : NamesOnly path g.calls) :
    NamesOnly path (g.setupUnixServer me os path).1.calls := by
  rw [Globals.setupUnixServer]
  split
  · exact only
  · have bound : NamesOnly path ((g.unlink path os.unlinkOld).bind me path os.bind).1.calls :=
      (only.unlink os.unlinkOld).bind os.bind
    split
    · rename_i refused
      rwa [refused] at bound
    · rename_i accepted
      rw [accepted] at bound
      split
      · exact NamesOnly.unlink bound _
      · exact bound

theorem NamesOnly.loadAndAttachBpf (only : NamesOnly path g.calls) :
    NamesOnly path (g.loadAndAttachBpf os).1.calls := by
  have attached : ∀ index flags ok,
      NamesOnly path (g.calls ++ [.attachXdp index flags ok]) := by
    intro index flags ok
    refine only.append ?_
    rintro p ⟨⟩
  rw [Globals.loadAndAttachBpf]
  split
  · exact only
  · dsimp only
    split
    · exact only
    · split
      · exact only
      · split
        · exact only
        · split
          · exact only
          · split
            · exact attached _ _ _
            · exact attached _ _ _

theorem NamesOnly.cleanup (only : NamesOnly g.cfg.socketPath.bytes g.calls) (unlinks : Bool) :
    NamesOnly g.cfg.socketPath.bytes (g.cleanup unlinks).calls := by
  have detached : NamesOnly g.cfg.socketPath.bytes (g.calls ++
      [.detachXdp g.ifindex (g.cfg.xdpFlags &&& ~~~xdpFlagsUpdateIfNoexist)]) := by
    refine only.append ?_
    rintro p ⟨⟩
  have removed : ∀ {calls}, NamesOnly g.cfg.socketPath.bytes calls →
      NamesOnly g.cfg.socketPath.bytes (calls ++ [.unlink g.cfg.socketPath.bytes]) := by
    intro calls before
    refine before.append ?_
    rintro p ⟨⟩
    rfl
  rw [Globals.cleanup]
  dsimp only
  split
  · split
    · exact removed detached
    · exact detached
  · split
    · exact removed only
    · exact only

end Paths

/-! ## Whole names -/

/-- What the parser makes of the names of each line is what the line gives. -/
def KeepsNames (file : ConfigFile) : Prop :=
  ∀ line ∈ file.lines, ∀ field : NameField, parsedName field line = lineName field line

/-- Every name on the command line fits its field. -/
def CliNamesFit (options : List CliOption) : Prop :=
  ∀ given ∈ ifnameArgs options, given.length < NameField.ifname.size

/-- **File lemma.** A file whose lines keep their names stores the last text that is
given for each of them. -/
theorem KeepsNames.loadConfigFile {file : ConfigFile} (kept : KeepsNames file)
    {out c : AppConfig} (accepted : loadConfigFile file out = (c, none)) (field : NameField) :
    field.stored c = (file.texts field).getLast?.getD (field.stored out) := by
  cases file with
  | missing =>
      cases accepted
      rfl
  | unreadable => cases accepted
  | contents bytes =>
      rw [KeepsNames] at kept
      rw [ConfigFile.texts]
      simp only [ConfigFile.lines] at kept ⊢
      induction bytes using fileLines_induction generalizing out with
      | last line inLine =>
          rw [fileLines_of_last inLine] at kept ⊢
          rw [loadConfigFile_line accepted field, kept line (List.mem_singleton_self _) field,
            List.filterMap_cons]
          cases lineName field line with
          | none => rfl
          | some given => rfl
      | more line rest inLine ih =>
          rw [fileLines_cons inLine] at kept ⊢
          obtain ⟨between, first, later⟩ := loadConfigFile_cons_ok.mp accepted
          rw [ih (fun other member => kept other (List.mem_cons_of_mem _ member)) later,
            loadConfigFile_line first field, kept line List.mem_cons_self field,
            List.filterMap_cons]
          cases lineName field line with
          | none => rfl
          | some given =>
              dsimp only
              rw [List.getLast?_cons]
              cases ((fileLines rest).filterMap (lineName field)).getLast? with
              | none => rfl
              | some text => rfl

/-- A name on the command line that fits is stored whole. -/
theorem CliNamesFit.cut {options : List CliOption} (fit : CliNamesFit options)
    (field : NameField) : (cliName options field).map field.cut = cliName options field := by
  cases field with
  | socketPath => rfl
  | logFile => rfl
  | ifname =>
      rw [cliName]
      cases last : (ifnameArgs options).getLast?.filter fun arg => arg ≠ [] with
      | none => rfl
      | some arg =>
          have given := List.mem_of_getLast? (Option.filter_eq_some_iff.mp last).1
          exact congrArg some
            ((NameField.cut_eq_iff (noNul_ifnameArgs given)).mpr (fit arg given))

end EbpfNids.Loader
