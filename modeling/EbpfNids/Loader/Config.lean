import Mathlib.Algebra.Order.Ring.Nat
import EbpfNids.Library.Decimal

/-!
# The loader's configuration

`load_config_file` reads `key=value` lines into a configuration that it is
given. It writes each line's field at once, so that a bad line leaves the fields
of the lines before it written (`loadLines`). What it never writes is an interval
outside 1..3600 or flags without `XDP_FLAGS_UPDATE_IF_NOEXIST`
(`loadConfigFile_sound`).
-/

set_option autoImplicit false

namespace EbpfNids.Loader

open Library Library.Decimal

/-! ## C strings -/

/-- The C string that a list of bytes begins with. -/
def cString (bytes : List UInt8) : List UInt8 := bytes.takeWhile (· ≠ 0)

/-- A string in an array of `size` bytes: it has no NUL, and its own fits. -/
structure CharArray (size : ℕ) where
  bytes : List UInt8
  noNul : 0 ∉ bytes
  fits : bytes.length < size
deriving DecidableEq, Repr

namespace CharArray

variable {size : ℕ} [NeZero size]

/-- `snprintf(array, sizeof(array), "%s", value)`. -/
def print (value : List UInt8) : CharArray size where
  bytes := (cString value).take (size - 1)
  noNul := by
    intro member
    have stops := List.mem_takeWhile_imp (List.mem_of_mem_take member)
    exact absurd rfl (of_decide_eq_true stops)
  fits := by
    have pos := Nat.pos_of_neZero size
    rw [List.length_take]
    omega

/-- Printing a string into an array of its own size copies it. -/
theorem print_bytes (array : CharArray size) : print array.bytes = array := by
  have whole : cString array.bytes = array.bytes := by
    rw [cString, List.takeWhile_eq_self_iff]
    intro b member
    refine decide_eq_true ?_
    rintro rfl
    exact array.noNul member
  obtain ⟨bytes, noNul, fits⟩ := array
  simp only [print, whole, CharArray.mk.injEq]
  exact List.take_of_length_le (Nat.le_sub_one_of_lt fits)

/-! The sizes of the arrays in the source. -/

scoped instance neZero_ifname : NeZero 16 := ⟨by decide⟩

scoped instance neZero_socketPath : NeZero 108 := ⟨by decide⟩

scoped instance neZero_path : NeZero 256 := ⟨by decide⟩

end CharArray

open scoped CharArray

/-- The bytes of a literal. -/
def chars (s : String) : List UInt8 := asciiBytes (text s)

/-! ## The configuration -/

def xdpFlagsUpdateIfNoexist : UInt32 := 1

def xdpFlagsSkbMode : UInt32 := 2

def xdpFlagsDrvMode : UInt32 := 4

def xdpFlagsHwMode : UInt32 := 8

structure AppConfig where
  ifname : CharArray 16
  socketPath : CharArray 108
  logFile : CharArray 256
  statsIntervalSec : ℤ
  daemonMode : Bool
  xdpFlags : UInt32
deriving DecidableEq, Repr

def defaultConfigPath : List UInt8 := chars "./conf/xdp_loader.conf"

def configDefaults : AppConfig where
  ifname := .print (chars "lo")
  socketPath := .print (chars "/tmp/xdp_loader.sock")
  logFile := .print (chars "/tmp/xdp_loader.log")
  statsIntervalSec := 5
  daemonMode := false
  xdpFlags := xdpFlagsUpdateIfNoexist ||| xdpFlagsSkbMode

def parseXdpMode (value : List UInt8) : Option UInt32 :=
  let base := xdpFlagsUpdateIfNoexist
  if value = chars "skb" ∨ value = chars "generic" then some (base ||| xdpFlagsSkbMode)
  else if value = chars "drv" ∨ value = chars "native" then some (base ||| xdpFlagsDrvMode)
  else if value = chars "hw" then some (base ||| xdpFlagsHwMode)
  else if value = chars "auto" then some base
  else none

/-! ## Reading a line -/

/-- The bytes that `trim` removes at both ends. -/
def isBlank (b : UInt8) : Bool := b = 32 || b = 9 || b = 10 || b = 13

def trim (s : List UInt8) : List UInt8 :=
  ((s.dropWhile isBlank).reverse.dropWhile isBlank).reverse

/-- `isspace` in the C locale. -/
def isSpace (b : UInt8) : Bool := b = 32 || (9 ≤ b && b ≤ 13)

/-- `atoi` of the C library: the number of `strtol`, which stays within 64 bits,
cut to 32 bits. -/
def atoi (s : List UInt8) : ℤ :=
  let (negative, digits) : Bool × List UInt8 :=
    match s.dropWhile isSpace with
    | 45 :: rest => (true, rest) -- '-'
    | 43 :: rest => (false, rest) -- '+'
    | rest => (false, rest)
  let magnitude : ℤ := value ((digits.map UInt8.toNat).takeWhile isDigit)
  let long := if negative then max (-magnitude) (-2 ^ 63) else min magnitude (2 ^ 63 - 1)
  long.bmod (2 ^ 32)

/-- Why a file is rejected. -/
inductive ConfigError where
  | cannotOpen
  | format (lineNo : ℕ)
  | statsInterval (value : List UInt8)
  | xdpMode (value : List UInt8)
  | unknownKey (key : List UInt8)
deriving DecidableEq, Repr

/-- Write the field of a key. -/
def setField (key value : List UInt8) (out : AppConfig) : Except ConfigError AppConfig :=
  if key = chars "ifname" then .ok { out with ifname := .print value }
  else if key = chars "socket_path" then .ok { out with socketPath := .print value }
  else if key = chars "log_file" then .ok { out with logFile := .print value }
  else if key = chars "stats_interval_sec" then
    let n := atoi value
    if n ≤ 0 ∨ n > 3600 then .error (.statsInterval value)
    else .ok { out with statsIntervalSec := n }
  else if key = chars "daemon" then .ok { out with daemonMode := atoi value ≠ 0 }
  else if key = chars "xdp_mode" then
    match parseXdpMode value with
    | some flags => .ok { out with xdpFlags := flags }
    | none => .error (.xdpMode value)
  else .error (.unknownKey key)

/-- One line: without its comment it is blank, or a key and a value around the
first `=`. -/
def parseConfigLine (lineNo : ℕ) (line : List UInt8) (out : AppConfig) :
    Except ConfigError AppConfig :=
  let key := trim ((cString line).takeWhile (· ≠ '#'.toUInt8))
  let eq := '='.toUInt8
  if key = [] then .ok out
  else if eq ∉ key then .error (.format lineNo)
  else setField (trim (key.takeWhile (· ≠ eq))) (trim ((key.dropWhile (· ≠ eq)).drop 1)) out

/-! ## Reading a file -/

/-- What the calls of `fgets` with a buffer of `size` bytes read one after the
other, the first one having read `line` so far. -/
def fgetsLines (size : ℕ) : List UInt8 → List UInt8 → List (List UInt8)
  | line, [] => if line = [] then [] else [line]
  | line, b :: rest =>
      if b = '\n'.toUInt8 ∨ line.length + 1 = size - 1 then (line ++ [b]) :: fgetsLines size [] rest
      else fgetsLines size (line ++ [b]) rest

/-- The lines in order, up to the first bad one. -/
def loadLines : ℕ → AppConfig → List (List UInt8) → AppConfig × Option ConfigError
  | _, out, [] => (out, none)
  | lineNo, out, line :: rest =>
      match parseConfigLine (lineNo + 1) line out with
      | .ok out => loadLines (lineNo + 1) out rest
      | .error e => (out, some e)

/-- What the path of the configuration file leads to. -/
inductive ConfigFile where
  | missing
  | unreadable
  | contents (bytes : List UInt8)
deriving DecidableEq, Repr

/-- What is left in `out`, and why the file was rejected, if it was. -/
def loadConfigFile (file : ConfigFile) (out : AppConfig) : AppConfig × Option ConfigError :=
  match file with
  | .missing => (out, none)
  | .unreadable => (out, some .cannotOpen)
  | .contents bytes => loadLines 0 out (fgetsLines 512 [] bytes)

theorem loadLines_append (lineNo : ℕ) (out : AppConfig) (first second : List (List UInt8)) :
    loadLines lineNo out (first ++ second) =
      match loadLines lineNo out first with
      | (c, none) => loadLines (lineNo + first.length) c second
      | bad => bad := by
  induction first generalizing lineNo out with
  | nil => rfl
  | cons line rest ih =>
      rw [List.cons_append, loadLines, loadLines]
      cases parseConfigLine (lineNo + 1) line out with
      | ok c =>
          dsimp only
          rw [ih, List.length_cons, Nat.add_right_comm, Nat.add_assoc]
      | error e => rfl

/-! ## What a file can write -/

/-- The interval is in range, and attaching never replaces a program. -/
structure AppConfig.Sound (c : AppConfig) : Prop where
  interval : 1 ≤ c.statsIntervalSec ∧ c.statsIntervalSec ≤ 3600
  noexist : c.xdpFlags &&& xdpFlagsUpdateIfNoexist = xdpFlagsUpdateIfNoexist

theorem configDefaults_sound : configDefaults.Sound := ⟨by decide, by decide⟩

theorem parseXdpMode_noexist {value : List UInt8} {flags : UInt32}
    (parsed : parseXdpMode value = some flags) :
    flags &&& xdpFlagsUpdateIfNoexist = xdpFlagsUpdateIfNoexist := by
  rw [parseXdpMode] at parsed
  split at parsed
  · obtain rfl := Option.some.inj parsed
    decide
  · split at parsed
    · obtain rfl := Option.some.inj parsed
      decide
    · split at parsed
      · obtain rfl := Option.some.inj parsed
        decide
      · split at parsed
        · obtain rfl := Option.some.inj parsed
          decide
        · cases parsed

theorem setField_sound {key value : List UInt8} {out out' : AppConfig} (sound : out.Sound)
    (set : setField key value out = .ok out') : out'.Sound := by
  have kept : ∀ {c : AppConfig}, (.ok c : Except ConfigError AppConfig) = .ok out' →
      c.statsIntervalSec = out.statsIntervalSec → c.xdpFlags = out.xdpFlags → out'.Sound := by
    rintro c ⟨⟩ interval xdpFlags
    exact ⟨interval ▸ sound.interval, xdpFlags ▸ sound.noexist⟩
  rw [setField] at set
  split at set
  · exact kept set rfl rfl
  · split at set
    · exact kept set rfl rfl
    · split at set
      · exact kept set rfl rfl
      · split at set
        · dsimp only at set
          split at set
          · cases set
          · rename_i inRange
            obtain rfl := Except.ok.inj set
            refine ⟨?_, sound.noexist⟩
            dsimp only
            omega
        · split at set
          · exact kept set rfl rfl
          · split at set
            · split at set
              · rename_i flags parsed
                obtain rfl := Except.ok.inj set
                exact ⟨sound.interval, parseXdpMode_noexist parsed⟩
              · cases set
            · cases set

theorem parseConfigLine_sound {lineNo : ℕ} {line : List UInt8} {out out' : AppConfig}
    (sound : out.Sound) (read : parseConfigLine lineNo line out = .ok out') : out'.Sound := by
  rw [parseConfigLine] at read
  split at read
  · obtain rfl := Except.ok.inj read
    exact sound
  · split at read
    · cases read
    · exact setField_sound sound read

theorem loadLines_sound {lineNo : ℕ} {out : AppConfig} (lines : List (List UInt8))
    (sound : out.Sound) : (loadLines lineNo out lines).1.Sound := by
  induction lines generalizing lineNo out with
  | nil => exact sound
  | cons line rest ih =>
      rw [loadLines]
      split
      · rename_i out' read
        exact ih (parseConfigLine_sound sound read)
      · exact sound

/-- Whatever the file holds, and whether or not it is rejected. -/
theorem loadConfigFile_sound {out : AppConfig} (file : ConfigFile) (sound : out.Sound) :
    (loadConfigFile file out).1.Sound := by
  cases file with
  | missing => exact sound
  | unreadable => exact sound
  | contents bytes => exact loadLines_sound _ sound

/-- The interval of the second line is written, and then the third is
rejected. -/
example : loadConfigFile
    (.contents (chars "# loader\n stats_interval_sec = 7 # s\nspeed=1\nifname=eth0\n"))
      configDefaults =
    ({ configDefaults with statsIntervalSec := 7 }, some (.unknownKey (chars "speed"))) := by
  decide +kernel

end EbpfNids.Loader
