import Gic.CommandLine.Arguments

/-!
# The words of a command line

A command line is a sequence of words. A word is a switch (`-v`, `--help`), the
name of a setting (`--cpus`), a value, or the word `--`, after which every word
is a value. The value of a setting follows its name, as the next word or in the
same one after `=`; `--trace` takes all values that follow. A value that
belongs to no setting names the scenario.

## The model

The words are taken one by one. A setting waits with its values until it is
known that no more belong to it; it is settled when the next switch, setting or
scenario comes, or at the end. Only then are its values looked at, so a fault
in them comes after the faults of words that cannot be understood at all.
-/

namespace Gic

/-- Something that has values. -/
inductive Setting where
  /-- The subsystems of which everything is logged. -/
  | trace
  /-- The file that the log goes to. -/
  | logFile
  /-- The number of CPUs. -/
  | cpus
  /-- The number of shared interrupts. -/
  | spis
  /-- The base address of a window. -/
  | base (window : Interface)
  /-- The file that the device tree is written to. -/
  | treeFile
  /-- The file that holds the scenario. -/
  | scriptFile
  deriving DecidableEq, Repr

/-- Something that has no values. -/
inductive Switch where
  /-- More is to be logged. -/
  | verbose
  /-- Help is asked for. -/
  | help
  /-- The version is asked for. -/
  | version
  deriving DecidableEq, Repr

namespace Setting

/-- The settings that have names, with their names. -/
def named : List (String × Setting) :=
  [("trace", trace), ("log-file", logFile), ("cpus", cpus), ("spis", spis),
    ("distributor", base .distributor), ("cpu-interface", base .cpuInterface),
    ("vif-control", base .vifControl), ("vcpu-interface", base .vcpuInterface),
    ("dtb", treeFile)]

/-- The setting of that name. -/
def ofName? (name : String) : Option Setting := named.lookup name

/-- Whether the setting takes all values that follow, and may be given again. -/
def isList : Setting → Bool
  | trace => true
  | _ => false

end Setting

namespace Switch

/-- The switch of that name. -/
def ofName? (name : String) : Option Switch :=
  [("verbose", verbose), ("help", help), ("version", version)].lookup name

/-- The switch of that letter. -/
def ofLetter? (letter : Char) : Option Switch :=
  [('v', verbose), ('h', help), ('V', version)].lookup letter

end Switch

/-- Why a command line is not carried out. -/
inductive UsageError where
  /-- A word means nothing, or is one value too many. -/
  | unknownWord
  /-- A switch has a value. -/
  | valueOfSwitch
  /-- A setting has no value. -/
  | noValue
  /-- A setting has a value that is none of its values. -/
  | noSuchValue
  /-- A setting has a value that is no number. -/
  | badNumber (reason : Text.NumeralError)
  /-- A setting is given twice. -/
  | givenTwice
  /-- Help is asked for. -/
  | helpWanted
  /-- The version is asked for. -/
  | versionWanted
  deriving DecidableEq, Repr

/-- What is said of a command line that is not carried out. -/
def UsageError.message : UsageError → String
  | unknownWord => "error: unexpected argument"
  | valueOfSwitch => "error: unexpected value of a switch"
  | noValue => "error: a value is required"
  | noSuchValue => "error: invalid value"
  | badNumber reason => "error: invalid value: " ++ reason.message
  | givenTwice => "error: an argument cannot be used multiple times"
  | helpWanted =>
    "GIC-400 interrupt controller model\n\n"
      ++ "Usage: gic [OPTIONS] [SCRIPT]\n\n"
      ++ "  -v, --verbose               Log more\n"
      ++ "      --trace <ITEM>...       Log everything of these subsystems\n"
      ++ "      --log-file <PATH>       Log to this file\n"
      ++ "      --cpus <N>              Number of connected CPUs\n"
      ++ "      --spis <N>              Number of connected shared interrupts\n"
      ++ "      --distributor <ADDRESS> --cpu-interface <ADDRESS>\n"
      ++ "      --vif-control <ADDRESS> --vcpu-interface <ADDRESS>\n"
      ++ "                              Base addresses of the windows\n"
      ++ "      --dtb <PATH>            Write a device tree to this path"
  | versionWanted => "gic 0.0.0"

/-- A command line of which some words have been taken. -/
structure Words where
  /-- What has been settled. -/
  settled : Arguments
  /-- The settings that have been settled. -/
  given : List Setting
  /-- The setting that waits, with its values. -/
  waiting : Option (Setting × List String)
  /-- Whether the next value belongs to the waiting setting. -/
  isOpen : Bool
  /-- Whether every word is a value from now on. -/
  plain : Bool
  /-- Whether the scenario was named. -/
  hasScript : Bool
  deriving DecidableEq, Repr

namespace Words

/-- No word has been taken. -/
def start : Words := ⟨.none, [], none, false, false, false⟩

/-- The file of that path. -/
def path (value : String) : Except UsageError (Option String) :=
  if value = "" then .error .noSuchValue else .ok (some value)

/-- A number of things. -/
def count (value : String) : Except UsageError Nat :=
  (Text.readDecimal value).mapError .badNumber

/-- An address. -/
def address (value : String) : Except UsageError Nat :=
  (Text.readAddress value).mapError .badNumber

/-- A subsystem. -/
def item (value : String) : Except UsageError Item :=
  match Item.ofWord? value with
  | none => .error .noSuchValue
  | some i => .ok i

/-- Another base address of a window. -/
def rebase (config : Config) (address : Nat) : Interface → Config
  | .distributor => { config with distributor := address }
  | .cpuInterface => { config with cpuInterface := address }
  | .vifControl => { config with vifControl := address }
  | .vcpuInterface => { config with vcpuInterface := address }

/-- Gives a setting a value. -/
def assign (a : Arguments) (setting : Setting) (value : String) : Except UsageError Arguments :=
  match setting with
  | .trace => (item value).map fun i => { a with items := a.items ++ [i] }
  | .logFile => (path value).map fun logFile => { a with logFile }
  | .cpus => (count value).map fun cpus => { a with config := { a.config with cpus } }
  | .spis => (count value).map fun spis => { a with config := { a.config with spis } }
  | .base window =>
    (address value).map fun address => { a with config := rebase a.config address window }
  | .treeFile => (path value).map fun treeFile => { a with treeFile }
  | .scriptFile => (path value).map fun scriptFile => { a with scriptFile }

/-- Settles the setting that waits. -/
def settle (w : Words) : Except UsageError Words :=
  match w.waiting with
  | none => .ok w
  | some (_, []) => .error .noValue
  | some (setting, values) =>
    if !setting.isList && w.given.contains setting then .error .givenTwice
    else
      (values.foldlM (assign · setting ·) w.settled).map fun settled =>
        { w with settled, given := setting :: w.given, waiting := none, isOpen := false }

/-- Throws a switch. -/
def throwSwitch (w : Words) (switch : Switch) : Except UsageError Words := do
  let w ← w.settle
  match switch with
  | .verbose =>
    return { w with settled := { w.settled with verbosity := min (w.settled.verbosity + 1) 255 } }
  | .help => .error .helpWanted
  | .version => .error .versionWanted

/-- Takes the letters of a word that begins with one hyphen. -/
def takeLetters (w : Words) : List Char → Except UsageError Words
  | [] => .ok w
  | c :: rest =>
    match Switch.ofLetter? c with
    | none => .error .unknownWord
    | some switch => do
      let w ← w.throwSwitch switch
      w.takeLetters rest

/-- Takes the name of a setting, with a value in the same word if there is one. -/
def takeSetting (w : Words) (setting : Setting) (value : Option String) :
    Except UsageError Words := do
  let w ← w.settle
  match value with
  | none => return { w with waiting := some (setting, []), isOpen := true }
  | some value => settle { w with waiting := some (setting, [value]) }

/-- Takes a name after two hyphens, with a value in the same word if there is one. -/
def takeName (w : Words) (name : String) (value : Option String) : Except UsageError Words :=
  match Setting.ofName? name, Switch.ofName? name, value with
  | some setting, _, _ => w.takeSetting setting value
  | none, some switch, none => w.throwSwitch switch
  | none, some _, some _ => .error .valueOfSwitch
  | none, none, _ => .error .unknownWord

/-- Takes a value that belongs to no setting. -/
def takeScript (w : Words) (value : String) : Except UsageError Words :=
  if w.hasScript then .error .unknownWord
  else w.settle.map fun w =>
    { w with waiting := some (.scriptFile, [value]), hasScript := true }

/-- Takes a value. -/
def takeValue (w : Words) (value : String) : Except UsageError Words :=
  match w.waiting, w.isOpen with
  | some (setting, values), true =>
    .ok { w with waiting := some (setting, values ++ [value]), isOpen := setting.isList }
  | _, _ => w.takeScript value

/-- The name before the first `=` of a word, and what stands after it. -/
def splitName (word : List Char) : String × Option String :=
  (String.ofList (word.takeWhile (· != '=')),
    match word.dropWhile (· != '=') with
    | [] => none
    | _ :: value => some (String.ofList value))

/-- Takes a word. -/
def take (w : Words) (word : String) : Except UsageError Words :=
  if w.plain then w.takeScript word
  else
    match word.toList with
    | ['-', '-'] => .ok { w with plain := true }
    | '-' :: '-' :: name => w.takeName (splitName name).1 (splitName name).2
    | '-' :: c :: letters => w.takeLetters (c :: letters)
    | _ => w.takeValue word

end Words

/-- What the words of a command line ask for. -/
def Arguments.ofWords (words : List String) : Except UsageError Arguments := do
  let w ← words.foldlM Words.take Words.start
  let w ← w.settle
  return w.settled

end Gic
