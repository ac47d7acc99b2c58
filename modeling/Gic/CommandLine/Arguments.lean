import Gic.Config
import Gic.Text.Radix
import Gic.Trace.Filter

/-!
# What a command line asks for

A command line says what controller to build, what to log and where, which
scenario to run, and where to write the board's device tree.
-/

namespace Gic

/-- What a command line asks for. -/
structure Arguments where
  /-- How often more logging is asked for, up to 255 times. -/
  verbosity : Nat
  /-- The subsystems of which everything is logged. -/
  items : List Item
  /-- The file that the log goes to. -/
  logFile : Option String
  /-- The controller to build. -/
  config : Config
  /-- The file that the device tree is written to. -/
  treeFile : Option String
  /-- The file that holds the scenario. -/
  scriptFile : Option String
  deriving DecidableEq, Repr

/-- A number of CPUs or interrupts that no controller has. -/
inductive RangeError where
  /-- The number of CPUs. -/
  | cpus (given : Nat)
  /-- The number of shared interrupts. -/
  | spis (given : Nat)
  deriving DecidableEq, Repr

/-- The sentence that reports the error. -/
def RangeError.message : RangeError → String
  | cpus given =>
    "Invalid arguments: --cpus must be between 1 and " ++ toString maxCpus ++ ", got "
      ++ toString given ++ "."
  | spis given =>
    "Invalid arguments: --spis must be at most " ++ toString maxSpis ++ ", got "
      ++ toString given ++ "."

namespace Arguments

/-- What an empty command line asks for. -/
def none : Arguments where
  verbosity := 0
  items := []
  logFile := .none
  config := .standard
  treeFile := .none
  scriptFile := .none

/-- The least severe notes that are logged. -/
def level (a : Arguments) : Level :=
  match a.verbosity with
  | 0 => .warn
  | 1 => .info
  | 2 => .debug
  | _ => .trace

/-- Which notes are logged. -/
def filter (a : Arguments) : Filter := ⟨some a.level, a.items⟩

/-- Checks the numbers of CPUs and of shared interrupts. -/
def checkRanges (a : Arguments) : Except RangeError Unit :=
  if a.config.cpus = 0 ∨ maxCpus < a.config.cpus then .error (.cpus a.config.cpus)
  else if maxSpis < a.config.spis then .error (.spis a.config.spis)
  else .ok ()

end Arguments

end Gic
