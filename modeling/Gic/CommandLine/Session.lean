import Gic.CommandLine.Words
import Gic.DeviceTree.BoardTree
import Gic.Scenario.Replay

/-!
# A session

A session carries out a command line: it builds the board, writes the device
tree if one is asked for, runs the scenario if there is one, and at its end
prints the levels of the output lines of every CPU.

## The model

A session needs a host for files and output. It is written for any host, so the
same session runs on a real system and on one that is only imagined.
-/

namespace Gic

/-- What a session needs from the system that it runs on, whose effects are those of `m`. -/
structure Host (m : Type → Type) where
  /-- Begins the log in a file of that path; says whether it can be written. -/
  openLog : String → m Bool
  /-- Adds a line to the log. -/
  log : String → m Unit
  /-- Prints a line. -/
  print : String → m Unit
  /-- Reads the file of that path. -/
  load : String → m (Except FileError ByteArray)
  /-- Writes the file of that path; says whether it can be written. -/
  save : String → ByteArray → m Bool

/-- Why a session ends early. -/
inductive SessionError where
  /-- The command line is not understood, or asks for help. -/
  | usage (error : UsageError)
  /-- The command line asks for too few or too many CPUs or interrupts. -/
  | range (error : RangeError)
  /-- A file cannot be written. -/
  | unwritable
  /-- The board cannot be built. -/
  | board (error : BoardError)
  /-- The device tree cannot be written. -/
  | tree (error : DeviceTree.WriteError)
  /-- There is no scenario. -/
  | script (error : ScriptError)
  /-- The scenario fails. -/
  | replay (error : ReplayError)
  deriving DecidableEq

namespace SessionError

/-- The error as a value on one line; one that only the command line has needs none. -/
def shown : SessionError → Option String
  | usage _ => none
  | range e => some (Text.shownText e.message)
  | unwritable => some "Io"
  | board e => some e.shown
  | tree e => some e.shown
  | script e => some e.shown
  | replay e => some e.shown

/-- The exit status of a session that ends so. -/
def exitStatus : SessionError → Nat
  | usage .helpWanted | usage .versionWanted => 0
  | usage _ => 2
  | _ => 1

end SessionError

namespace Session

variable {m : Type → Type} [Monad m]

/-- Logs what the filter lets through. -/
def log (host : Host m) (filter : Filter) : List Note → ExceptT SessionError m Unit
  | [] => pure ()
  | note :: rest => do
    if filter.lets note then host.log note.line
    log host filter rest

/-- The line that is printed for a CPU. -/
def cpuLine {cfg : Config} (g : Controller cfg) (cpu : Nat) : String :=
  "cpu " ++ toString cpu ++ ": irq " ++ toString (g.line cpu .irq).toNat ++ " virq "
    ++ toString (g.line cpu .virtualIrq).toNat

/-- Prints lines. -/
def printAll (host : Host m) : List String → ExceptT SessionError m Unit
  | [] => pure ()
  | line :: rest => do
    host.print line
    printAll host rest

/-- Begins the log. -/
def beginLog (host : Host m) (args : Arguments) : ExceptT SessionError m Unit := do
  match args.logFile with
  | none => return
  | some path => unless ← host.openLog path do throw .unwritable

/-- Writes the device tree, if one is asked for. -/
def writeTree (host : Host m) (args : Arguments) : ExceptT SessionError m Unit := do
  match args.treeFile with
  | none => return
  | some path =>
    match DeviceTree.write (DeviceTree.boardTree args.config) with
    | .error e => throw (.tree e)
    | .ok bytes =>
      unless ← host.save path bytes.toByteArray do throw .unwritable
      log host args.filter [.deviceTreeWritten path]

/-- Runs a scenario and says how the output lines are at its end. -/
def runScript {cfg : Config} (host : Host m) (filter : Filter) (b : Board cfg) (script : Script) :
    ExceptT SessionError m Unit := do
  let outcome := b.run script
  log host filter outcome.reports
  match outcome.value.1 with
  | .error e => throw (.replay e)
  | .ok () =>
    let (changes, b) := outcome.value.2.drain
    log host filter (changes.map .published)
    printAll host ((List.range cfg.cpus).map (cpuLine b.controller))

/-- Runs the scenario, if there is one. -/
def replay {cfg : Config} (host : Host m) (args : Arguments) (b : Board cfg) :
    ExceptT SessionError m Unit := do
  match args.scriptFile with
  | none => return
  | some path =>
    match ← host.load path with
    | .error e => throw (.script (.file e))
    | .ok bytes =>
      match Script.ofBytes bytes with
      | .error e => throw (.script e)
      | .ok script => runScript host args.filter b script

/-- Carries out what a command line asks for. -/
def carryOut (host : Host m) (args : Arguments) : ExceptT SessionError m Unit := do
  match args.checkRanges with
  | .error e => throw (.range e)
  | .ok () => beginLog host args
  match Board.build args.config with
  | .error e => throw (.board e)
  | .ok b =>
    log host args.filter [.built args.config.cpus args.config.spis]
    writeTree host args
    replay host args b

/-- Carries out a command line. -/
def run (host : Host m) (words : List String) : ExceptT SessionError m Unit := do
  match Arguments.ofWords words with
  | .error e => throw (.usage e)
  | .ok args => carryOut host args

end Session

end Gic
