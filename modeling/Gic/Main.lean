import Gic.CommandLine.Session

/-!
# The program

Carries out the command line that it is started with.
-/

namespace Gic

/-- The system itself; `log` holds the file that the log goes to, if it goes to one. -/
def Host.system (log : IO.Ref (Option IO.FS.Handle)) : Host IO where
  openLog path := do
    try
      log.set (some (← IO.FS.Handle.mk path .write))
      return true
    catch _ => return false
  log line := do
    match ← log.get with
    | none => IO.eprintln line
    | some file => file.putStrLn line
  print line := IO.println line
  load path := do
    try return .ok (← IO.FS.readBinFile path)
    catch _ => return .error .notFound
  save path bytes := do
    try
      IO.FS.writeBinFile path bytes
      return true
    catch _ => return false

end Gic

open Gic in
/-- Carries out a command line. -/
def main (words : List String) : IO UInt32 := do
  let log ← IO.mkRef none
  match ← (Session.run (Host.system log) words).run with
  | .ok () => return 0
  | .error e =>
    match e, e.shown with
    | .usage .helpWanted, _ => IO.println UsageError.helpWanted.message
    | .usage .versionWanted, _ => IO.println UsageError.versionWanted.message
    | .usage error, _ => IO.eprintln error.message
    | _, some text => IO.eprintln ("Error: " ++ text)
    | _, none => pure ()
    return e.exitStatus.toUInt32
