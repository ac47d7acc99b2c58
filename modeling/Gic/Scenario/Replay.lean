import Gic.Board
import Gic.Scenario.Script

/-!
# Running a scenario

The steps of a scenario are run against a board, one after the other, up to the
first that fails. Register accesses go over the bus to the address at the
offset from the window's base; an address that leaves the address space fails
before the width is looked at. Changes of inputs are queued and received at
once, except that of a private input that does not exist, which would be taken
for another interrupt.
-/

namespace Gic

/-- What an expectation is about. -/
inductive Subject where
  /-- A register, as read by a CPU. -/
  | register (window : Interface) (offset cpu : Nat)
  /-- An output line of a CPU. -/
  | line (kind : LineKind) (cpu : Nat)
  deriving DecidableEq, Repr

/-- The words for it. -/
def Subject.text : Subject → String
  | register window offset cpu =>
    window.name ++ " register " ++ Text.hex offset ++ " read by cpu " ++ toString cpu
  | line .irq cpu => "cpu " ++ toString cpu ++ " irq line"
  | line .virtualIrq cpu => "cpu " ++ toString cpu ++ " virtual irq line"

/-- Why a step fails. -/
inductive Fault where
  /-- There are no accesses of that width. -/
  | invalidWidth (bits : Nat)
  /-- The access failed. -/
  | bus (error : BusError)
  /-- An expectation is not met. -/
  | mismatch (subject : Subject) (expected actual : Nat)
  deriving DecidableEq, Repr

/-- Why a scenario fails: a step, and why that one fails. -/
structure ReplayError where
  /-- The number of the step, from zero. -/
  step : Nat
  /-- Why it fails. -/
  fault : Fault
  deriving DecidableEq, Repr

/-- The sentence that reports the fault. -/
def Fault.message : Fault → String
  | invalidWidth bits => "invalid access width " ++ toString bits
  | bus error => error.message
  | mismatch subject expected actual =>
    subject.text ++ " is " ++ Text.hex actual ++ ", expected " ++ Text.hex expected

namespace ReplayError

/-- The sentence that reports the error. -/
def message (e : ReplayError) : String := "step " ++ toString e.step ++ ": " ++ e.fault.message

/-- The error as a value on one line. -/
def shown (e : ReplayError) : String :=
  match e.fault with
  | .invalidWidth bits =>
    Text.shownRecord "InvalidWidth" [("step", toString e.step), ("bits", toString bits)]
  | .bus error => Text.shownRecord "Bus" [("step", toString e.step), ("error", error.shown)]
  | .mismatch subject expected actual =>
    Text.shownRecord "Mismatch"
      [("step", toString e.step), ("what", Text.shownText subject.text),
        ("expected", toString expected), ("actual", toString actual)]

end ReplayError

namespace Board

variable {cfg : Config}

/-- Where an access goes and how wide it is. -/
def target (cfg : Config) (window : Interface) (offset bits : Nat) : Except Fault (Nat × Width) :=
  match address? (cfg.base window) offset, Width.ofBits? bits with
  | none, _ => .error (.bus (.invalidAddress (addressWrapping (cfg.base window) offset)))
  | some _, none => .error (.invalidWidth bits)
  | some address, some width => .ok (address, width)

/-- Compares what a step expects with what it finds. -/
def check (subject : Subject) (expected actual : Nat) : Except Fault Unit :=
  if expected = actual then .ok () else .error (.mismatch subject expected actual)

/-- Compares what a read gives with what it should give, if anything. -/
def checkRead (subject : Subject) (expect : Option Nat) :
    Except BusError Word → Except Fault Unit
  | .error e => .error (.bus e)
  | .ok value =>
    match expect with
    | none => .ok ()
    | some expected => check subject expected value.toNat

/-- Queues a change of an input and receives it. -/
def apply (b : Board cfg) (request : Request) : Traced Note (Board cfg) := do
  let b ← b.request request
  let (_, b) ← b.receive
  return b

/-- Runs a step. -/
def runStep (b : Board cfg) : Step → Traced Note (Except Fault Unit × Board cfg)
  | .write window cpu offset value bits =>
    match target cfg window offset bits with
    | .error e => return (.error e, b)
    | .ok (address, width) => do
      let (answer, b) ← b.write (.cpu cpu) address (BitVec.ofNat 64 value) width
      return (answer.mapError .bus, b)
  | .read window cpu offset expect bits =>
    match target cfg window offset bits with
    | .error e => return (.error e, b)
    | .ok (address, width) => do
      let (answer, b) ← b.read (.cpu cpu) address width
      return (checkRead (.register window offset cpu) expect answer, b)
  | .ppi cpu index level => do
    let b ←
      if index.toNat < numPpis then b.apply ⟨.ofNat 16 (numSgis + index.toNat), some cpu, level⟩
      else b.advance fun g => g.drivePpi cpu index.toNat level
    return (.ok (), b)
  | .spi index level => do
    let b ← b.apply ⟨.ofNat 16 (min (numPrivate + index.toNat) 0xffff), none, level⟩
    return (.ok (), b)
  | .expectIrq cpu level =>
    return (check (.line .irq cpu) level.toNat (b.controller.line cpu .irq).toNat, b)
  | .expectVirq cpu level =>
    return (check (.line .virtualIrq cpu) level.toNat
      (b.controller.line cpu .virtualIrq).toNat, b)

/-- Runs steps of which the first has the number `index`. -/
def runFrom (b : Board cfg) (index : Nat) : Script →
    Traced Note (Except ReplayError Unit × Board cfg)
  | [] => return (.ok (), b)
  | step :: rest => do
    .report (.replaying index step)
    let (outcome, b) ← b.runStep step
    match outcome with
    | .error fault => return (.error ⟨index, fault⟩, b)
    | .ok () => b.runFrom (index + 1) rest

/-- Runs a script. -/
def run (b : Board cfg) (script : Script) : Traced Note (Except ReplayError Unit × Board cfg) :=
  b.runFrom 0 script

end Board

end Gic
