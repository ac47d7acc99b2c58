import Gic.Interface
import Gic.Text.Shown

/-!
# Steps of a scenario

A scenario is a list of steps that are run against a board: register accesses
at an offset in a window, changes of input lines, and expectations on the
output lines. Whether the width of an access exists is found out only when the
step is run.
-/

namespace Gic

/-- A step of a scenario. -/
inductive Step where
  /-- A register is written by a CPU. -/
  | write (window : Interface) (cpu offset value width : Nat)
  /-- A register is read by a CPU, and must then hold the value if one is given. -/
  | read (window : Interface) (cpu offset : Nat) (expect : Option Nat) (width : Nat)
  /-- A private input of a CPU takes a level. -/
  | ppi (cpu : Nat) (index : BitVec 16) (level : Bool)
  /-- A shared input takes a level. -/
  | spi (index : BitVec 16) (level : Bool)
  /-- The interrupt line of a CPU must have a level. -/
  | expectIrq (cpu : Nat) (level : Bool)
  /-- The virtual interrupt line of a CPU must have a level. -/
  | expectVirq (cpu : Nat) (level : Bool)
  deriving DecidableEq, Repr

/-- The step as a value on one line. -/
def Step.shown : Step → String
  | write window cpu offset value width =>
    Text.shownRecord "Write"
      [("interface", window.shown), ("cpu", toString cpu), ("offset", toString offset),
        ("value", toString value), ("width", toString width)]
  | read window cpu offset expect width =>
    Text.shownRecord "Read"
      [("interface", window.shown), ("cpu", toString cpu), ("offset", toString offset),
        ("expect", Text.shownOption (expect.map toString)), ("width", toString width)]
  | ppi cpu index level =>
    Text.shownRecord "Ppi"
      [("cpu", toString cpu), ("index", toString index.toNat), ("level", Text.shownBool level)]
  | spi index level =>
    Text.shownRecord "Spi" [("index", toString index.toNat), ("level", Text.shownBool level)]
  | expectIrq cpu level =>
    Text.shownRecord "ExpectIrq" [("cpu", toString cpu), ("level", Text.shownBool level)]
  | expectVirq cpu level =>
    Text.shownRecord "ExpectVirq" [("cpu", toString cpu), ("level", Text.shownBool level)]

end Gic
