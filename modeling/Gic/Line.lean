import Gic.Text.Shown

/-!
# Interrupt lines

Devices drive the inputs of the controller and the controller drives two lines
to each CPU: the interrupt line and, for the guest that it runs, the virtual
one. Changes of inputs are queued as requests until they are delivered; changes
of output lines are published.
-/

namespace Gic

/-- An output line of a CPU. -/
inductive LineKind where
  /-- The interrupt line. -/
  | irq
  /-- The virtual interrupt line. -/
  | virtualIrq
  deriving DecidableEq, Repr

/-- The line as a value on one line of text. -/
def LineKind.shown : LineKind → String
  | irq => "Irq"
  | virtualIrq => "VirtualIrq"

/-- A change of an output line. -/
structure LineChange where
  /-- The CPU. -/
  cpu : Nat
  /-- Which of its lines. -/
  kind : LineKind
  /-- The new level. -/
  level : Bool
  deriving DecidableEq, Repr

/-- The change as a value on one line. -/
def LineChange.shown (change : LineChange) : String :=
  Text.shownRecord "SignalEvent"
    [("cpu", toString change.cpu), ("kind", change.kind.shown),
      ("level", Text.shownBool change.level)]

/-- A queued change of an input: of a private input of `cpu` if the interrupt is private. -/
structure Request where
  /-- The number of the interrupt. -/
  id : BitVec 16
  /-- The CPU, if one is named. -/
  cpu : Option Nat
  /-- The new level. -/
  level : Bool
  deriving DecidableEq, Repr

namespace Request

/-- The interrupt. -/
def irq (request : Request) : Nat := request.id.toNat

theorem irq_lt (request : Request) : request.irq < 0x10000 := request.id.isLt

theorem irq_ofNat {irq : Nat} (h : irq < 0x10000) (cpu : Option Nat) (level : Bool) :
    Request.irq ⟨.ofNat 16 irq, cpu, level⟩ = irq :=
  Nat.mod_eq_of_lt h

/-- The request as a value on one line. -/
def shown (request : Request) : String :=
  Text.shownRecord "InterruptRequest"
    [("interrupt_id", toString request.irq),
      ("cpu_id", Text.shownOption (request.cpu.map toString)),
      ("signal", Text.shownBool request.level)]

end Request

end Gic
