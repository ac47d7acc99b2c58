import Gic.Config
import Gic.Register.Layout

/-!
# A CPU interface

Each connected CPU acknowledges and completes its interrupts through a CPU
interface, which keeps what the CPU has acknowledged and not yet completed on a
stack. The innermost interrupt is the one that the CPU is running; its priority
at the acknowledge is the running priority, below which nothing interrupts it.

## The model

The stack is a list with the innermost interrupt first. Completing an interrupt
takes its innermost occurrence off the stack, wherever that is.
-/

namespace Gic

/-- An interrupt that was acknowledged and not yet completed. -/
structure RunningIrq where
  /-- The interrupt. -/
  irq : Nat
  /-- Its priority when it was acknowledged. -/
  priority : Priority
  deriving DecidableEq, Repr

/-- The registers of a CPU interface, and the line it drives. -/
structure CpuInterface where
  /-- The enabled groups. -/
  enables : GroupEnables
  /-- The priority that an interrupt must be more urgent than to be shown to the CPU. -/
  priorityMask : Priority
  /-- The binary point, kept and not looked at. -/
  binaryPoint : BitVec 3
  /-- The binary point of the other group, kept and not looked at. -/
  aliasPoint : BitVec 3
  /-- The priority of the running interrupt. -/
  running : Priority
  /-- The most urgent pending interrupt that the CPU is shown. -/
  highestPending : Nat
  /-- The active priorities, kept and not looked at. -/
  activePriorities : Word
  /-- The deactivation register, kept and not looked at. -/
  deactivation : Word
  /-- What was acknowledged and not yet completed, innermost first. -/
  stack : List RunningIrq
  /-- The level of the interrupt line. -/
  line : Bool
  deriving DecidableEq, Repr

namespace CpuInterface

/-- The interface at power-on. -/
def powerOn : CpuInterface where
  enables := .none
  priorityMask := 0#8
  binaryPoint := 2#3
  aliasPoint := 3#3
  running := idle
  highestPending := spurious
  activePriorities := 0#32
  deactivation := 0#32
  stack := []
  line := false

instance : Inhabited CpuInterface := ⟨powerOn⟩

/-- The registers return to what they were at power-on; the line keeps its level. -/
def clear (i : CpuInterface) : CpuInterface := { powerOn with line := i.line }

/-- The interrupt that the CPU is running. -/
def runningIrq? (i : CpuInterface) : Option Nat := i.stack.head?.map RunningIrq.irq

/-- The priority of the innermost interrupt of a stack. -/
def topPriority : List RunningIrq → Priority
  | [] => idle
  | r :: _ => r.priority

/-- The CPU starts to run an interrupt. -/
def push (i : CpuInterface) (irq : Nat) (priority : Priority) : CpuInterface :=
  { i with stack := ⟨irq, priority⟩ :: i.stack, running := priority }

/-- The CPU has completed the innermost occurrence of an interrupt. -/
def drop (i : CpuInterface) (irq : Nat) : CpuInterface :=
  let stack := i.stack.eraseP fun r => r.irq == irq
  { i with stack, running := topPriority stack }

/-- Whether the CPU has acknowledged an interrupt and not yet completed it. -/
def isRunning (i : CpuInterface) (irq : Nat) : Bool := i.stack.any fun r => r.irq == irq

end CpuInterface

end Gic
