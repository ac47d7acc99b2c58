import Gic.Config
import Gic.Register.ListEntry
import Gic.Table
import Gic.Trace.Note
import Gic.Trace.Traced

/-!
# The virtual half

The virtual half of a controller presents interrupts to the guests that the
CPUs run. A hypervisor puts them into the list registers of a CPU; the guest
acknowledges and completes them through the CPU's virtual interface. Everything
here belongs to one CPU.

## The model

Nested acknowledges are not kept on a stack but as active priorities: one bit
for each of the 32 priority levels, the most urgent level in the lowest bit. A
completion clears the lowest bit that is set. Writing the active priorities
sets the running priority to the level of the highest bit that is set, which is
how hypervisors restore it.

An interrupt is found by its number: `find?` gives the first list register that
holds it pending or active. Arbitration looks at those that are pending and not
active, and takes the first of those with the least priority.
-/

namespace Gic

/-- The smallest binary point of a virtual interface. -/
def minBinaryPoint : BitVec 3 := 2#3

/-- What the controller holds for the guest of one CPU. -/
structure VirtualCpu where
  /-- The hypervisor's control register; bit 0 enables the virtual interface. -/
  hypervisorControl : Word
  /-- The active priorities. -/
  activePriorities : Word
  /-- The list registers. -/
  lists : Table numListRegisters ListEntry
  /-- The guest's control register, kept and not looked at. -/
  control : Word
  /-- The priority that an interrupt must be more urgent than to be shown to the guest. -/
  priorityMask : Priority
  /-- The binary point: how many low bits of a priority do not count for preemption, less
  one. -/
  binaryPoint : BitVec 3
  /-- The binary point of the other group, kept and not looked at. -/
  aliasPoint : BitVec 3
  /-- The running priority. -/
  running : Priority
  /-- The most urgent pending interrupt that the guest is shown. -/
  highestPending : Nat
  /-- The level of the virtual interrupt line. -/
  line : Bool
  deriving DecidableEq

namespace VirtualCpu

/-- The virtual half of a CPU at power-on. -/
def powerOn : VirtualCpu where
  hypervisorControl := 0#32
  activePriorities := 0#32
  lists := Table.replicate numListRegisters .empty
  control := 0#32
  priorityMask := 0#8
  binaryPoint := minBinaryPoint
  aliasPoint := 3#3
  running := idle
  highestPending := spurious
  line := false

instance : Inhabited VirtualCpu := ⟨powerOn⟩

/-- The registers return to what they were at power-on; the line keeps its level. -/
def clear (v : VirtualCpu) : VirtualCpu := { powerOn with line := v.line }

/-- Whether the virtual interface is enabled. -/
def isEnabled (v : VirtualCpu) : Bool := v.hypervisorControl.getLsbD 0

/-- The first list register that holds an interrupt. -/
def find? (v : VirtualCpu) (irq : Nat) : Option Nat :=
  (List.range numListRegisters).find? fun n =>
    (v.lists.row n).live && (v.lists.row n).virtualId == irq

/-- What is reported when a list register is looked for. -/
def findEvents (v : VirtualCpu) (irq : Nat) : List Event :=
  if (v.find? irq).isNone then [.note (.noListRegister irq)] else []

/-- The priority of the first list register that holds an interrupt, zero if none does. -/
def priorityOf (v : VirtualCpu) (irq : Nat) : Priority :=
  match v.find? irq with
  | none => 0#8
  | some n => (v.lists.row n).priority

/-- Changes a list register. -/
def alterList (v : VirtualCpu) (n : Nat) (f : ListEntry → ListEntry) : VirtualCpu :=
  { v with lists := v.lists.alter n f }

/-- Which list registers hold no interrupt, one bit for each. -/
def freeLists (v : VirtualCpu) : Word :=
  Word.ofBits fun n => decide (n < numListRegisters) && !(v.lists.row n).live

/-- The priority that active priorities stand for: the level of the highest bit. -/
def priorityLevel (active : Word) : Priority :=
  if active = 0#32 then idle else BitVec.ofNat 8 (8 * Nat.log2 active.toNat)

/-- Sets the active priorities, and with them the running priority. -/
def setActivePriorities (v : VirtualCpu) (active : Word) : VirtualCpu :=
  { v with activePriorities := active, running := priorityLevel active }

/-- The entries that wait for the guest: pending and not active. -/
def waits (e : ListEntry) : Bool := e.pending && !e.active

/-- The first of the most urgent entries that wait. -/
def urgent? : List ListEntry → Option ListEntry
  | [] => none
  | e :: rest =>
    match urgent? rest with
    | none => if waits e then some e else none
    | some best => if waits e && decide (e.priority ≤ best.priority) then some e else some best

/-- What the guest is shown, and whether its line is raised; `none` if nothing reaches it. -/
def decideFor (v : VirtualCpu) : Option Arbitration :=
  if v.isEnabled then
    let winner := match urgent? v.lists.toList with
      | none => (spurious, idle)
      | some e => (e.virtualId, e.priority)
    some
      { winner := winner.1
        priority := winner.2
        mask := v.priorityMask
        running := v.running
        level := decide (winner.1 ≠ spurious) && decide (winner.2 < v.priorityMask)
          && decide (winner.2 < v.running) }
  else none

end VirtualCpu

end Gic
