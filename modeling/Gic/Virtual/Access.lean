import Gic.Register.CpuRegister
import Gic.Register.VifRegister
import Gic.Virtual.State

/-!
# Accesses to the virtual half of a CPU

The hypervisor's window and the guest's window, read and written as one CPU.

## The model

An access yields the new state of that CPU alone and says whether arbitration
has to follow (`VirtualWritten`). One access has an effect beyond the CPU's
virtual half: completing an interrupt that a physical one backs ends that one
too, so a completion also says which physical interrupt that is.
-/

namespace Gic

/-- The virtual half of a CPU after an access. -/
structure VirtualWritten where
  /-- The state. -/
  state : VirtualCpu
  /-- Whether arbitration has to follow. -/
  dirty : Bool

namespace VirtualCpu

/-- The type of the virtual interface: five bits of priority, and the list registers. -/
def vifType : Word := 0x90000000#32 ||| BitVec.ofNat 32 (numListRegisters - 1)

/-- The registers of the guest's interface, gathered. -/
def machineControl (v : VirtualCpu) : MachineControl where
  control := v.control.extractLsb' 0 10
  aliasPoint := v.aliasPoint
  binaryPoint := v.binaryPoint
  mask := v.priorityMask.toFive

/-- A binary point that the virtual interface can have. -/
def clampPoint (point : BitVec 3) : BitVec 3 :=
  if point < minBinaryPoint then minBinaryPoint else point

/-- Sets the registers of the guest's interface from where they were gathered. -/
def setMachineControl (v : VirtualCpu) (m : MachineControl) : VirtualCpu :=
  { v with
    control := m.control.setWidth 32
    aliasPoint := m.aliasPoint
    binaryPoint := clampPoint m.binaryPoint
    priorityMask := .ofFive m.mask }

/-- Whether a list register takes an entry: a physical interrupt that backs it must be one
that has an input. -/
def accepts (e : ListEntry) : Bool :=
  !e.hardware || (decide (numSgis ≤ e.physicalId) && decide (e.physicalId < maxIrqs))

/-- The word of a register of the hypervisor's window. -/
def readVif (v : VirtualCpu) : VifRegister → Word
  | .control => v.hypervisorControl
  | .vifType => vifType
  | .machineControl => v.machineControl.toWord
  | .freeLists => v.freeLists
  | .activePriorities => v.activePriorities
  | .list n => (v.lists.row n).toWord
  | .reserved => 0#32

/-- Writes a register of the hypervisor's window. -/
def writeVif (v : VirtualCpu) (cpu : Nat) (register : VifRegister) (value : Word) :
    Traced Event VirtualWritten := do
  match register with
  | .control =>
    .reportIf (v.hypervisorControl.getLsbD 0 ≠ value.getLsbD 0)
      (.note (.virtualEnable cpu (value.getLsbD 0)))
    return ⟨{ v with hypervisorControl := value }, true⟩
  | .machineControl => return ⟨v.setMachineControl (.ofWord value), true⟩
  | .activePriorities => return ⟨v.setActivePriorities value, true⟩
  | .list n =>
    let entry := ListEntry.ofWord value
    if numListRegisters ≤ n then
      .report (.note (.writeIgnored .vifControl register.name))
      return ⟨v, false⟩
    else if accepts entry then
      .report (.note (.listWritten cpu n entry))
      return ⟨v.alterList n fun _ => entry, true⟩
    else
      .report (.note (.listRefused cpu n entry))
      return ⟨v, false⟩
  | .vifType | .freeLists | .reserved =>
    .report (.note (.writeIgnored .vifControl register.name))
    return ⟨v, false⟩

/-- The bits of a priority that count for preemption. -/
def groupMask (point : BitVec 3) : Priority := 0xff#8 <<< (point.toNat + 1)

/-- The bit of the active priorities that stands for a priority. -/
def levelBit (priority : Priority) : Word := BitVec.twoPow 32 (priority.toNat / 8)

/-- The guest starts to run an interrupt of a priority. -/
def enter (v : VirtualCpu) (priority : Priority) : VirtualCpu :=
  { v with
    running := priority &&& groupMask v.binaryPoint
    activePriorities := v.activePriorities ||| levelBit priority }

/-- Acknowledges the interrupt that the guest is shown. -/
def acknowledge (v : VirtualCpu) (cpu : Nat) : Traced Event (Word × VirtualWritten) := do
  let irq := v.highestPending
  let priority := v.priorityOf irq
  if irq = spurious then
    return (BitVec.ofNat 32 spurious, ⟨v, false⟩)
  .reportAll (v.findEvents irq)
  if v.running ≤ priority then
    .report (.note (.cannotPreempt .virtual cpu irq priority v.running))
    return (BitVec.ofNat 32 spurious, ⟨v, false⟩)
  .reportAll (v.findEvents irq)
  match v.find? irq with
  | none => return (BitVec.ofNat 32 spurious, ⟨v.enter priority, false⟩)
  | some n =>
    .report (.note (.acknowledged .virtual cpu irq priority))
    let entered := (v.enter priority).alterList n fun e =>
      { e with pending := false, active := true }
    return (tagged irq (v.lists.row n).source, ⟨entered, true⟩)

/-- Clears the lowest bit that is set. -/
def dropLowest (active : Word) : Word := active &&& (active - 1#32)

/-- Completes an interrupt, and says which physical interrupt backs it. -/
def complete (v : VirtualCpu) (cpu irq : Nat) : Traced Event (VirtualCpu × Option Nat) := do
  let left := v.setActivePriorities (dropLowest v.activePriorities)
  .reportAll (v.findEvents irq)
  match v.find? irq with
  | none => return (left, none)
  | some n =>
    .report (.note (.virtualCompleted cpu irq))
    let entry := v.lists.row n
    return (left.alterList n fun e => { e with active := false },
      if entry.hardware then some entry.physicalId else none)

/-- The word of a register of the guest's window that is read without effect. -/
def readGuest (v : VirtualCpu) : CpuRegister → Word
  | .control => v.control
  | .priorityMask => v.priorityMask.setWidth 32
  | .binaryPoint => v.binaryPoint.setWidth 32
  | .aliasPoint => v.aliasPoint.setWidth 32
  | .runningPriority => v.running.setWidth 32
  | .highestPending => BitVec.ofNat 32 v.highestPending
  | .activePriorities n => if n = 0 then v.activePriorities else 0#32
  | .identification => interfaceId
  | .component n => componentIdByte n
  | .acknowledge | .completion | .deactivation | .reserved => 0#32

/-- Writes a register of the guest's window, other than the completion register. -/
def writeGuest (v : VirtualCpu) (cpu : Nat) (register : CpuRegister) (value : Word) :
    Traced Event VirtualWritten := do
  match register with
  | .control =>
    .reportIf (1 < value.toNat) (.note (.unknownFeatures cpu value.toNat))
    return ⟨{ v with control := value }, true⟩
  | .priorityMask => return ⟨{ v with priorityMask := .ofFive (value.extractLsb' 3 5) }, true⟩
  | .binaryPoint => return ⟨{ v with binaryPoint := clampPoint (value.setWidth 3) }, true⟩
  | .aliasPoint => return ⟨{ v with aliasPoint := value.setWidth 3 }, true⟩
  | .activePriorities 0 => return ⟨v.setActivePriorities value, true⟩
  | .acknowledge | .completion | .runningPriority | .highestPending | .identification
  | .component _ | .activePriorities _ | .deactivation | .reserved =>
    .report (.note (.writeIgnored .vcpuInterface register.name))
    return ⟨v, false⟩

end VirtualCpu

end Gic
