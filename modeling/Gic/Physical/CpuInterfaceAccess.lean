import Gic.Physical.Arbitration
import Gic.Register.CpuRegister

/-!
# Accesses to the CPU interfaces

Reading and writing the registers of a CPU's own interface. Two of them act:
reading the acknowledge register starts the interrupt that the CPU is shown,
writing the completion register ends one that it has started.

## The model

An acknowledge takes the interrupt that the last arbitration chose, looks up
its priority again, and is refused if that cannot preempt what is running. The
value read names the interrupt, and for an SGI the CPU that sent it, the lowest
of those that wait: only that one is answered, and the SGI stays pending while
others wait. A completion of an interrupt that this CPU has not acknowledged
changes nothing.
-/

namespace Gic

/-- A register of an interface is accessed by the word, at an offset that words start at. -/
def checkWord (offset : Nat) (width : Width) : Except BusError Unit :=
  if width = .word ∧ offset % 4 = 0 then .ok () else .error (.unsupportedWidth offset width)

namespace Physical

variable {cfg : Config}

/-- The interrupt that a CPU is shown, as its registers name it. -/
def pendingTag (p : Physical cfg) (cpu : Nat) : Word :=
  let irq := (p.cpus.row cpu).highestPending
  if irq < numSgis then tagged irq ((p.distributor.sources cpu irq).lowest?.getD 0)
  else BitVec.ofNat 32 irq

/-- An SGI of one source is taken by a CPU; it stays pending as long as some source is left. -/
def takeSgi (p : Physical cfg) (cpu sgi source : Nat) : Physical cfg :=
  let distributor := p.distributor.setSources cpu sgi (.only source) false
  let p := { p with distributor }
  if distributor.sources cpu sgi = 0#8 then
    p.alterIrq sgi fun r => r.setPending false (.only cpu)
  else p

/-- An interrupt is taken by a CPU that has waited for it. -/
def takeIrq (p : Physical cfg) (cpu irq : Nat) : Physical cfg :=
  p.alterIrq irq fun r => r.setPending false (r.scope cpu)

/-- An interrupt that a CPU has taken becomes the one that it runs. -/
def start (p : Physical cfg) (cpu irq : Nat) (priority : Priority) : Physical cfg :=
  (p.alterIrq irq fun r => r.acknowledge cpu).alterCpu cpu fun i => i.push irq priority

/-- Acknowledges the interrupt that a CPU is shown. -/
def acknowledge (p : Physical cfg) (cpu : Nat) : Traced Event (Word × Physical cfg) := do
  let i := p.cpus.row cpu
  let irq := i.highestPending
  let priority := p.priority cpu irq
  if irq = spurious then
    return (BitVec.ofNat 32 spurious, p)
  else if i.running ≤ priority then
    .report (.note (.cannotPreempt .physical cpu irq priority i.running))
    return (BitVec.ofNat 32 spurious, p)
  else
    let source? := (p.distributor.sources cpu irq).lowest?
    let isSgi := decide (irq < numSgis)
    .reportIf (isSgi && source?.isNone) (.note (.sgiWithoutSource cpu irq))
    let taken := if isSgi then p.takeSgi cpu irq (source?.getD 0) else p.takeIrq cpu irq
    .report (.note (.acknowledged .physical cpu irq priority))
    let p ← (taken.start cpu irq priority).arbitrate
    return (if isSgi then tagged irq (source?.getD 0) else BitVec.ofNat 32 irq, p)

/-- An interrupt is no longer active for the CPU that has acknowledged it. -/
def deactivate (p : Physical cfg) (cpu irq : Nat) : Physical cfg :=
  p.alterIrq irq fun r => r.complete cpu

/-- Completes the interrupt that a CPU names in the low ten bits of a word. -/
def complete (p : Physical cfg) (cpu : Nat) (value : Word) :
    Traced Event (Physical cfg) := do
  let irq := value.field 0 10
  let i := p.cpus.row cpu
  if cfg.numIrqs ≤ irq then
    .report (.note (.invalidCompletion .physical cpu irq))
    return p
  else if i.isRunning irq then
    .reportIf (i.runningIrq? ≠ some irq) (.note (.outOfOrder cpu irq i.runningIrq?))
    .report (.note (.completed cpu irq (i.drop irq).running))
    ((p.alterCpu cpu fun i => i.drop irq).deactivate cpu irq).arbitrate
  else if i.stack.isEmpty then
    .report (.note (.nothingToComplete cpu irq))
    return p
  else
    .report (.note (.notAcknowledged cpu irq))
    return p

/-- The word of a register of a CPU's interface that is read without effect. -/
def readInterface (p : Physical cfg) (cpu : Nat) (register : CpuRegister) : Word :=
  let i := p.cpus.row cpu
  match register with
  | .control => i.enables.toWord
  | .priorityMask => i.priorityMask.setWidth 32
  | .binaryPoint => i.binaryPoint.setWidth 32
  | .aliasPoint => i.aliasPoint.setWidth 32
  | .runningPriority => i.running.setWidth 32
  | .highestPending => p.pendingTag cpu
  | .activePriorities n => if n = 0 then i.activePriorities else 0#32
  | .deactivation => i.deactivation
  | .identification => interfaceId
  | .component n => componentIdByte n
  | .acknowledge | .completion | .reserved => 0#32

/-- Reads a register of a CPU's interface. -/
def readCpuInterface (p : Physical cfg) (cpu : Nat) (register : CpuRegister) :
    Traced Event (Word × Physical cfg) :=
  if register = .acknowledge then p.acknowledge cpu else pure (p.readInterface cpu register, p)

/-- Writes a register of a CPU's interface. -/
def writeCpuInterface (p : Physical cfg) (cpu : Nat) (register : CpuRegister) (value : Word) :
    Traced Event (Physical cfg) := do
  match register with
  | .control =>
    let before := (p.cpus.row cpu).enables
    let after := GroupEnables.ofWord value
    .reportIf (after ≠ before) (.note (.interfaceEnables cpu before after))
    (p.alterCpu cpu fun i => { i with enables := after }).arbitrate
  | .priorityMask =>
    (p.alterCpu cpu fun i => { i with priorityMask := value.setWidth 8 }).arbitrate
  | .binaryPoint => return p.alterCpu cpu fun i => { i with binaryPoint := value.setWidth 3 }
  | .aliasPoint => return p.alterCpu cpu fun i => { i with aliasPoint := value.setWidth 3 }
  | .completion => p.complete cpu value
  | .deactivation => return p.alterCpu cpu fun i => { i with deactivation := value }
  | .activePriorities 0 => return p.alterCpu cpu fun i => { i with activePriorities := value }
  | .acknowledge | .runningPriority | .highestPending | .identification | .component _
  | .activePriorities _ | .reserved =>
    .report (.note (.writeIgnored .cpuInterface register.name))
    return p

end Physical

end Gic
