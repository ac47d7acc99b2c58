import Gic.CpuMask
import Gic.Register.Word

/-!
# Registers that pack several values

The layouts of the registers whose words hold more than one value: the group
enables of `GICD_CTLR` and `GICC_CTLR`, `GICD_TYPER`, `GICD_SGIR` and
`GICH_VMCR`. Bits that belong to no value are dropped when a word is read and
clear when one is written.
-/

namespace Gic

/-- A priority: the lower the number, the more urgent the interrupt. -/
abbrev Priority := BitVec 8

/-- The priority at which no interrupt is running; no interrupt is signaled at it. -/
def idle : Priority := 0xff#8

/-- The component identification that every window ends with, read byte by byte. -/
def componentId : Word := 0xb105f00d#32

/-- The identification of a CPU interface. -/
def interfaceId : Word := 0x0202043b#32

/-- The word that byte `n` of the component identification is read as. -/
def componentIdByte (n : Nat) : Word := (componentId >>> (8 * n)) &&& 0xff#32

/-- An interrupt as an acknowledge names it: with the CPU that sent it in bits 12 to 10. -/
def tagged (irq source : Nat) : Word := BitVec.ofNat 32 irq ||| (BitVec.ofNat 32 source <<< 10)

/-- Which groups of interrupts a control register enables. -/
structure GroupEnables where
  /-- Group 0 is enabled. -/
  group0 : Bool
  /-- Group 1 is enabled. -/
  group1 : Bool
  deriving DecidableEq, Repr

namespace GroupEnables

/-- No group. -/
def none : GroupEnables := ⟨false, false⟩

instance : Inhabited GroupEnables := ⟨none⟩

/-- Whether some group is enabled. -/
def any (e : GroupEnables) : Bool := e.group0 || e.group1

/-- The two low bits of a control register. -/
def ofWord (w : Word) : GroupEnables := ⟨w.getLsbD 0, w.getLsbD 1⟩

/-- The control register. -/
def toWord (e : GroupEnables) : Word :=
  Word.ofBits fun bit => if bit = 0 then e.group0 else decide (bit = 1) && e.group1

/-- The names of the enabled groups, after that of the register. -/
def shown (e : GroupEnables) (register : String) : String :=
  Text.shownFlags register
    ((if e.group0 then ["ENABLE_GRP0"] else []) ++ (if e.group1 then ["ENABLE_GRP1"] else []))

end GroupEnables

/-- `GICD_TYPER`: what the controller consists of. -/
structure ControllerType where
  /-- The number of blocks of 32 interrupts, less one. -/
  itLines : BitVec 5
  /-- The number of CPU interfaces, less one. -/
  cpuNumber : BitVec 3
  /-- Whether the security extensions are there. -/
  security : Bool
  /-- The number of lockable shared interrupts. -/
  lockable : BitVec 5
  deriving DecidableEq, Repr

namespace ControllerType

/-- The fields of a word. -/
def ofWord (w : Word) : ControllerType where
  itLines := w.extractLsb' 0 5
  cpuNumber := w.extractLsb' 5 3
  security := w.getLsbD 10
  lockable := w.extractLsb' 11 5

/-- The word of the fields. -/
def toWord (t : ControllerType) : Word :=
  0#16 ++ t.lockable ++ BitVec.ofBool t.security ++ 0#2 ++ t.cpuNumber ++ t.itLines

/-- What a controller of `irqs` interrupts and `cpus` CPUs says of itself. -/
def describe (irqs cpus : Nat) : ControllerType where
  itLines := BitVec.ofNat 5 ((irqs + 31) / 32 - 1)
  cpuNumber := BitVec.ofNat 3 (cpus - 1)
  security := false
  lockable := 0#5

end ControllerType

/-- Which CPUs a software generated interrupt is meant for. -/
inductive TargetFilter where
  /-- Those that the request lists. -/
  | targetList
  /-- All but the CPU that makes the request. -/
  | allButSelf
  /-- The CPU that makes the request. -/
  | selfOnly
  /-- No meaning is given to this. -/
  | reserved
  deriving DecidableEq, Repr

/-- The text that stands for the filter. -/
def TargetFilter.shown : TargetFilter → String
  | targetList => "TargetList"
  | allButSelf => "AllButSelf"
  | selfOnly => "SelfOnly"
  | reserved => "Reserved"

/-- The filter that a two-bit field selects. -/
def TargetFilter.ofBits (b : BitVec 2) : TargetFilter :=
  if b = 0#2 then targetList
  else if b = 1#2 then allButSelf
  else if b = 2#2 then selfOnly
  else reserved

/-- `GICD_SGIR`: a request for a software generated interrupt. -/
structure SgiRequest where
  /-- The interrupt. -/
  sgi : BitVec 4
  /-- The group that the request asks for. -/
  nonSecure : Bool
  /-- The CPUs that the request lists. -/
  targets : CpuMask
  /-- Which CPUs it is meant for. -/
  filter : TargetFilter
  deriving DecidableEq, Repr

/-- The fields of a word written to `GICD_SGIR`. -/
def SgiRequest.ofWord (w : Word) : SgiRequest where
  sgi := w.extractLsb' 0 4
  nonSecure := w.getLsbD 15
  targets := w.extractLsb' 16 8
  filter := .ofBits (w.extractLsb' 24 2)

/-- `GICH_VMCR`: the registers of a virtual CPU interface, gathered for a hypervisor. -/
structure MachineControl where
  /-- The low ten bits of the control register. -/
  control : BitVec 10
  /-- The binary point of the other group. -/
  aliasPoint : BitVec 3
  /-- The binary point. -/
  binaryPoint : BitVec 3
  /-- The upper five bits of the priority mask. -/
  mask : BitVec 5
  deriving DecidableEq, Repr

namespace MachineControl

/-- The fields of a word. -/
def ofWord (w : Word) : MachineControl where
  control := w.extractLsb' 0 10
  aliasPoint := w.extractLsb' 18 3
  binaryPoint := w.extractLsb' 21 3
  mask := w.extractLsb' 27 5

/-- The word of the fields. -/
def toWord (m : MachineControl) : Word :=
  m.mask ++ 0#3 ++ m.binaryPoint ++ m.aliasPoint ++ 0#8 ++ m.control

end MachineControl

/-- A priority of five bits on the scale of eight. -/
def Priority.ofFive (upper : BitVec 5) : Priority := upper ++ 0#3

/-- The upper five bits of a priority. -/
def Priority.toFive (p : Priority) : BitVec 5 := p.extractLsb' 3 5

end Gic
