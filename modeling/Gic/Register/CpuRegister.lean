/-!
# The registers of a CPU interface

The physical and the virtual CPU interface have the same layout, so an offset
in either window selects one of the registers below.
-/

namespace Gic

/-- A register of a CPU interface, physical or virtual. -/
inductive CpuRegister where
  /-- The control register. -/
  | control
  /-- The priority mask. -/
  | priorityMask
  /-- The binary point. -/
  | binaryPoint
  /-- Reading it acknowledges an interrupt. -/
  | acknowledge
  /-- Writing it completes an interrupt. -/
  | completion
  /-- The running priority. -/
  | runningPriority
  /-- The interrupt that would be acknowledged. -/
  | highestPending
  /-- The binary point of the other group. -/
  | aliasPoint
  /-- Word `n` of the active priorities. -/
  | activePriorities (n : Nat)
  /-- The identification of the interface. -/
  | identification
  /-- Byte `n` of the component identification. -/
  | component (n : Nat)
  /-- The deactivation register. -/
  | deactivation
  /-- There is no register. -/
  | reserved
  deriving DecidableEq, Repr

namespace CpuRegister

/-- The register at an offset. -/
def ofOffset (offset : Nat) : CpuRegister :=
  if offset = 0x00 then control
  else if offset = 0x04 then priorityMask
  else if offset = 0x08 then binaryPoint
  else if offset = 0x0c then acknowledge
  else if offset = 0x10 then completion
  else if offset = 0x14 then runningPriority
  else if offset = 0x18 then highestPending
  else if offset = 0x1c then aliasPoint
  else if 0xd0 ≤ offset ∧ offset < 0xe0 then activePriorities ((offset - 0xd0) / 4)
  else if offset = 0xfc then identification
  else if 0xff0 ≤ offset ∧ offset < 0x1000 then component ((offset - 0xff0) / 4)
  else if offset = 0x1000 then deactivation
  else reserved

/-- The name of the register. -/
def name : CpuRegister → String
  | control => "CTLR"
  | priorityMask => "PMR"
  | binaryPoint => "BPR"
  | acknowledge => "IAR"
  | completion => "EOIR"
  | runningPriority => "RPR"
  | highestPending => "HPPIR"
  | aliasPoint => "ABPR"
  | activePriorities _ => "APR"
  | identification => "IIDR"
  | component _ => "CIDR"
  | deactivation => "DIR"
  | reserved => "Reserved"

end CpuRegister

end Gic
