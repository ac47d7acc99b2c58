/-!
# The registers of the virtual interface control

An offset in the hypervisor's window selects one of the registers below: the
enable, the type, the gathered guest registers, which list registers are free,
the active priorities, and the list registers themselves.
-/

namespace Gic

/-- A register of the virtual interface control. -/
inductive VifRegister where
  /-- The control register. -/
  | control
  /-- The type register. -/
  | vifType
  /-- The registers of the guest's interface, gathered. -/
  | machineControl
  /-- Which list registers are free. -/
  | freeLists
  /-- The active priorities. -/
  | activePriorities
  /-- List register `n`. -/
  | list (n : Nat)
  /-- There is no register. -/
  | reserved
  deriving DecidableEq, Repr

namespace VifRegister

/-- The register at an offset. -/
def ofOffset (offset : Nat) : VifRegister :=
  if offset = 0x00 then control
  else if offset = 0x04 then vifType
  else if offset = 0x08 then machineControl
  else if offset = 0x30 then freeLists
  else if offset = 0xf0 then activePriorities
  else if 0x100 ≤ offset ∧ offset < 0x200 then list ((offset - 0x100) / 4)
  else reserved

/-- The name of the register. -/
def name : VifRegister → String
  | control => "GICH_HCR"
  | vifType => "GICH_VTR"
  | machineControl => "GICH_VMCR"
  | freeLists => "GICH_ELRSR0"
  | activePriorities => "GICH_APR"
  | list _ => "GICH_LR"
  | reserved => "Reserved"

end VifRegister

end Gic
