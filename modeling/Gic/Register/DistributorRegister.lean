/-!
# The registers of the distributor

An offset in the distributor's window selects a register. Most registers come
as arrays: of words with one bit for each interrupt (enables, pending and
active state, groups), of words with two bits for each (triggers), or of bytes
with one for each (priorities, targets, sources of software generated
interrupts). Only the arrays of bytes can be accessed by the byte.
-/

namespace Gic

/-- A register of the distributor. -/
inductive DistributorRegister where
  /-- The control register. -/
  | control
  /-- The controller type register. -/
  | controllerType
  /-- The implementer identification. -/
  | implementer
  /-- Word `n` of the groups. -/
  | group (n : Nat)
  /-- Word `n` of the enables, setting those written. -/
  | setEnable (n : Nat)
  /-- Word `n` of the enables, clearing those written. -/
  | clearEnable (n : Nat)
  /-- Word `n` of the pending state, setting what is written. -/
  | setPending (n : Nat)
  /-- Word `n` of the pending state, clearing what is written. -/
  | clearPending (n : Nat)
  /-- Word `n` of the active state, setting nothing. -/
  | setActive (n : Nat)
  /-- Word `n` of the active state, clearing what is written. -/
  | clearActive (n : Nat)
  /-- The priority of an interrupt. -/
  | priority (irq : Nat)
  /-- The targets of an interrupt. -/
  | targets (irq : Nat)
  /-- Word `n` of the triggers. -/
  | trigger (n : Nat)
  /-- Requests for software generated interrupts. -/
  | sgi
  /-- The sources of a software generated interrupt, clearing those written. -/
  | clearSources (sgi : Nat)
  /-- The sources of a software generated interrupt, setting those written. -/
  | setSources (sgi : Nat)
  /-- Byte `n` of the component identification. -/
  | component (n : Nat)
  /-- There is no register. -/
  | reserved
  deriving DecidableEq, Repr

namespace DistributorRegister

/-- The register at an offset. -/
def ofOffset (offset : Nat) : DistributorRegister :=
  if offset < 0x004 then control
  else if offset < 0x008 then controllerType
  else if offset < 0x00c then implementer
  else if offset < 0x080 then reserved
  else if offset < 0x100 then group ((offset - 0x080) / 4)
  else if offset < 0x180 then setEnable ((offset - 0x100) / 4)
  else if offset < 0x200 then clearEnable ((offset - 0x180) / 4)
  else if offset < 0x280 then setPending ((offset - 0x200) / 4)
  else if offset < 0x300 then clearPending ((offset - 0x280) / 4)
  else if offset < 0x380 then setActive ((offset - 0x300) / 4)
  else if offset < 0x400 then clearActive ((offset - 0x380) / 4)
  else if offset < 0x7fc then priority (offset - 0x400)
  else if offset < 0x800 then reserved
  else if offset < 0xbfc then targets (offset - 0x800)
  else if offset < 0xc00 then reserved
  else if offset < 0xd00 then trigger ((offset - 0xc00) / 4)
  else if offset < 0xf00 then reserved
  else if offset < 0xf04 then sgi
  else if offset < 0xf10 then reserved
  else if offset < 0xf20 then clearSources (offset - 0xf10)
  else if offset < 0xf30 then setSources (offset - 0xf20)
  else if offset < 0xff0 then reserved
  else if offset < 0x1000 then component ((offset - 0xff0) / 4)
  else reserved

/-- Whether the register is one byte of an array of bytes. -/
def isByte : DistributorRegister → Bool
  | priority _ | targets _ | clearSources _ | setSources _ => true
  | _ => false

/-- The name of the register. -/
def name : DistributorRegister → String
  | control => "GICD_CTLR"
  | controllerType => "GICD_TYPER"
  | implementer => "GICD_IIDR"
  | group _ => "GICD_IGROUPR"
  | setEnable _ => "GICD_ISENABLER"
  | clearEnable _ => "GICD_ICENABLER"
  | setPending _ => "GICD_ISPENDR"
  | clearPending _ => "GICD_ICPENDR"
  | setActive _ => "GICD_ISACTIVER"
  | clearActive _ => "GICD_ICACTIVER"
  | priority _ => "GICD_IPRIORITYR"
  | targets _ => "GICD_ITARGETSR"
  | trigger _ => "GICD_ICFGR"
  | sgi => "GICD_SGIR"
  | clearSources _ => "GICD_CPENDSGIR"
  | setSources _ => "GICD_SPENDSGIR"
  | component _ => "GICD_CIDR"
  | reserved => "Reserved"

end DistributorRegister

end Gic
