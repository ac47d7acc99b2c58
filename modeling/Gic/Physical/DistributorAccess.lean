import Gic.Physical.Arbitration
import Gic.Register.DistributorRegister

/-!
# Accesses to the distributor

Reading and writing the registers of the distributor as one of the CPUs.

## The model

A register of one bit for each interrupt shows, in its word `n`, the interrupts
from `32 * n` on; those that are not connected read as zero and cannot be
written. Word 0 belongs to the private interrupts and shows the flags of the
CPU that accesses it; the other words show whether a flag is set for any CPU,
and change it for all.

A write says whether it changed anything that arbitration looks at (`Written`).
Only then is there an arbitration, one for the whole write.
-/

namespace Gic

/-- The physical half after a write. -/
structure Written (cfg : Config) where
  /-- The state. -/
  state : Physical cfg
  /-- Whether something has changed that arbitration looks at. -/
  dirty : Bool

namespace Physical

variable {cfg : Config}

/-- The CPUs that word `n` of a register of flags shows to a CPU. -/
def wordView (cpu n : Nat) : CpuMask := if n = 0 then .only cpu else .all

/-- The word `n` of a flag of the connected interrupts. -/
def flagWord (cfg : Config) (n : Nat) (flag : Nat → Bool) : Word :=
  Word.ofBits fun bit => decide (32 * n + bit < cfg.numIrqs) && flag (32 * n + bit)

/-- Whether `value`, written to word `n` of a register of flags, selects an interrupt. -/
def selects (cfg : Config) (n : Nat) (value : Word) (irq : Nat) : Bool :=
  decide (irq / 32 = n) && value.getLsbD (irq % 32) && decide (irq < cfg.numIrqs)

/-- Changes the interrupts that `value`, written to word `n` of a register, selects. -/
def alterSelected (p : Physical cfg) (n : Nat) (value : Word)
    (f : Nat → IrqState → IrqState) : Physical cfg :=
  { p with irqs := p.irqs.mapRows fun irq r => if selects cfg n value irq then f irq r else r }

/-- The word of a register of the distributor, as a CPU reads it. -/
def readWord (p : Physical cfg) (cpu : Nat) : DistributorRegister → Word
  | .control => p.distributor.enables.toWord
  | .controllerType => (ControllerType.describe cfg.numIrqs cfg.cpus).toWord
  | .group n => p.distributor.groups.row n
  | .setEnable n | .clearEnable n =>
    flagWord cfg n fun irq =>
      decide (irq < numSgis) || (p.irqs.row irq).isEnabled (wordView cpu n)
  | .setPending n | .clearPending n =>
    flagWord cfg n fun irq => (p.irqs.row irq).wanted (wordView cpu n)
  | .setActive n | .clearActive n =>
    flagWord cfg n fun irq => (p.irqs.row irq).isActive (wordView cpu n)
  | .trigger n => p.distributor.triggers.row n
  | .component n => componentIdByte n
  | .implementer | .sgi | .reserved => 0#32
  | .priority _ | .targets _ | .clearSources _ | .setSources _ => 0#32

/-- The byte of a register of the distributor, as a CPU reads it. -/
def readByte (p : Physical cfg) (cpu : Nat) : DistributorRegister → BitVec 8
  | .priority irq =>
    if irq < cfg.numIrqs then (p.distributor.priority? cpu irq).getD 0#8 else 0#8
  | .targets irq =>
    if irq < numPrivate then CpuMask.only cpu
    else if irq < cfg.numIrqs then p.distributor.targets irq
    else 0#8
  | .clearSources sgi | .setSources sgi =>
    if sgi < numSgis then p.distributor.sources cpu sgi else 0#8
  | _ => 0#8

/-- The four bytes from an offset on, the first in the lowest bits. -/
def readBytes (p : Physical cfg) (cpu offset : Nat) : Word :=
  p.readByte cpu (.ofOffset (offset + 3)) ++ p.readByte cpu (.ofOffset (offset + 2))
    ++ p.readByte cpu (.ofOffset (offset + 1)) ++ p.readByte cpu (.ofOffset offset)

/-- Reads the distributor as a CPU. -/
def readDistributor (p : Physical cfg) (cpu offset : Nat) (width : Width) :
    Except BusError Word :=
  let register := DistributorRegister.ofOffset offset
  match width with
  | .word =>
    if offset % 4 = 0 then
      .ok (if register.isByte then p.readBytes cpu offset else p.readWord cpu register)
    else .error (.unsupportedWidth offset width)
  | .byte =>
    if register.isByte then .ok ((p.readByte cpu register).setWidth 32)
    else .error (.unsupportedWidth offset width)
  | .half | .double => .error (.unsupportedWidth offset width)

/-- The CPUs that a request of `cpu` for a software generated interrupt is meant for;
`none` if its filter has no meaning. -/
def sgiTargets (cfg : Config) (cpu : Nat) (request : SgiRequest) : Option CpuMask :=
  match request.filter with
  | .targetList => some (request.targets &&& .first cfg.cpus)
  | .allButSelf => some ((CpuMask.all ^^^ .only cpu) &&& .first cfg.cpus)
  | .selfOnly => some (.only cpu &&& .first cfg.cpus)
  | .reserved => none

/-- An SGI becomes pending on some CPUs, with `source` as the CPU that has sent it. -/
def raiseSgi (p : Physical cfg) (source sgi : Nat) (targets : CpuMask) : Physical cfg :=
  { p.alterIrq sgi fun r => (r.setPending true targets).setSignaled false targets with
    distributor := p.distributor.addSource sgi source targets }

/-- Handles a request of a CPU for a software generated interrupt. -/
def requestSgi (p : Physical cfg) (cpu : Nat) (request : SgiRequest) :
    Traced Event (Physical cfg) := do
  match sgiTargets cfg cpu request with
  | none =>
    .report (.note (.badTargetFilter cpu))
    return p
  | some targets =>
    .report (.note (.sgiRaised cpu request.sgi.toNat targets))
    return p.raiseSgi cpu request.sgi.toNat targets

/-- The trigger that word `value` of a trigger register gives to an interrupt: its upper bit
of two. -/
def triggerOf (value : Word) (irq : Nat) : Trigger :=
  if value.getLsbD (2 * (irq % 16) + 1) then .edge else .level

/-- Sets the triggers of the sixteen interrupts of word `n`. -/
def setTriggers (p : Physical cfg) (n : Nat) (value : Word) : Physical cfg :=
  { p with
    irqs := p.irqs.mapRows fun irq r =>
      if irq / 16 = n ∧ irq < cfg.numIrqs then { r with trigger := triggerOf value irq } else r
    distributor :=
      { p.distributor with triggers := p.distributor.triggers.alter n fun _ => value } }

/-- What is reported when the triggers of word `n` are set. -/
def triggerEvents (cfg : Config) (n : Nat) (value : Word) : List Event :=
  ((List.range 16).map fun k => 16 * n + k).filterMap fun irq =>
    if irq < cfg.numIrqs then some (.note (.triggerConfigured irq (triggerOf value irq)))
    else none

/-- Writes the word of a register of the distributor as a CPU. -/
def writeWord (p : Physical cfg) (cpu : Nat) (register : DistributorRegister) (value : Word) :
    Traced Event (Written cfg) := do
  match register with
  | .control =>
    let before := p.distributor.enables
    let after := GroupEnables.ofWord value
    .reportIf (after ≠ before) (.note (.distributorEnables before after))
    return ⟨{ p with distributor := { p.distributor with enables := after } }, true⟩
  | .setActive _ =>
    .report (.note .activeNotWritable)
    return ⟨p, false⟩
  | .group n =>
    let groups := p.distributor.groups.alter n fun _ => value
    return ⟨{ p with distributor := { p.distributor with groups } }, false⟩
  | .setEnable n =>
    return ⟨p.alterSelected n value fun irq r =>
      if irq < numSgis then r else r.enable (wordView cpu n), true⟩
  | .clearEnable n =>
    return ⟨p.alterSelected n value fun irq r =>
      if irq < numSgis then r else r.setEnabled false (wordView cpu n), true⟩
  | .setPending n =>
    return ⟨p.alterSelected n value fun irq r =>
      if irq < numSgis then r
      else if irq < numPrivate then r.setPending true (.only cpu)
      else r.setPending true (p.distributor.targets irq), true⟩
  | .clearPending n =>
    return ⟨p.alterSelected n value fun irq r =>
      if irq < numSgis then r else r.setPending false (wordView cpu n), true⟩
  | .clearActive n =>
    return ⟨p.alterSelected n value fun _ r => r.setActive false (wordView cpu n), true⟩
  | .trigger n =>
    if 1 ≤ n ∧ n < 32 then
      -- The lower bit of each field is reserved.
      let value := value &&& allEdge
      .reportAll (triggerEvents cfg n value)
      return ⟨p.setTriggers n value, true⟩
    else
      return ⟨p, false⟩
  | .sgi =>
    let p ← p.requestSgi cpu (.ofWord value)
    return ⟨p, true⟩
  | .controllerType | .implementer | .component _ | .reserved | .priority _ | .targets _
  | .clearSources _ | .setSources _ =>
    return ⟨p, false⟩

/-- Writes the byte of a register of the distributor as a CPU. -/
def writeByte (p : Physical cfg) (cpu : Nat) (register : DistributorRegister)
    (value : BitVec 8) : Written cfg :=
  match register with
  | .priority irq =>
    if irq < cfg.numIrqs then
      ⟨{ p with distributor := p.distributor.setPriority cpu irq value }, true⟩
    else ⟨p, false⟩
  | .targets irq =>
    if numPrivate ≤ irq ∧ irq < cfg.numIrqs then
      ⟨{ p with distributor := p.distributor.setTargets irq (value &&& .first cfg.cpus) }, true⟩
    else ⟨p, false⟩
  | .setSources sgi =>
    let sources := value &&& CpuMask.first cfg.cpus
    if sgi < numSgis ∧ sources ≠ 0#8 then
      ⟨{ p.alterIrq sgi fun r => (r.setPending true (.only cpu)).setSignaled false (.only cpu) with
          distributor := p.distributor.setSources cpu sgi sources true }, true⟩
    else ⟨p, false⟩
  | .clearSources sgi =>
    if sgi < numSgis then
      let distributor := p.distributor.setSources cpu sgi value false
      -- The interrupt stays pending as long as some source is left.
      if distributor.sources cpu sgi = 0#8 then
        ⟨{ p.alterIrq sgi fun r => r.setPending false (.only cpu) with distributor }, true⟩
      else ⟨{ p with distributor }, true⟩
    else ⟨p, false⟩
  | _ => ⟨p, false⟩

/-- Writes the byte of a word that goes to the offset `lane` bytes further on. -/
def writeLane (w : Written cfg) (cpu offset : Nat) (value : Word) (lane : Nat) : Written cfg :=
  let next := w.state.writeByte cpu (.ofOffset (offset + lane)) (value.extractLsb' (8 * lane) 8)
  ⟨next.state, w.dirty || next.dirty⟩

/-- Writes four bytes from an offset on, the lowest bits to the first. -/
def writeBytes (p : Physical cfg) (cpu offset : Nat) (value : Word) : Written cfg :=
  [0, 1, 2, 3].foldl (fun w lane => writeLane w cpu offset value lane) ⟨p, false⟩

/-- Arbitrates if something was written that arbitration looks at. -/
def arbitrateIf (w : Written cfg) : Traced Event (Physical cfg) :=
  if w.dirty then w.state.arbitrate else pure w.state

/-- Writes the distributor as a CPU. -/
def writeDistributor (p : Physical cfg) (cpu offset : Nat) (value : Word) (width : Width) :
    Traced Event (Except BusError (Physical cfg)) := do
  let register := DistributorRegister.ofOffset offset
  match width with
  | .word =>
    if offset % 4 = 0 then
      let w ← if register.isByte then pure (p.writeBytes cpu offset value)
        else p.writeWord cpu register value
      return .ok (← arbitrateIf w)
    else return .error (.unsupportedWidth offset width)
  | .byte =>
    if register.isByte then
      return .ok (← arbitrateIf (p.writeByte cpu register (value.setWidth 8)))
    else return .error (.unsupportedWidth offset width)
  | .half | .double => return .error (.unsupportedWidth offset width)

end Physical

end Gic
