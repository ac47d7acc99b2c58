import Gic.Physical.CpuInterfaceAccess
import Gic.Physical.DistributorAccess
import Gic.Virtual.Access

/-!
# The interrupt controller

A controller is its physical half and, for each connected CPU, the virtual
half. It is driven through its four register windows and its input lines.

## The model

An access is refused before anything else happens if it does not lie in the
window as a whole; the error then names the address that was accessed. An
access by a master that is none of the connected CPUs counts as one of CPU 0.
What follows depends on the window (`readWindow`, `writeWindow`).

The two halves meet in one place only, `completeVirtual`: completing a virtual
interrupt that a physical one backs also ends the physical one.

The number of a shared input is added to that of the first shared interrupt in
64 bits, and nobody looks whether the sum still fits (`sharedIrq`). The model
goes on with what the sum is then, the number of a private interrupt; a build
that checks its sums stops at such a call instead.
-/

namespace Gic

/-- An interrupt controller. -/
structure Controller (cfg : Config) where
  /-- The physical half. -/
  physical : Physical cfg
  /-- The virtual half of each connected CPU. -/
  virtuals : Table cfg.cpus VirtualCpu
  deriving DecidableEq

/-- What an access answers, and the controller after it. -/
abbrev Reply (cfg : Config) (α : Type) := Except BusError α × Controller cfg

namespace Controller

variable {cfg : Config}

/-- A controller at power-on. -/
def powerOn (cfg : Config) : Controller cfg where
  physical := .powerOn cfg
  virtuals := Table.replicate cfg.cpus .powerOn

instance : Inhabited (Controller cfg) := ⟨powerOn cfg⟩

/-- The level of an output line of a CPU, low if no such CPU is connected. -/
def line (g : Controller cfg) (cpu : Nat) : LineKind → Bool
  | .irq => (g.physical.cpus.row cpu).line
  | .virtualIrq => (g.virtuals.row cpu).line

/-- All but the lines returns to what it was at power-on. -/
def clear (g : Controller cfg) : Controller cfg where
  physical := g.physical.clear
  virtuals := g.virtuals.mapRows fun _ v => v.clear

/-- A line of a CPU goes low; that is reported if it was high. -/
def lower (g : Controller cfg) (cpu : Nat) (kind : LineKind) : Traced Event (Controller cfg) := do
  .reportIf (g.line cpu kind) (.line ⟨cpu, kind, false⟩)
  match kind with
  | .irq => return { g with physical := g.physical.alterCpu cpu fun i => { i with line := false } }
  | .virtualIrq =>
    return { g with virtuals := g.virtuals.alter cpu fun v => { v with line := false } }

/-- The lines of the first `n` CPUs go low, CPU by CPU. -/
def lowerFirst (g : Controller cfg) : Nat → Traced Event (Controller cfg)
  | 0 => pure g
  | n + 1 => do
    let g ← g.lowerFirst n
    let g ← g.lower n .irq
    g.lower n .virtualIrq

/-- Returns everything to what it was at power-on: the registers first, then the lines of the
connected CPUs. -/
def reset (g : Controller cfg) : Traced Event (Controller cfg) := g.clear.lowerFirst cfg.cpus

/-- Decides anew which physical interrupt each CPU is shown. -/
def arbitratePhysical (g : Controller cfg) : Traced Event (Controller cfg) := do
  let physical ← g.physical.arbitrate
  return { g with physical }

/-- The virtual half of a CPU after an arbitration. -/
def settle (v : VirtualCpu) (outcome : Option Arbitration) : VirtualCpu :=
  { v with highestPending := Arbitration.visible outcome, line := Arbitration.raised outcome }

/-- Decides anew which virtual interrupt the guest of each CPU is shown. -/
def arbitrateVirtual (g : Controller cfg) : Traced Event (Controller cfg) :=
  let outcomes := Table.build cfg.cpus fun cpu => (g.virtuals.row cpu).decideFor
  ⟨{ g with virtuals := g.virtuals.mapRows fun cpu v => settle v (outcomes.row cpu) },
    (List.range cfg.cpus).flatMap fun cpu =>
      Arbitration.events .virtual .virtualIrq cpu (g.virtuals.row cpu).line (outcomes.row cpu)⟩

/-- Decides anew in one half. -/
def update (g : Controller cfg) : Domain → Traced Event (Controller cfg)
  | .physical => g.arbitratePhysical
  | .virtual => g.arbitrateVirtual

/-- Puts the virtual half of a CPU back after an access, and arbitrates if it has to. -/
def putVirtual (g : Controller cfg) (cpu : Nat) (w : VirtualWritten) :
    Traced Event (Controller cfg) :=
  let g := { g with virtuals := g.virtuals.alter cpu fun _ => w.state }
  if w.dirty then g.arbitrateVirtual else pure g

/-- Ends the physical interrupt that backed a completed virtual one. -/
def endBacking (g : Controller cfg) (cpu irq physical : Nat) :
    Traced Event (Controller cfg) := do
  if numSgis ≤ physical ∧ physical < cfg.numIrqs then
    let physical ← (g.physical.deactivate cpu physical).arbitrate
    return { g with physical }
  else
    .report (.note (.invalidBacking cpu irq physical))
    return g

/-- The guest of a CPU completes the interrupt in the low ten bits of a word. -/
def completeVirtual (g : Controller cfg) (cpu : Nat) (value : Word) :
    Traced Event (Controller cfg) := do
  let irq := value.field 0 10
  if maxIrqs ≤ irq then
    .report (.note (.invalidCompletion .virtual cpu irq))
    return g
  else
    let (state, backing) ← (g.virtuals.row cpu).complete cpu irq
    let g := { g with virtuals := g.virtuals.alter cpu fun _ => state }
    let g ← match backing with
      | none => pure g
      | some physical => g.endBacking cpu irq physical
    g.arbitrateVirtual

/-- Reads a register as a CPU. -/
def readWindow (g : Controller cfg) (window : Interface) (cpu offset : Nat) (width : Width) :
    Traced Event (Reply cfg Word) := do
  match window with
  | .distributor => return (g.physical.readDistributor cpu offset width, g)
  | .cpuInterface =>
    match checkWord offset width with
    | .error e => return (.error e, g)
    | .ok () =>
      let (value, physical) ← g.physical.readCpuInterface cpu (.ofOffset offset)
      return (.ok value, { g with physical })
  | .vifControl =>
    match checkWord offset width with
    | .error e => return (.error e, g)
    | .ok () => return (.ok ((g.virtuals.row cpu).readVif (.ofOffset offset)), g)
  | .vcpuInterface =>
    match checkWord offset width with
    | .error e => return (.error e, g)
    | .ok () =>
      if CpuRegister.ofOffset offset = .acknowledge then
        let (value, w) ← (g.virtuals.row cpu).acknowledge cpu
        let g ← g.putVirtual cpu w
        return (.ok value, g)
      else return (.ok ((g.virtuals.row cpu).readGuest (.ofOffset offset)), g)

/-- The name of the register at an offset of a window. -/
def registerName (window : Interface) (offset : Nat) : String :=
  match window with
  | .distributor => (DistributorRegister.ofOffset offset).name
  | .cpuInterface | .vcpuInterface => (CpuRegister.ofOffset offset).name
  | .vifControl => (VifRegister.ofOffset offset).name

/-- What is reported of a write before it is done: those of a bad width go unreported, except
at the distributor. -/
def writeEvents (window : Interface) (cpu offset : Nat) (value : BitVec 64) (width : Width) :
    List Event :=
  if window = .distributor ∨ (checkWord offset width).isOk then
    [.note (.registerWritten window cpu offset width (registerName window offset) value.toNat)]
  else []

/-- What is reported of a read that has been done. -/
def readEvents (window : Interface) (cpu offset : Nat) (width : Width) :
    Except BusError Word → List Event
  | .ok value =>
    [.note (.registerRead window cpu offset width (registerName window offset) value.toNat)]
  | .error _ => []

/-- Writes a register as a CPU. -/
def writeWindow (g : Controller cfg) (window : Interface) (cpu offset : Nat)
    (value : Word) (width : Width) : Traced Event (Reply cfg Unit) := do
  match window with
  | .distributor =>
    match ← g.physical.writeDistributor cpu offset value width with
    | .error e => return (.error e, g)
    | .ok physical => return (.ok (), { g with physical })
  | .cpuInterface =>
    match checkWord offset width with
    | .error e => return (.error e, g)
    | .ok () =>
      let physical ← g.physical.writeCpuInterface cpu (.ofOffset offset) value
      return (.ok (), { g with physical })
  | .vifControl =>
    match checkWord offset width with
    | .error e => return (.error e, g)
    | .ok () =>
      let w ← (g.virtuals.row cpu).writeVif cpu (.ofOffset offset) value
      let g ← g.putVirtual cpu w
      return (.ok (), g)
  | .vcpuInterface =>
    match checkWord offset width with
    | .error e => return (.error e, g)
    | .ok () =>
      if CpuRegister.ofOffset offset = .completion then
        let g ← g.completeVirtual cpu value
        return (.ok (), g)
      else
        let w ← (g.virtuals.row cpu).writeGuest cpu (.ofOffset offset) value
        let g ← g.putVirtual cpu w
        return (.ok (), g)

/-- An access lies in the window as a whole. -/
def checkWindow (cfg : Config) (window : Interface) (offset : Nat) (width : Width) :
    Except BusError Unit :=
  if offset + width.bytes ≤ window.windowSize then .ok ()
  else .error (.invalidAddress (addressWrapping (cfg.base window) offset))

/-- The CPU that an access counts as one of. -/
def cpuOf (cfg : Config) : Initiator → Nat
  | .cpu number => if number < cfg.cpus then number else 0
  | .unknown => 0

/-- Whether the initiator is one of the connected CPUs. -/
def isConnected (cfg : Config) : Initiator → Bool
  | .cpu number => decide (number < cfg.cpus)
  | .unknown => false

/-- Finds out which CPU an access counts as one of. -/
def resolve (cfg : Config) (initiator : Initiator) : Traced Event Nat := do
  .reportIf (!isConnected cfg initiator) (.note (.unmappedInitiator initiator))
  return cpuOf cfg initiator

/-- Reads at an offset in a window. -/
def read (g : Controller cfg) (window : Interface) (initiator : Initiator) (offset : Nat)
    (width : Width) : Traced Event (Reply cfg Word) := do
  match checkWindow cfg window offset width with
  | .error e => return (.error e, g)
  | .ok () =>
    let cpu ← resolve cfg initiator
    let (answer, g) ← g.readWindow window cpu offset width
    .reportAll (readEvents window cpu offset width answer)
    return (answer, g)

/-- Writes at an offset in a window. -/
def write (g : Controller cfg) (window : Interface) (initiator : Initiator) (offset : Nat)
    (value : BitVec 64) (width : Width) : Traced Event (Reply cfg Unit) := do
  match checkWindow cfg window offset width with
  | .error e => return (.error e, g)
  | .ok () =>
    let cpu ← resolve cfg initiator
    .reportAll (writeEvents window cpu offset value width)
    g.writeWindow window cpu offset (value.setWidth 32) width

/-- An input of the physical half takes a level. -/
def driveInput (g : Controller cfg) (irq : Nat) (level : Bool) (mask targets : CpuMask) :
    Traced Event (Controller cfg) := do
  .report (.note (.inputDriven irq mask level))
  let physical ← (g.physical.alterIrq irq fun r => r.drive level mask targets).arbitrate
  return { g with physical }

/-- Private input `index` of a CPU takes a level. -/
def drivePpi (g : Controller cfg) (cpu index : Nat) (level : Bool) :
    Traced Event (Controller cfg) := do
  if cpu < cfg.cpus ∧ index < numPpis then
    g.driveInput (numSgis + index) level (.only cpu) (.only cpu)
  else
    .report (.note (.ppiNotConnected cpu index))
    return g

/-- The interrupt that shared input `index` is taken for: a sum of 64 bits, which begins anew past
the last number that they hold. -/
def sharedIrq (index : Nat) : Nat := (numPrivate + index) % 0x10000000000000000

theorem sharedIrq_of_lt {index : Nat} (h : numPrivate + index < 0x10000000000000000) :
    sharedIrq index = numPrivate + index :=
  Nat.mod_eq_of_lt h

/-- Shared input `index` takes a level. -/
def driveSpi (g : Controller cfg) (index : Nat) (level : Bool) :
    Traced Event (Controller cfg) := do
  if sharedIrq index < cfg.numIrqs then
    g.driveInput (sharedIrq index) level .all (g.physical.distributor.targets (sharedIrq index))
  else
    .report (.note (.spiNotConnected index))
    return g

/-- A queued change of an input is delivered. -/
def handle (g : Controller cfg) (request : Request) : Traced Event (Controller cfg) := do
  if request.irq < numSgis then
    .report (.note (.sgiWithoutInput request))
    return g
  else if request.irq < numPrivate then
    .reportIf request.cpu.isNone (.note (.requestWithoutCpu request))
    g.drivePpi (request.cpu.getD 0) (request.irq - numSgis) request.level
  else g.driveSpi (request.irq - numPrivate) request.level

/-- A request has too few bits for its interrupt to be taken for another one. -/
theorem sharedIrq_request {request : Request} (h : numPrivate ≤ request.irq) :
    sharedIrq (request.irq - numPrivate) = request.irq := by
  have hsmall := request.irq_lt
  rw [sharedIrq_of_lt (by omega)]
  omega

end Controller

end Gic
