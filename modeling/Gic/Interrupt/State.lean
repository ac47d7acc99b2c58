import Gic.CpuMask
import Gic.Table
import Gic.Config

/-!
# The state of the interrupts

Every interrupt has five flags for each CPU: enabled, pending, active, the
level of its input, and whether it has been signaled since that input last
changed. They are kept as five sets of CPUs.

## The model

An interrupt private to each CPU has eight instances that are handled
independently (`perCpu`). A shared interrupt has a single instance, so its
flags are changed for all CPUs at once (`single`); `scope` is the set of CPUs
whose flags an acknowledge or completion touches. An interrupt asks to be
handled (`wanted`) if it is latched as pending, or if it follows the level of
its input, the input is high and has not been signaled.
-/

namespace Gic

/-- What makes an interrupt pending. -/
inductive Trigger where
  /-- A rising edge of its input. -/
  | edge
  /-- The high level of its input. -/
  | level
  deriving DecidableEq, Repr

namespace Trigger

/-- The trigger as a value on one line. -/
def shown : Trigger → String
  | edge => "Edge"
  | level => "Level"

/-- The name of the trigger. -/
def name : Trigger → String
  | edge => "edge"
  | level => "level"

end Trigger

/-- How many instances an interrupt has. -/
inductive Routing where
  /-- One for each CPU. -/
  | perCpu
  /-- A single one, handled by the CPU that acknowledges it first. -/
  | single
  deriving DecidableEq, Repr

/-- The text that stands for the routing. -/
def Routing.name : Routing → String
  | perCpu => "NToN"
  | single => "NTo1"

/-- The state of an interrupt. -/
structure IrqState where
  /-- Where it is enabled. -/
  enabled : CpuMask
  /-- Where it is latched as pending. -/
  pending : CpuMask
  /-- Where it is active: acknowledged and not yet completed. -/
  active : CpuMask
  /-- Where its input is high. -/
  level : CpuMask
  /-- Where it was signaled since its input changed. -/
  signaled : CpuMask
  /-- How many instances it has. -/
  routing : Routing
  /-- What makes it pending. -/
  trigger : Trigger
  deriving DecidableEq, Repr

namespace IrqState

/-- A private interrupt at power-on: nothing is set. -/
def idle : IrqState := ⟨0#8, 0#8, 0#8, 0#8, 0#8, .perCpu, .edge⟩

/-- A shared interrupt at power-on: nothing is set. -/
def idleShared : IrqState := ⟨0#8, 0#8, 0#8, 0#8, 0#8, .single, .level⟩

instance : Inhabited IrqState := ⟨idle⟩

/-- Enables the interrupt for some CPUs, or disables it. -/
def setEnabled (r : IrqState) (value : Bool) (mask : CpuMask) : IrqState :=
  { r with enabled := r.enabled.assign mask value }

/-- Latches the interrupt as pending for some CPUs, or clears the latch. -/
def setPending (r : IrqState) (value : Bool) (mask : CpuMask) : IrqState :=
  { r with pending := r.pending.assign mask value }

/-- Makes the interrupt active for some CPUs, or inactive. -/
def setActive (r : IrqState) (value : Bool) (mask : CpuMask) : IrqState :=
  { r with active := r.active.assign mask value }

/-- Records the level of the input for some CPUs. -/
def setLevel (r : IrqState) (value : Bool) (mask : CpuMask) : IrqState :=
  { r with level := r.level.assign mask value }

/-- Records for some CPUs whether the interrupt was signaled. -/
def setSignaled (r : IrqState) (value : Bool) (mask : CpuMask) : IrqState :=
  { r with signaled := r.signaled.assign mask value }

/-- Whether it is enabled for one of those CPUs. -/
def isEnabled (r : IrqState) (mask : CpuMask) : Bool := r.enabled.meets mask

/-- Whether it is latched as pending for one of those CPUs. -/
def isPending (r : IrqState) (mask : CpuMask) : Bool := r.pending.meets mask

/-- Whether it is active for one of those CPUs. -/
def isActive (r : IrqState) (mask : CpuMask) : Bool := r.active.meets mask

/-- Whether its input is high for one of those CPUs. -/
def isLevel (r : IrqState) (mask : CpuMask) : Bool := r.level.meets mask

/-- Whether it was signaled to one of those CPUs. -/
def isSignaled (r : IrqState) (mask : CpuMask) : Bool := r.signaled.meets mask

/-- Whether it asks one of those CPUs to handle it. -/
def wanted (r : IrqState) (mask : CpuMask) : Bool :=
  r.isPending mask || (decide (r.trigger = .level) && r.isLevel mask && !r.isSignaled mask)

/-- The CPUs whose flags an acknowledge or completion by `cpu` touches. -/
def scope (r : IrqState) (cpu : Nat) : CpuMask :=
  match r.routing with
  | .single => .all
  | .perCpu => .only cpu

/-- Enables the interrupt; an input that is already high is latched if its level counts. -/
def enable (r : IrqState) (mask : CpuMask) : IrqState :=
  let r := r.setEnabled true mask
  if r.trigger = .level && r.isLevel mask then r.setPending true mask else r

/-- Takes the new level of the input for `mask`; a rising edge is latched for `targets`. -/
def drive (r : IrqState) (value : Bool) (mask targets : CpuMask) : IrqState :=
  let rising := value && !r.isLevel mask
  let r := (r.setLevel value mask).setSignaled false mask
  if rising && r.trigger = .edge then r.setPending true targets else r

/-- The interrupt is acknowledged by `cpu`. -/
def acknowledge (r : IrqState) (cpu : Nat) : IrqState :=
  (r.setActive true (r.scope cpu)).setSignaled true (r.scope cpu)

/-- The interrupt is completed by `cpu`; an input that is still high asks again. -/
def complete (r : IrqState) (cpu : Nat) : IrqState :=
  (r.setActive false (r.scope cpu)).setSignaled false (r.scope cpu)

end IrqState

/-- The state of all interrupts, connected or not. -/
abbrev Store := Table maxIrqs IrqState

namespace Store

/-- No interrupt was ever touched. -/
def blank : Store := Table.replicate maxIrqs IrqState.idle

/-- The interrupts of a controller with `cpus` CPUs at power-on: software generated
interrupts are enabled, shared ones follow their inputs. -/
def powerOn (cpus : Nat) : Store :=
  Table.build maxIrqs fun irq =>
    if irq < numSgis then IrqState.idle.setEnabled true (.first cpus)
    else if irq < numPrivate then .idle
    else .idleShared

/-- Returns every interrupt to what it is at power-on: first nothing is set, then software
generated interrupts are enabled, and shared ones follow their inputs. -/
def reset (s : Store) (cpus : Nat) : Store :=
  let cleared : Store := s.mapRows fun _ _ => .idle
  let sgis : Store := cleared.mapRows fun irq r =>
    if irq < numSgis then r.setEnabled true (.first cpus) else r
  sgis.mapRows fun irq r =>
    if numPrivate ≤ irq then { r with routing := .single, trigger := .level } else r

/-- The state of an interrupt that exists. -/
def get? (s : Store) (irq : Nat) : Option IrqState :=
  if irq < maxIrqs then some (s.row irq) else none

end Store

end Gic
