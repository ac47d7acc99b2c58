import Gic.Interrupt.State
import Gic.Physical.CpuInterface
import Gic.Physical.Distributor

/-!
# The physical half

The physical half of a controller handles the interrupts of the devices. It
consists of the state of all interrupts, the distributor and the CPU
interfaces. There is one interface for each connected CPU.
-/

namespace Gic

/-- The physical half of a controller. -/
structure Physical (cfg : Config) where
  /-- The state of the interrupts. -/
  irqs : Store
  /-- The distributor. -/
  distributor : Distributor
  /-- The interface of each connected CPU. -/
  cpus : Table cfg.cpus CpuInterface
  deriving DecidableEq

namespace Physical

variable {cfg : Config}

/-- The physical half at power-on. -/
def powerOn (cfg : Config) : Physical cfg where
  irqs := .powerOn cfg.cpus
  distributor := .powerOn
  cpus := Table.replicate cfg.cpus .powerOn

instance : Inhabited (Physical cfg) := ⟨powerOn cfg⟩

/-- All but the lines returns to what it was at power-on. -/
def clear (p : Physical cfg) : Physical cfg where
  irqs := p.irqs.reset cfg.cpus
  distributor := .powerOn
  cpus := p.cpus.mapRows fun _ i => i.clear

/-- The priority of an interrupt as a CPU sees it, `idle` if there is no such interrupt. -/
def priority (p : Physical cfg) (cpu irq : Nat) : Priority :=
  (p.distributor.priority? cpu irq).getD idle

/-- Changes the state of one interrupt. -/
def alterIrq (p : Physical cfg) (irq : Nat) (f : IrqState → IrqState) : Physical cfg :=
  { p with irqs := p.irqs.alter irq f }

/-- Changes the interface of one CPU. -/
def alterCpu (p : Physical cfg) (cpu : Nat) (f : CpuInterface → CpuInterface) : Physical cfg :=
  { p with cpus := p.cpus.alter cpu f }

end Physical

end Gic
