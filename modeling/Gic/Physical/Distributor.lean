import Gic.Config
import Gic.Register.Layout
import Gic.Table

/-!
# The distributor's registers

What the distributor holds beside the state of each interrupt: which groups are
enabled, priorities, targets, triggers, and which CPUs have sent which software
generated interrupt to whom.

## The model

SGIs and PPIs have their priorities and sources banked: every CPU has its own.
SPIs are shared, so there is one table of priorities and one of target sets.
An interrupt that is not shared has no targets.
-/

namespace Gic

/-- The word of triggers of sixteen interrupts that are all edge-triggered. -/
def allEdge : Word := 0xaaaaaaaa#32

/-- What the distributor holds for one CPU. -/
structure DistributorBank where
  /-- The priorities of the private interrupts. -/
  priorities : Table numPrivate Priority
  /-- For each SGI the CPUs that have sent it and were not yet answered. -/
  sources : Table numSgis CpuMask
  deriving DecidableEq

namespace DistributorBank

/-- A bank at power-on. -/
def blank : DistributorBank := ⟨Table.replicate numPrivate 0#8, Table.replicate numSgis 0#8⟩

instance : Inhabited DistributorBank := ⟨blank⟩

/-- Takes sources of an SGI in or out. -/
def setSources (b : DistributorBank) (sgi : Nat) (sources : CpuMask) (value : Bool) :
    DistributorBank :=
  { b with sources := b.sources.alter sgi fun s => s.assign sources value }

end DistributorBank

/-- The registers of the distributor. -/
structure Distributor where
  /-- The enabled groups. -/
  enables : GroupEnables
  /-- The group of each interrupt, kept and not looked at. -/
  groups : Table 16 Word
  /-- What is held for each CPU. -/
  banks : Table maxCpus DistributorBank
  /-- The priorities of the shared interrupts. -/
  priorities : Table maxSpis Priority
  /-- The targets of the shared interrupts. -/
  targetSets : Table maxSpis CpuMask
  /-- The triggers of all interrupts, two bits each. -/
  triggers : Table 32 Word
  deriving DecidableEq

namespace Distributor

/-- The distributor at power-on: private interrupts are edge-triggered, shared ones are not. -/
def powerOn : Distributor where
  enables := .none
  groups := Table.replicate 16 0#32
  banks := Table.replicate maxCpus .blank
  priorities := Table.replicate maxSpis 0#8
  targetSets := Table.replicate maxSpis 0#8
  triggers := Table.build 32 fun n => if n < 2 then allEdge else 0#32

instance : Inhabited Distributor := ⟨powerOn⟩

/-- The priority of an interrupt as a CPU sees it. -/
def priority? (d : Distributor) (cpu irq : Nat) : Option Priority :=
  if irq < numPrivate then some ((d.banks.row cpu).priorities.row irq)
  else if irq < maxIrqs then some (d.priorities.row (irq - numPrivate))
  else none

/-- The CPUs that a shared interrupt may be signaled to. -/
def targets (d : Distributor) (irq : Nat) : CpuMask :=
  if irq < numPrivate then 0#8 else d.targetSets.row (irq - numPrivate)

theorem targets_of_private (d : Distributor) {irq : Nat} (h : irq < numPrivate) :
    d.targets irq = 0#8 :=
  if_pos h

/-- The CPUs that have sent an SGI to a CPU and were not yet answered. -/
def sources (d : Distributor) (cpu sgi : Nat) : CpuMask := (d.banks.row cpu).sources.row sgi

/-- Takes sources of an SGI in or out of those that wait on one CPU. -/
def setSources (d : Distributor) (cpu sgi : Nat) (sources : CpuMask) (value : Bool) :
    Distributor :=
  { d with banks := d.banks.alter cpu fun b => b.setSources sgi sources value }

/-- Records that `source` has sent an SGI to each of some CPUs. -/
def addSource (d : Distributor) (sgi source : Nat) (receivers : CpuMask) : Distributor :=
  { d with
    banks := d.banks.mapRows fun cpu b =>
      if receivers.has cpu then b.setSources sgi (.only source) true else b }

/-- Sets the priority of an interrupt as a CPU sees it. -/
def setPriority (d : Distributor) (cpu irq : Nat) (priority : Priority) : Distributor :=
  if irq < numPrivate then
    { d with
      banks := d.banks.alter cpu fun b =>
        { b with priorities := b.priorities.alter irq fun _ => priority } }
  else { d with priorities := d.priorities.alter (irq - numPrivate) fun _ => priority }

/-- Sets the targets of a shared interrupt. -/
def setTargets (d : Distributor) (irq : Nat) (targets : CpuMask) : Distributor :=
  { d with targetSets := d.targetSets.alter (irq - numPrivate) fun _ => targets }

end Distributor

end Gic
