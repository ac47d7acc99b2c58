import Gic.CpuMask
import Gic.Interface
import Gic.Bus.Transaction

/-!
# Configurations

A controller is built for a number of CPUs, a number of shared interrupt inputs
and the base addresses of its four windows. Not every choice can be built:
there are one to eight CPUs and at most 512 interrupts, and the windows neither
overlap nor reach past the last address.

## The model

Interrupt numbers run from the sixteen software generated interrupts (SGIs)
over the sixteen private peripheral interrupts (PPIs) to the shared peripheral
interrupts (SPIs). `validate` looks at the number of CPUs first, then at the
number of interrupts, then at the windows two by two.
-/

namespace Gic

/-- The number of software generated interrupts. -/
def numSgis : Nat := 16

/-- The number of private peripheral interrupts. -/
def numPpis : Nat := 16

/-- The number of interrupts that each CPU has for itself: SGIs and PPIs. -/
def numPrivate : Nat := 32

/-- The number of shared peripheral interrupts that can be connected. -/
def maxSpis : Nat := 480

/-- The number of interrupts there can be. -/
def maxIrqs : Nat := 512

/-- The interrupt number that stands for no interrupt. -/
def spurious : Nat := 1023

/-- What a controller is built for. -/
structure Config where
  /-- The number of connected CPUs. -/
  cpus : Nat
  /-- The number of connected shared peripheral interrupts. -/
  spis : Nat
  /-- The base address of the distributor. -/
  distributor : Nat
  /-- The base address of the CPU interfaces. -/
  cpuInterface : Nat
  /-- The base address of the virtual interface control. -/
  vifControl : Nat
  /-- The base address of the virtual CPU interfaces. -/
  vcpuInterface : Nat
  deriving DecidableEq, Repr

/-- Why a configuration cannot be built. -/
inductive ConfigError where
  /-- No CPU is connected. -/
  | noCpus
  /-- More CPUs are connected than can be served. -/
  | tooManyCpus (cpus : Nat)
  /-- An input is connected beyond the last interrupt. -/
  | tooManyInterrupts (irq : Nat)
  /-- Two windows overlap, or one of them reaches past the last address. -/
  | overlap (first second : Interface)
  deriving DecidableEq, Repr

namespace ConfigError

/-- The sentence that reports the error. -/
def message : ConfigError → String
  | noCpus => "GIC-400 has no connected CPUs"
  | tooManyCpus cpus =>
    "GIC-400 supports at most " ++ toString maxCpus ++ " CPUs, " ++ toString cpus
      ++ " are connected"
  | tooManyInterrupts irq =>
    "GIC-400 supports at most " ++ toString maxIrqs ++ " interrupts, interrupt "
      ++ toString irq ++ " is connected"
  | overlap first second =>
    "GIC-400 " ++ first.name ++ " window overlaps with the " ++ second.name ++ " window"

/-- The error as a value on one line. -/
def shown : ConfigError → String
  | noCpus => "NoCpus"
  | tooManyCpus cpus => Text.shownRecord "TooManyCpus" [("num_cpus", toString cpus)]
  | tooManyInterrupts irq => Text.shownRecord "TooManyInterrupts" [("irq", toString irq)]
  | overlap first second =>
    Text.shownRecord "Overlap" [("first", first.shown), ("second", second.shown)]

end ConfigError

namespace Config

/-- One CPU, 96 shared interrupts and the windows of a common board. -/
def standard : Config where
  cpus := 1
  spis := 96
  distributor := 0x08000000
  cpuInterface := 0x08010000
  vifControl := 0x08030000
  vcpuInterface := 0x08040000

instance : Inhabited Config := ⟨standard⟩

/-- The base address of a window. -/
def base (cfg : Config) : Interface → Nat
  | .distributor => cfg.distributor
  | .cpuInterface => cfg.cpuInterface
  | .vifControl => cfg.vifControl
  | .vcpuInterface => cfg.vcpuInterface

/-- The address after a window. -/
def stop (cfg : Config) (window : Interface) : Nat := cfg.base window + window.windowSize

/-- The number of connected interrupts: their numbers are those below it. -/
def numIrqs (cfg : Config) : Nat := numPrivate + cfg.spis

/-- Whether two windows cannot both be mapped. -/
def clash (cfg : Config) (a b : Interface) : Bool :=
  decide (addressSpace ≤ cfg.stop a) || decide (addressSpace ≤ cfg.stop b)
    || (decide (cfg.base a < cfg.stop b) && decide (cfg.base b < cfg.stop a))

/-- The windows two by two, in the order in which they are compared. -/
def windowPairs : List (Interface × Interface) :=
  [(.distributor, .cpuInterface), (.distributor, .vifControl), (.distributor, .vcpuInterface),
    (.cpuInterface, .vifControl), (.cpuInterface, .vcpuInterface), (.vifControl, .vcpuInterface)]

/-- Checks that a controller can be built. -/
def validate (cfg : Config) : Except ConfigError Unit :=
  if cfg.cpus = 0 then .error .noCpus
  else if maxCpus < cfg.cpus then .error (.tooManyCpus cfg.cpus)
  else if maxSpis < cfg.spis then .error (.tooManyInterrupts cfg.numIrqs)
  else
    match windowPairs.find? fun pair => cfg.clash pair.1 pair.2 with
    | some (a, b) => .error (.overlap a b)
    | none => .ok ()

/-- A valid configuration connects at least one CPU and no more CPUs and interrupts than can be
served. -/
theorem bounds_of_validate {cfg : Config} (h : cfg.validate = .ok ()) :
    0 < cfg.cpus ∧ cfg.cpus ≤ maxCpus ∧ cfg.numIrqs ≤ maxIrqs := by
  unfold validate at h
  split at h
  · cases h
  · split at h
    · cases h
    · split at h
      · cases h
      · simp only [numIrqs, maxSpis, numPrivate, maxIrqs] at *
        omega

end Config

end Gic
