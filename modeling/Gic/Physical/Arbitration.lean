import Gic.Physical.State
import Gic.Trace.Note
import Gic.Trace.Traced

/-!
# Physical arbitration

Arbitration decides for each CPU which pending interrupt it is shown and whether
its interrupt line is raised.

## The model

An interrupt is a candidate for a CPU if it is enabled, wanted and not active:
looking at that CPU's flags if the interrupt is private, and at all flags if it
is shared, in which case the CPU must also be among its targets. `best` is the
candidate with the least priority number, and among those the one with the
least interrupt number; priority `idle` is never signaled. `arbitrate` shows
the best candidate to the CPU if it is more urgent than the priority mask, and
raises the line if it is also more urgent than what the CPU is running. A CPU
whose interface or whose distributor enables no group is shown nothing.
-/

namespace Gic

namespace Physical

variable {cfg : Config}

/-- The CPUs whose flags of an interrupt say whether it can be signaled to `cpu`. -/
def view (irq cpu : Nat) : CpuMask := if irq < numPrivate then .only cpu else .all

/-- Whether an interrupt may be signaled to a CPU at all. -/
def isCandidate (p : Physical cfg) (cpu irq : Nat) : Bool :=
  (decide (irq < numPrivate) || (p.distributor.targets irq).has cpu)
    && (p.irqs.row irq).isEnabled (view irq cpu)
    && (p.irqs.row irq).wanted (view irq cpu)
    && !(p.irqs.row irq).isActive (view irq cpu)

/-- The winner among the interrupts below `n`, and its priority. -/
def best (p : Physical cfg) (cpu : Nat) : Nat → Nat × Priority
  | 0 => (spurious, idle)
  | n + 1 =>
    let leader := p.best cpu n
    if p.isCandidate cpu n && decide (p.priority cpu n < leader.2) then (n, p.priority cpu n)
    else leader

/-- Whether interrupts reach a CPU at all. -/
def isOpen (p : Physical cfg) (cpu : Nat) : Bool :=
  p.distributor.enables.any && (p.cpus.row cpu).enables.any

/-- What a CPU is shown, and whether its line is raised; `none` if nothing reaches it. -/
def decideFor (p : Physical cfg) (cpu : Nat) : Option Arbitration :=
  if p.isOpen cpu then
    let winner := p.best cpu cfg.numIrqs
    let i := p.cpus.row cpu
    some
      { winner := winner.1
        priority := winner.2
        mask := i.priorityMask
        running := i.running
        level := decide (winner.1 ≠ spurious) && decide (winner.2 < i.priorityMask)
          && decide (winner.2 < i.running) }
  else none

end Physical

namespace Arbitration

/-- The interrupt that the CPU is shown: the winner, if it passes the mask. -/
def visible : Option Arbitration → Nat
  | none => spurious
  | some a => if a.winner ≠ spurious && decide (a.priority < a.mask) then a.winner else spurious

/-- The level of the output line. -/
def raised : Option Arbitration → Bool
  | none => false
  | some a => a.level

/-- What is reported of an arbitration for a CPU whose line had a level before. -/
def events (domain : Domain) (kind : LineKind) (cpu : Nat) (before : Bool)
    (outcome : Option Arbitration) : List Event :=
  (match outcome with
    | none => []
    | some a => [.note (.arbitrated domain cpu a)])
  ++ (if raised outcome = before then [] else [.line ⟨cpu, kind, raised outcome⟩])

end Arbitration

namespace Physical

variable {cfg : Config}

/-- The interface of a CPU after an arbitration. -/
def settle (i : CpuInterface) (outcome : Option Arbitration) : CpuInterface :=
  { i with highestPending := Arbitration.visible outcome, line := Arbitration.raised outcome }

/-- Decides anew for every CPU. -/
def arbitrate (p : Physical cfg) : Traced Event (Physical cfg) :=
  let outcomes := Table.build cfg.cpus p.decideFor
  ⟨{ p with cpus := p.cpus.mapRows fun cpu i => settle i (outcomes.row cpu) },
    (List.range cfg.cpus).flatMap fun cpu =>
      Arbitration.events .physical .irq cpu (p.cpus.row cpu).line (outcomes.row cpu)⟩

end Physical

end Gic
