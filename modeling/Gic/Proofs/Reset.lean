import Gic.Controller

/-!
# What a reset does

A reset overwrites what a controller holds, some of it as a whole and some in
place, and then lowers its lines one after the other. This module shows that
nothing is left of what was there before.

## What is proved

* `Store.reset_eq` — the interrupts are as they were at power-on, whatever they
  were before.
* `lowerFirst_eq` — lowering the lines of some CPUs changes no other line, and
  reports those that were high, each once.
* `reset_eq` — a reset leaves the controller as it was at power-on, and reports
  the lines that were high.
-/

namespace Gic

/-- Changing the rows before one and then that row is changing the rows up to it. -/
theorem Table.alter_mapRows_lt {α : Type} [Inhabited α] {m : Nat} (t : Table m α) (f : α → α)
    (n : Nat) :
    (t.mapRows fun c a => if c < n then f a else a).alter n f =
      t.mapRows fun c a => if c < n + 1 then f a else a := by
  refine Table.ext_row fun i hi => ?_
  rw [Table.row_alter, Table.row_mapRows, Table.row_mapRows, if_pos hi, if_pos hi]
  rcases Nat.lt_trichotomy i n with hlt | rfl | hgt
  · rw [if_neg (by omega), if_pos hlt, if_pos (by omega)]
  · rw [if_pos ⟨rfl, hi⟩, if_neg (Nat.lt_irrefl i), if_pos (Nat.lt_succ_self i)]
  · rw [if_neg (by omega), if_neg (by omega), if_neg (by omega)]

/-- The interrupts are as at power-on, whatever they were before. -/
theorem Store.reset_eq (s : Store) (cpus : Nat) : s.reset cpus = powerOn cpus := by
  refine Table.ext_row fun irq hirq => ?_
  rw [reset, powerOn, Table.row_mapRows, Table.row_mapRows, Table.row_mapRows, Table.row_build,
    if_pos hirq, if_pos hirq, if_pos hirq, if_pos hirq]
  have hsgis : numSgis = 16 := rfl
  have hprivate : numPrivate = 32 := rfl
  -- An interrupt is an SGI, or one of a CPU's inputs, or shared.
  by_cases hsgi : irq < numSgis
  · rw [if_pos hsgi, if_pos hsgi, if_neg (by omega)]
  · rw [if_neg hsgi, if_neg hsgi]
    by_cases hshared : numPrivate ≤ irq
    · rw [if_pos hshared, if_neg (by omega)]
      rfl
    · rw [if_neg hshared, if_pos (by omega)]

namespace Controller

variable {cfg : Config}

/-- The lines of a CPU that are high go low. -/
def resetEvents (g : Controller cfg) (cpu : Nat) : List Event :=
  [LineKind.irq, LineKind.virtualIrq].filterMap fun kind =>
    if g.line cpu kind then some (.line ⟨cpu, kind, false⟩) else none

/-- The controller with the lines of the first `n` CPUs low. -/
def lowered (g : Controller cfg) (n : Nat) : Controller cfg where
  physical :=
    { g.physical with
      cpus := g.physical.cpus.mapRows fun c i => if c < n then { i with line := false } else i }
  virtuals := g.virtuals.mapRows fun c v => if c < n then { v with line := false } else v

/-- Lowering the lines of the CPUs before one leaves those of that CPU. -/
theorem line_lowered (g : Controller cfg) (n : Nat) (kind : LineKind) :
    (g.lowered n).line n kind = g.line n kind := by
  cases kind with
  | irq => exact Table.mapRows_keeps CpuInterface.line (fun i => by rw [if_neg (Nat.lt_irrefl n)]) _
  | virtualIrq =>
    exact Table.mapRows_keeps VirtualCpu.line (fun v => by rw [if_neg (Nat.lt_irrefl n)]) _

theorem lowered_zero (g : Controller cfg) : g.lowered 0 = g := by
  have hcpus : (g.lowered 0).physical.cpus = g.physical.cpus := Table.ext_row fun i hi => by
    rw [lowered, Table.row_mapRows, if_pos hi, if_neg (Nat.not_lt_zero i)]
  have hvirtuals : (g.lowered 0).virtuals = g.virtuals := Table.ext_row fun i hi => by
    rw [lowered, Table.row_mapRows, if_pos hi, if_neg (Nat.not_lt_zero i)]
  have hphysical := congrArg (fun cpus => ({ g.physical with cpus } : Physical cfg)) hcpus
  exact (congrArg (Controller.mk · _) hphysical).trans (congrArg (Controller.mk _) hvirtuals)

/-- Both lines of the next CPU go low. -/
theorem value_lower_lowered (g : Controller cfg) (n : Nat) :
    (((g.lowered n).lower n .irq).value.lower n .virtualIrq).value = g.lowered (n + 1) := by
  have hcpus := Table.alter_mapRows_lt g.physical.cpus (fun i => { i with line := false }) n
  have hvirtuals := Table.alter_mapRows_lt g.virtuals (fun v => { v with line := false }) n
  have hphysical := congrArg (fun cpus => ({ g.physical with cpus } : Physical cfg)) hcpus
  exact (congrArg (Controller.mk · _) hphysical).trans (congrArg (Controller.mk _) hvirtuals)

/-- It is reported which of them were high. -/
theorem reports_lower_lowered (g : Controller cfg) (n : Nat) :
    ((g.lowered n).lower n .irq).reports ++
      (((g.lowered n).lower n .irq).value.lower n .virtualIrq).reports = g.resetEvents n := by
  -- Lowering the interrupt line leaves the virtual one.
  show (if (g.lowered n).line n .irq then [Event.line ⟨n, .irq, false⟩] else []) ++ [] ++
    ((if (g.lowered n).line n .virtualIrq then [Event.line ⟨n, .virtualIrq, false⟩] else []) ++ [])
      = _
  rw [line_lowered, line_lowered, resetEvents]
  cases hirq : g.line n .irq <;> cases hvirtual : g.line n .virtualIrq <;> simp [hirq, hvirtual]

/-- Lowering the lines of some CPUs changes no other line and reports those that were high. -/
theorem lowerFirst_eq (g : Controller cfg) (n : Nat) :
    g.lowerFirst n = ⟨g.lowered n, (List.range n).flatMap g.resetEvents⟩ := by
  induction n with
  | zero =>
    rw [lowered_zero]
    rfl
  | succ n ih =>
    rw [lowerFirst, ih, List.range_succ, List.flatMap_append, List.flatMap_singleton,
      ← value_lower_lowered, ← reports_lower_lowered]
    rfl

/-- What is not a line was as at power-on before the lines are lowered. -/
theorem lowered_clear (g : Controller cfg) : g.clear.lowered cfg.cpus = powerOn cfg := by
  have hirqs := g.physical.irqs.reset_eq cfg.cpus
  have hcpus : (g.clear.lowered cfg.cpus).physical.cpus = Table.replicate cfg.cpus .powerOn :=
    Table.ext_row fun c hc => by
      rw [lowered, clear, Physical.clear, Table.row_mapRows, Table.row_mapRows, Table.row_replicate,
        if_pos hc, if_pos hc, if_pos hc, if_pos hc]
      rfl
  have hvirtuals : (g.clear.lowered cfg.cpus).virtuals = Table.replicate cfg.cpus .powerOn :=
    Table.ext_row fun c hc => by
      rw [lowered, clear, Table.row_mapRows, Table.row_mapRows, Table.row_replicate,
        if_pos hc, if_pos hc, if_pos hc, if_pos hc]
      rfl
  have hphysical : (g.clear.lowered cfg.cpus).physical = .powerOn cfg :=
    (congrArg (Physical.mk · _ _) hirqs).trans (congrArg (Physical.mk _ _) hcpus)
  exact (congrArg (Controller.mk · _) hphysical).trans (congrArg (Controller.mk _) hvirtuals)

theorem line_clear (g : Controller cfg) (cpu : Nat) (kind : LineKind) :
    g.clear.line cpu kind = g.line cpu kind := by
  cases kind with
  | irq => exact Table.mapRows_keeps CpuInterface.line (fun i => rfl) _
  | virtualIrq => exact Table.mapRows_keeps VirtualCpu.line (fun v => rfl) _

/-- A reset leaves everything as at power-on and reports the lines that were high. -/
theorem reset_eq (g : Controller cfg) :
    g.reset = ⟨powerOn cfg, (List.range cfg.cpus).flatMap g.resetEvents⟩ := by
  have hevents : g.clear.resetEvents = g.resetEvents := by
    funext cpu
    simp only [resetEvents, line_clear]
  rw [reset, lowerFirst_eq, lowered_clear, hevents]

theorem value_reset (g : Controller cfg) : g.reset.value = powerOn cfg := by rw [reset_eq]

end Controller

end Gic
