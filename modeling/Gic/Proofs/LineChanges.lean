import Gic.Proofs.Arbitration
import Gic.Proofs.GuestRun
import Mathlib.Data.List.Perm.Basic

/-!
# Which changes of lines are published

Most of what the controller reports goes to the log; what others act on are the
changes of its output lines. This module looks at those alone.

## The model

* `Traced.changes` — the changes of lines among the reports.
* `LineChange.between` — the change from one level of a line to another, which
  is none if they are the same.
* `lineChanges` — the changes from the lines of one controller to those of
  another, in the order in which an action publishes them.

## What is proved

* `changes_arbitrate`, `changes_arbitrateVirtual` — an arbitration publishes the
  lines whose levels it changes, and no others.
* `changes_read`, `changes_write` — an access publishes what its window does; all
  else that is reported of it goes to the log.
-/

namespace Gic

namespace Traced

variable {α β : Type}

/-- The changes of lines that are reported, in order. -/
def changes (x : Traced Event α) : List LineChange := x.reports.filterMap Event.change?

@[simp] theorem changes_pure (a : α) : (pure a : Traced Event α).changes = [] := rfl

@[simp] theorem changes_bind (x : Traced Event α) (f : α → Traced Event β) :
    (x >>= f).changes = x.changes ++ (f x.value).changes := by
  rw [changes, reports_bind, List.filterMap_append]
  rfl

@[simp] theorem changes_reportIf (c : Bool) (n : Note) : (reportIf c (.note n)).changes = [] := by
  cases c <;> rfl

end Traced

/-- The change of a line from one level to another. -/
def LineChange.between (kind : LineKind) (cpu : Nat) (before after : Bool) : List LineChange :=
  if after = before then [] else [⟨cpu, kind, after⟩]

@[simp] theorem LineChange.between_self (kind : LineKind) (cpu : Nat) (level : Bool) :
    between kind cpu level level = [] := if_pos rfl

/-- A change in two steps, one of which is none. -/
theorem LineChange.between_append (kind : LineKind) (cpu : Nat) {first second third : Bool}
    (h : second = first ∨ second = third) :
    between kind cpu first second ++ between kind cpu second third =
      between kind cpu first third := by
  rcases h with rfl | rfl
  · rw [between_self, List.nil_append]
  · rw [between_self, List.append_nil]

theorem Arbitration.changes_events (domain : Domain) (kind : LineKind) (cpu : Nat) (before : Bool)
    (outcome : Option Arbitration) :
    (events domain kind cpu before outcome).filterMap Event.change? =
      LineChange.between kind cpu before (raised outcome) := by
  cases outcome with
  | none | some a =>
    simp only [events, LineChange.between]
    split <;> rfl

/-- An arbitration of the physical half publishes the lines whose levels it changes. -/
theorem Physical.changes_arbitrate {cfg : Config} (p : Physical cfg) :
    p.arbitrate.changes = (List.range cfg.cpus).flatMap fun c =>
      LineChange.between .irq c (p.cpus.row c).line (p.arbitrate.value.cpus.row c).line := by
  rw [Traced.changes, arbitrate, List.filterMap_flatMap]
  refine List.flatMap_congr fun c hc => ?_
  have hc := List.mem_range.mp hc
  rw [Arbitration.changes_events]
  simp only [Table.row_mapRows, Table.row_build, hc, if_true, settle]

namespace Controller

variable {cfg : Config}

/-- The lines of a kind whose levels differ between two controllers, with their levels in the
second one. -/
def kindChanges (kind : LineKind) (g h : Controller cfg) : List LineChange :=
  (List.range cfg.cpus).flatMap fun c => LineChange.between kind c (g.line c kind) (h.line c kind)

/-- The lines whose levels differ between two controllers, the interrupt lines first. -/
def lineChanges (g h : Controller cfg) : List LineChange :=
  kindChanges .irq g h ++ kindChanges .virtualIrq g h

theorem kindChanges_eq_nil {kind : LineKind} {g h : Controller cfg}
    (heq : ∀ c < cfg.cpus, h.line c kind = g.line c kind) : kindChanges kind g h = [] := by
  rw [kindChanges, List.flatMap_eq_nil_iff]
  intro c hc
  rw [heq c (List.mem_range.mp hc)]
  exact LineChange.between_self _ _ _

theorem lineChanges_self (g : Controller cfg) : lineChanges g g = [] := by
  rw [lineChanges, kindChanges_eq_nil fun _ _ => rfl, kindChanges_eq_nil fun _ _ => rfl,
    List.append_nil]

/-- Only virtual lines differ from those of a controller with the same physical half. -/
theorem lineChanges_of_physical {g h : Controller cfg} (heq : h.physical = g.physical) :
    lineChanges g h = kindChanges .virtualIrq g h := by
  rw [lineChanges, kindChanges_eq_nil, List.nil_append]
  intro c _
  rw [line, line, heq]

/-- Changes in two steps, of which no line takes more than one. -/
theorem kindChanges_append {kind : LineKind} {f g h : Controller cfg}
    (hstraight : ∀ c < cfg.cpus, g.line c kind = f.line c kind ∨ g.line c kind = h.line c kind) :
    (kindChanges kind f g ++ kindChanges kind g h).Perm (kindChanges kind f h) := by
  refine (List.flatMap_append_perm _ _ _).trans (.of_eq (List.flatMap_congr fun c hc => ?_))
  exact LineChange.between_append kind c (hstraight c (List.mem_range.mp hc))

theorem lineChanges_append {f g h : Controller cfg}
    (hstraight : ∀ c < cfg.cpus, ∀ kind,
      g.line c kind = f.line c kind ∨ g.line c kind = h.line c kind) :
    (lineChanges f g ++ lineChanges g h).Perm (lineChanges f h) := by
  have hirq := kindChanges_append fun c hc => hstraight c hc .irq
  have hvirtual := kindChanges_append fun c hc => hstraight c hc .virtualIrq
  refine List.Perm.trans ?_ (hirq.append hvirtual)
  rw [lineChanges, lineChanges, List.append_assoc, List.append_assoc]
  exact (List.perm_append_comm_assoc _ _ _).append_left _

/-- An arbitration of the virtual halves publishes the lines whose levels it changes. -/
theorem changes_arbitrateVirtual (g : Controller cfg) :
    g.arbitrateVirtual.changes = (List.range cfg.cpus).flatMap fun c =>
      LineChange.between .virtualIrq c (g.virtuals.row c).line
        (g.arbitrateVirtual.value.virtuals.row c).line := by
  rw [Traced.changes, arbitrateVirtual, List.filterMap_flatMap]
  refine List.flatMap_congr fun c hc => ?_
  have hc := List.mem_range.mp hc
  rw [Arbitration.changes_events]
  simp only [Table.row_mapRows, Table.row_build, hc, if_true, settle]

theorem value_resolve (cfg : Config) (initiator : Initiator) :
    (resolve cfg initiator).value = cpuOf cfg initiator := rfl

theorem changes_resolve (cfg : Config) (initiator : Initiator) :
    (resolve cfg initiator).changes = [] := by
  rw [resolve, Traced.changes_bind, Traced.changes_reportIf, Traced.changes_pure, List.append_nil]

/-- A read publishes what it does in its window. -/
theorem changes_read (g : Controller cfg) (window : Interface) (initiator : Initiator)
    (offset : Nat) (width : Width) :
    (g.read window initiator offset width).changes =
      match checkWindow cfg window offset width with
      | .error _ => []
      | .ok () => (g.readWindow window (cpuOf cfg initiator) offset width).changes := by
  have hnotes : ∀ answer, (Traced.reportAll
      (readEvents window (cpuOf cfg initiator) offset width answer)).changes = [] := by
    intro answer
    cases answer <;> rfl
  unfold read
  cases checkWindow cfg window offset width with
  | error e => rfl
  | ok =>
    simp only [Traced.changes_bind, changes_resolve, value_resolve, hnotes, Traced.changes_pure,
      List.nil_append, List.append_nil]

/-- A write publishes what it does in its window. -/
theorem changes_write (g : Controller cfg) (window : Interface) (initiator : Initiator)
    (offset : Nat) (value : BitVec 64) (width : Width) :
    (g.write window initiator offset value width).changes =
      match checkWindow cfg window offset width with
      | .error _ => []
      | .ok () =>
        (g.writeWindow window (cpuOf cfg initiator) offset (value.setWidth 32) width).changes := by
  have hnotes : (Traced.reportAll (writeEvents window (cpuOf cfg initiator) offset value
      width)).changes = [] := by
    unfold writeEvents
    split <;> rfl
  unfold write
  cases checkWindow cfg window offset width with
  | error e => rfl
  | ok =>
    simp only [Traced.changes_bind, changes_resolve, value_resolve, hnotes, List.nil_append]

end Controller

end Gic
