import Gic.Interrupt.State
import Gic.Trace.Note
import Gic.Trace.Traced

/-!
# Guarded access to the interrupts

From outside, interrupts and CPUs are named by any number. A number that names
none is reported and answered as if nothing were set; a change of it is
dropped.

The controller itself names what exists only, and goes to the rows of the table
at once. That makes no difference: for numbers that exist, guarded access is the
access that the controller has, without a report (`ask_of_lt`, `revise_of_lt`,
`scope_of_lt`), also step after step (`acknowledge_of_lt`, `complete_of_lt`); and
for other numbers it does what the table does past its end (`value_scope`,
`value_revise`).
-/

namespace Gic

/-- The set of one CPU; a CPU that the controller cannot serve is reported. -/
def CpuMask.guarded (cpu : Nat) : Traced Note CpuMask := do
  .reportIf (decide (maxCpus ≤ cpu)) (.noSuchCpu cpu)
  return .only cpu

theorem CpuMask.guarded_of_lt {cpu : Nat} (h : cpu < maxCpus) : guarded cpu = pure (only cpu) := by
  rw [guarded, decide_eq_false (Nat.not_le.mpr h)]
  rfl

namespace Store

/-- The state of an interrupt; one that does not exist is reported. -/
def lookup (s : Store) (irq : Nat) : Traced Note (Option IrqState) := do
  .reportIf (decide (maxIrqs ≤ irq)) (.invalidLookup irq)
  return s.get? irq

/-- Asks something of an interrupt. -/
def ask {α : Type} (s : Store) (irq : Nat) (otherwise : α) (f : IrqState → α) :
    Traced Note α := do
  match ← s.lookup irq with
  | none => return otherwise
  | some r => return f r

/-- Changes an interrupt; one that does not exist is reported. -/
def revise (s : Store) (irq : Nat) (f : IrqState → IrqState) : Traced Note Store := do
  .reportIf (decide (maxIrqs ≤ irq)) (.invalidUpdate irq)
  return s.alter irq f

/-- The CPUs whose flags an acknowledge or completion by `cpu` touches. -/
def scope (s : Store) (irq cpu : Nat) : Traced Note CpuMask := do
  match ← s.ask irq .perCpu IrqState.routing with
  | .single => return .all
  | .perCpu => CpuMask.guarded cpu

variable {irq cpu : Nat}

/-! ### Numbers that exist -/

theorem lookup_of_lt (s : Store) (h : irq < maxIrqs) : s.lookup irq = pure (some (s.row irq)) := by
  rw [lookup, decide_eq_false (Nat.not_le.mpr h), get?, if_pos h]
  rfl

theorem ask_of_lt {α : Type} (s : Store) (h : irq < maxIrqs) (otherwise : α) (f : IrqState → α) :
    s.ask irq otherwise f = pure (f (s.row irq)) := by
  rw [ask, s.lookup_of_lt h]
  rfl

theorem revise_of_lt (s : Store) (h : irq < maxIrqs) (f : IrqState → IrqState) :
    s.revise irq f = pure (s.alter irq f) := by
  rw [revise, decide_eq_false (Nat.not_le.mpr h)]
  rfl

theorem scope_of_lt (s : Store) (hirq : irq < maxIrqs) (hcpu : cpu < maxCpus) :
    s.scope irq cpu = pure ((s.row irq).scope cpu) := by
  rw [scope, s.ask_of_lt hirq, IrqState.scope]
  cases (s.row irq).routing with
  | single => rfl
  | perCpu => exact CpuMask.guarded_of_lt hcpu

/-- Two flags of an interrupt that are set or cleared one after the other where a CPU handles it. -/
theorem mark_of_lt (s : Store) (hirq : irq < maxIrqs) (hcpu : cpu < maxCpus) (value : Bool) :
    (do
      let mask ← s.scope irq cpu
      let s ← s.revise irq fun r => r.setActive value mask
      s.revise irq fun r => r.setSignaled value mask) =
      pure (s.alter irq fun r =>
        (r.setActive value (r.scope cpu)).setSignaled value (r.scope cpu)) := by
  rw [s.scope_of_lt hirq hcpu]
  show (s.revise irq _ >>= fun s => s.revise irq _) = _
  rw [s.revise_of_lt hirq]
  show Store.revise (s.alter irq _) irq _ = _
  rw [revise_of_lt _ hirq]
  refine congrArg pure (Table.ext_row fun j _ => ?_)
  simp only [Table.row_alter]
  split
  · rename_i hj
    obtain ⟨rfl, -⟩ := hj
    rfl
  · rfl

/-- An acknowledge in guarded steps is the acknowledge of the controller. -/
theorem acknowledge_of_lt (s : Store) (hirq : irq < maxIrqs) (hcpu : cpu < maxCpus) :
    (do
      let mask ← s.scope irq cpu
      let s ← s.revise irq fun r => r.setActive true mask
      s.revise irq fun r => r.setSignaled true mask) =
      pure (s.alter irq fun r => r.acknowledge cpu) :=
  s.mark_of_lt hirq hcpu true

/-- A completion in guarded steps is the completion of the controller. -/
theorem complete_of_lt (s : Store) (hirq : irq < maxIrqs) (hcpu : cpu < maxCpus) :
    (do
      let mask ← s.scope irq cpu
      let s ← s.revise irq fun r => r.setActive false mask
      s.revise irq fun r => r.setSignaled false mask) =
      pure (s.alter irq fun r => r.complete cpu) :=
  s.mark_of_lt hirq hcpu false

/-! ### All numbers -/

/-- An interrupt that does not exist is answered like one that was never touched. -/
theorem value_ask {α : Type} (s : Store) (irq : Nat) {otherwise : α} {f : IrqState → α}
    (h : f .idle = otherwise) : (s.ask irq otherwise f).value = f (s.row irq) := by
  by_cases hirq : irq < maxIrqs
  · rw [s.ask_of_lt hirq]
    rfl
  · rw [Table.row_of_le s (Nat.le_of_not_lt hirq), ask, Traced.value_bind, lookup,
      Traced.value_bind, get?, if_neg hirq]
    exact h.symm

theorem value_scope (s : Store) (irq cpu : Nat) :
    (s.scope irq cpu).value = (s.row irq).scope cpu := by
  have hrouting : (s.ask irq .perCpu IrqState.routing).value = _ := s.value_ask irq rfl
  rw [scope, Traced.value_bind, hrouting, IrqState.scope]
  cases (s.row irq).routing <;> rfl

theorem value_revise (s : Store) (irq : Nat) (f : IrqState → IrqState) :
    (s.revise irq f).value = s.alter irq f := rfl

end Store

end Gic
