import Gic.Proofs.Effects
import Gic.Proofs.GuestRun

/-!
# How far a guest reaches

The physical half and the virtual halves are kept in one controller and share
their helpers, but they meet in one place only: a guest that completes a virtual
interrupt also ends the physical one behind it. This module says how far that
goes, and that nothing reaches the other way.

## The model

* `CpuAccess`, `GuestAccess` and `HostAction` — what is done as a CPU to any
  window, what to those of the virtual half, and what is done to the physical
  half from outside.
* `VirtualCpu.Holds` — the list register in which an interrupt is found, read off
  the list registers.
* `EndsBacking g cpu irq a` — the access `a` ends the physical interrupt `irq`:
  the list register of the completed interrupt is backed by it, and it has an
  input.
* `ended?` — which physical interrupt that is, and `Ended` — what is left of the
  physical half after it (`Physical.endFor`).

## What is proved

* `physical_after_guest` — what an access to the virtual half leaves of the
  physical half.
* `guest_reaches_backing_only` — it changes nothing there, or ends the interrupt
  that backs the completed one and changes nothing else; and what is done to the
  physical half changes no virtual half.
-/

namespace Gic

/-- The windows of the virtual half: the hypervisor's and the guest's. -/
def Interface.IsVirtual (window : Interface) : Prop :=
  window = .vifControl ∨ window = .vcpuInterface

/-- An access to any of the windows that counts as one of a CPU. -/
inductive CpuAccess (cfg : Config) (cpu : Nat) : Action → Prop where
  /-- A register is read. -/
  | read {window : Interface} {i : Initiator} {o : Nat} {w : Width}
      (own : Controller.cpuOf cfg i = cpu) : CpuAccess cfg cpu (.read window i o w)
  /-- A register is written. -/
  | write {window : Interface} {i : Initiator} {o : Nat} {v : BitVec 64} {w : Width}
      (own : Controller.cpuOf cfg i = cpu) : CpuAccess cfg cpu (.write window i o v w)

/-- An access to the virtual half that counts as one of a CPU. -/
inductive GuestAccess (cfg : Config) (cpu : Nat) : Action → Prop where
  /-- A register is read. -/
  | read {window : Interface} {i : Initiator} {o : Nat} {w : Width}
      (isVirtual : window.IsVirtual) (own : Controller.cpuOf cfg i = cpu) :
      GuestAccess cfg cpu (.read window i o w)
  /-- A register is written. -/
  | write {window : Interface} {i : Initiator} {o : Nat} {v : BitVec 64} {w : Width}
      (isVirtual : window.IsVirtual) (own : Controller.cpuOf cfg i = cpu) :
      GuestAccess cfg cpu (.write window i o v w)

/-- An access counts as one of one CPU. -/
theorem CpuAccess.unique {cfg : Config} {a b : Nat} {x : Action} (ha : CpuAccess cfg a x)
    (hb : CpuAccess cfg b x) : a = b := by
  cases ha with
  | read own =>
    cases hb with
    | read own' => exact own.symm.trans own'
  | write own =>
    cases hb with
    | write own' => exact own.symm.trans own'

theorem GuestAccess.cpuAccess {cfg : Config} {cpu : Nat} {x : Action}
    (h : GuestAccess cfg cpu x) : CpuAccess cfg cpu x := by
  cases h with
  | read _ own => exact .read own
  | write _ own => exact .write own

/-- An access to the physical half, or a change of an input. -/
inductive HostAction : Action → Prop where
  /-- A register is read. -/
  | read {window : Interface} {i : Initiator} {o : Nat} {w : Width}
      (isPhysical : ¬ window.IsVirtual) : HostAction (.read window i o w)
  /-- A register is written. -/
  | write {window : Interface} {i : Initiator} {o : Nat} {v : BitVec 64} {w : Width}
      (isPhysical : ¬ window.IsVirtual) : HostAction (.write window i o v w)
  /-- A private input takes a level. -/
  | ppi (cpu index : Nat) (level : Bool) : HostAction (.ppi cpu index level)
  /-- A shared input takes a level. -/
  | spi (index : Nat) (level : Bool) : HostAction (.spi index level)
  /-- A queued change of an input is delivered. -/
  | request (r : Request) : HostAction (.request r)

namespace VirtualCpu

/-- The list register `n` is the first one that holds an interrupt, pending or active. -/
structure Holds (v : VirtualCpu) (irq n : Nat) : Prop where
  inRange : n < numListRegisters
  live : (v.lists.row n).live = true
  names : (v.lists.row n).virtualId = irq
  first : ∀ m < n, (v.lists.row m).live = true → (v.lists.row m).virtualId ≠ irq

theorem find?_eq_some_iff (v : VirtualCpu) (irq n : Nat) :
    v.find? irq = some n ↔ v.Holds irq n := by
  rw [find?, List.find?_range_eq_some, Bool.and_eq_true, beq_iff_eq, List.mem_range]
  constructor
  · rintro ⟨⟨live, names⟩, inRange, first⟩
    refine ⟨inRange, live, names, fun m hm hlive hnames => ?_⟩
    have hnot := first m hm
    simp only [hlive, hnames, beq_self_eq_true, Bool.and_self, Bool.not_true] at hnot
    cases hnot
  · rintro ⟨inRange, live, names, first⟩
    refine ⟨⟨live, names⟩, inRange, fun m hm => ?_⟩
    rw [Bool.not_eq_true', Bool.and_eq_false_iff]
    cases hlive : (v.lists.row m).live with
    | false => exact .inl rfl
    | true => exact .inr (beq_eq_false_iff_ne.mpr (first m hm hlive))

end VirtualCpu

namespace Physical

variable {cfg : Config}

/-- The interrupt `irq` is ended for the CPU `cpu`. -/
structure Ended (p q : Physical cfg) (cpu irq : Nat) : Prop where
  /-- It is neither active nor signaled any more: for this CPU if it is private, for every CPU if
  it is shared. -/
  flags : q.irqs.row irq = { p.irqs.row irq with
    active := (p.irqs.row irq).active.assign (view irq cpu) false
    signaled := (p.irqs.row irq).signaled.assign (view irq cpu) false }
  /-- The other interrupts stay as they are. -/
  others : ∀ i, i ≠ irq → q.irqs.row i = p.irqs.row i
  /-- The distributor does not change. -/
  distributor : q.distributor = p.distributor
  /-- The interfaces are decided anew, and do not change otherwise. -/
  interfaces : ∀ c, (q.cpus.row c).undecided = (p.cpus.row c).undecided
  /-- Every CPU is shown what follows from the state as it is then. -/
  current : ∀ c < cfg.cpus, q.Current c

/-- The physical half after an interrupt, if one is named, was ended for a CPU. -/
def endFor (p : Physical cfg) (cpu : Nat) : Option Nat → Physical cfg
  | none => p
  | some irq => (p.deactivate cpu irq).arbitrate.value

theorem ended_endFor {p : Physical cfg} (hp : Shaped p) (hmax : cfg.cpus ≤ maxCpus)
    (hn : cfg.numIrqs ≤ maxIrqs) (cpu : Nat) {irq : Nat} (hirq : irq < maxIrqs) :
    Ended p (p.endFor cpu (some irq)) cpu irq where
  flags := by
    rw [endFor, arbitrate_irqs, row_deactivate hirq hp cpu irq 0#8, if_pos rfl]
    rfl
  others i hi := row_alterIrq_of_ne p (Ne.symm hi) _
  distributor := rfl
  interfaces c := undecided_arbitrate _ c
  current c hc := (settled_arbitrate _).current hn hc (Nat.lt_of_lt_of_le hc hmax)

end Physical

namespace Controller

variable {cfg : Config}

open Physical

/-- An access by which a guest of the CPU `cpu` ends the physical interrupt `irq`. -/
inductive EndsBacking (g : Controller cfg) (cpu irq : Nat) : Action → Prop where
  /-- It completes an interrupt that can exist, and whose list register is backed by `irq`. -/
  | completes {i : Initiator} {v : BitVec 64} {n : Nat} (own : cpuOf cfg i = cpu)
      (valid : Word.field (v.setWidth 32) 0 10 < maxIrqs)
      (held : (g.virtuals.row cpu).Holds (Word.field (v.setWidth 32) 0 10) n)
      (hardware : ((g.virtuals.row cpu).lists.row n).hardware = true)
      (backing : ((g.virtuals.row cpu).lists.row n).linkField = irq)
      (low : numSgis ≤ irq) (high : irq < cfg.numIrqs) :
      EndsBacking g cpu irq (.write .vcpuInterface i 0x10 v .word)

/-- The physical interrupt that an access to the virtual half ends, if there is one. -/
def ended? (g : Controller cfg) : Action → Option Nat
  | .write window i o v w =>
    if window = .vcpuInterface ∧ o = 0x10 ∧ w = .word then
      (g.backing? (cpuOf cfg i) (v.setWidth 32)).filter fun irq =>
        decide (numSgis ≤ irq ∧ irq < cfg.numIrqs)
    else none
  | _ => none

theorem backing?_eq_some_iff (g : Controller cfg) (cpu : Nat) (value : Word) (irq : Nat) :
    g.backing? cpu value = some irq ↔ value.field 0 10 < maxIrqs ∧
      ∃ n, (g.virtuals.row cpu).Holds (value.field 0 10) n ∧
        ((g.virtuals.row cpu).lists.row n).hardware = true ∧
        ((g.virtuals.row cpu).lists.row n).linkField = irq := by
  simp only [← VirtualCpu.find?_eq_some_iff]
  unfold backing?
  split
  · rename_i hvalid
    cases (g.virtuals.row cpu).find? (value.field 0 10) with
    | none => simp
    | some n =>
      simp only [hvalid, Option.some.injEq, true_and, exists_eq_left', ListEntry.physicalId]
      cases ((g.virtuals.row cpu).lists.row n).hardware <;> simp
  · rename_i hinvalid
    simp [hinvalid]

theorem endsBacking_iff {g : Controller cfg} {cpu : Nat} {a : Action} (h : GuestAccess cfg cpu a)
    (irq : Nat) : EndsBacking g cpu irq a ↔ g.ended? a = some irq := by
  cases h with
  | read isVirtual own =>
    constructor
    · rintro ⟨⟩
    · rintro ⟨⟩
  | @write window i o v w isVirtual own =>
    subst own
    constructor
    · rintro ⟨-, valid, held, hardware, backing, low, high⟩
      have hbacking := (g.backing?_eq_some_iff _ _ irq).mpr ⟨valid, _, held, hardware, backing⟩
      rw [ended?, if_pos ⟨rfl, rfl, rfl⟩, Option.filter_eq_some_iff, decide_eq_true_eq]
      exact ⟨hbacking, low, high⟩
    · intro hended
      rw [ended?] at hended
      split at hended
      · rename_i hplace
        obtain ⟨rfl, rfl, rfl⟩ := hplace
        rw [Option.filter_eq_some_iff, decide_eq_true_eq] at hended
        obtain ⟨hbacking, low, high⟩ := hended
        obtain ⟨valid, n, held, hardware, backing⟩ := (g.backing?_eq_some_iff _ _ irq).mp hbacking
        exact .completes rfl valid held hardware backing low high
      · cases hended

/-- What the guest of a CPU leaves of the physical half with a completion. -/
theorem physical_completeVirtual_ended (g : Controller cfg) (i : Initiator) (v : BitVec 64) :
    (g.completeVirtual (cpuOf cfg i) (v.setWidth 32)).value.physical =
      g.physical.endFor (cpuOf cfg i) (g.ended? (.write .vcpuInterface i 0x10 v .word)) := by
  rw [physical_completeVirtual, ended?, if_pos ⟨rfl, rfl, rfl⟩]
  cases g.backing? (cpuOf cfg i) (v.setWidth 32) with
  | none => rfl
  | some irq =>
    by_cases hrange : numSgis ≤ irq ∧ irq < cfg.numIrqs
    · simp only [hrange, and_self, if_true, Option.filter_some, decide_true, endFor]
    · simp only [hrange, if_false, Option.filter_some, decide_false, Bool.false_eq_true, endFor]

/-- What an access to the virtual half leaves of the physical half. -/
theorem physical_after_guest (g : Controller cfg) {cpu : Nat} {a : Action}
    (h : GuestAccess cfg cpu a) :
    (g.after a).physical = g.physical.endFor cpu (g.ended? a) := by
  cases h with
  | @read window i o w isVirtual own =>
    refine physical_after_read g ?_
    rintro ⟨rfl, -⟩
    rcases isVirtual with hwindow | hwindow <;> cases hwindow
  | @write window i o v w isVirtual own =>
    subst own
    rw [after_write]
    by_cases hends : window = .vcpuInterface ∧ o = 0x10 ∧ w = .word
    · obtain ⟨rfl, rfl, rfl⟩ := hends
      exact physical_completeVirtual_ended g i v
    · rw [ended?, if_neg hends]
      split
      · rfl
      rcases isVirtual with rfl | rfl
      · simp only [writeWindow]
        split
        · rfl
        · exact physical_putVirtual g _ _
      · simp only [writeWindow]
        split
        · rfl
        · rename_i hw
          obtain ⟨rfl, -⟩ := width_of_checkWord hw
          split
          · rename_i h
            exact absurd ⟨rfl, CpuRegister.offset_of_completion h, rfl⟩ hends
          · exact physical_putVirtual g _ _

/-- What is done to the physical half changes no virtual half. -/
theorem virtuals_after_host (g : Controller cfg) {a : Action} (h : HostAction a) :
    (g.after a).virtuals = g.virtuals := by
  cases h with
  | @read window i o w isPhysical =>
    rw [after_read]
    split
    · rfl
    cases window with
    | distributor => rfl
    | cpuInterface =>
      simp only [readWindow]
      split <;> rfl
    | vifControl => exact absurd (.inl rfl) isPhysical
    | vcpuInterface => exact absurd (.inr rfl) isPhysical
  | @write window i o v w isPhysical =>
    rw [after_write]
    split
    · rfl
    cases window with
    | distributor =>
      simp only [writeWindow, Traced.value_bind]
      split <;> rfl
    | cpuInterface =>
      simp only [writeWindow]
      split <;> rfl
    | vifControl => exact absurd (.inl rfl) isPhysical
    | vcpuInterface => exact absurd (.inr rfl) isPhysical
  | ppi cpu index level => exact virtuals_drivePpi g cpu index level
  | spi index level => exact virtuals_driveSpi g index level
  | request r => exact virtuals_handle g r

/-- In every reachable state an access to the virtual half changes nothing in the physical half,
unless it completes a virtual interrupt that a physical one with an input backs: then that one is
ended, and nothing else changes there. What is done to the physical half changes no virtual half. -/
theorem guest_reaches_backing_only (hv : cfg.validate = .ok ()) {g : Controller cfg}
    (hg : Reachable g) :
    (∀ cpu a, GuestAccess cfg cpu a →
      (∀ irq, EndsBacking g cpu irq a → Ended g.physical (g.after a).physical cpu irq) ∧
      ((∀ irq, ¬ EndsBacking g cpu irq a) → (g.after a).physical = g.physical)) ∧
    ∀ a, HostAction a → (g.after a).virtuals = g.virtuals := by
  obtain ⟨-, hmax, hirqs⟩ := Config.bounds_of_validate hv
  refine ⟨fun cpu a ha => ⟨fun irq hends => ?_, fun hnone => ?_⟩, fun a ha => ?_⟩
  · rw [physical_after_guest g ha, (endsBacking_iff ha irq).mp hends]
    obtain ⟨-, -, -, -, -, -, high⟩ := hends
    exact ended_endFor hg.shaped hmax hirqs cpu (Nat.lt_of_lt_of_le high hirqs)
  · have hended : g.ended? a = none :=
      Option.eq_none_iff_forall_ne_some.mpr fun irq h => hnone irq ((endsBacking_iff ha irq).mpr h)
    rw [physical_after_guest g ha, hended, endFor]
  · exact virtuals_after_host g ha

/-- The CPU runs shared interrupt 32 and has given it to its guest as interrupt 40, which the guest
completes. -/
theorem guest_reaches_backing_only_shared :
    let g := (powerOn Config.standard).run
      [.write .distributor (.cpu 0) 0x000 1 .word, .write .cpuInterface (.cpu 0) 0x00 1 .word,
        .write .cpuInterface (.cpu 0) 0x04 0xf0 .word, .write .distributor (.cpu 0) 0x104 1 .word,
        .write .distributor (.cpu 0) 0x820 1 .byte, .spi 0 true,
        .read .cpuInterface (.cpu 0) 0x0c .word,
        .write .vifControl (.cpu 0) 0x100 0x90008028 .word]
    let completion : Action := .write .vcpuInterface (.cpu 0) 0x10 40 .word
    let acknowledge : Action := .read .vcpuInterface (.cpu 0) 0x0c .word
    Config.standard.validate = .ok () ∧ Reachable g ∧ EndsBacking g 0 32 completion ∧
      Ended g.physical (g.after completion).physical 0 32 ∧
      (g.after acknowledge).physical = g.physical ∧
      (g.after (.spi 0 false)).virtuals = g.virtuals := by
  intro g completion acknowledge
  have hg : Reachable g := reachable_run _
  have hcompletion : GuestAccess Config.standard 0 completion := .write (.inr rfl) rfl
  have hacknowledge : GuestAccess Config.standard 0 acknowledge := .read (.inr rfl) rfl
  have hends : EndsBacking g 0 32 completion :=
    (endsBacking_iff hcompletion 32).mpr (by decide +kernel)
  have hquiet : ∀ irq, ¬ EndsBacking g 0 irq acknowledge := by
    intro irq h
    unfold acknowledge at h
    cases h
  obtain ⟨hguest, hhost⟩ := guest_reaches_backing_only (by decide) hg
  exact ⟨by decide, hg, hends, (hguest 0 completion hcompletion).1 32 hends,
    (hguest 0 acknowledge hacknowledge).2 hquiet, hhost _ (.spi 0 false)⟩

end Controller

end Gic
