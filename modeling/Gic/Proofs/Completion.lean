import Gic.Proofs.ActionLines
import Gic.Proofs.Nesting

/-!
# What a completion does

A CPU may complete its interrupts in any order, and may name one that it does
not run: one of another CPU, one that is not connected, one whose active flag
was cleared and that was acknowledged a second time since. Which entry leaves
the stack, which priority is the running one then and whose flags are cleared
depends on all of the stack and on how many instances the interrupt has. This
module says everything that a completion changes, and when it changes nothing.

## The model

* `TakesOut irq old new` — the innermost entry of an interrupt leaves a stack.
* `Completes p q cpu irq` — the physical half goes from `p` to `q` as a CPU
  completes an interrupt, said for each part of it.

## What is proved

* `completes_of_runs` — the completion of an interrupt that the CPU runs.
* `complete_of_idle` — the completion of anything else is a no-op.
* `completion_takes_out_one` — both, as a write to the completion register does
  them; and that it undoes an acknowledge, as far as the stack is concerned.
-/

namespace Gic

namespace CpuInterface

/-- The innermost entry of an interrupt is taken out of a stack, and the others stay in order. -/
inductive TakesOut (irq : Nat) : List RunningIrq → List RunningIrq → Prop where
  /-- The entries are those inside of it, itself, and those outside of it. -/
  | mk {inner outer : List RunningIrq} {ended : RunningIrq} (names : ended.irq = irq)
      (innermost : ∀ r ∈ inner, r.irq ≠ irq) :
      TakesOut irq (inner ++ ended :: outer) (inner ++ outer)

/-- An interrupt that is on the stack of an interface is taken out of it. -/
theorem takesOut_drop {i : CpuInterface} {irq : Nat} (h : ∃ r ∈ i.stack, r.irq = irq) :
    TakesOut irq i.stack (i.drop irq).stack := by
  obtain ⟨r, hr, hirq⟩ := h
  obtain ⟨ended, inner, outer, hinner, hended, hold, hnew⟩ :=
    List.exists_of_eraseP (p := fun r => r.irq == irq) hr (beq_iff_eq.mpr hirq)
  have hdrop : (i.drop irq).stack = inner ++ outer := hnew
  rw [hdrop, hold]
  refine .mk (beq_iff_eq.mp hended) fun r hr heq => ?_
  exact hinner r hr (beq_iff_eq.mpr heq)

/-- What was just put on a stack is what is taken out of it. -/
theorem TakesOut.eq_of_top {irq : Nat} {top : RunningIrq} {rest new : List RunningIrq}
    (h : TakesOut irq (top :: rest) new) (htop : top.irq = irq) : new = rest := by
  generalize hold : top :: rest = old at h
  obtain ⟨-, innermost⟩ := h
  rename_i inner outer ended
  cases inner with
  | nil =>
    rw [List.nil_append] at hold
    exact (List.cons.inj hold).2.symm
  | cons first _ =>
    obtain ⟨rfl, -⟩ := List.cons.inj hold
    exact absurd htop (innermost _ List.mem_cons_self)

end CpuInterface

namespace Physical

variable {cfg : Config}

open CpuInterface

/-- The CPU `cpu` completes the interrupt `irq`. -/
structure Completes (p q : Physical cfg) (cpu irq : Nat) : Prop where
  /-- The interrupt is neither active nor signaled any more: for this CPU if it is private, for
  every CPU if it is shared. -/
  flags : q.irqs.row irq = { p.irqs.row irq with
    active := (p.irqs.row irq).active.assign (view irq cpu) false
    signaled := (p.irqs.row irq).signaled.assign (view irq cpu) false }
  /-- The other interrupts stay as they are. -/
  others : ∀ i, i ≠ irq → q.irqs.row i = p.irqs.row i
  /-- The distributor does not change. -/
  distributor : q.distributor = p.distributor
  /-- The innermost entry of the interrupt leaves the stack of the CPU. -/
  stack : TakesOut irq (p.cpus.row cpu).stack (q.cpus.row cpu).stack
  /-- What is then innermost sets the running priority, and the interface does not change
  otherwise, except that it is decided anew. -/
  own : (q.cpus.row cpu).undecided = { (p.cpus.row cpu).undecided with
    stack := (q.cpus.row cpu).stack
    running := topPriority (q.cpus.row cpu).stack }
  /-- The other interfaces are decided anew, and do not change otherwise. -/
  interfaces : ∀ c, c ≠ cpu → (q.cpus.row c).undecided = (p.cpus.row c).undecided
  /-- Every CPU is shown what follows from the state as it is then. -/
  current : ∀ c < cfg.cpus, q.Current c

/-- The physical half after a CPU has completed an interrupt that it runs. -/
def completed (p : Physical cfg) (cpu irq : Nat) : Physical cfg :=
  ((p.alterCpu cpu fun i => i.drop irq).deactivate cpu irq).arbitrate.value

theorem undecided_completed (p : Physical cfg) (cpu irq c : Nat) :
    ((p.completed cpu irq).cpus.row c).undecided =
      (if cpu = c ∧ c < cfg.cpus then (p.cpus.row c).drop irq else p.cpus.row c).undecided := by
  rw [completed, undecided_arbitrate, deactivate, alterIrq_cpus, row_alterCpu]

theorem stack_completed (p : Physical cfg) {cpu : Nat} (irq : Nat) (hc : cpu < cfg.cpus) :
    ((p.completed cpu irq).cpus.row cpu).stack = ((p.cpus.row cpu).drop irq).stack := by
  have h := congrArg CpuInterface.stack (undecided_completed p cpu irq cpu)
  rw [if_pos ⟨rfl, hc⟩] at h
  exact h

/-- Completing an interrupt that the CPU runs takes it off the stack and clears its flags. -/
theorem completes_of_runs {p : Physical cfg} (hp : Shaped p) (hmax : cfg.cpus ≤ maxCpus)
    (hn : cfg.numIrqs ≤ maxIrqs) {cpu irq : Nat} (hc : cpu < cfg.cpus) (hirq : irq < maxIrqs)
    (hruns : p.Runs cpu irq) : Completes p (p.completed cpu irq) cpu irq where
  flags := by
    have hscope := hp.scope_eq hirq cpu
    show ((p.alterCpu cpu fun i => i.drop irq).deactivate cpu irq).irqs.row irq = _
    rw [deactivate, row_alterIrq, if_pos ⟨rfl, hirq⟩, alterCpu_irqs, IrqState.complete, hscope]
    rfl
  others i hi := by
    show ((p.alterCpu cpu fun i => i.drop irq).deactivate cpu irq).irqs.row i = _
    rw [deactivate, row_alterIrq_of_ne _ (Ne.symm hi), alterCpu_irqs]
  distributor := rfl
  stack := by
    rw [stack_completed p irq hc]
    exact takesOut_drop hruns
  own := by
    rw [stack_completed p irq hc, undecided_completed, if_pos ⟨rfl, hc⟩]
    rfl
  interfaces c hne := by rw [undecided_completed, if_neg fun h => hne h.1.symm]
  current c hc := (settled_arbitrate _).current hn hc (Nat.lt_of_lt_of_le hc hmax)

/-- The running priority after a completion is that of the entry that is innermost then. -/
theorem Completes.running {p q : Physical cfg} {cpu irq : Nat} (h : Completes p q cpu irq) :
    (q.cpus.row cpu).running = topPriority (q.cpus.row cpu).stack :=
  congrArg CpuInterface.running h.own

/-- An interrupt that is started is innermost on the stack. -/
theorem Starts.stack {p q : Physical cfg} {cpu irq source : Nat} (h : Starts p q cpu irq source) :
    (q.cpus.row cpu).stack = ⟨irq, p.priority cpu irq⟩ :: (p.cpus.row cpu).stack :=
  congrArg CpuInterface.stack h.own

theorem Starts.runs {p q : Physical cfg} {cpu irq source : Nat} (h : Starts p q cpu irq source) :
    q.Runs cpu irq := by
  refine ⟨⟨irq, p.priority cpu irq⟩, ?_, rfl⟩
  rw [h.stack]
  exact List.mem_cons_self

/-- A completion of the interrupt that was acknowledged last restores the stack and the running
priority, if the latter was that of the innermost entry. -/
theorem Completes.restores {p q r : Physical cfg} {cpu irq source : Nat}
    (hstarts : Starts p q cpu irq source) (hcompletes : Completes q r cpu irq)
    (hrunning : (p.cpus.row cpu).running = topPriority (p.cpus.row cpu).stack) :
    (r.cpus.row cpu).stack = (p.cpus.row cpu).stack ∧
      (r.cpus.row cpu).running = (p.cpus.row cpu).running := by
  have hout := hcompletes.stack
  rw [hstarts.stack] at hout
  have hstack := hout.eq_of_top rfl
  exact ⟨hstack, by rw [hcompletes.running, hstack, hrunning]⟩

theorem complete_of_runs {p : Physical cfg} {cpu irq : Nat} {value : Word}
    (hvalue : value.field 0 10 = irq) (hirq : irq < cfg.numIrqs) (hruns : p.Runs cpu irq) :
    (p.complete cpu value).value = p.completed cpu irq := by
  subst hvalue
  have hrunning := (CpuInterface.isRunning_iff _ _).mpr ((runs_iff p cpu _).mp hruns)
  rw [complete_value, if_pos ⟨hirq, hrunning⟩]
  rfl

/-- Completing what is not connected, or what the CPU does not run, changes nothing. -/
theorem complete_of_idle {p : Physical cfg} {cpu irq : Nat} {value : Word}
    (hvalue : value.field 0 10 = irq) (hidle : ¬ (irq < cfg.numIrqs ∧ p.Runs cpu irq)) :
    (p.complete cpu value).value = p := by
  subst hvalue
  rw [complete_value, if_neg]
  rintro ⟨hirq, hrunning⟩
  exact hidle ⟨hirq, (runs_iff p cpu _).mpr ((CpuInterface.isRunning_iff _ _).mp hrunning)⟩

end Physical

namespace Controller

variable {cfg : Config}

open Physical

/-- The interrupt that a write to the completion register names. -/
theorem field_of_written (value : BitVec 64) :
    Word.field (value.setWidth 32) 0 10 = value.toNat % 1024 := by
  rw [Word.field, BitVec.extractLsb'_toNat, BitVec.toNat_setWidth, Nat.shiftRight_zero]
  exact Nat.mod_mod_of_dvd _ (by decide)

/-- What a write to the completion register answers and leaves. -/
theorem write_completion (g : Controller cfg) (i : Initiator) (value : BitVec 64) :
    (g.write .cpuInterface i 0x10 value .word).value =
      (.ok (), { g with physical :=
        (g.physical.complete (cpuOf cfg i) (value.setWidth 32)).value }) := rfl

/-- A write to the completion register publishes the lines that the completion changes. -/
theorem changes_write_completion (g : Controller cfg) (i : Initiator) (value : BitVec 64) :
    (g.write .cpuInterface i 0x10 value .word).changes =
      lineChanges g (g.write .cpuInterface i 0x10 value .word).value.2 := by
  rw [changes_write]
  exact changes_writeWindow_all g .cpuInterface _ 0x10 _ .word

/-- A CPU completes an interrupt that it runs. -/
theorem write_completion_of_runs (hv : cfg.validate = .ok ()) {g : Controller cfg}
    (hg : Reachable g) (i : Initiator) (value : BitVec 64)
    (hirq : value.toNat % 1024 < cfg.numIrqs)
    (hruns : g.physical.Runs (cpuOf cfg i) (value.toNat % 1024)) :
    let reply := (g.write .cpuInterface i 0x10 value .word).value
    reply.1 = .ok () ∧ reply.2.virtuals = g.virtuals ∧
      Completes g.physical reply.2.physical (cpuOf cfg i) (value.toNat % 1024) := by
  intro reply
  obtain ⟨hpos, hmax, hirqs⟩ := Config.bounds_of_validate hv
  have hc := cpuOf_lt hpos i
  have hreply : reply = _ := write_completion g i value
  rw [complete_of_runs (field_of_written value) hirq hruns] at hreply
  rw [hreply]
  refine ⟨rfl, rfl, ?_⟩
  exact completes_of_runs hg.shaped hmax hirqs hc (Nat.lt_of_lt_of_le hirq hirqs) hruns

/-- An acknowledge by a CPU whose line is high starts an interrupt and names it. -/
theorem read_acknowledge_of_line (hv : cfg.validate = .ok ()) {g : Controller cfg}
    (hg : Reachable g) (i : Initiator) (hline : g.line (cpuOf cfg i) .irq = true) :
    let reply := (g.read .cpuInterface i 0x0c .word).value
    ∃ irq < cfg.numIrqs, ∃ source, ∃ answer : Word, reply.1 = .ok answer ∧
      answer.toNat % 1024 = irq ∧
      Starts g.physical reply.2.physical (cpuOf cfg i) irq source := by
  intro reply
  obtain ⟨hpos, hmax, hirqs⟩ := Config.bounds_of_validate hv
  have hc := cpuOf_lt hpos i
  have hallowed : ¬ Refuses g.physical (cpuOf cfg i) := by
    rw [refuses_iff_line_low (hg.current hv hc)]
    exact fun hlow => Bool.noConfusion (hlow.symm.trans hline)
  have hreply : reply = _ := read_acknowledge g i
  rw [acknowledge_of_allowed hallowed] at hreply
  generalize hirq : (g.physical.cpus.row (cpuOf cfg i)).highestPending = irq at hreply
  have hne : irq ≠ spurious := fun h => hallowed (.inl (hirq.trans h))
  obtain ⟨hconnected, source, hs, hlowest, -, htag⟩ := pendingTag_of_shown hv hg hc hirq hne
  have hbound := Nat.lt_of_lt_of_le hconnected hirqs
  refine ⟨irq, hconnected, source, g.physical.pendingTag (cpuOf cfg i), ?_, ?_, ?_⟩
  · rw [hreply]
  · have hsmall : irq < 1024 := Nat.lt_trans hbound (by decide)
    rw [htag, toNat_answer hs hsmall]
    omega
  · rw [hreply]
    refine starts_take hg.shaped hmax hirqs hc hbound fun hsgi => ?_
    rw [firstSource, hlowest hsgi, Option.getD_some]

/-- In every reachable state, a CPU that completes a connected interrupt on its stack takes the
innermost entry of it out, so that the running priority is that of what is innermost then; its
active and signaled flags are cleared, what the CPUs are shown is decided anew, and nothing else
changes. A completion of anything else changes nothing. What was acknowledged as the line was high
is completed so that the stack and the running priority are as before. -/
theorem completion_takes_out_one (hv : cfg.validate = .ok ()) {g : Controller cfg}
    (hg : Reachable g) {i : Initiator} {cpu : Nat} (hi : cpuOf cfg i = cpu) (value : BitVec 64) :
    let irq := value.toNat % 1024
    let write := g.write .cpuInterface i 0x10 value .word
    (irq < cfg.numIrqs ∧ g.physical.Runs cpu irq →
      write.value.1 = .ok () ∧ write.value.2.virtuals = g.virtuals ∧
      Completes g.physical write.value.2.physical cpu irq ∧
      write.changes = lineChanges g write.value.2) ∧
    (¬ (irq < cfg.numIrqs ∧ g.physical.Runs cpu irq) →
      write.value = (.ok (), g) ∧ write.changes = []) ∧
    (g.line cpu .irq = true →
      let read := (g.read .cpuInterface i 0x0c .word).value
      ∃ answer, read.1 = .ok answer ∧
        ∀ j, cpuOf cfg j = cpu →
          let after := (read.2.write .cpuInterface j 0x10 (answer.setWidth 64) .word).value.2
          (after.physical.cpus.row cpu).stack = (g.physical.cpus.row cpu).stack ∧
            (after.physical.cpus.row cpu).running = (g.physical.cpus.row cpu).running) := by
  intro irq write
  subst hi
  refine ⟨?_, ?_, ?_⟩
  · rintro ⟨hirq, hruns⟩
    obtain ⟨hanswer, hvirtuals, hcompletes⟩ := write_completion_of_runs hv hg i value hirq hruns
    exact ⟨hanswer, hvirtuals, hcompletes, changes_write_completion g i value⟩
  · intro hidle
    have hvalue : write.value = (.ok (), g) := by
      show (g.write .cpuInterface i 0x10 value .word).value = _
      rw [write_completion, complete_of_idle (field_of_written value) hidle]
    refine ⟨hvalue, ?_⟩
    show (g.write .cpuInterface i 0x10 value .word).changes = []
    rw [changes_write_completion]
    show lineChanges g write.value.2 = []
    rw [hvalue]
    exact lineChanges_self g
  · intro hline read
    obtain ⟨started, hconnected, source, answer, hanswer, hnames, hstarts⟩ :=
      read_acknowledge_of_line hv hg i hline
    refine ⟨answer, hanswer, ?_⟩
    intro j hj after
    have hread : Reachable read.2 := hg.after (.read .cpuInterface i 0x0c .word)
    have hwritten : (answer.setWidth 64).toNat % 1024 = started := by
      rw [BitVec.toNat_setWidth_of_le (by decide), hnames]
    have hruns : read.2.physical.Runs (cpuOf cfg i) started := hstarts.runs
    subst hwritten
    rw [← hj] at hruns
    obtain ⟨-, -, hcompletes⟩ := write_completion_of_runs hv hread j _ hconnected hruns
    rw [hj] at hcompletes
    exact hcompletes.restores hstarts (hg.nested hv _).running

/-- CPU 0 runs private interrupt 16, which has preempted shared interrupt 32, and completes 32
first. CPU 1 does not run 32, and has an interrupt 16 of its own to acknowledge. -/
theorem completion_takes_out_one_out_of_order :
    let cfg : Config := { Config.standard with cpus := 2 }
    let g := (powerOn cfg).run
      [.write .distributor (.cpu 0) 0x000 1 .word, .write .cpuInterface (.cpu 0) 0x00 1 .word,
        .write .cpuInterface (.cpu 0) 0x04 0xf0 .word, .write .cpuInterface (.cpu 1) 0x00 1 .word,
        .write .cpuInterface (.cpu 1) 0x04 0xf0 .word,
        .write .distributor (.cpu 0) 0x100 0x10000 .word,
        .write .distributor (.cpu 1) 0x100 0x10000 .word,
        .write .distributor (.cpu 0) 0x104 1 .word, .write .distributor (.cpu 0) 0x420 0x40 .byte,
        .write .distributor (.cpu 0) 0x820 1 .byte, .spi 0 true,
        .read .cpuInterface (.cpu 0) 0x0c .word, .ppi 0 0 true,
        .read .cpuInterface (.cpu 0) 0x0c .word, .ppi 1 0 true]
    let completion := fun cpu => (g.write .cpuInterface (.cpu cpu) 0x10 32 .word).value
    cfg.validate = .ok () ∧ Reachable g ∧
      (g.physical.cpus.row 0).stack = [⟨16, 0⟩, ⟨32, 0x40⟩] ∧
      Completes g.physical (completion 0).2.physical 0 32 ∧ completion 1 = (.ok (), g) ∧
      ∃ answer, (g.read .cpuInterface (.cpu 1) 0x0c .word).value.1 = .ok answer := by
  intro cfg g completion
  have hv : cfg.validate = .ok () := by decide
  have hg : Reachable g := reachable_run _
  obtain ⟨hstack, hother, hline⟩ : (g.physical.cpus.row 0).stack = [⟨16, 0⟩, ⟨32, 0x40⟩] ∧
      (g.physical.cpus.row 1).stack = [] ∧ g.line 1 .irq = true := by decide +kernel
  have hzero : cpuOf cfg (.cpu 0) = 0 := by decide
  have hone : cpuOf cfg (.cpu 1) = 1 := by decide
  have hruns : g.physical.Runs 0 32 := by
    refine ⟨⟨32, 0x40⟩, ?_, rfl⟩
    rw [hstack]
    exact List.mem_cons_of_mem _ List.mem_cons_self
  have hidle : ¬ g.physical.Runs 1 32 := by
    rintro ⟨r, hr, -⟩
    rw [hother] at hr
    exact absurd hr List.not_mem_nil
  obtain ⟨hends, -, -⟩ := completion_takes_out_one hv hg hzero 32#64
  obtain ⟨-, hnothing, hround⟩ := completion_takes_out_one hv hg hone 32#64
  obtain ⟨answer, hanswer, -⟩ := hround hline
  exact ⟨hv, hg, hstack, (hends ⟨by decide, hruns⟩).2.2.1,
    (hnothing fun h => hidle h.2).1, answer, hanswer⟩

end Controller

end Gic
