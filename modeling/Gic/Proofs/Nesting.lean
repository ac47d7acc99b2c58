import Gic.Proofs.Ownership

/-!
# Preemption is strict

A CPU acknowledges an interrupt while it is running another one, completes them
in any order, and meanwhile the priorities of both may be rewritten and their
active flags cleared. What is on its stack stays ordered through all of that,
since an acknowledge compares with the priority that the running interrupt had
when it was acknowledged, and a completion only takes an entry out.

## The model

* `Restacks` — what an action can do with the stack of a CPU: nothing, put a
  candidate on it that is more urgent than what is running, take an entry out,
  or empty it.
* `Nested` — the stack is ordered, nothing on it is idle or unconnected, and the
  running priority is that of its innermost entry.

## What is proved

* `Moves.restacks` — every operation does one of these things.
* `Reachable.nested` — the stack of every CPU is nested in every reachable
  state, so it holds at most 255 entries (`length_le_of_nested`).
-/

namespace Gic

namespace CpuInterface

/-! ### Nested stacks -/

/-- A stack on which every interrupt has preempted the one below it. -/
structure Nested (irqs : Nat) (i : CpuInterface) : Prop where
  /-- From the innermost entry to the outermost one the priorities get less urgent. -/
  ordered : (i.stack.map RunningIrq.priority).Pairwise (· < ·)
  /-- Nothing was acknowledged at the idle priority. -/
  urgent : ∀ r ∈ i.stack, r.priority < idle
  /-- Only connected interrupts are on the stack. -/
  connected : ∀ r ∈ i.stack, r.irq < irqs
  /-- The running priority is the one that the innermost entry was acknowledged with. -/
  running : i.running = topPriority i.stack

theorem nested_powerOn (irqs : Nat) : Nested irqs powerOn where
  ordered := List.Pairwise.nil
  urgent _ h := absurd h List.not_mem_nil
  connected _ h := absurd h List.not_mem_nil
  running := rfl

/-- The innermost entry is the most urgent one. -/
theorem topPriority_le {irqs : Nat} {i : CpuInterface} (h : Nested irqs i) {r : RunningIrq}
    (hr : r ∈ i.stack) : topPriority i.stack ≤ r.priority := by
  have hordered := h.ordered
  cases hstack : i.stack with
  | nil =>
    rw [hstack] at hr
    exact absurd hr List.not_mem_nil
  | cons top rest =>
    rw [hstack] at hr hordered
    rw [List.map_cons, List.pairwise_cons] at hordered
    rcases List.mem_cons.mp hr with rfl | hrest
    · exact BitVec.le_refl _
    · exact BitVec.le_of_lt (hordered.1 _ (List.mem_map_of_mem hrest))

/-- Every entry takes at least one level of its own, below those of the entries under it. -/
theorem length_add_topPriority_le {stack : List RunningIrq}
    (hordered : (stack.map RunningIrq.priority).Pairwise (· < ·))
    (hurgent : ∀ r ∈ stack, r.priority < idle) :
    stack.length + (topPriority stack).toNat ≤ 255 := by
  induction stack with
  | nil => decide
  | cons top rest ih =>
    rw [List.map_cons, List.pairwise_cons] at hordered
    have hrest := ih hordered.2 fun r hr => hurgent r (List.mem_cons_of_mem top hr)
    have hless : top.priority < topPriority rest := by
      cases rest with
      | nil => exact hurgent top List.mem_cons_self
      | cons next _ => exact hordered.1 _ List.mem_cons_self
    have hless : top.priority.toNat < (topPriority rest).toNat := hless
    simp only [List.length_cons, topPriority]
    omega

theorem length_le_of_nested {irqs : Nat} {i : CpuInterface} (h : Nested irqs i) :
    i.stack.length ≤ 255 :=
  Nat.le_trans (Nat.le_add_right _ _) (length_add_topPriority_le h.ordered h.urgent)

/-- The running priority is idle if and only if nothing is running. -/
theorem running_eq_idle_iff {irqs : Nat} {i : CpuInterface} (h : Nested irqs i) :
    i.running = idle ↔ i.stack = [] := by
  have hurgent := h.urgent
  rw [h.running]
  cases hstack : i.stack with
  | nil => exact iff_of_true rfl rfl
  | cons top rest =>
    rw [hstack] at hurgent
    have hless := hurgent top List.mem_cons_self
    exact iff_of_false (BitVec.ne_of_lt hless) (List.cons_ne_nil _ _)

/-- Starting what is more urgent than the running interrupt keeps the stack nested. -/
theorem Nested.push {irqs : Nat} {i j : CpuInterface} (h : Nested irqs i) {irq : Nat}
    {priority : Priority} (hirq : irq < irqs) (hpreempts : priority < i.running)
    (hstack : j.stack = ⟨irq, priority⟩ :: i.stack) (hrunning : j.running = priority) :
    Nested irqs j where
  ordered := by
    rw [hstack, List.map_cons, List.pairwise_cons]
    refine ⟨fun other hother => ?_, h.ordered⟩
    obtain ⟨r, hr, rfl⟩ := List.mem_map.mp hother
    rw [h.running] at hpreempts
    exact Nat.lt_of_lt_of_le hpreempts (topPriority_le h hr)
  urgent := by
    rw [hstack]
    intro r hr
    rcases List.mem_cons.mp hr with rfl | hrest
    · exact Nat.lt_of_lt_of_le hpreempts (Nat.le_of_lt_succ i.running.isLt)
    · exact h.urgent r hrest
  connected := by
    rw [hstack]
    intro r hr
    rcases List.mem_cons.mp hr with rfl | hrest
    · exact hirq
    · exact h.connected r hrest
  running := by rw [hstack, hrunning]; rfl

/-- Taking entries out keeps the stack nested. -/
theorem Nested.thin {irqs : Nat} {i j : CpuInterface} (h : Nested irqs i)
    (hstack : j.stack.Sublist i.stack) (hrunning : j.running = topPriority j.stack) :
    Nested irqs j where
  ordered := h.ordered.sublist (hstack.map _)
  urgent r hr := h.urgent r (hstack.subset hr)
  connected r hr := h.connected r (hstack.subset hr)
  running := hrunning

end CpuInterface

namespace Physical

open CpuInterface

variable {cfg : Config}

/-! ### What can happen to a stack -/

/-- What an action does with the stack of a CPU. -/
inductive Restacks (p q : Physical cfg) (c : Nat) : Prop where
  /-- Nothing. -/
  | keeps (stack : (q.cpus.row c).stack = (p.cpus.row c).stack)
      (running : (q.cpus.row c).running = (p.cpus.row c).running)
  /-- A candidate that can preempt is put on it, with the priority that it has now. -/
  | pushes {irq : Nat} (candidate : Competes p c irq)
      (preempts : p.priority c irq < (p.cpus.row c).running)
      (stack : (q.cpus.row c).stack = ⟨irq, p.priority c irq⟩ :: (p.cpus.row c).stack)
      (running : (q.cpus.row c).running = p.priority c irq)
  /-- The innermost occurrence of an interrupt is taken out, and what is then innermost is what
  the CPU runs. -/
  | drops {irq : Nat}
      (stack : (q.cpus.row c).stack = (p.cpus.row c).stack.eraseP fun r => r.irq == irq)
      (running : (q.cpus.row c).running = topPriority (q.cpus.row c).stack)
  /-- It is emptied. -/
  | empties (stack : (q.cpus.row c).stack = []) (running : (q.cpus.row c).running = idle)

theorem Restacks.refl (p : Physical cfg) (c : Nat) : Restacks p p c := .keeps rfl rfl

@[simp] theorem running_arbitrate (p : Physical cfg) (c : Nat) :
    (p.arbitrate.value.cpus.row c).running = (p.cpus.row c).running :=
  arbitrate_keeps CpuInterface.running (fun _ _ => rfl) p c

theorem Restacks.arbitrate {p q : Physical cfg} {c : Nat} (h : Restacks p q c) :
    Restacks p q.arbitrate.value c := by
  cases h with
  | keeps stack running =>
    exact .keeps (by rw [stack_arbitrate, stack]) (by rw [running_arbitrate, running])
  | pushes candidate preempts stack running =>
    exact .pushes candidate preempts (by rw [stack_arbitrate, stack])
      (by rw [running_arbitrate, running])
  | drops stack running =>
    exact .drops (by rw [stack_arbitrate, stack])
      (by rw [running_arbitrate, stack_arbitrate, running])
  | empties stack running =>
    exact .empties (by rw [stack_arbitrate, stack]) (by rw [running_arbitrate, running])

theorem restacks_of_cpus {p q : Physical cfg} (h : q.cpus = p.cpus) (c : Nat) :
    Restacks p q c := by
  exact .keeps (by rw [h]) (by rw [h])

theorem restacks_arbitrateIf {p : Physical cfg} {w : Written cfg} (h : w.state.cpus = p.cpus)
    (c : Nat) : Restacks p (arbitrateIf w).value c := by
  unfold arbitrateIf
  split
  · exact (restacks_of_cpus h c).arbitrate
  · exact restacks_of_cpus h c

/-- Setting a register that is no part of the stack. -/
theorem restacks_alterCpu (p : Physical cfg) (cpu c : Nat) {f : CpuInterface → CpuInterface}
    (hs : ∀ i, (f i).stack = i.stack) (hr : ∀ i, (f i).running = i.running) :
    Restacks p (p.alterCpu cpu f) c :=
  .keeps (alterCpu_keeps _ hs p cpu c) (alterCpu_keeps _ hr p cpu c)

theorem restacks_start {p : Physical cfg} {cpu irq : Nat} (candidate : Competes p cpu irq)
    (preempts : p.priority cpu irq < (p.cpus.row cpu).running) (c : Nat) :
    Restacks p ((p.take cpu irq).start cpu irq (p.priority cpu irq)) c := by
  have hrow := row_alterCpu ((p.take cpu irq).alterIrq irq fun r => r.acknowledge cpu) cpu
    (fun i => i.push irq (p.priority cpu irq)) c
  rw [alterIrq_cpus, cpus_take] at hrow
  split at hrow
  · rename_i hc
    obtain ⟨rfl, -⟩ := hc
    exact .pushes candidate preempts (congrArg CpuInterface.stack hrow)
      (congrArg CpuInterface.running hrow)
  · exact .keeps (congrArg CpuInterface.stack hrow) (congrArg CpuInterface.running hrow)

theorem restacks_acknowledge {p : Physical cfg} (hp : Settled p) (hn : cfg.numIrqs ≤ maxIrqs)
    {cpu : Nat} (hcpu : cpu < cfg.cpus) (hm : cpu < maxCpus) (c : Nat) :
    Restacks p (p.acknowledge cpu).value.2 c := by
  rw [acknowledge_value]
  split
  · exact .refl p c
  · rename_i hallowed
    obtain ⟨hshown, hpreempts⟩ := not_or.mp hallowed
    have hcandidate := hp.competes hn hcpu hm hshown
    exact (restacks_start hcandidate (BitVec.not_le.mp hpreempts) c).arbitrate

theorem restacks_complete (p : Physical cfg) (cpu : Nat) (value : Word) (c : Nat) :
    Restacks p (p.complete cpu value).value c := by
  rw [complete_value]
  split
  · refine Restacks.arbitrate ?_
    have hrow := row_alterCpu p cpu (fun i => i.drop (value.field 0 10)) c
    split at hrow
    · have hstack := congrArg CpuInterface.stack hrow
      have hrunning := congrArg CpuInterface.running hrow
      exact .drops hstack (hrunning.trans (congrArg topPriority hstack.symm))
    · exact .keeps (congrArg CpuInterface.stack hrow) (congrArg CpuInterface.running hrow)
  · exact .refl p c

theorem restacks_writeCpuInterface (p : Physical cfg) (cpu : Nat) (register : CpuRegister)
    (value : Word) (c : Nat) : Restacks p (p.writeCpuInterface cpu register value).value c := by
  cases register with
  | control =>
    exact (restacks_alterCpu p cpu c (f := fun i => { i with enables := .ofWord value })
      (fun _ => rfl) fun _ => rfl).arbitrate
  | priorityMask =>
    exact (restacks_alterCpu p cpu c (f := fun i => { i with priorityMask := value.setWidth 8 })
      (fun _ => rfl) fun _ => rfl).arbitrate
  | binaryPoint | aliasPoint | deactivation =>
    exact restacks_alterCpu p cpu c (fun _ => rfl) fun _ => rfl
  | completion => exact restacks_complete p cpu value c
  | activePriorities n =>
    cases n with
    | zero => exact restacks_alterCpu p cpu c (fun _ => rfl) fun _ => rfl
    | succ n => exact .refl p c
  | _ => exact .refl p c

theorem row_powerOn (cfg : Config) (c : Nat) : (powerOn cfg).cpus.row c = .powerOn := by
  simp only [powerOn, Table.row_replicate]
  split <;> rfl

/-- What can happen to a stack keeps it nested. -/
theorem Restacks.nested {p q : Physical cfg} {c : Nat} (h : Restacks p q c)
    (hp : (p.cpus.row c).Nested cfg.numIrqs) : (q.cpus.row c).Nested cfg.numIrqs := by
  cases h with
  | keeps stack running =>
    refine hp.thin (stack ▸ .refl _) ?_
    rw [running, stack, hp.running]
  | pushes candidate preempts stack running =>
    exact hp.push candidate.connected preempts stack running
  | drops stack running =>
    refine hp.thin ?_ running
    rw [stack]
    exact List.eraseP_sublist
  | empties stack running =>
    refine hp.thin ?_ ?_
    · rw [stack]
      exact List.nil_sublist _
    · rw [running, stack]
      rfl

end Physical

namespace Controller

variable {cfg : Config}

open CpuInterface Physical

/-- Every rule does with the stack of a CPU one of the things that can be done with it. -/
theorem Moves.restacks (hpos : 0 < cfg.cpus) (hmax : cfg.cpus ≤ maxCpus)
    (hn : cfg.numIrqs ≤ maxIrqs) {g : Controller cfg} {a : Action} {p : Physical cfg}
    (h : Moves g a p) (hsettled : Settled g.physical) (c : Nat) : Restacks g.physical p c := by
  cases h with
  | stays => exact .refl _ c
  | distributorWord => exact restacks_arbitrateIf (cpus_writeWord _ _ _ _) c
  | distributorBytes =>
    refine restacks_arbitrateIf ?_ c
    exact writeBytes_induct (P := fun p => p.cpus = g.physical.cpus)
      (fun p _ _ h => (cpus_writeByte p _ _ _).trans h) rfl _ _
  | distributorByte => exact restacks_arbitrateIf (cpus_writeByte _ _ _ _) c
  | @acknowledges i =>
    have hi := cpuOf_lt hpos i
    exact restacks_acknowledge hsettled hn hi (Nat.lt_of_lt_of_le hi hmax) c
  | interfaceWrite => exact restacks_writeCpuInterface _ _ _ _ c
  | backingEnds | ppiDriven | spiDriven | overdriven =>
    exact (restacks_of_cpus (alterIrq_cpus g.physical _ _) c).arbitrate
  | arbitrates => exact (Restacks.refl _ c).arbitrate
  | powersOn => exact .empties (by rw [row_powerOn]; rfl) (by rw [row_powerOn]; rfl)

/-- In every reachable state the stack of every CPU is nested. -/
theorem Reachable.nested (hv : cfg.validate = .ok ()) {g : Controller cfg} (h : Reachable g)
    (c : Nat) : (g.physical.cpus.row c).Nested cfg.numIrqs := by
  obtain ⟨hpos, hmax, hn⟩ := Config.bounds_of_validate hv
  refine h.induct (P := fun g => (g.physical.cpus.row c).Nested cfg.numIrqs) ?_ ?_
  · show ((Physical.powerOn cfg).cpus.row c).Nested cfg.numIrqs
    rw [row_powerOn]
    exact nested_powerOn _
  · intro g a hg hnested
    exact ((moves_after g a).restacks hpos hmax hn hg.settled c).nested hnested

/-- In every reachable state, the priorities on the stack of a CPU decrease strictly from the
outermost entry to the innermost one and none is idle, so there are at most 255; the running
priority is the one recorded for the innermost entry, and idle if and only if there is none; and
only connected interrupts are on the stack. -/
theorem preemption_is_strict (hv : cfg.validate = .ok ()) {g : Controller cfg} (hg : Reachable g)
    (cpu : Nat) :
    let i := g.physical.cpus.row cpu
    (i.stack.reverse.map RunningIrq.priority).Pairwise (· > ·) ∧
      (∀ r ∈ i.stack, r.priority < idle) ∧
      i.stack.length ≤ 255 ∧
      (∀ innermost rest, i.stack = innermost :: rest → i.running = innermost.priority) ∧
      (i.running = idle ↔ i.stack = []) ∧
      ∀ r ∈ i.stack, r.irq < cfg.numIrqs := by
  intro i
  have h : i.Nested cfg.numIrqs := hg.nested hv cpu
  refine ⟨?_, h.urgent, length_le_of_nested h, ?_, running_eq_idle_iff h, h.connected⟩
  · rw [List.map_reverse, List.pairwise_reverse]
    exact h.ordered
  · intro innermost rest hstack
    rw [h.running, hstack]
    rfl

/-- Private interrupt 17 preempts 16. Then their priorities are rewritten and their active flags
cleared, 17 is acknowledged once more, and 16 is completed from under both. -/
theorem preemption_is_strict_out_of_order :
    let g := (powerOn Config.standard).run
      [.write .distributor (.cpu 0) 0x000 1 .word, .write .cpuInterface (.cpu 0) 0x00 1 .word,
        .write .cpuInterface (.cpu 0) 0x04 0xff .word,
        .write .distributor (.cpu 0) 0x410 0x4080 .word,
        .write .distributor (.cpu 0) 0x100 0x30000 .word, .ppi 0 0 true,
        .read .cpuInterface (.cpu 0) 0x0c .word, .ppi 0 1 true,
        .read .cpuInterface (.cpu 0) 0x0c .word,
        .write .distributor (.cpu 0) 0x410 0x2090 .word,
        .write .distributor (.cpu 0) 0x380 0x30000 .word, .ppi 0 1 false, .ppi 0 1 true,
        .read .cpuInterface (.cpu 0) 0x0c .word, .write .cpuInterface (.cpu 0) 0x10 16 .word]
    let i := g.physical.cpus.row 0
    (Config.standard.validate = .ok () ∧ Reachable g ∧ i.stack = [⟨17, 0x20⟩, ⟨17, 0x40⟩]) ∧
      (i.stack.reverse.map RunningIrq.priority).Pairwise (· > ·) ∧ i.stack.length ≤ 255 ∧
      (i.running = idle ↔ i.stack = []) :=
  have h := preemption_is_strict rfl (reachable_run _) 0
  ⟨⟨rfl, reachable_run _, by decide +kernel⟩, h.1, h.2.2.1, h.2.2.2.2.1⟩

end Controller

end Gic
