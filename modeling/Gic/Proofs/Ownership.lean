import Gic.Proofs.NeverStale

/-!
# Who services an interrupt

Several CPUs can have their lines raised for one shared interrupt, and race to
acknowledge it. That it is serviced once follows from three things kept apart:
its active flags, the stacks of the CPUs, and what every CPU is shown. This
module relates them.

## The model

* `depth` — how often an interrupt is on the stack of a CPU.
* `Handover` — what an action can do with the active flags of an interrupt and
  with the stacks together: nothing, start it if it was a candidate, or end it
  if it was running.
* `Release` — its active flags are cleared and no stack is touched. Two accesses
  do that (`Forces`): a write to the clear-active registers, and the completion
  of a virtual interrupt that a physical one backs.

## What is proved

* `Reachable.backed` — an active flag has an owner, in every reachable state.
* `exact_of_run` — without those two accesses the flags and stacks say the same,
  and an interrupt is on one stack at most, once.
-/

namespace Gic

namespace CpuInterface

/-! ### Counting on a stack -/

/-- How often an interrupt is on the stack. -/
def depth (i : CpuInterface) (irq : Nat) : Nat := i.stack.countP fun r => r.irq == irq

theorem depth_push (i : CpuInterface) (irq : Nat) (priority : Priority) (j : Nat) :
    (i.push irq priority).depth j = i.depth j + if j = irq then 1 else 0 := by
  simp only [depth, push, List.countP_cons, beq_iff_eq, eq_comm (a := j)]

theorem countP_eraseP (stack : List RunningIrq) (irq j : Nat) :
    (stack.eraseP fun r => r.irq == irq).countP (fun r => r.irq == j) =
      stack.countP (fun r => r.irq == j) - if j = irq then 1 else 0 := by
  induction stack with
  | nil => simp
  | cons r rest ih =>
    by_cases hr : r.irq = irq
    · subst hr
      rw [List.eraseP_cons_of_pos (by simp), List.countP_cons]
      by_cases hj : j = r.irq
      · simp [hj]
      · simp [hj, Ne.symm hj]
    · rw [List.eraseP_cons_of_neg (by simpa using hr), List.countP_cons, List.countP_cons, ih]
      by_cases hj : j = irq
      · subst hj
        simp [hr]
      · simp [hj]

theorem depth_drop (i : CpuInterface) (irq j : Nat) :
    (i.drop irq).depth j = i.depth j - if j = irq then 1 else 0 :=
  countP_eraseP i.stack irq j

theorem isRunning_iff (i : CpuInterface) (irq : Nat) :
    i.isRunning irq = true ↔ 0 < i.depth irq := by
  rw [isRunning, depth, List.countP_pos_iff, List.any_eq_true]

end CpuInterface

namespace Physical

variable {cfg : Config}

/-- How often an interrupt is on the stack of a CPU. -/
def depth (p : Physical cfg) (c irq : Nat) : Nat := (p.cpus.row c).depth irq

/-- The CPUs for which an interrupt is active. -/
def active (p : Physical cfg) (irq : Nat) : CpuMask := (p.irqs.row irq).active

/-- A CPU has acknowledged an interrupt and not completed it: it is on its stack. -/
def Runs (p : Physical cfg) (c irq : Nat) : Prop := ∃ r ∈ (p.cpus.row c).stack, r.irq = irq

theorem runs_iff (p : Physical cfg) (c irq : Nat) : p.Runs c irq ↔ 0 < p.depth c irq := by
  simp only [Runs, depth, CpuInterface.depth, List.countP_pos_iff, beq_iff_eq]

theorem depth_of_stack {p q : Physical cfg} {c : Nat}
    (h : (q.cpus.row c).stack = (p.cpus.row c).stack) (irq : Nat) :
    q.depth c irq = p.depth c irq := by
  rw [depth, depth, CpuInterface.depth, CpuInterface.depth, h]

/-! ### What can happen to flags and stacks -/

/-- What an action does with the active flags of an interrupt and with the stacks it is on. -/
inductive Handover (p q : Physical cfg) (irq : Nat) : Prop where
  /-- Neither changes. -/
  | untouched (active : q.active irq = p.active irq) (depth : ∀ c, q.depth c irq = p.depth c irq)
  /-- A CPU starts it, as a candidate. -/
  | starts {cpu : Nat} (connected : cpu < cfg.cpus) (candidate : Competes p cpu irq)
      (active : q.active irq = (p.active irq).assign (view irq cpu) true)
      (depth : ∀ c, q.depth c irq = p.depth c irq + if c = cpu then 1 else 0)
  /-- A CPU that runs it ends it. -/
  | ends {cpu : Nat} (connected : cpu < cfg.cpus) (running : 0 < p.depth cpu irq)
      (active : q.active irq = (p.active irq).assign (view irq cpu) false)
      (depth : ∀ c, q.depth c irq = p.depth c irq - if c = cpu then 1 else 0)

/-- The active flags of an interrupt are kept, or cleared as one CPU sees them, and no stack
changes. -/
structure Release (p q : Physical cfg) (irq : Nat) : Prop where
  active : q.active irq = p.active irq ∨
    ∃ cpu < cfg.cpus, q.active irq = (p.active irq).assign (view irq cpu) false
  depth : ∀ c, q.depth c irq = p.depth c irq

theorem Handover.refl (p : Physical cfg) (irq : Nat) : Handover p p irq :=
  .untouched rfl fun _ => rfl

theorem active_alterIrq {p : Physical cfg} (hp : Shaped p) {f : IrqState → IrqState}
    {cpu : Nat} (v : Bool) (hf : ∀ r, (f r).active = r.active.assign (r.scope cpu) v) {irq : Nat}
    (hirq : irq < maxIrqs) (i : Nat) :
    (p.alterIrq irq f).active i =
      if i = irq then (p.active i).assign (view i cpu) v else p.active i := by
  unfold active
  rw [row_alterIrq]
  by_cases hi : i = irq
  · subst hi
    rw [if_pos ⟨rfl, hirq⟩, if_pos rfl, hf, hp.scope_eq hirq]
  · rw [if_neg fun h => hi h.1.symm, if_neg hi]

theorem depth_alterCpu (p : Physical cfg) {cpu : Nat} (hc : cpu < cfg.cpus)
    (f : CpuInterface → CpuInterface) (c irq : Nat) :
    (p.alterCpu cpu f).depth c irq =
      if c = cpu then (f (p.cpus.row c)).depth irq else p.depth c irq := by
  rw [depth, row_alterCpu]
  by_cases hcpu : c = cpu
  · subst hcpu
    rw [if_pos ⟨rfl, hc⟩, if_pos rfl]
  · rw [if_neg fun h => hcpu h.1.symm, if_neg hcpu]
    rfl

theorem active_arbitrate (p : Physical cfg) (irq : Nat) :
    p.arbitrate.value.active irq = p.active irq := by
  rw [active, arbitrate_irqs, active]

theorem depth_arbitrate (p : Physical cfg) (c irq : Nat) :
    p.arbitrate.value.depth c irq = p.depth c irq :=
  depth_of_stack (stack_arbitrate p c) irq

theorem shaped_take {p : Physical cfg} (hp : Shaped p) (cpu irq : Nat) :
    Shaped (p.take cpu irq) where
  routing i hi := by
    rw [take_keeps (φ := IrqState.routing) fun _ _ _ => rfl]
    exact hp.routing i hi
  trigger i hi := by
    rw [take_keeps (φ := IrqState.trigger) fun _ _ _ => rfl]
    exact hp.trigger i hi

theorem cpus_take (p : Physical cfg) (cpu irq : Nat) : (p.take cpu irq).cpus = p.cpus := by
  unfold take takeSgi
  split
  · dsimp only
    split <;> rfl
  · rfl

/-- The flags after a CPU has started an interrupt that it has taken. -/
theorem active_start {p : Physical cfg} (hp : Shaped p) (cpu : Nat) {irq : Nat}
    (hirq : irq < maxIrqs) (priority : Priority) (i : Nat) :
    ((p.take cpu irq).start cpu irq priority).active i =
      if i = irq then (p.active i).assign (view i cpu) true else p.active i := by
  have htake : (p.take cpu irq).active i = p.active i :=
    take_keeps (φ := IrqState.active) (fun _ _ _ => rfl) p cpu irq i
  rw [← htake]
  exact active_alterIrq (shaped_take hp cpu irq) (f := fun r => r.acknowledge cpu) true
    (fun _ => rfl) hirq i

theorem depth_start (p : Physical cfg) {cpu : Nat} (hc : cpu < cfg.cpus) (irq : Nat)
    (priority : Priority) (c i : Nat) :
    ((p.take cpu irq).start cpu irq priority).depth c i =
      p.depth c i + if c = cpu ∧ i = irq then 1 else 0 := by
  have htake : ((p.take cpu irq).alterIrq irq fun r => r.acknowledge cpu).cpus = p.cpus :=
    cpus_take p cpu irq
  rw [start, depth_alterCpu _ hc]
  by_cases hcpu : c = cpu
  · subst hcpu
    rw [if_pos rfl, htake, CpuInterface.depth_push]
    simp only [true_and]
    rfl
  · rw [if_neg hcpu, if_neg fun h => hcpu h.1, depth, htake]
    rfl

/-- The flags after a CPU has dropped an interrupt and ended it. -/
theorem active_end {p : Physical cfg} (hp : Shaped p) (cpu : Nat) {irq : Nat}
    (hirq : irq < maxIrqs) (i : Nat) :
    ((p.alterCpu cpu fun f => f.drop irq).deactivate cpu irq).active i =
      if i = irq then (p.active i).assign (view i cpu) false else p.active i := by
  have hdropped : Shaped (p.alterCpu cpu fun f => f.drop irq) := ⟨hp.routing, hp.trigger⟩
  exact active_alterIrq hdropped (f := fun r => r.complete cpu) false (fun _ => rfl) hirq i

theorem depth_end (p : Physical cfg) {cpu : Nat} (hc : cpu < cfg.cpus) (irq c i : Nat) :
    ((p.alterCpu cpu fun f => f.drop irq).deactivate cpu irq).depth c i =
      p.depth c i - if c = cpu ∧ i = irq then 1 else 0 := by
  refine (depth_alterCpu p hc (fun f => f.drop irq) c i).trans ?_
  by_cases hcpu : c = cpu
  · rw [if_pos hcpu, CpuInterface.depth_drop]
    simp only [hcpu, true_and]
    rfl
  · rw [if_neg hcpu, if_neg fun h => hcpu h.1, Nat.sub_zero]

theorem handover_acknowledge {p : Physical cfg} (hp : Settled p) (hshape : Shaped p)
    (hn : cfg.numIrqs ≤ maxIrqs) {cpu : Nat} (hc : cpu < cfg.cpus) (hm : cpu < maxCpus)
    (irq : Nat) : Handover p (p.acknowledge cpu).value.2 irq := by
  rw [acknowledge_value]
  split
  · exact .refl p irq
  rename_i hrefused
  have hne : (p.cpus.row cpu).highestPending ≠ spurious := fun h => hrefused (.inl h)
  have hcandidate := hp.competes hn hc hm hne
  have hactive := (active_arbitrate _ irq).trans
    (active_start hshape cpu (Nat.lt_of_lt_of_le hcandidate.connected hn)
      (p.priority cpu (p.cpus.row cpu).highestPending) irq)
  have hdepth := fun c => (depth_arbitrate _ c irq).trans
    (depth_start p hc (p.cpus.row cpu).highestPending
      (p.priority cpu (p.cpus.row cpu).highestPending) c irq)
  by_cases hirq : irq = (p.cpus.row cpu).highestPending
  · simp only [hirq, if_true, and_true] at hactive hdepth
    rw [hirq]
    exact .starts hc hcandidate hactive hdepth
  · simp only [hirq, if_false, and_false] at hactive hdepth
    exact .untouched hactive hdepth

theorem handover_complete {p : Physical cfg} (hshape : Shaped p) (hn : cfg.numIrqs ≤ maxIrqs)
    {cpu : Nat} (hc : cpu < cfg.cpus) (value : Word) (irq : Nat) :
    Handover p (p.complete cpu value).value irq := by
  rw [complete_value]
  split
  swap
  · exact .refl p irq
  rename_i hends
  generalize value.field 0 10 = ended at hends
  obtain ⟨hlt, hrunning⟩ := hends
  rw [CpuInterface.isRunning_iff] at hrunning
  have hactive := (active_arbitrate _ irq).trans
    (active_end hshape cpu (Nat.lt_of_lt_of_le hlt hn) irq)
  have hdepth := fun c => (depth_arbitrate _ c irq).trans (depth_end p hc ended c irq)
  by_cases hirq : irq = ended
  · simp only [hirq, if_true, and_true] at hactive hdepth
    rw [hirq]
    exact .ends hc hrunning hactive hdepth
  · simp only [hirq, if_false, and_false] at hactive hdepth
    exact .untouched hactive hdepth

/-- Setting a register of an interface leaves the stacks alone. -/
theorem handover_alterCpu (p : Physical cfg) (cpu : Nat) {f : CpuInterface → CpuInterface}
    (irq : Nat) (hf : ∀ i, (f i).stack = i.stack) : Handover p (p.alterCpu cpu f) irq :=
  .untouched rfl fun c => depth_of_stack (alterCpu_keeps _ hf p cpu c) irq

theorem Handover.arbitrate {p q : Physical cfg} {irq : Nat} (h : Handover p q irq) :
    Handover p q.arbitrate.value irq := by
  have hactive := active_arbitrate q irq
  have hdepth := fun c => depth_arbitrate q c irq
  cases h with
  | untouched active depth =>
    exact .untouched (hactive.trans active) fun c => (hdepth c).trans (depth c)
  | starts connected candidate active depth =>
    exact .starts connected candidate (hactive.trans active) fun c => (hdepth c).trans (depth c)
  | ends connected running active depth =>
    exact .ends connected running (hactive.trans active) fun c => (hdepth c).trans (depth c)

theorem handover_writeCpuInterface {p : Physical cfg} (hshape : Shaped p)
    (hn : cfg.numIrqs ≤ maxIrqs) {cpu : Nat} (hc : cpu < cfg.cpus) (register : CpuRegister)
    (value : Word) (irq : Nat) :
    Handover p (p.writeCpuInterface cpu register value).value irq := by
  cases register with
  | control =>
    exact (handover_alterCpu p cpu (f := fun i => { i with enables := .ofWord value }) irq
      fun _ => rfl).arbitrate
  | priorityMask =>
    exact (handover_alterCpu p cpu (f := fun i => { i with priorityMask := value.setWidth 8 }) irq
      fun _ => rfl).arbitrate
  | binaryPoint | aliasPoint | deactivation => exact handover_alterCpu p cpu irq fun _ => rfl
  | completion => exact handover_complete hshape hn hc value irq
  | activePriorities n =>
    cases n with
    | zero => exact handover_alterCpu p cpu irq fun _ => rfl
    | succ n => exact .refl p irq
  | _ => exact .refl p irq

theorem cpus_writeByte (p : Physical cfg) (cpu : Nat) (register : DistributorRegister)
    (value : BitVec 8) : (p.writeByte cpu register value).state.cpus = p.cpus := by
  cases register with
  | priority | targets | setSources =>
    simp only [writeByte]
    split <;> rfl
  | clearSources =>
    simp only [writeByte]
    split
    · split <;> rfl
    · rfl
  | _ => rfl

theorem cpus_writeWord (p : Physical cfg) (cpu : Nat) (register : DistributorRegister)
    (value : Word) : (p.writeWord cpu register value).value.state.cpus = p.cpus := by
  cases register with
  | trigger =>
    simp only [writeWord]
    split <;> rfl
  | sgi =>
    simp only [writeWord, requestSgi]
    split <;> rfl
  | _ => rfl

theorem active_arbitrateIf (w : Written cfg) (irq : Nat) :
    (arbitrateIf w).value.active irq = w.state.active irq := by
  rw [active, arbitrateIf_irqs, active]

theorem depth_arbitrateIf {p : Physical cfg} {w : Written cfg} (h : w.state.cpus = p.cpus)
    (irq c : Nat) : (arbitrateIf w).value.depth c irq = p.depth c irq :=
  depth_of_stack (by rw [stack_arbitrateIf, h]) irq

theorem release_deactivate {p : Physical cfg} (hshape : Shaped p) {cpu ended : Nat}
    (hc : cpu < cfg.cpus) (hended : ended < maxIrqs) (irq : Nat) :
    Release p (p.deactivate cpu ended).arbitrate.value irq where
  active := by
    have hactive := (active_arbitrate _ irq).trans
      (active_alterIrq hshape (f := fun r => r.complete cpu) false (fun _ => rfl) hended irq)
    split at hactive
    · exact .inr ⟨cpu, hc, hactive⟩
    · exact .inl hactive
  depth c := depth_arbitrate _ c irq

/-- The view of word `n` of a register of flags is that of each of its interrupts. -/
theorem wordView_eq (cpu irq : Nat) : wordView cpu (irq / 32) = view irq cpu := by
  have hzero : irq / 32 = 0 ↔ irq < numPrivate := by
    simp only [numPrivate]
    omega
  simp only [wordView, view, hzero]

theorem release_clearActive (p : Physical cfg) {cpu : Nat} (hc : cpu < cfg.cpus) (n : Nat)
    (value : Word) {irq : Nat} (hirq : irq < maxIrqs) :
    Release p (arbitrateIf (p.writeWord cpu (.clearActive n) value).value).value irq where
  active := by
    have hrow := row_alterSelected p n value (fun _ r => r.setActive false (wordView cpu n)) hirq
    rw [active_arbitrateIf]
    split at hrow
    · rename_i hsel
      simp only [selects, Bool.and_eq_true, decide_eq_true_eq] at hsel
      obtain ⟨⟨rfl, -⟩, -⟩ := hsel
      refine .inr ⟨cpu, hc, (congrArg IrqState.active hrow).trans ?_⟩
      rw [wordView_eq]
      rfl
    · exact .inl (congrArg IrqState.active hrow)
  depth := depth_arbitrateIf (cpus_writeWord _ _ _ _) irq

/-! ### Flags and stacks agree -/

theorem getLsbD_assign_view {irq cpu : Nat} (h : irq < numPrivate) (hm : cpu < maxCpus)
    (mask : CpuMask) (v : Bool) (c : Nat) :
    (mask.assign (view irq cpu) v).getLsbD c = if c = cpu then v else mask.getLsbD c := by
  rw [view, if_pos h, CpuMask.getLsbD_assign]
  simp only [CpuMask.getLsbD_only_iff hm]

theorem assign_view_shared {irq : Nat} (h : numPrivate ≤ irq) (cpu : Nat) (mask : CpuMask)
    (v : Bool) : mask.assign (view irq cpu) v = if v then CpuMask.all else 0#8 := by
  rw [view, if_neg (Nat.not_lt.mpr h)]
  cases v
  · exact CpuMask.assign_all_false mask
  · exact CpuMask.assign_all_true mask

/-- Every active flag has an owner: a CPU that has the interrupt on its stack. -/
structure Backed (p : Physical cfg) (irq : Nat) : Prop where
  privateOwned : irq < numPrivate → ∀ c, (p.active irq).getLsbD c = true → 0 < p.depth c irq
  /-- The flags of a shared interrupt are set and cleared together. -/
  sharedWhole : numPrivate ≤ irq → p.active irq = 0#8 ∨ p.active irq = CpuMask.all
  sharedOwned : numPrivate ≤ irq → p.active irq ≠ 0#8 → ∃ c < cfg.cpus, 0 < p.depth c irq

/-- Flags and stacks say the same. -/
structure Exact (p : Physical cfg) (irq : Nat) : Prop where
  /-- A private interrupt is on the stack of a CPU once if it is active for it. -/
  privateOnce : irq < numPrivate → ∀ c,
    p.depth c irq = if (p.active irq).getLsbD c = true then 1 else 0
  /-- A shared interrupt that is not active is on no stack, and one that is active is on the
  stack of its owner once, and on no other. -/
  sharedOnce : numPrivate ≤ irq →
    (p.active irq = 0#8 ∧ ∀ c, p.depth c irq = 0) ∨
      (p.active irq = CpuMask.all ∧ ∃ owner < cfg.cpus, p.depth owner irq = 1 ∧
        ∀ c, c ≠ owner → p.depth c irq = 0)

/-- No interrupt is active without an owner. -/
structure Owned (p : Physical cfg) : Prop where
  /-- A private interrupt that is active for a CPU is on its stack. -/
  privateOwned : ∀ irq < numPrivate, ∀ c, (p.active irq).getLsbD c = true → p.Runs c irq
  /-- The flags of a shared interrupt are all clear or all set. -/
  sharedWhole : ∀ irq, numPrivate ≤ irq → irq < maxIrqs →
    p.active irq = 0#8 ∨ p.active irq = CpuMask.all
  /-- A shared interrupt that is active is on some stack. -/
  sharedOwned : ∀ irq, numPrivate ≤ irq → irq < maxIrqs → p.active irq ≠ 0#8 →
    ∃ c < cfg.cpus, p.Runs c irq

/-- Every interrupt is serviced once: it is active for those that have it on their stacks. -/
structure ServicedOnce (p : Physical cfg) : Prop where
  /-- A private interrupt is active for a CPU if and only if it is on its stack. -/
  privateIff : ∀ irq < numPrivate, ∀ c, (p.active irq).getLsbD c = true ↔ p.Runs c irq
  /-- Then it is there once. -/
  privateOnce : ∀ irq < numPrivate, ∀ c, p.Runs c irq → p.depth c irq = 1
  /-- A shared interrupt is active if and only if it is on some stack. -/
  sharedIff : ∀ irq, numPrivate ≤ irq → irq < maxIrqs →
    (p.active irq ≠ 0#8 ↔ ∃ c < cfg.cpus, p.Runs c irq)
  /-- Then it is there once, and on no other stack. -/
  sharedOnce : ∀ irq, numPrivate ≤ irq → irq < maxIrqs → (∃ c < cfg.cpus, p.Runs c irq) →
    ∃ owner < cfg.cpus, p.depth owner irq = 1 ∧ ∀ c, c ≠ owner → ¬ p.Runs c irq

theorem owned_of_backed {p : Physical cfg} (h : ∀ irq < maxIrqs, Backed p irq) : Owned p where
  privateOwned irq hi c hbit := by
    rw [runs_iff]
    exact (h irq (Nat.lt_trans hi (by decide))).privateOwned hi c hbit
  sharedWhole irq hlow hhigh := (h irq hhigh).sharedWhole hlow
  sharedOwned irq hlow hhigh hne := by
    simp only [runs_iff]
    exact (h irq hhigh).sharedOwned hlow hne

theorem servicedOnce_of_exact {p : Physical cfg} (h : ∀ irq < maxIrqs, Exact p irq) :
    ServicedOnce p where
  privateIff irq hi c := by
    rw [runs_iff, (h irq (Nat.lt_trans hi (by decide))).privateOnce hi c]
    split
    · rename_i hbit
      exact iff_of_true hbit Nat.one_pos
    · rename_i hbit
      exact iff_of_false hbit (Nat.lt_irrefl 0)
  privateOnce irq hi c hruns := by
    have honce := (h irq (Nat.lt_trans hi (by decide))).privateOnce hi c
    rw [runs_iff] at hruns
    split at honce
    · exact honce
    · omega
  sharedIff irq hlow hhigh := by
    simp only [runs_iff]
    rcases (h irq hhigh).sharedOnce hlow with ⟨hzero, hnone⟩ | ⟨hall, owner, howner, honce, -⟩
    · refine iff_of_false (not_not_intro hzero) ?_
      rintro ⟨c, -, hpos⟩
      rw [hnone] at hpos
      exact Nat.lt_irrefl 0 hpos
    · refine iff_of_true ?_ ⟨owner, howner, by rw [honce]; exact Nat.one_pos⟩
      rw [hall]
      decide
  sharedOnce irq hlow hhigh := by
    simp only [runs_iff]
    rintro ⟨c, -, hpos⟩
    rcases (h irq hhigh).sharedOnce hlow with ⟨-, hnone⟩ | ⟨-, owner, howner, honce, hothers⟩
    · rw [hnone] at hpos
      exact absurd hpos (Nat.lt_irrefl 0)
    · exact ⟨owner, howner, honce, fun c hc => Nat.not_lt.mpr (Nat.le_of_eq (hothers c hc))⟩

theorem active_powerOn (cfg : Config) (irq : Nat) : (powerOn cfg).active irq = 0#8 := by
  rw [active, powerOn, Store.powerOn, Table.row_build]
  split
  · split
    · rfl
    · split <;> rfl
  · rfl

theorem depth_powerOn (cfg : Config) (c irq : Nat) : (powerOn cfg).depth c irq = 0 := by
  simp only [depth, powerOn, Table.row_replicate]
  split <;> rfl

theorem backed_powerOn (cfg : Config) (irq : Nat) : Backed (powerOn cfg) irq where
  privateOwned _ c h := by
    rw [active_powerOn] at h
    simp at h
  sharedWhole _ := .inl (active_powerOn cfg irq)
  sharedOwned _ h := absurd (active_powerOn cfg irq) h

theorem exact_powerOn (cfg : Config) (irq : Nat) : Exact (powerOn cfg) irq where
  privateOnce _ c := by
    rw [active_powerOn, depth_powerOn]
    simp
  sharedOnce _ := .inl ⟨active_powerOn cfg irq, fun c => depth_powerOn cfg c irq⟩

theorem Release.backed {p q : Physical cfg} {irq : Nat} (hmax : cfg.cpus ≤ maxCpus)
    (h : Release p q irq) (hp : Backed p irq) : Backed q irq := by
  obtain ⟨hkept | ⟨cpu, hc, hcleared⟩, hdepth⟩ := h
  · constructor
    · simp only [hkept, hdepth]
      exact hp.privateOwned
    · rw [hkept]
      exact hp.sharedWhole
    · simp only [hkept, hdepth]
      exact hp.sharedOwned
  · constructor
    · intro hi c
      rw [hcleared, hdepth, getLsbD_assign_view hi (Nat.lt_of_lt_of_le hc hmax)]
      split
      · exact fun h => Bool.noConfusion h
      · exact hp.privateOwned hi c
    · exact fun hi => .inl (hcleared.trans (assign_view_shared hi cpu _ false))
    · exact fun hi hne => absurd (hcleared.trans (assign_view_shared hi cpu _ false)) hne

theorem Handover.backed {p q : Physical cfg} {irq : Nat} (hmax : cfg.cpus ≤ maxCpus)
    (h : Handover p q irq) (hp : Backed p irq) : Backed q irq := by
  cases h with
  | untouched active depth => exact Release.backed hmax ⟨.inl active, depth⟩ hp
  | @starts cpu connected candidate active depth =>
    have hown : 0 < q.depth cpu irq := by
      rw [depth, if_pos rfl]
      exact Nat.succ_pos _
    constructor
    · intro hi c
      rw [active, getLsbD_assign_view hi (Nat.lt_of_lt_of_le connected hmax)]
      split
      · rename_i hcpu
        exact fun _ => hcpu ▸ hown
      · intro hbit
        rw [depth]
        exact Nat.add_pos_left (hp.privateOwned hi c hbit) _
    · exact fun hi => .inr (active.trans (assign_view_shared hi cpu _ true))
    · exact fun _ _ => ⟨cpu, connected, hown⟩
  | @ends cpu connected running active depth =>
    constructor
    · intro hi c
      rw [active, getLsbD_assign_view hi (Nat.lt_of_lt_of_le connected hmax)]
      split
      · exact fun h => Bool.noConfusion h
      · rename_i hcpu
        rw [depth, if_neg hcpu, Nat.sub_zero]
        exact hp.privateOwned hi c
    · exact fun hi => .inl (active.trans (assign_view_shared hi cpu _ false))
    · exact fun hi hne => absurd (active.trans (assign_view_shared hi cpu _ false)) hne

/-- A candidate is not active, so it is on no stack when it is started; what is running is active
and on one stack once, so it is on none when it is ended. -/
theorem Handover.exact {p q : Physical cfg} {irq : Nat} (hmax : cfg.cpus ≤ maxCpus)
    (h : Handover p q irq) (hp : Exact p irq) : Exact q irq := by
  cases h with
  | untouched active depth =>
    constructor
    · simp only [active, depth]
      exact hp.privateOnce
    · simp only [active, depth]
      exact hp.sharedOnce
  | @starts cpu connected candidate active depth =>
    have hinactive : ¬ Flagged (p.active irq) cpu irq := candidate.inactive
    constructor
    · intro hi c
      rw [Flagged, if_pos hi] at hinactive
      rw [active, depth, getLsbD_assign_view hi (Nat.lt_of_lt_of_le connected hmax),
        hp.privateOnce hi c]
      by_cases hcpu : c = cpu
      · subst hcpu
        rw [if_pos rfl, if_pos rfl, if_pos rfl, if_neg hinactive]
      · rw [if_neg hcpu, if_neg hcpu, Nat.add_zero]
    · intro hi
      rw [Flagged, if_neg (Nat.not_lt.mpr hi), not_not] at hinactive
      have hnone : ∀ c, p.depth c irq = 0 := by
        rcases hp.sharedOnce hi with ⟨-, hnone⟩ | ⟨hall, -⟩
        · exact hnone
        · rw [hinactive] at hall
          exact absurd hall (by decide)
      refine .inr ⟨active.trans (assign_view_shared hi cpu _ true), cpu, connected, ?_, ?_⟩
      · rw [depth, if_pos rfl, hnone]
      · intro c hcpu
        rw [depth, if_neg hcpu, hnone]
  | @ends cpu connected running active depth =>
    constructor
    · intro hi c
      have honce := hp.privateOnce hi c
      rw [active, depth, getLsbD_assign_view hi (Nat.lt_of_lt_of_le connected hmax)]
      by_cases hcpu : c = cpu
      · subst hcpu
        rw [if_pos rfl, if_pos rfl, if_neg Bool.false_ne_true]
        split at honce <;> omega
      · rw [if_neg hcpu, if_neg hcpu, Nat.sub_zero, honce]
    · intro hi
      refine .inl ⟨active.trans (assign_view_shared hi cpu _ false), fun c => ?_⟩
      rw [depth]
      rcases hp.sharedOnce hi with ⟨-, hnone⟩ | ⟨-, owner, -, honce, hothers⟩
      · rw [hnone, Nat.zero_sub]
      · -- The CPU that ends it is its owner.
        obtain rfl : cpu = owner := by
          apply Decidable.byContradiction
          intro hne
          rw [hothers cpu hne] at running
          exact absurd running (Nat.lt_irrefl 0)
        by_cases hcpu : c = cpu
        · rw [if_pos hcpu, hcpu, honce]
        · rw [if_neg hcpu, hothers c hcpu]

end Physical

namespace Controller

variable {cfg : Config}

open Physical

/-- The two accesses that clear active flags behind the back of the CPU that runs an interrupt:
a write to a clear-active register, and the completion of a virtual interrupt that a physical one
backs. -/
inductive Forces (g : Controller cfg) : Action → Prop where
  | clearActive {i : Initiator} {o : Nat} {v : BitVec 64} (aligned : o % 4 = 0)
      (low : 0x380 ≤ o) (high : o < 0x400) : Forces g (.write .distributor i o v .word)
  | backedCompletion {i : Initiator} {v : BitVec 64} {irq : Nat}
      (backed : g.backing? (cpuOf cfg i) (v.setWidth 32) = some irq) :
      Forces g (.write .vcpuInterface i 0x10 v .word)

/-- Whether an action can be one of the two, in some state. -/
def mayForce : Action → Bool
  | .write .distributor _ o _ .word => decide (0x380 ≤ o) && decide (o < 0x400)
  | .write .vcpuInterface _ o _ .word => decide (o = 0x10)
  | _ => false

theorem avoids_forces {actions : List Action} (h : actions.all (fun a => !mayForce a) = true)
    (g : Controller cfg) : Avoids Forces g actions := by
  refine avoids_of_forall (fun a ha g hforces => ?_) g
  have hnot := List.all_eq_true.mp h a ha
  cases hforces with
  | clearActive aligned low high => simp [mayForce, low, high] at hnot
  | backedCompletion => simp [mayForce] at hnot

/-- Every rule but power-on hands interrupts over, or is one of the two accesses and releases
them. -/
theorem Moves.handover (hpos : 0 < cfg.cpus) (hmax : cfg.cpus ≤ maxCpus)
    (hn : cfg.numIrqs ≤ maxIrqs) {g : Controller cfg} {a : Action} {p : Physical cfg}
    (h : Moves g a p) (hsettled : Settled g.physical) (hshape : Shaped g.physical) {irq : Nat}
    (hirq : irq < maxIrqs) :
    p = .powerOn cfg ∨ Handover g.physical p irq ∨ (Forces g a ∧ Release g.physical p irq) := by
  have hi : ∀ i, cpuOf cfg i < cfg.cpus := cpuOf_lt hpos
  cases h with
  | stays => exact .inr (.inl (.refl _ irq))
  | @distributorWord i o v aligned whole =>
    by_cases hclear : ∃ n, DistributorRegister.ofOffset o = .clearActive n
    · obtain ⟨n, hclear⟩ := hclear
      obtain ⟨low, high⟩ := DistributorRegister.offset_of_clearActive hclear
      rw [hclear]
      exact .inr (.inr ⟨.clearActive aligned low high, release_clearActive _ (hi i) n _ hirq⟩)
    · refine .inr (.inl (.untouched ?_ (depth_arbitrateIf (cpus_writeWord _ _ _ _) irq)))
      rw [active_arbitrateIf]
      exact writeWord_keeps (φ := IrqState.active) (fun _ _ _ => rfl) (fun _ _ _ => rfl)
        (fun _ _ _ => rfl) (fun n hr => absurd ⟨n, hr⟩ hclear) (fun _ _ _ => rfl) _ _ _
  | distributorBytes =>
    refine .inr (.inl (.untouched ?_ (depth_arbitrateIf ?_ irq)))
    · rw [active_arbitrateIf]
      exact writeBytes_induct (P := fun p => p.active irq = g.physical.active irq)
        (fun p _ _ h => (writeByte_keeps (φ := IrqState.active) (fun _ _ _ => rfl)
          (fun _ _ _ => rfl) p _ _ _ irq).trans h) rfl _ _
    · exact writeBytes_induct (P := fun p => p.cpus = g.physical.cpus)
        (fun p _ _ h => (cpus_writeByte p _ _ _).trans h) rfl _ _
  | distributorByte =>
    refine .inr (.inl (.untouched ?_ (depth_arbitrateIf (cpus_writeByte _ _ _ _) irq)))
    rw [active_arbitrateIf]
    exact writeByte_keeps (φ := IrqState.active) (fun _ _ _ => rfl) (fun _ _ _ => rfl) _ _ _ _ irq
  | acknowledges =>
    exact .inr (.inl (handover_acknowledge hsettled hshape hn (hi _)
      (Nat.lt_of_lt_of_le (hi _) hmax) irq))
  | interfaceWrite => exact .inr (.inl (handover_writeCpuInterface hshape hn (hi _) _ _ irq))
  | backingEnds backed low high =>
    exact .inr (.inr ⟨.backedCompletion backed,
      release_deactivate hshape (hi _) (Nat.lt_of_lt_of_le high hn) irq⟩)
  | ppiDriven | spiDriven | overdriven =>
    refine .inr (.inl (Handover.arbitrate (.untouched ?_ fun _ => rfl)))
    exact alterIrq_keeps IrqState.active (fun r => IrqState.drive_keeps (fun _ _ _ => rfl)
      (fun _ _ _ => rfl) (fun _ _ _ => rfl) r _ _ _) _ _ irq
  | arbitrates => exact .inr (.inl (Handover.refl _ irq).arbitrate)
  | powersOn => exact .inl rfl

/-- In every reachable state an active flag has an owner. -/
theorem Reachable.backed (hv : cfg.validate = .ok ()) {g : Controller cfg} (h : Reachable g)
    {irq : Nat} (hirq : irq < maxIrqs) : Backed g.physical irq := by
  obtain ⟨hpos, hmax, hn⟩ := Config.bounds_of_validate hv
  refine h.induct (P := fun g => Backed g.physical irq) (backed_powerOn cfg irq) ?_
  intro g a hg hbacked
  rcases (moves_after g a).handover hpos hmax hn hg.settled hg.shaped hirq with
    hreset | hhandover | ⟨-, hrelease⟩
  · rw [hreset]
    exact backed_powerOn cfg irq
  · exact hhandover.backed hmax hbacked
  · exact hrelease.backed hmax hbacked

/-- Along a run without the two accesses, flags and stacks say the same. -/
theorem exact_of_run (hv : cfg.validate = .ok ()) {irq : Nat} (hirq : irq < maxIrqs)
    {actions : List Action} (h : Avoids Forces (powerOn cfg) actions) :
    Exact ((powerOn cfg).run actions).physical irq := by
  obtain ⟨hpos, hmax, hn⟩ := Config.bounds_of_validate hv
  refine run_keeps (P := fun g => Exact g.physical irq) ?_ (reachable_run [])
    (exact_powerOn cfg irq) h
  intro g a hg ha hexact
  rcases (moves_after g a).handover hpos hmax hn hg.settled hg.shaped hirq with
    hreset | hhandover | ⟨hforces, -⟩
  · rw [hreset]
    exact exact_powerOn cfg irq
  · exact hhandover.exact hmax hexact
  · exact absurd hforces ha

/-- An interrupt is serviced by one CPU at a time. In every reachable state what is active has an
owner. Along every run from power-on without a write to a clear-active register and without the
completion of a backed virtual interrupt, it is active for those that have it on their stacks,
where it is once, and a shared interrupt is on no other stack. -/
theorem serviced_by_one_cpu (hv : cfg.validate = .ok ()) :
    (∀ g : Controller cfg, Reachable g → Owned g.physical) ∧
      ∀ actions : List Action, Avoids Forces (powerOn cfg) actions →
        ServicedOnce ((powerOn cfg).run actions).physical := by
  constructor
  · exact fun g hg => owned_of_backed fun irq hirq => hg.backed hv hirq
  · exact fun actions h => servicedOnce_of_exact fun irq hirq => exact_of_run hv hirq h

/-- Two CPUs are targeted by one shared input, and both acknowledge after it has gone high. -/
theorem serviced_by_one_cpu_race :
    let cfg : Config := { Config.standard with cpus := 2 }
    let actions : List Action :=
      [.write .distributor (.cpu 0) 0x000 1 .word, .write .cpuInterface (.cpu 0) 0x00 1 .word,
        .write .cpuInterface (.cpu 1) 0x00 1 .word, .write .cpuInterface (.cpu 0) 0x04 0xf0 .word,
        .write .cpuInterface (.cpu 1) 0x04 0xf0 .word,
        .write .distributor (.cpu 0) 0x104 1 .word, .write .distributor (.cpu 0) 0x820 3 .byte,
        .spi 0 true, .read .cpuInterface (.cpu 1) 0x0c .word,
        .read .cpuInterface (.cpu 0) 0x0c .word]
    cfg.validate = .ok () ∧ Avoids Forces (powerOn cfg) actions ∧
      Owned ((powerOn cfg).run actions).physical ∧
      ServicedOnce ((powerOn cfg).run actions).physical :=
  ⟨rfl, avoids_forces (by decide) _, (serviced_by_one_cpu rfl).1 _ (reachable_run _),
    (serviced_by_one_cpu rfl).2 _ (avoids_forces (by decide) _)⟩

end Controller

end Gic
