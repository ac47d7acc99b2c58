import Gic.Physical.Arbitration

/-!
# What arbitration decides

Arbitration is run after every change, for every CPU. This module says what it
looks at, what it leaves behind, and which interrupt it picks.

## The model

* `SameInputs` — two states that agree on everything arbitration looks at. It
  decides the same for both (`SameInputs.decideFor_eq`), and the state it
  leaves behind is one of them (`sameInputs_arbitrate`).
* `Settled` — what every CPU is shown, and the level of its line, are those
  that arbitration would decide now. A settled state is not changed by another
  arbitration (`Settled.arbitrate_eq`), and no line changes (`Settled.quiet`).
* `Competes` and `Wins` — the candidates of a CPU, read off the flags of the
  interrupts, and the first of the most urgent of them. `best` finds it
  (`best_spec`).
-/

namespace Gic

namespace Arbitration

/-- A decision that leaves the line at its level reports no change of it. -/
theorem quiet_events (domain : Domain) (kind : LineKind) (cpu : Nat)
    (outcome : Option Arbitration) :
    (events domain kind cpu (raised outcome) outcome).filterMap Event.change? = [] := by
  cases outcome with
  | none => rfl
  | some a =>
    simp only [events, if_true, List.append_nil]
    rfl

/-- Decisions for all CPUs that leave their lines at their levels report no change. -/
theorem quiet_flatMap {domain : Domain} {kind : LineKind} {before : Nat → Bool}
    {outcome : Nat → Option Arbitration} {n : Nat} (h : ∀ c < n, before c = raised (outcome c)) :
    ((List.range n).flatMap fun c => events domain kind c (before c) (outcome c)).filterMap
      Event.change? = [] := by
  rw [List.filterMap_flatMap, List.flatMap_eq_nil_iff]
  intro c hc
  rw [h c (List.mem_range.mp hc)]
  exact quiet_events domain kind c _

end Arbitration

/-- What an interface holds beside the decisions of arbitration: everything but the interrupt that
its CPU is shown and the level of its line. -/
def CpuInterface.undecided (i : CpuInterface) : CpuInterface :=
  { i with highestPending := spurious, line := false }

namespace Physical

variable {cfg : Config}

/-! ### Changing one interrupt or one CPU -/

@[simp] theorem alterIrq_distributor (p : Physical cfg) (irq : Nat) (f : IrqState → IrqState) :
    (p.alterIrq irq f).distributor = p.distributor := rfl

@[simp] theorem alterIrq_cpus (p : Physical cfg) (irq : Nat) (f : IrqState → IrqState) :
    (p.alterIrq irq f).cpus = p.cpus := rfl

@[simp] theorem alterCpu_irqs (p : Physical cfg) (cpu : Nat) (f : CpuInterface → CpuInterface) :
    (p.alterCpu cpu f).irqs = p.irqs := rfl

@[simp] theorem alterCpu_distributor (p : Physical cfg) (cpu : Nat)
    (f : CpuInterface → CpuInterface) : (p.alterCpu cpu f).distributor = p.distributor := rfl

theorem row_alterIrq (p : Physical cfg) (irq : Nat) (f : IrqState → IrqState) (i : Nat) :
    (p.alterIrq irq f).irqs.row i =
      if irq = i ∧ i < maxIrqs then f (p.irqs.row i) else p.irqs.row i :=
  Table.row_alter _ _ _ _

theorem row_alterIrq_of_ne (p : Physical cfg) {irq i : Nat} (h : irq ≠ i)
    (f : IrqState → IrqState) : (p.alterIrq irq f).irqs.row i = p.irqs.row i := by
  rw [row_alterIrq, if_neg fun hi => h hi.1]

theorem row_alterCpu (p : Physical cfg) (cpu : Nat) (f : CpuInterface → CpuInterface) (c : Nat) :
    (p.alterCpu cpu f).cpus.row c =
      if cpu = c ∧ c < cfg.cpus then f (p.cpus.row c) else p.cpus.row c :=
  Table.row_alter _ _ _ _

/-- What a change of an interrupt leaves alone is the same for all interrupts after it. -/
theorem alterIrq_keeps {β : Type} (φ : IrqState → β) {f : IrqState → IrqState}
    (hf : ∀ r, φ (f r) = φ r) (p : Physical cfg) (irq i : Nat) :
    φ ((p.alterIrq irq f).irqs.row i) = φ (p.irqs.row i) :=
  Table.alter_keeps φ hf _ _ _

/-- What a change of an interface leaves alone is the same for all interfaces after it. -/
theorem alterCpu_keeps {β : Type} (φ : CpuInterface → β) {f : CpuInterface → CpuInterface}
    (hf : ∀ i, φ (f i) = φ i) (p : Physical cfg) (cpu c : Nat) :
    φ ((p.alterCpu cpu f).cpus.row c) = φ (p.cpus.row c) :=
  Table.alter_keeps φ hf _ _ _

/-! ### What arbitration leaves behind -/

@[simp] theorem arbitrate_irqs (p : Physical cfg) : p.arbitrate.value.irqs = p.irqs := rfl

@[simp] theorem arbitrate_distributor (p : Physical cfg) :
    p.arbitrate.value.distributor = p.distributor := rfl

theorem row_arbitrate (p : Physical cfg) {c : Nat} (h : c < cfg.cpus) :
    p.arbitrate.value.cpus.row c = settle (p.cpus.row c) (p.decideFor c) := by
  simp only [arbitrate, Table.row_mapRows, Table.row_build, h, if_true]

/-- Whatever does not depend on what is shown and on the line is not changed by arbitration. -/
theorem arbitrate_keeps {β : Type} (φ : CpuInterface → β)
    (hφ : ∀ i outcome, φ (settle i outcome) = φ i) (p : Physical cfg) (c : Nat) :
    φ (p.arbitrate.value.cpus.row c) = φ (p.cpus.row c) := by
  by_cases h : c < cfg.cpus
  · rw [row_arbitrate p h, hφ]
  · have h : cfg.cpus ≤ c := Nat.le_of_not_lt h
    rw [Table.row_of_le _ h, Table.row_of_le _ h]

@[simp] theorem undecided_arbitrate (p : Physical cfg) (c : Nat) :
    (p.arbitrate.value.cpus.row c).undecided = (p.cpus.row c).undecided :=
  arbitrate_keeps CpuInterface.undecided (fun _ _ => rfl) p c

@[simp] theorem stack_arbitrate (p : Physical cfg) (c : Nat) :
    (p.arbitrate.value.cpus.row c).stack = (p.cpus.row c).stack :=
  arbitrate_keeps CpuInterface.stack (fun _ _ => rfl) p c

/-! ### What arbitration looks at -/

/-- Two states agree on everything that arbitration looks at. -/
structure SameInputs (p q : Physical cfg) : Prop where
  irqs : q.irqs = p.irqs
  enables : q.distributor.enables = p.distributor.enables
  targets : ∀ irq, q.distributor.targets irq = p.distributor.targets irq
  priority : ∀ cpu irq, q.priority cpu irq = p.priority cpu irq
  cpuEnables : ∀ c, (q.cpus.row c).enables = (p.cpus.row c).enables
  mask : ∀ c, (q.cpus.row c).priorityMask = (p.cpus.row c).priorityMask
  running : ∀ c, (q.cpus.row c).running = (p.cpus.row c).running

theorem SameInputs.isCandidate_eq {p q : Physical cfg} (h : SameInputs p q) (cpu irq : Nat) :
    q.isCandidate cpu irq = p.isCandidate cpu irq := by
  simp only [isCandidate, h.targets, h.irqs]

theorem SameInputs.best_eq {p q : Physical cfg} (h : SameInputs p q) (cpu n : Nat) :
    q.best cpu n = p.best cpu n := by
  induction n with
  | zero => rfl
  | succ n ih => simp only [best, ih, h.isCandidate_eq, h.priority]

theorem SameInputs.decideFor_eq {p q : Physical cfg} (h : SameInputs p q) (cpu : Nat) :
    q.decideFor cpu = p.decideFor cpu := by
  unfold decideFor isOpen
  dsimp only
  rw [h.enables, h.cpuEnables, h.best_eq, h.mask, h.running]

theorem sameInputs_arbitrate (p : Physical cfg) : SameInputs p p.arbitrate.value where
  irqs := rfl
  enables := rfl
  targets _ := rfl
  priority _ _ := rfl
  cpuEnables := arbitrate_keeps CpuInterface.enables (fun _ _ => rfl) p
  mask := arbitrate_keeps CpuInterface.priorityMask (fun _ _ => rfl) p
  running := arbitrate_keeps CpuInterface.running (fun _ _ => rfl) p

/-- A change of an interface that arbitration does not look at. -/
theorem sameInputs_alterCpu {f : CpuInterface → CpuInterface}
    (he : ∀ i, (f i).enables = i.enables) (hm : ∀ i, (f i).priorityMask = i.priorityMask)
    (hr : ∀ i, (f i).running = i.running) (p : Physical cfg) (cpu : Nat) :
    SameInputs p (p.alterCpu cpu f) where
  irqs := rfl
  enables := rfl
  targets _ := rfl
  priority _ _ := rfl
  cpuEnables := alterCpu_keeps _ he p cpu
  mask := alterCpu_keeps _ hm p cpu
  running := alterCpu_keeps _ hr p cpu

/-! ### Settled states -/

/-- Every CPU is shown what arbitration would show it now. -/
structure Settled (p : Physical cfg) : Prop where
  /-- The interrupt that a CPU is shown is the one that passes its mask. -/
  shown : ∀ c < cfg.cpus, (p.cpus.row c).highestPending = Arbitration.visible (p.decideFor c)
  /-- Its line has the level that was decided. -/
  line : ∀ c < cfg.cpus, (p.cpus.row c).line = Arbitration.raised (p.decideFor c)

/-- Arbitration settles every state. -/
theorem settled_arbitrate (p : Physical cfg) : Settled p.arbitrate.value where
  shown c h := by rw [row_arbitrate p h, (sameInputs_arbitrate p).decideFor_eq]; rfl
  line c h := by rw [row_arbitrate p h, (sameInputs_arbitrate p).decideFor_eq]; rfl

/-- A settled state stays settled under changes that arbitration does not look at. -/
theorem Settled.congr {p q : Physical cfg} (hp : Settled p) (h : SameInputs p q)
    (hs : ∀ c, (q.cpus.row c).highestPending = (p.cpus.row c).highestPending)
    (hl : ∀ c, (q.cpus.row c).line = (p.cpus.row c).line) : Settled q where
  shown c hc := by rw [hs, h.decideFor_eq, hp.shown c hc]
  line c hc := by rw [hl, h.decideFor_eq, hp.line c hc]

/-- Arbitration does not change a settled state. -/
theorem Settled.arbitrate_eq {p : Physical cfg} (hp : Settled p) : p.arbitrate.value = p := by
  have hcpus : p.arbitrate.value.cpus = p.cpus := by
    apply Table.ext_row
    intro c hc
    rw [row_arbitrate p hc, settle, ← hp.shown c hc, ← hp.line c hc]
  calc p.arbitrate.value = { p with cpus := p.arbitrate.value.cpus } := rfl
    _ = p := by rw [hcpus]

/-- Arbitration changes no line of a settled state. -/
theorem Settled.quiet {p : Physical cfg} (hp : Settled p) :
    p.arbitrate.reports.filterMap Event.change? = [] := by
  apply Arbitration.quiet_flatMap
  intro c hc
  rw [hp.line c hc, Table.row_build, if_pos hc]

/-- At power-on no group is enabled, so every CPU is shown nothing. -/
theorem settled_powerOn (cfg : Config) : Settled (powerOn cfg) := by
  have hrow : ∀ c < cfg.cpus, (powerOn cfg).cpus.row c = .powerOn := fun c hc => by
    simp only [powerOn, Table.row_replicate, hc, if_true]
  constructor
  · intro c hc
    rw [hrow c hc]
    rfl
  · intro c hc
    rw [hrow c hc]
    rfl

/-! ### The winner -/

/-- A flag of an interrupt concerns a CPU: its own flag if the interrupt is private, the flag of
any CPU if it is shared. -/
def Flagged (mask : CpuMask) (cpu irq : Nat) : Prop :=
  if irq < numPrivate then mask.getLsbD cpu = true else mask ≠ 0#8

/-- An interrupt is a candidate for a CPU: it is connected, enabled, asks to be handled, is not
active, has the CPU among its targets if it is shared, and does not have the idle priority. -/
structure Competes (p : Physical cfg) (cpu irq : Nat) : Prop where
  connected : irq < cfg.numIrqs
  targeted : numPrivate ≤ irq → (p.distributor.targets irq).getLsbD cpu = true
  enabled : Flagged (p.irqs.row irq).enabled cpu irq
  /-- It is latched as pending, or its level counts, is high and was not signaled. -/
  asks : Flagged (p.irqs.row irq).pending cpu irq ∨
    ((p.irqs.row irq).trigger = .level ∧ Flagged (p.irqs.row irq).level cpu irq ∧
      ¬ Flagged (p.irqs.row irq).signaled cpu irq)
  inactive : ¬ Flagged (p.irqs.row irq).active cpu irq
  urgent : p.priority cpu irq < idle

/-- The first of the most urgent candidates: the least by priority, then by number. -/
def Wins (p : Physical cfg) (cpu irq : Nat) : Prop :=
  Competes p cpu irq ∧ ∀ j, Competes p cpu j →
    p.priority cpu irq < p.priority cpu j ∨ (p.priority cpu irq = p.priority cpu j ∧ irq ≤ j)

theorem meets_view_iff (mask : CpuMask) (irq : Nat) {cpu : Nat} (h : cpu < maxCpus) :
    mask.meets (view irq cpu) = true ↔ Flagged mask cpu irq := by
  unfold view Flagged
  split
  · rw [CpuMask.meets_only mask h]
  · rw [CpuMask.meets_all, bne_iff_ne]

theorem competes_iff (p : Physical cfg) (irq : Nat) {cpu : Nat} (h : cpu < maxCpus) :
    Competes p cpu irq ↔
      irq < cfg.numIrqs ∧ p.isCandidate cpu irq = true ∧ p.priority cpu irq < idle := by
  have hmeets := fun mask => meets_view_iff mask irq h
  simp only [isCandidate, IrqState.isEnabled, IrqState.wanted, IrqState.isPending,
    IrqState.isLevel, IrqState.isSignaled, IrqState.isActive, Bool.and_eq_true, Bool.or_eq_true,
    Bool.not_eq_true', ← Bool.not_eq_true, decide_eq_true_eq, hmeets, CpuMask.has_eq]
  constructor
  · intro hc
    refine ⟨hc.connected, ⟨⟨⟨?_, hc.enabled⟩, ?_⟩, hc.inactive⟩, hc.urgent⟩
    · by_cases hp : irq < numPrivate
      · exact .inl hp
      · exact .inr (hc.targeted (Nat.le_of_not_lt hp))
    · rcases hc.asks with hq | ⟨ht, hl, hs⟩
      · exact .inl hq
      · exact .inr ⟨⟨ht, hl⟩, hs⟩
  · rintro ⟨hn, ⟨⟨⟨ht, he⟩, hw⟩, ha⟩, hu⟩
    refine ⟨hn, fun hp => ?_, he, ?_, ha, hu⟩
    · rcases ht with ht | ht
      · omega
      · exact ht
    · rcases hw with hq | ⟨⟨ht, hl⟩, hs⟩
      · exact .inl hq
      · exact .inr ⟨ht, hl, hs⟩

/-- No candidate is more urgent than the one that the search has found. -/
theorem best_le (p : Physical cfg) (cpu : Nat) {n j : Nat} (hj : j < n)
    (hc : p.isCandidate cpu j = true) : ¬ p.priority cpu j < (p.best cpu n).2 := by
  induction n with
  | zero => exact absurd hj (Nat.not_lt_zero j)
  | succ n ih =>
    simp only [best]
    split
    · rename_i hwins
      rw [Bool.and_eq_true, decide_eq_true_eq] at hwins
      rcases Nat.lt_succ_iff_lt_or_eq.mp hj with hj | rfl
      · exact fun hless => ih hj (BitVec.lt_trans hless hwins.2)
      · exact BitVec.lt_irrefl _
    · rename_i hloses
      rcases Nat.lt_succ_iff_lt_or_eq.mp hj with hj | rfl
      · exact ih hj
      · rwa [hc, Bool.true_and, decide_eq_true_eq] at hloses

/-- The search finds nothing, or a candidate that is strictly more urgent than every earlier
one. -/
theorem best_first (p : Physical cfg) (cpu n : Nat) :
    p.best cpu n = (spurious, idle) ∨
      ∃ irq < n, p.best cpu n = (irq, p.priority cpu irq) ∧ p.isCandidate cpu irq = true ∧
        p.priority cpu irq < idle ∧
        ∀ j < irq, p.isCandidate cpu j = true → p.priority cpu irq < p.priority cpu j := by
  induction n with
  | zero => exact .inl rfl
  | succ n ih =>
    simp only [best]
    split
    · rename_i hwins
      rw [Bool.and_eq_true, decide_eq_true_eq] at hwins
      obtain ⟨hcand, hless⟩ := hwins
      refine .inr ⟨n, Nat.lt_succ_self n, rfl, hcand, ?_, fun j hj hjc => ?_⟩
      · rcases ih with hb | ⟨irq, -, hb, -, hidle, -⟩
        · rwa [hb] at hless
        · rw [hb] at hless
          exact BitVec.lt_trans hless hidle
      · exact Nat.lt_of_lt_of_le hless (BitVec.not_lt.mp (best_le p cpu hj hjc))
    · rcases ih with hb | ⟨irq, hlt, hrest⟩
      · exact .inl hb
      · exact .inr ⟨irq, Nat.lt_succ_of_lt hlt, hrest⟩

/-- The search over all connected interrupts finds the winner, if there is a candidate. -/
theorem best_spec (p : Physical cfg) {cpu : Nat} (h : cpu < maxCpus) :
    (∃ irq, Wins p cpu irq ∧ p.best cpu cfg.numIrqs = (irq, p.priority cpu irq)) ∨
      ((∀ irq, ¬ Competes p cpu irq) ∧ p.best cpu cfg.numIrqs = (spurious, idle)) := by
  rcases best_first p cpu cfg.numIrqs with hb | ⟨irq, hlt, hb, hcand, hidle, hfirst⟩
  · refine .inr ⟨fun irq hc => ?_, hb⟩
    obtain ⟨hlt, hcand, hidle⟩ := (competes_iff p irq h).mp hc
    have hle := best_le p cpu hlt hcand
    rw [hb] at hle
    exact hle hidle
  · refine .inl ⟨irq, ⟨(competes_iff p irq h).mpr ⟨hlt, hcand, hidle⟩, fun j hc => ?_⟩, hb⟩
    obtain ⟨hjlt, hjcand, -⟩ := (competes_iff p j h).mp hc
    have hle := best_le p cpu hjlt hjcand
    rw [hb] at hle
    rcases Nat.lt_or_ge j irq with hj | hj
    · exact .inl (hfirst j hj hjcand)
    · by_cases heq : p.priority cpu irq = p.priority cpu j
      · exact .inr ⟨heq, hj⟩
      · exact .inl (BitVec.lt_of_le_ne (BitVec.not_lt.mp hle) heq)

end Physical

end Gic
