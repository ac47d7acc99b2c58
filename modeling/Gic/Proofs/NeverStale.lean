import Gic.Proofs.Rows

/-!
# Physical arbitration is never stale

Many registers, both kinds of inputs and the completion of backed virtual
interrupts change something that arbitration looks at, and each of them decides
on its own whether arbitration follows. This module shows that none of them
forgets it: every reachable state is settled, so every CPU is shown the winner
among its candidates, if that passes its mask, and its line tells whether it
can preempt what the CPU is running.
-/

namespace Gic

namespace Physical

variable {cfg : Config}

/-! ### Every operation settles what it touches -/

theorem settled_arbitrateIf {w : Written cfg} (h : w.dirty = false → Settled w.state) :
    Settled (arbitrateIf w).value := by
  unfold arbitrateIf
  split
  · exact settled_arbitrate _
  · rename_i hd
    exact h (Bool.not_eq_true _ ▸ hd)

/-- In a settled state, arbitration may as well follow a write that has changed nothing. -/
theorem arbitrateIf_eq {p : Physical cfg} (hp : Settled p) {w : Written cfg}
    (h : w.dirty = false → w.state = p) : (arbitrateIf w).value = w.state.arbitrate.value := by
  unfold arbitrateIf
  split
  · rfl
  · rename_i hd
    rw [h (Bool.not_eq_true _ ▸ hd), hp.arbitrate_eq]
    rfl

/-- A word that is written without a word about it changes nothing that arbitration looks at. -/
theorem settled_writeWord {p : Physical cfg} (hp : Settled p) (cpu : Nat)
    (register : DistributorRegister) (value : Word)
    (h : (p.writeWord cpu register value).value.dirty = false) :
    Settled (p.writeWord cpu register value).value.state := by
  cases register with
  | group n => exact hp.congr ⟨rfl, rfl, fun _ => rfl, fun _ _ => rfl, fun _ => rfl, fun _ => rfl,
      fun _ => rfl⟩ (fun _ => rfl) (fun _ => rfl)
  | trigger n =>
    unfold writeWord at h ⊢
    dsimp only at h ⊢
    split
    · rename_i hn
      simp [hn] at h
    · exact hp
  | control | setEnable | clearEnable | setPending | clearPending | clearActive | sgi =>
    cases h
  | _ => exact hp

/-- A byte that is written without a word about it changes nothing. -/
theorem writeByte_state {p : Physical cfg} {cpu : Nat} {register : DistributorRegister}
    {value : BitVec 8} (h : (p.writeByte cpu register value).dirty = false) :
    (p.writeByte cpu register value).state = p := by
  cases register with
  | priority | targets | setSources =>
    simp only [writeByte] at h ⊢
    split at h
    · cases h
    · rename_i hc
      rw [if_neg hc]
  | clearSources sgi =>
    simp only [writeByte] at h ⊢
    split at h
    · split at h <;> cases h
    · rename_i hc
      rw [if_neg hc]
  | _ => rfl

theorem writeLane_state {w : Written cfg} {cpu offset : Nat} {value : Word} {lane : Nat}
    (h : (writeLane w cpu offset value lane).dirty = false) :
    w.dirty = false ∧ (writeLane w cpu offset value lane).state = w.state := by
  obtain ⟨hw, hnext⟩ := Bool.or_eq_false_iff.mp h
  exact ⟨hw, writeByte_state hnext⟩

theorem writeLanes_state {cpu offset : Nat} {value : Word} (lanes : List Nat) {w : Written cfg}
    (h : (lanes.foldl (fun w lane => writeLane w cpu offset value lane) w).dirty = false) :
    w.dirty = false ∧
      (lanes.foldl (fun w lane => writeLane w cpu offset value lane) w).state = w.state := by
  induction lanes generalizing w with
  | nil => exact ⟨h, rfl⟩
  | cons lane rest ih =>
    obtain ⟨hlane, hrest⟩ := ih h
    obtain ⟨hw, hstate⟩ := writeLane_state hlane
    exact ⟨hw, hrest.trans hstate⟩

/-- Four bytes that are written without a word about it change nothing. -/
theorem writeBytes_state {p : Physical cfg} {cpu offset : Nat} {value : Word}
    (h : (p.writeBytes cpu offset value).dirty = false) :
    (p.writeBytes cpu offset value).state = p :=
  (writeLanes_state [0, 1, 2, 3] h).2

theorem settled_acknowledge {p : Physical cfg} (hp : Settled p) (cpu : Nat) :
    Settled (p.acknowledge cpu).value.2 := by
  rw [acknowledge_value]
  split
  · exact hp
  · exact settled_arbitrate _

theorem settled_complete {p : Physical cfg} (hp : Settled p) (cpu : Nat) (value : Word) :
    Settled (p.complete cpu value).value := by
  rw [complete_value]
  split
  · exact settled_arbitrate _
  · exact hp

/-- Setting a register of an interface that is kept and not looked at. -/
theorem Settled.alterCpu {p : Physical cfg} (hp : Settled p) (cpu : Nat)
    {f : CpuInterface → CpuInterface} (he : ∀ i, (f i).enables = i.enables)
    (hm : ∀ i, (f i).priorityMask = i.priorityMask) (hr : ∀ i, (f i).running = i.running)
    (hs : ∀ i, (f i).highestPending = i.highestPending) (hl : ∀ i, (f i).line = i.line) :
    Settled (p.alterCpu cpu f) :=
  hp.congr (sameInputs_alterCpu he hm hr p cpu) (alterCpu_keeps _ hs p cpu)
    (alterCpu_keeps _ hl p cpu)

theorem settled_writeCpuInterface {p : Physical cfg} (hp : Settled p) (cpu : Nat)
    (register : CpuRegister) (value : Word) :
    Settled (p.writeCpuInterface cpu register value).value := by
  cases register with
  | control | priorityMask => exact settled_arbitrate _
  | binaryPoint | aliasPoint | deactivation =>
    exact hp.alterCpu cpu (fun _ => rfl) (fun _ => rfl) (fun _ => rfl) (fun _ => rfl) fun _ => rfl
  | completion => exact settled_complete hp cpu value
  | activePriorities n =>
    cases n with
    | zero =>
      exact hp.alterCpu cpu (fun _ => rfl) (fun _ => rfl) (fun _ => rfl) (fun _ => rfl)
        fun _ => rfl
    | succ n => exact hp
  | _ => exact hp

end Physical

namespace Controller

variable {cfg : Config}

open Physical

/-- Every rule keeps the physical half settled. -/
theorem Moves.settled {g : Controller cfg} {a : Action} {p : Physical cfg} (h : Moves g a p)
    (hg : Settled g.physical) : Settled p := by
  cases h with
  | stays => exact hg
  | distributorWord => exact settled_arbitrateIf (settled_writeWord hg _ _ _)
  | distributorBytes =>
    exact settled_arbitrateIf fun hd => by rw [writeBytes_state hd]; exact hg
  | distributorByte =>
    exact settled_arbitrateIf fun hd => by rw [writeByte_state hd]; exact hg
  | acknowledges => exact settled_acknowledge hg _
  | interfaceWrite => exact settled_writeCpuInterface hg _ _ _
  | backingEnds | ppiDriven | spiDriven | overdriven | arbitrates => exact settled_arbitrate _
  | powersOn => exact settled_powerOn cfg

theorem Reachable.settled {g : Controller cfg} (h : Reachable g) : Settled g.physical :=
  h.induct (settled_powerOn cfg) fun g a _ hg => (moves_after g a).settled hg

end Controller

namespace Physical

variable {cfg : Config}

/-! ### What the CPUs are shown -/

/-- What a CPU is shown, and the level of its line, follow from the state as it is now. -/
structure Current (p : Physical cfg) (cpu : Nat) : Prop where
  /-- With no group enabled at the distributor or at the interface, nothing is shown. -/
  closed : p.distributor.enables = .none ∨ (p.cpus.row cpu).enables = .none →
    (p.cpus.row cpu).highestPending = spurious ∧ (p.cpus.row cpu).line = false
  /-- Otherwise the winner is shown, if it passes the mask. -/
  shown : p.distributor.enables ≠ .none → (p.cpus.row cpu).enables ≠ .none →
    (∃ irq, Wins p cpu irq ∧ (p.cpus.row cpu).highestPending =
        if p.priority cpu irq < (p.cpus.row cpu).priorityMask then irq else spurious) ∨
      ((∀ irq, ¬ Competes p cpu irq) ∧ (p.cpus.row cpu).highestPending = spurious)
  /-- The line is raised if what is shown is more urgent than what is running. -/
  line : p.distributor.enables ≠ .none → (p.cpus.row cpu).enables ≠ .none →
    ((p.cpus.row cpu).line = true ↔ (p.cpus.row cpu).highestPending ≠ spurious ∧
      p.priority cpu (p.cpus.row cpu).highestPending < (p.cpus.row cpu).running)

theorem any_eq_false_iff (e : GroupEnables) : e.any = false ↔ e = .none := by
  obtain ⟨group0, group1⟩ := e
  cases group0 <;> cases group1 <;> decide

theorem isOpen_eq_false_iff (p : Physical cfg) (cpu : Nat) :
    p.isOpen cpu = false ↔ p.distributor.enables = .none ∨ (p.cpus.row cpu).enables = .none := by
  rw [isOpen, Bool.and_eq_false_iff, any_eq_false_iff, any_eq_false_iff]

theorem decideFor_of_closed {p : Physical cfg} {cpu : Nat} (h : p.isOpen cpu = false) :
    p.decideFor cpu = none := by
  simp only [decideFor, h, Bool.false_eq_true, if_false]

/-- What an open CPU is shown of a winner. -/
theorem visible_of_best {p : Physical cfg} {cpu irq : Nat} (ho : p.isOpen cpu = true)
    (hb : p.best cpu cfg.numIrqs = (irq, p.priority cpu irq)) :
    Arbitration.visible (p.decideFor cpu) =
      if p.priority cpu irq < (p.cpus.row cpu).priorityMask then irq else spurious := by
  simp only [decideFor, ho, if_true, hb, Arbitration.visible]
  by_cases hs : irq = spurious <;> simp [hs]

/-- The line of an open CPU that has a winner. -/
theorem raised_of_best {p : Physical cfg} {cpu irq : Nat} (ho : p.isOpen cpu = true)
    (hb : p.best cpu cfg.numIrqs = (irq, p.priority cpu irq)) :
    Arbitration.raised (p.decideFor cpu) = true ↔
      irq ≠ spurious ∧ p.priority cpu irq < (p.cpus.row cpu).priorityMask ∧
        p.priority cpu irq < (p.cpus.row cpu).running := by
  simp only [decideFor, ho, if_true, hb, Arbitration.raised, Bool.and_eq_true, decide_eq_true_eq,
    and_assoc]

/-- Nothing is shown of no winner. -/
theorem decideFor_of_no_best {p : Physical cfg} {cpu : Nat}
    (hb : p.best cpu cfg.numIrqs = (spurious, idle)) :
    Arbitration.visible (p.decideFor cpu) = spurious ∧
      Arbitration.raised (p.decideFor cpu) = false := by
  unfold decideFor
  split
  · simp only [hb, Arbitration.visible, Arbitration.raised]
    exact ⟨ite_self _, rfl⟩
  · exact ⟨rfl, rfl⟩

/-- In a settled state every CPU that can be served is shown its winner. -/
theorem Settled.current {p : Physical cfg} (hp : Settled p) (hn : cfg.numIrqs ≤ maxIrqs)
    {cpu : Nat} (hc : cpu < cfg.cpus) (hm : cpu < maxCpus) : Current p cpu := by
  have hshown := hp.shown cpu hc
  have hline := hp.line cpu hc
  cases ho : p.isOpen cpu with
  | false =>
    have hclosed := (isOpen_eq_false_iff p cpu).mp ho
    rw [decideFor_of_closed ho] at hshown hline
    exact ⟨fun _ => ⟨hshown, hline⟩, fun hd hi => absurd hclosed (not_or.mpr ⟨hd, hi⟩),
      fun hd hi => absurd hclosed (not_or.mpr ⟨hd, hi⟩)⟩
  | true =>
    refine ⟨fun hclosed => ?_, fun _ _ => ?_, fun _ _ => ?_⟩
    · rw [(isOpen_eq_false_iff p cpu).mpr hclosed] at ho
      cases ho
    · rcases best_spec p hm with ⟨irq, hw, hb⟩ | ⟨hnone, hb⟩
      · exact .inl ⟨irq, hw, hshown.trans (visible_of_best ho hb)⟩
      · exact .inr ⟨hnone, hshown.trans (decideFor_of_no_best hb).1⟩
    · rcases best_spec p hm with ⟨irq, hw, hb⟩ | ⟨hnone, hb⟩
      · have hirq : irq ≠ spurious := by
          have := hw.1.connected
          simp only [maxIrqs, spurious] at *
          omega
        rw [hshown, visible_of_best ho hb, hline, raised_of_best ho hb]
        split
        · rename_i hmask
          simp only [hirq, hmask, ne_eq, not_false_eq_true, true_and]
        · rename_i hmask
          simp only [hmask, false_and, and_false, ne_eq, not_true_eq_false]
      · rw [hshown, hline, (decideFor_of_no_best hb).1, (decideFor_of_no_best hb).2]
        simp only [Bool.false_eq_true, ne_eq, not_true_eq_false, false_and]

/-- What a CPU is shown is a candidate. -/
theorem Settled.competes {p : Physical cfg} (hp : Settled p) (hn : cfg.numIrqs ≤ maxIrqs)
    {cpu : Nat} (hc : cpu < cfg.cpus) (hm : cpu < maxCpus)
    (h : (p.cpus.row cpu).highestPending ≠ spurious) :
    Competes p cpu (p.cpus.row cpu).highestPending := by
  have hcurrent := hp.current hn hc hm
  have hopen : ¬ (p.distributor.enables = .none ∨ (p.cpus.row cpu).enables = .none) :=
    fun hclosed => h (hcurrent.closed hclosed).1
  obtain ⟨hd, hi⟩ := not_or.mp hopen
  rcases hcurrent.shown hd hi with ⟨irq, hw, hs⟩ | ⟨-, hs⟩
  · split at hs
    · rw [hs]
      exact hw.1
    · exact absurd hs h
  · exact absurd hs h

end Physical

namespace Controller

variable {cfg : Config}

theorem Reachable.current (hv : cfg.validate = .ok ()) {g : Controller cfg} (hg : Reachable g)
    {cpu : Nat} (hc : cpu < cfg.cpus) : g.physical.Current cpu := by
  obtain ⟨-, hcpus, hirqs⟩ := Config.bounds_of_validate hv
  exact hg.settled.current hirqs hc (Nat.lt_of_lt_of_le hc hcpus)

/-- In every reachable state each connected CPU is shown its winner and has its line accordingly,
so deciding once more changes nothing, and no line is reported. -/
theorem arbitration_never_stale (hv : cfg.validate = .ok ()) {g : Controller cfg}
    (hg : Reachable g) :
    (∀ cpu < cfg.cpus, g.physical.Current cpu) ∧
      (g.update .physical).value = g ∧
      (g.update .physical).reports.filterMap Event.change? = [] := by
  obtain ⟨-, hcpus, hirqs⟩ := Config.bounds_of_validate hv
  have hsettled := hg.settled
  refine ⟨fun cpu hc => hsettled.current hirqs hc (Nat.lt_of_lt_of_le hc hcpus), ?_, ?_⟩
  · show { g with physical := g.physical.arbitrate.value } = g
    rw [hsettled.arbitrate_eq]
  · show (g.physical.arbitrate.reports ++ []).filterMap Event.change? = []
    rw [List.append_nil, hsettled.quiet]

/-- A shared interrupt is enabled, targeted and driven high, with everything else open to it. -/
theorem arbitration_never_stale_shared_input :
    let g := (powerOn Config.standard).run
      [.write .distributor (.cpu 0) 0x000 1 .word, .write .cpuInterface (.cpu 0) 0x00 1 .word,
        .write .cpuInterface (.cpu 0) 0x04 0xf0 .word, .write .distributor (.cpu 0) 0x104 1 .word,
        .write .distributor (.cpu 0) 0x820 1 .byte, .spi 0 true]
    Config.standard.validate = .ok () ∧ Reachable g ∧
      (∀ cpu < Config.standard.cpus, g.physical.Current cpu) ∧
      (g.update .physical).value = g ∧
      (g.update .physical).reports.filterMap Event.change? = [] :=
  ⟨rfl, reachable_run _, arbitration_never_stale rfl (reachable_run _)⟩

end Controller

end Gic
