import Gic.Proofs.Arbitration
import Gic.Proofs.Run

/-!
# What accesses do to the interrupts

A write changes the flags of an interrupt, one after the other and for some
CPUs; most writes leave most flags alone. This module says which operation of
the physical half can touch which part of an interrupt's state.

## The model

A part of the state is a function `φ` of it. An operation that only sets flags
that `φ` does not show keeps `φ` for every interrupt, so each lemma below asks
for the setters that its operation uses, and for no others.

## What is proved

* `Shaped` — the number of instances of an interrupt never changes, and a
  software generated interrupt is always triggered by an edge
  (`Reachable.shaped`). No register can set either.
-/

namespace Gic

namespace IrqState

variable {β : Type} {φ : IrqState → β}

/-- A part of the state that shows none of its flags. -/
structure Flagless (φ : IrqState → β) : Prop where
  enabled : ∀ r v m, φ (setEnabled r v m) = φ r
  pending : ∀ r v m, φ (setPending r v m) = φ r
  active : ∀ r v m, φ (setActive r v m) = φ r
  level : ∀ r v m, φ (setLevel r v m) = φ r
  signaled : ∀ r v m, φ (setSignaled r v m) = φ r

theorem flagless_routing : Flagless routing :=
  ⟨fun _ _ _ => rfl, fun _ _ _ => rfl, fun _ _ _ => rfl, fun _ _ _ => rfl, fun _ _ _ => rfl⟩

theorem flagless_trigger : Flagless trigger :=
  ⟨fun _ _ _ => rfl, fun _ _ _ => rfl, fun _ _ _ => rfl, fun _ _ _ => rfl, fun _ _ _ => rfl⟩

theorem enable_keeps (he : ∀ r v m, φ (setEnabled r v m) = φ r)
    (hp : ∀ r v m, φ (setPending r v m) = φ r) (r : IrqState) (mask : CpuMask) :
    φ (r.enable mask) = φ r := by
  unfold enable
  dsimp only
  split
  · rw [hp, he]
  · rw [he]

theorem drive_keeps (hl : ∀ r v m, φ (setLevel r v m) = φ r)
    (hs : ∀ r v m, φ (setSignaled r v m) = φ r) (hp : ∀ r v m, φ (setPending r v m) = φ r)
    (r : IrqState) (value : Bool) (mask targets : CpuMask) :
    φ (r.drive value mask targets) = φ r := by
  unfold drive
  dsimp only
  split
  · rw [hp, hs, hl]
  · rw [hs, hl]

/-- An edge that is latched for nobody leaves the latch. -/
theorem pending_drive_zero (r : IrqState) (value : Bool) (mask : CpuMask) :
    (r.drive value mask 0#8).pending = r.pending := by
  unfold drive
  dsimp only
  split
  · exact r.pending.assign_zero true
  · rfl

theorem acknowledge_keeps (ha : ∀ r v m, φ (setActive r v m) = φ r)
    (hs : ∀ r v m, φ (setSignaled r v m) = φ r) (r : IrqState) (cpu : Nat) :
    φ (r.acknowledge cpu) = φ r := by
  rw [acknowledge, hs, ha]

theorem complete_keeps (ha : ∀ r v m, φ (setActive r v m) = φ r)
    (hs : ∀ r v m, φ (setSignaled r v m) = φ r) (r : IrqState) (cpu : Nat) :
    φ (r.complete cpu) = φ r := by
  rw [complete, hs, ha]

end IrqState

namespace Physical

variable {cfg : Config} {β : Type} {φ : IrqState → β}

/-! ### Writes to the distributor -/

theorem row_alterSelected (p : Physical cfg) (n : Nat) (value : Word)
    (f : Nat → IrqState → IrqState) {i : Nat} (h : i < maxIrqs) :
    (p.alterSelected n value f).irqs.row i =
      if selects cfg n value i then f i (p.irqs.row i) else p.irqs.row i := by
  simp only [alterSelected, Table.row_mapRows, h, if_true]

/-- A word that changes none of the interrupts that it selects changes nothing. -/
theorem alterSelected_eq_self (p : Physical cfg) {n : Nat} {value : Word}
    {f : Nat → IrqState → IrqState} (h : ∀ i r, selects cfg n value i = true → f i r = r) :
    p.alterSelected n value f = p := by
  have hirqs : (p.alterSelected n value f).irqs = p.irqs := Table.ext_row fun i hi => by
    rw [row_alterSelected p n value f hi]
    split
    · rename_i hselected
      exact h i _ hselected
    · rfl
  calc p.alterSelected n value f = { p with irqs := (p.alterSelected n value f).irqs } := rfl
    _ = p := by rw [hirqs]

theorem alterSelected_keeps (p : Physical cfg) (n : Nat) (value : Word)
    {f : Nat → IrqState → IrqState} {i : Nat} (hf : ∀ r, φ (f i r) = φ r) :
    φ ((p.alterSelected n value f).irqs.row i) = φ (p.irqs.row i) := by
  apply Table.mapRows_keeps
  intro r
  split
  · exact hf r
  · rfl

theorem writeByte_keeps (hp : ∀ r v m, φ (IrqState.setPending r v m) = φ r)
    (hs : ∀ r v m, φ (IrqState.setSignaled r v m) = φ r) (p : Physical cfg) (cpu : Nat)
    (register : DistributorRegister) (value : BitVec 8) (i : Nat) :
    φ ((p.writeByte cpu register value).state.irqs.row i) = φ (p.irqs.row i) := by
  cases register with
  | priority | targets =>
    simp only [writeByte]
    split <;> rfl
  | setSources sgi =>
    simp only [writeByte]
    split
    · exact alterIrq_keeps φ (fun r => by rw [hs, hp]) p sgi i
    · rfl
  | clearSources sgi =>
    simp only [writeByte]
    split
    · split
      · exact alterIrq_keeps φ (fun r => hp r _ _) p sgi i
      · rfl
    · rfl
  | _ => rfl

/-- What each byte keeps is kept by all four. -/
theorem writeBytes_induct {P : Physical cfg → Prop} {cpu : Nat}
    (keep : ∀ (p : Physical cfg) register value, P p → P (p.writeByte cpu register value).state)
    {p : Physical cfg} (hp : P p) (offset : Nat) (value : Word) :
    P (p.writeBytes cpu offset value).state :=
  keep _ _ _ (keep _ _ _ (keep _ _ _ (keep _ _ _ hp)))

theorem writeWord_keeps {i : Nat} {register : DistributorRegister}
    (he : ∀ r v m, φ (IrqState.setEnabled r v m) = φ r)
    (hp : ∀ r v m, φ (IrqState.setPending r v m) = φ r)
    (hs : ∀ r v m, φ (IrqState.setSignaled r v m) = φ r)
    (ha : ∀ n, register = .clearActive n → ∀ r v m, φ (IrqState.setActive r v m) = φ r)
    (ht : numSgis ≤ i → ∀ (r : IrqState) trigger, φ { r with trigger } = φ r)
    (p : Physical cfg) (cpu : Nat) (value : Word) :
    φ ((p.writeWord cpu register value).value.state.irqs.row i) = φ (p.irqs.row i) := by
  cases register with
  | setEnable n =>
    apply alterSelected_keeps
    intro r
    split
    · rfl
    · exact IrqState.enable_keeps he hp r _
  | clearEnable n =>
    apply alterSelected_keeps
    intro r
    split
    · rfl
    · exact he r _ _
  | setPending n =>
    apply alterSelected_keeps
    intro r
    split
    · rfl
    · split <;> exact hp r _ _
  | clearPending n =>
    apply alterSelected_keeps
    intro r
    split
    · rfl
    · exact hp r _ _
  | clearActive n => exact alterSelected_keeps p n value fun r => ha n rfl r _ _
  | trigger n =>
    simp only [writeWord]
    split
    · rename_i hn
      apply Table.mapRows_keeps
      intro r
      split
      · rename_i hi
        -- The triggers of the software generated interrupts are those of word 0.
        refine ht ?_ r _
        simp only [numSgis]
        omega
      · rfl
    · rfl
  | sgi =>
    simp only [writeWord, requestSgi]
    split
    · rfl
    · exact alterIrq_keeps φ (fun r => by rw [hs, hp]) p _ i
  | _ => rfl

@[simp] theorem arbitrateIf_irqs (w : Written cfg) : (arbitrateIf w).value.irqs = w.state.irqs := by
  unfold arbitrateIf
  split <;> rfl

@[simp] theorem arbitrateIf_distributor (w : Written cfg) :
    (arbitrateIf w).value.distributor = w.state.distributor := by
  unfold arbitrateIf
  split <;> rfl

@[simp] theorem stack_arbitrateIf (w : Written cfg) (c : Nat) :
    ((arbitrateIf w).value.cpus.row c).stack = (w.state.cpus.row c).stack := by
  unfold arbitrateIf
  split
  · exact stack_arbitrate _ _
  · rfl

/-! ### Accesses to the CPU interfaces -/

/-- An acknowledge starts nothing: the CPU is shown nothing, or nothing that can preempt. -/
def Refuses (p : Physical cfg) (cpu : Nat) : Prop :=
  (p.cpus.row cpu).highestPending = spurious ∨
    (p.cpus.row cpu).running ≤ p.priority cpu (p.cpus.row cpu).highestPending

instance (p : Physical cfg) (cpu : Nat) : Decidable (Refuses p cpu) :=
  inferInstanceAs (Decidable (_ ∨ _))

/-- The CPU that an acknowledge names as the source of an SGI. -/
def firstSource (p : Physical cfg) (cpu sgi : Nat) : Nat :=
  (p.distributor.sources cpu sgi).lowest?.getD 0

/-- An interrupt is taken: one source of an SGI, any other as a whole. -/
def take (p : Physical cfg) (cpu irq : Nat) : Physical cfg :=
  if irq < numSgis then p.takeSgi cpu irq (p.firstSource cpu irq) else p.takeIrq cpu irq

theorem acknowledge_value (p : Physical cfg) (cpu : Nat) :
    (p.acknowledge cpu).value =
      if Refuses p cpu then (BitVec.ofNat 32 spurious, p)
      else
        let irq := (p.cpus.row cpu).highestPending
        (if irq < numSgis then tagged irq (p.firstSource cpu irq) else BitVec.ofNat 32 irq,
          ((p.take cpu irq).start cpu irq (p.priority cpu irq)).arbitrate.value) := by
  unfold acknowledge
  dsimp only
  by_cases hs : (p.cpus.row cpu).highestPending = spurious
  · have hrefused : Refuses p cpu := .inl hs
    rw [if_pos hs, if_pos hrefused, Traced.value_pure]
  · rw [if_neg hs]
    by_cases hr : (p.cpus.row cpu).running ≤ p.priority cpu (p.cpus.row cpu).highestPending
    · have hrefused : Refuses p cpu := .inr hr
      rw [if_pos hr, if_pos hrefused]
      rfl
    · have hallowed : ¬ Refuses p cpu := not_or.mpr ⟨hs, hr⟩
      rw [if_neg hr, if_neg hallowed]
      simp only [Traced.value_bind, Traced.value_pure, decide_eq_true_eq]
      rfl

theorem complete_value (p : Physical cfg) (cpu : Nat) (value : Word) :
    (p.complete cpu value).value =
      if value.field 0 10 < cfg.numIrqs ∧ (p.cpus.row cpu).isRunning (value.field 0 10) = true then
        ((p.alterCpu cpu fun i => i.drop (value.field 0 10)).deactivate cpu
          (value.field 0 10)).arbitrate.value
      else p := by
  unfold complete
  dsimp only
  by_cases hn : cfg.numIrqs ≤ value.field 0 10
  · rw [if_pos hn, if_neg fun h => Nat.not_le.mpr h.1 hn]
    rfl
  · rw [if_neg hn]
    by_cases hr : (p.cpus.row cpu).isRunning (value.field 0 10) = true
    · rw [if_pos hr, if_pos ⟨Nat.not_le.mp hn, hr⟩]
      rfl
    · have hnot : ¬ (value.field 0 10 < cfg.numIrqs ∧
          (p.cpus.row cpu).isRunning (value.field 0 10) = true) := fun h => hr h.2
      rw [if_neg hr, if_neg hnot]
      split <;> rfl

theorem takeSgi_keeps (hp : ∀ r v m, φ (IrqState.setPending r v m) = φ r) (p : Physical cfg)
    (cpu sgi source i : Nat) :
    φ ((p.takeSgi cpu sgi source).irqs.row i) = φ (p.irqs.row i) := by
  simp only [takeSgi]
  split
  · exact alterIrq_keeps φ (fun r => hp r _ _) _ sgi i
  · rfl

theorem take_keeps (hp : ∀ r v m, φ (IrqState.setPending r v m) = φ r) (p : Physical cfg)
    (cpu irq i : Nat) : φ ((p.take cpu irq).irqs.row i) = φ (p.irqs.row i) := by
  unfold take
  split
  · exact takeSgi_keeps hp p _ _ _ i
  · exact alterIrq_keeps φ (fun r => hp r _ _) p _ i

theorem acknowledge_keeps (hp : ∀ r v m, φ (IrqState.setPending r v m) = φ r)
    (hs : ∀ r v m, φ (IrqState.setSignaled r v m) = φ r)
    (ha : ∀ r v m, φ (IrqState.setActive r v m) = φ r) (p : Physical cfg) (cpu i : Nat) :
    φ ((p.acknowledge cpu).value.2.irqs.row i) = φ (p.irqs.row i) := by
  rw [acknowledge_value]
  split
  · rfl
  · simp only [arbitrate_irqs, start, alterCpu_irqs]
    rw [alterIrq_keeps φ fun r => IrqState.acknowledge_keeps ha hs r cpu]
    exact take_keeps hp p cpu _ i

theorem deactivate_keeps (ha : ∀ r v m, φ (IrqState.setActive r v m) = φ r)
    (hs : ∀ r v m, φ (IrqState.setSignaled r v m) = φ r) (p : Physical cfg) (cpu irq i : Nat) :
    φ ((p.deactivate cpu irq).irqs.row i) = φ (p.irqs.row i) :=
  alterIrq_keeps φ (fun r => IrqState.complete_keeps ha hs r cpu) p irq i

theorem complete_keeps (ha : ∀ r v m, φ (IrqState.setActive r v m) = φ r)
    (hs : ∀ r v m, φ (IrqState.setSignaled r v m) = φ r) (p : Physical cfg) (cpu : Nat)
    (value : Word) (i : Nat) :
    φ ((p.complete cpu value).value.irqs.row i) = φ (p.irqs.row i) := by
  rw [complete_value]
  split
  · exact deactivate_keeps ha hs _ cpu _ i
  · rfl

theorem writeCpuInterface_keeps (ha : ∀ r v m, φ (IrqState.setActive r v m) = φ r)
    (hs : ∀ r v m, φ (IrqState.setSignaled r v m) = φ r) (p : Physical cfg) (cpu : Nat)
    (register : CpuRegister) (value : Word) (i : Nat) :
    φ ((p.writeCpuInterface cpu register value).value.irqs.row i) = φ (p.irqs.row i) := by
  cases register with
  | completion => exact complete_keeps ha hs p cpu value i
  | activePriorities n => cases n <;> rfl
  | _ => rfl

theorem distributor_writeCpuInterface (p : Physical cfg) (cpu : Nat) (register : CpuRegister)
    (value : Word) :
    (p.writeCpuInterface cpu register value).value.distributor = p.distributor := by
  cases register with
  | completion =>
    show (p.complete cpu value).value.distributor = p.distributor
    rw [complete_value]
    split <;> rfl
  | activePriorities n => cases n <;> rfl
  | _ => rfl

/-! ### What no access can set -/

/-- Private interrupts have an instance for each CPU, shared ones have a single one, and software
generated interrupts are triggered by edges. -/
structure Shaped (p : Physical cfg) : Prop where
  routing : ∀ i < maxIrqs,
    (p.irqs.row i).routing = if i < numPrivate then .perCpu else .single
  trigger : ∀ i < numSgis, (p.irqs.row i).trigger = .edge

theorem shaped_powerOn (cfg : Config) : Shaped (powerOn cfg) where
  routing i hi := by
    simp only [powerOn, Store.powerOn, Table.row_build, hi, if_true]
    by_cases hsgi : i < numSgis
    · have : i < numPrivate := Nat.lt_trans hsgi (by decide)
      simp only [hsgi, this, if_true]
      rfl
    · by_cases hprivate : i < numPrivate
      · simp only [hsgi, hprivate, if_true, if_false]
        rfl
      · simp only [hsgi, hprivate, if_false]
        rfl
  trigger i hi := by
    have : i < maxIrqs := Nat.lt_trans hi (by decide)
    simp only [powerOn, Store.powerOn, Table.row_build, hi, this, if_true]
    rfl

theorem Shaped.scope_eq {p : Physical cfg} (hp : Shaped p) {i : Nat} (hi : i < maxIrqs)
    (cpu : Nat) : (p.irqs.row i).scope cpu = view i cpu := by
  unfold IrqState.scope view
  rw [hp.routing i hi]
  split
  · rename_i h
    split at h
    · cases h
    · rename_i hi
      rw [if_neg hi]
  · rename_i h
    split at h
    · rename_i hi
      rw [if_pos hi]
    · cases h

end Physical

namespace Controller

variable {cfg : Config} {β : Type} {φ : IrqState → β}

open IrqState Physical

/-- What shows no flag but the level is kept by every rule but power-on, if it is kept when the
input of the interrupt is driven; the trigger is kept at least for the software generated
interrupts. -/
theorem Moves.keeps_of_drives {g : Controller cfg} {a : Action} {p : Physical cfg}
    (h : Moves g a p) {i : Nat} (he : ∀ r v m, φ (setEnabled r v m) = φ r)
    (hp : ∀ r v m, φ (setPending r v m) = φ r) (ha : ∀ r v m, φ (setActive r v m) = φ r)
    (hs : ∀ r v m, φ (setSignaled r v m) = φ r)
    (ht : numSgis ≤ i → ∀ (r : IrqState) trigger, φ { r with trigger } = φ r)
    (hppi : ∀ cpu < cfg.cpus, numSgis ≤ i → ∀ level r,
      φ (drive r level (.only cpu) (.only cpu)) = φ r)
    (hspi : numPrivate ≤ i → ∀ level targets r, φ (drive r level .all targets) = φ r)
    (hover : ∀ level, a.Overdrives i level → ∀ r, φ (drive r level .all 0#8) = φ r) :
    (a = .reset ∧ p = .powerOn cfg) ∨ φ (p.irqs.row i) = φ (g.physical.irqs.row i) := by
  have hdriven : ∀ {irq : Nat} {f : IrqState → IrqState}, (irq = i → ∀ r, φ (f r) = φ r) →
      φ (((g.physical.alterIrq irq f).arbitrate.value.irqs).row i) =
        φ (g.physical.irqs.row i) := by
    intro irq f hf
    rw [arbitrate_irqs, row_alterIrq]
    split
    · rename_i hirq
      exact hf hirq.1 _
    · rfl
  cases h with
  | stays => exact .inr rfl
  | distributorWord =>
    rw [arbitrateIf_irqs]
    exact .inr (writeWord_keeps he hp hs (fun _ _ => ha) ht _ _ _)
  | distributorBytes =>
    rw [arbitrateIf_irqs]
    exact .inr (writeBytes_induct (P := fun p => φ (p.irqs.row i) = φ (g.physical.irqs.row i))
      (fun p _ _ h => (writeByte_keeps hp hs p _ _ _ i).trans h) rfl _ _)
  | distributorByte =>
    rw [arbitrateIf_irqs]
    exact .inr (writeByte_keeps hp hs _ _ _ _ i)
  | acknowledges => exact .inr (acknowledge_keeps hp hs ha _ _ i)
  | interfaceWrite => exact .inr (writeCpuInterface_keeps ha hs _ _ _ _ i)
  | backingEnds => exact .inr (deactivate_keeps ha hs _ _ _ i)
  | ppiDriven hcpu =>
    exact .inr (hdriven fun hirq => hppi _ hcpu (hirq ▸ Nat.le_add_right _ _) _)
  | spiDriven shared => exact .inr (hdriven fun hirq => hspi (hirq ▸ shared) _ _)
  | overdriven overdrives => exact .inr (hdriven fun hirq => hover _ (hirq ▸ overdrives))
  | arbitrates => exact .inr rfl
  | powersOn => exact .inl ⟨rfl, rfl⟩

/-- What shows no flag is kept by every rule but power-on; the trigger is kept at least for the
software generated interrupts. -/
theorem Moves.keeps {g : Controller cfg} {a : Action} {p : Physical cfg} (h : Moves g a p)
    {i : Nat} (hφ : Flagless φ)
    (ht : numSgis ≤ i → ∀ (r : IrqState) trigger, φ { r with trigger } = φ r) :
    p = .powerOn cfg ∨ φ (p.irqs.row i) = φ (g.physical.irqs.row i) := by
  obtain ⟨he, hp, ha, hl, hs⟩ := hφ
  exact (h.keeps_of_drives he hp ha hs ht (fun _ _ _ level r => drive_keeps hl hs hp r level _ _)
    (fun _ level _ r => drive_keeps hl hs hp r level _ _)
    (fun level _ r => drive_keeps hl hs hp r level _ _)).imp_left And.right

theorem Moves.shaped {g : Controller cfg} {a : Action} {p : Physical cfg} (h : Moves g a p)
    (hg : Shaped g.physical) : Shaped p where
  routing i hi := by
    rcases h.keeps (φ := IrqState.routing) (i := i) flagless_routing fun _ _ _ => rfl with rfl | hk
    · exact (shaped_powerOn cfg).routing i hi
    · rw [hk, hg.routing i hi]
  trigger i hi := by
    rcases h.keeps (φ := IrqState.trigger) (i := i) flagless_trigger
      fun hge => absurd hi (Nat.not_lt.mpr hge) with rfl | hk
    · exact (shaped_powerOn cfg).trigger i hi
    · rw [hk, hg.trigger i hi]

theorem Reachable.shaped {g : Controller cfg} (h : Reachable g) : Shaped g.physical :=
  h.induct (shaped_powerOn cfg) fun g a _ hg => (moves_after g a).shaped hg

end Controller

end Gic
