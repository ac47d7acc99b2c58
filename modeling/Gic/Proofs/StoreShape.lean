import Gic.Proofs.Effects
import Gic.Proofs.GuestIsolation
import Gic.Proofs.Ownership
import Gic.Proofs.SgiDelivery

/-!
# The store keeps its shape

Each flag of each of the 512 interrupts is kept as a set of eight CPUs, whatever
the configuration connects. A private interrupt has an instance for every
connected CPU, a shared one has a single instance whose flags are all set or all
clear, and an interrupt that is not connected has none. No write is refused for
this: each operation cuts what is written down to what is connected, in a way of
its own. The triggers are kept twice, as words of the distributor and with each
interrupt. This module shows that all of this stays in shape, but for one thing:
the index of a shared input can be so large that the number of the interrupt, a
sum of 64 bits, is that of a private one, which then takes a level for all CPUs.

## The model

* `CpuMask.Within` and `CpuMask.Whole` — a set of connected CPUs, and one that is
  empty or full; `Config.Admits` says which of the two an interrupt's flags are.
* `Formed cfg word irq r` — the state `r` of an interrupt has its shape, its
  trigger being the one that the trigger word `word` gives to it.
* `Physical.Stored` and `Physical.Registered` — all interrupts have their shape,
  and so have the tables of the distributor.
* `KeepsShape` — what follows from both, with the trigger words as they are read;
  `InShape` — and the levels of private interrupts are in shape as well.
* `LeftHigh` — a private interrupt has taken the high level in that way, and has
  not lost it since.

## What is proved

* `Formed.setEnabled`, …, `Formed.complete` — a flag that is set for CPUs for
  which it can be kept leaves an interrupt in shape.
* `Moves.stored`, `Moves.registered` — so does every operation.
* `level_run` — where a private interrupt has no input, its level is high if and
  only if it was left high.
* `store_keeps_its_shape` — the store has its shape in every reachable state, but
  for those levels; `store_loses_its_shape` — and one call is enough to lose it.
-/

namespace Gic

namespace CpuMask

/-- There are only CPUs below a number in the set. -/
def Within (mask : CpuMask) (cpus : Nat) : Prop := ∀ c, mask.getLsbD c = true → c < cpus

/-- The set is empty, or every CPU is in it. -/
def Whole (mask : CpuMask) : Prop := mask = 0#8 ∨ mask = .all

variable {mask chosen : CpuMask} {cpus : Nat}

theorem within_zero (cpus : Nat) : Within 0#8 cpus := by
  intro c hc
  rw [BitVec.getLsbD_zero] at hc
  cases hc

theorem within_only {cpu : Nat} (h : cpu < cpus) : (only cpu).Within cpus := by
  intro c hc
  rw [getLsbD_only, Bool.and_eq_true, decide_eq_true_eq, decide_eq_true_eq] at hc
  obtain ⟨-, rfl⟩ := hc
  exact h

theorem within_first (cpus : Nat) : (first cpus).Within cpus := by
  intro c hc
  rw [getLsbD_first, Bool.and_eq_true, decide_eq_true_eq] at hc
  exact hc.1

theorem within_and_first (mask : CpuMask) (cpus : Nat) : (mask &&& first cpus).Within cpus := by
  intro c hc
  rw [BitVec.getLsbD_and, Bool.and_eq_true] at hc
  exact within_first cpus c hc.2

/-- Taking CPUs in or out that belong there. -/
theorem Within.assign (h : mask.Within cpus) (hchosen : chosen.Within cpus) (value : Bool) :
    (mask.assign chosen value).Within cpus := by
  intro c hc
  rw [getLsbD_assign] at hc
  split at hc
  · rename_i htaken
    exact hchosen c htaken
  · exact h c hc

/-- Taking CPUs out, of whatever set. -/
theorem Within.clear (h : mask.Within cpus) (chosen : CpuMask) :
    (mask.assign chosen false).Within cpus := by
  intro c hc
  exact h c ((getLsbD_assign_false mask chosen c).mp hc).1

theorem Whole.assign (h : mask.Whole) (hchosen : chosen.Whole) (value : Bool) :
    (mask.assign chosen value).Whole := by
  rcases hchosen with rfl | rfl
  · rw [assign_zero]
    exact h
  · cases value with
    | false => exact .inl (assign_all_false mask)
    | true => exact .inr (assign_all_true mask)

end CpuMask

open CpuMask
open Physical (view triggerOf)

/-- The sets of CPUs for which a flag of an interrupt can be kept: connected ones if it is private,
all or none if it is shared. -/
def Config.Admits (cfg : Config) (irq : Nat) (mask : CpuMask) : Prop :=
  if irq < numPrivate then mask.Within cfg.cpus else mask.Whole

namespace Config

variable {cfg : Config} {irq : Nat} {mask chosen : CpuMask}

/-- Every private interrupt is connected. -/
theorem lt_numIrqs (h : irq < numPrivate) : irq < cfg.numIrqs :=
  Nat.lt_of_lt_of_le h (Nat.le_add_right _ _)

theorem sgi_lt_numIrqs (h : irq < numSgis) : irq < cfg.numIrqs :=
  lt_numIrqs (Nat.lt_trans h (by decide))

theorem admits_private (h : irq < numPrivate) : cfg.Admits irq mask ↔ mask.Within cfg.cpus := by
  rw [Admits, if_pos h]

theorem admits_shared (h : numPrivate ≤ irq) : cfg.Admits irq mask ↔ mask.Whole := by
  rw [Admits, if_neg (Nat.not_lt.mpr h)]

theorem admits_zero (cfg : Config) (irq : Nat) : cfg.Admits irq 0#8 := by
  unfold Admits
  split
  · exact within_zero _
  · exact .inl rfl

/-- What a CPU sees of an interrupt is one of those sets. -/
theorem admits_view {cpu : Nat} (hc : cpu < cfg.cpus) (irq : Nat) :
    cfg.Admits irq (view irq cpu) := by
  unfold Admits view
  split
  · exact within_only hc
  · exact .inr rfl

theorem Admits.assign (h : cfg.Admits irq mask) (hchosen : cfg.Admits irq chosen) (value : Bool) :
    cfg.Admits irq (mask.assign chosen value) := by
  unfold Admits at *
  split
  · rename_i hprivate
    rw [if_pos hprivate] at h hchosen
    exact h.assign hchosen value
  · rename_i hshared
    rw [if_neg hshared] at h hchosen
    exact Whole.assign h hchosen value

/-- Fewer CPUs are kept where any are; a flag of a shared interrupt is cleared for all. -/
theorem Admits.clear (h : cfg.Admits irq mask) (hchosen : numPrivate ≤ irq → chosen.Whole) :
    cfg.Admits irq (mask.assign chosen false) := by
  unfold Admits at *
  split
  · rename_i hprivate
    rw [if_pos hprivate] at h
    exact h.clear chosen
  · rename_i hshared
    rw [if_neg hshared] at h
    exact Whole.assign h (hchosen (Nat.not_lt.mp hshared)) false

end Config

/-! ### One interrupt -/

/-- The state of an interrupt has the shape that the configuration gives to it. -/
structure Formed (cfg : Config) (word : Word) (irq : Nat) (r : IrqState) : Prop where
  /-- A private interrupt has an instance for each CPU, a shared one a single instance. -/
  routing : r.routing = if irq < numPrivate then .perCpu else .single
  /-- It is enabled, active and signaled for connected CPUs, or for all or none. -/
  enabled : cfg.Admits irq r.enabled
  active : cfg.Admits irq r.active
  signaled : cfg.Admits irq r.signaled
  /-- The input of a shared interrupt is high for all or none. -/
  level : numPrivate ≤ irq → r.level.Whole
  /-- A private interrupt is pending on connected CPUs. -/
  pending : irq < numPrivate → r.pending.Within cfg.cpus
  /-- An SGI is enabled on every connected CPU and is triggered by an edge. -/
  sgi : irq < numSgis → r.enabled = .first cfg.cpus ∧ r.trigger = .edge
  /-- The trigger of a connected interrupt is the one of the trigger word. -/
  trigger : numSgis ≤ irq → irq < cfg.numIrqs → r.trigger = triggerOf word irq
  /-- Nothing is set for an interrupt that is not connected. -/
  absent : cfg.numIrqs ≤ irq → r = .idleShared

namespace Formed

variable {cfg : Config} {word : Word} {irq : Nat} {r : IrqState} {mask targets : CpuMask}

theorem setEnabled (h : Formed cfg word irq r) (low : numSgis ≤ irq) (high : irq < cfg.numIrqs)
    (hm : cfg.Admits irq mask) (value : Bool) : Formed cfg word irq (r.setEnabled value mask) :=
  { h with
    enabled := h.enabled.assign hm value
    sgi := fun hsgi => absurd hsgi (Nat.not_lt.mpr low)
    absent := fun hno => absurd high (Nat.not_lt.mpr hno) }

theorem setPending (h : Formed cfg word irq r) (high : irq < cfg.numIrqs)
    (hm : irq < numPrivate → mask.Within cfg.cpus) (value : Bool) :
    Formed cfg word irq (r.setPending value mask) :=
  { h with
    pending := fun hprivate => (h.pending hprivate).assign (hm hprivate) value
    absent := fun hno => absurd high (Nat.not_lt.mpr hno) }

theorem setActive (h : Formed cfg word irq r) (high : irq < cfg.numIrqs)
    (hm : cfg.Admits irq mask) (value : Bool) : Formed cfg word irq (r.setActive value mask) :=
  { h with
    active := h.active.assign hm value
    absent := fun hno => absurd high (Nat.not_lt.mpr hno) }

theorem setLevel (h : Formed cfg word irq r) (high : irq < cfg.numIrqs)
    (hm : numPrivate ≤ irq → mask.Whole) (value : Bool) :
    Formed cfg word irq (r.setLevel value mask) :=
  { h with
    level := fun hshared => (h.level hshared).assign (hm hshared) value
    absent := fun hno => absurd high (Nat.not_lt.mpr hno) }

theorem clearSignaled (h : Formed cfg word irq r) (high : irq < cfg.numIrqs)
    (hm : numPrivate ≤ irq → mask.Whole) : Formed cfg word irq (r.setSignaled false mask) :=
  { h with
    signaled := h.signaled.clear hm
    absent := fun hno => absurd high (Nat.not_lt.mpr hno) }

theorem setSignaled (h : Formed cfg word irq r) (high : irq < cfg.numIrqs)
    (hm : cfg.Admits irq mask) (value : Bool) : Formed cfg word irq (r.setSignaled value mask) :=
  { h with
    signaled := h.signaled.assign hm value
    absent := fun hno => absurd high (Nat.not_lt.mpr hno) }

/-- The trigger and the word that gives it change together. -/
theorem setTrigger (h : Formed cfg word irq r) (low : numSgis ≤ irq) (high : irq < cfg.numIrqs)
    (next : Word) : Formed cfg next irq { r with trigger := triggerOf next irq } :=
  { h with
    sgi := fun hsgi => absurd hsgi (Nat.not_lt.mpr low)
    trigger := fun _ _ => rfl
    absent := fun hno => absurd high (Nat.not_lt.mpr hno) }

/-- The trigger word does not matter for an interrupt that does not follow it. -/
theorem withWord (h : Formed cfg word irq r) (hno : ¬ (numSgis ≤ irq ∧ irq < cfg.numIrqs))
    (next : Word) : Formed cfg next irq r :=
  { h with trigger := fun low high => absurd ⟨low, high⟩ hno }

/-- What is kept for connected CPUs of a private interrupt. -/
theorem within_of_admits (h : cfg.Admits irq mask) : irq < numPrivate → mask.Within cfg.cpus :=
  fun hprivate => (Config.admits_private hprivate).mp h

theorem enable (h : Formed cfg word irq r) (low : numSgis ≤ irq) (high : irq < cfg.numIrqs)
    (hm : cfg.Admits irq mask) : Formed cfg word irq (r.enable mask) := by
  have henabled := h.setEnabled low high hm true
  unfold IrqState.enable
  dsimp only
  split
  · exact henabled.setPending high (within_of_admits hm) true
  · exact henabled

/-- The input of a private interrupt can be driven for any CPUs: its level is not looked at here. -/
theorem drive (h : Formed cfg word irq r) (high : irq < cfg.numIrqs)
    (hm : numPrivate ≤ irq → mask.Whole) (ht : irq < numPrivate → targets.Within cfg.cpus)
    (value : Bool) : Formed cfg word irq (r.drive value mask targets) := by
  have hlevel := (h.setLevel high hm value).clearSignaled high hm
  unfold IrqState.drive
  dsimp only
  split
  · exact hlevel.setPending high ht true
  · exact hlevel

theorem scope_eq (h : Formed cfg word irq r) (cpu : Nat) : r.scope cpu = view irq cpu := by
  unfold IrqState.scope view
  rw [h.routing]
  by_cases hprivate : irq < numPrivate
  · simp only [if_pos hprivate]
  · simp only [if_neg hprivate]

theorem acknowledge (h : Formed cfg word irq r) (high : irq < cfg.numIrqs) {cpu : Nat}
    (hc : cpu < cfg.cpus) : Formed cfg word irq (r.acknowledge cpu) := by
  have hscope : cfg.Admits irq (r.scope cpu) := by
    rw [h.scope_eq]
    exact Config.admits_view hc irq
  exact (h.setActive high hscope true).setSignaled high hscope true

theorem complete (h : Formed cfg word irq r) (high : irq < cfg.numIrqs) {cpu : Nat}
    (hc : cpu < cfg.cpus) : Formed cfg word irq (r.complete cpu) := by
  have hscope : cfg.Admits irq (r.scope cpu) := by
    rw [h.scope_eq]
    exact Config.admits_view hc irq
  exact (h.setActive high hscope false).setSignaled high hscope false

end Formed

namespace Physical

variable {cfg : Config} {p q : Physical cfg}

/-! ### All interrupts -/

/-- Every interrupt has its shape. -/
def Stored (p : Physical cfg) : Prop :=
  ∀ irq < maxIrqs, Formed cfg (p.distributor.triggers.row (irq / 16)) irq (p.irqs.row irq)

/-- What is done to nothing but the interfaces, or to other registers of the distributor. -/
theorem Stored.congr (h : Stored p) (hirqs : q.irqs = p.irqs)
    (htriggers : q.distributor.triggers = p.distributor.triggers) : Stored q := by
  intro irq hirq
  rw [hirqs, htriggers]
  exact h irq hirq

theorem Stored.alterIrq (h : Stored p) {irq : Nat} {f : IrqState → IrqState}
    (hf : ∀ word r, Formed cfg word irq r → Formed cfg word irq (f r)) :
    Stored (p.alterIrq irq f) := by
  intro i hi
  rw [row_alterIrq]
  split
  · rename_i heq
    obtain ⟨rfl, -⟩ := heq
    exact hf _ _ (h irq hi)
  · exact h i hi

theorem Stored.alterSelected (h : Stored p) {n : Nat} {value : Word}
    {f : Nat → IrqState → IrqState}
    (hf : ∀ irq < cfg.numIrqs, irq / 32 = n → ∀ word r,
      Formed cfg word irq r → Formed cfg word irq (f irq r)) :
    Stored (p.alterSelected n value f) := by
  intro i hi
  rw [row_alterSelected p n value f hi]
  split
  · rename_i hselected
    simp only [selects, Bool.and_eq_true, decide_eq_true_eq] at hselected
    obtain ⟨⟨hn, -⟩, hconnected⟩ := hselected
    exact hf i hconnected hn _ _ (h i hi)
  · exact h i hi

/-- The triggers of the interrupts of a word are set with the word. -/
theorem Stored.setTriggers (h : Stored p) {n : Nat} (hpos : 1 ≤ n) (hn : n < 32) (value : Word) :
    Stored (p.setTriggers n value) := by
  intro i hi
  simp only [Physical.setTriggers, Table.row_mapRows, Table.row_alter, if_pos hi]
  have hbound : i / 16 < 32 := by
    simp only [maxIrqs] at hi
    omega
  by_cases hword : i / 16 = n
  · have hlow : numSgis ≤ i := by
      simp only [numSgis]
      omega
    rw [if_pos ⟨hword.symm, hbound⟩]
    by_cases high : i < cfg.numIrqs
    · rw [if_pos ⟨hword, high⟩]
      exact (h i hi).setTrigger hlow high value
    · rw [if_neg fun hc => high hc.2]
      exact (h i hi).withWord (fun hc => high hc.2) value
  · rw [if_neg fun hc => hword hc.1.symm, if_neg fun hc => hword hc.1]
    exact h i hi

/-- An SGI becomes pending on connected CPUs. -/
theorem Stored.raiseSgi (h : Stored p) {sgi : Nat} (hsgi : sgi < numSgis) (source : Nat)
    {targets : CpuMask} (ht : targets.Within cfg.cpus) :
    Stored (p.raiseSgi source sgi targets) := by
  have hadmits : cfg.Admits sgi targets :=
    (Config.admits_private (Nat.lt_trans hsgi (by decide))).mpr ht
  have hhigh : sgi < cfg.numIrqs := Config.sgi_lt_numIrqs hsgi
  refine (h.alterIrq fun word r hr => ?_).congr rfl rfl
  exact (hr.setPending hhigh (fun _ => ht) true).setSignaled hhigh hadmits false

theorem Stored.arbitrate (h : Stored p) : Stored p.arbitrate.value := h.congr rfl rfl

theorem Stored.arbitrateIf {w : Written cfg} (h : Stored w.state) :
    Stored (arbitrateIf w).value :=
  h.congr (arbitrateIf_irqs w) (congrArg Distributor.triggers (arbitrateIf_distributor w))

theorem Stored.writeByte (h : Stored p) {cpu : Nat} (hc : cpu < cfg.cpus)
    (register : DistributorRegister) (value : BitVec 8) :
    Stored (p.writeByte cpu register value).state := by
  cases register with
  | priority irq =>
    simp only [Physical.writeByte]
    split
    · refine h.congr rfl ?_
      unfold Distributor.setPriority
      split <;> rfl
    · exact h
  | targets irq =>
    simp only [Physical.writeByte]
    split
    · exact h.congr rfl rfl
    · exact h
  | setSources sgi =>
    simp only [Physical.writeByte]
    split
    · rename_i hsgi
      have hhigh : sgi < cfg.numIrqs := Config.sgi_lt_numIrqs hsgi.1
      have hown : cfg.Admits sgi (.only cpu) :=
        (Config.admits_private (Nat.lt_trans hsgi.1 (by decide))).mpr (within_only hc)
      refine (h.alterIrq fun word r hr => ?_).congr rfl rfl
      exact (hr.setPending hhigh (fun _ => within_only hc) true).setSignaled hhigh hown false
    · exact h
  | clearSources sgi =>
    simp only [Physical.writeByte]
    split
    · rename_i hsgi
      split
      · refine (h.alterIrq fun word r hr => ?_).congr rfl rfl
        exact hr.setPending (Config.sgi_lt_numIrqs hsgi) (fun _ => within_only hc) false
      · exact h.congr rfl rfl
    · exact h
  | _ => exact h

theorem Stored.writeWord (h : Stored p) {cpu : Nat} (hc : cpu < cfg.cpus)
    (register : DistributorRegister) (value : Word) :
    Stored (p.writeWord cpu register value).value.state := by
  have hview : ∀ irq n, irq / 32 = n → cfg.Admits irq (wordView cpu n) := by
    rintro irq n rfl
    rw [wordView_eq]
    exact Config.admits_view hc irq
  cases register with
  | control | group => exact h.congr rfl rfl
  | setEnable n =>
    refine h.alterSelected fun irq high hn word r hr => ?_
    split
    · exact hr
    · rename_i low
      exact hr.enable (Nat.not_lt.mp low) high (hview irq n hn)
  | clearEnable n =>
    refine h.alterSelected fun irq high hn word r hr => ?_
    split
    · exact hr
    · rename_i low
      exact hr.setEnabled (Nat.not_lt.mp low) high (hview irq n hn) false
  | setPending n =>
    refine h.alterSelected fun irq high hn word r hr => ?_
    split
    · exact hr
    · split
      · exact hr.setPending high (fun _ => within_only hc) true
      · rename_i hshared
        exact hr.setPending high (fun hprivate => absurd hprivate hshared) true
  | clearPending n =>
    refine h.alterSelected fun irq high hn word r hr => ?_
    split
    · exact hr
    · exact hr.setPending high (Formed.within_of_admits (hview irq n hn)) false
  | clearActive n =>
    exact h.alterSelected fun irq high hn word r hr => hr.setActive high (hview irq n hn) false
  | trigger n =>
    simp only [Physical.writeWord]
    split
    · rename_i hn
      exact h.setTriggers hn.1 hn.2 _
    · exact h
  | sgi =>
    simp only [Physical.writeWord, requestSgi]
    split
    · exact h
    · rename_i targets htargets
      exact h.raiseSgi (BitVec.isLt _) _ fun c hbit => connected_of_sgiTargets htargets hbit
  | _ => exact h

/-- A CPU takes an interrupt. -/
theorem Stored.take (h : Stored p) {cpu irq : Nat} (hc : cpu < cfg.cpus)
    (high : irq < cfg.numIrqs) : Stored (p.take cpu irq) := by
  unfold Physical.take
  split
  · unfold takeSgi
    dsimp only
    split
    · exact (h.congr rfl rfl).alterIrq fun word r hr =>
        hr.setPending high (fun _ => within_only hc) false
    · exact h.congr rfl rfl
  · refine h.alterIrq fun word r hr => hr.setPending high (fun hprivate => ?_) false
    rw [hr.scope_eq]
    exact Formed.within_of_admits (Config.admits_view hc irq) hprivate

theorem Stored.acknowledge (h : Stored p) (hp : Settled p) (hmax : cfg.cpus ≤ maxCpus)
    (hn : cfg.numIrqs ≤ maxIrqs) {cpu : Nat} (hc : cpu < cfg.cpus) :
    Stored (p.acknowledge cpu).value.2 := by
  rw [acknowledge_value]
  split
  · exact h
  · rename_i hallowed
    have hshown := (not_or.mp hallowed).1
    have high := (hp.competes hn hc (Nat.lt_of_lt_of_le hc hmax) hshown).connected
    have htaken := h.take hc high
    refine Stored.arbitrate ((htaken.alterIrq fun word r hr => ?_).congr rfl rfl)
    exact hr.acknowledge high hc

theorem Stored.deactivate (h : Stored p) {cpu irq : Nat} (hc : cpu < cfg.cpus)
    (high : irq < cfg.numIrqs) : Stored (p.deactivate cpu irq) :=
  h.alterIrq fun _ _ hr => hr.complete high hc

theorem Stored.writeCpuInterface (h : Stored p) {cpu : Nat} (hc : cpu < cfg.cpus)
    (register : CpuRegister) (value : Word) :
    Stored (p.writeCpuInterface cpu register value).value := by
  cases register with
  | completion =>
    show Stored (p.complete cpu value).value
    rw [complete_value]
    split
    · rename_i hruns
      have hdropped : Stored (p.alterCpu cpu fun i => i.drop (value.field 0 10)) := h.congr rfl rfl
      exact (hdropped.deactivate hc hruns.1).arbitrate
    · exact h
  | activePriorities n => cases n <;> exact h.congr rfl rfl
  | _ => exact h.congr rfl rfl

/-! ### Power-on -/

theorem triggerOf_allEdge (irq : Nat) : triggerOf allEdge irq = .edge := by
  have hbits : ∀ k < 16, allEdge.getLsbD (2 * k + 1) = true := by decide
  exact if_pos (hbits _ (Nat.mod_lt _ (by decide)))

theorem triggerOf_zero (irq : Nat) : triggerOf 0#32 irq = .level := by
  rw [triggerOf, BitVec.getLsbD_zero, if_neg Bool.false_ne_true]

/-- An SGI at power-on. -/
theorem formed_sgi {irq : Nat} (hsgi : irq < numSgis) (word : Word) :
    Formed cfg word irq (IrqState.idle.setEnabled true (.first cfg.cpus)) := by
  have hprivate : irq < numPrivate := Nat.lt_trans hsgi (by decide)
  have hconnected : irq < cfg.numIrqs := Config.sgi_lt_numIrqs hsgi
  have henabled : (IrqState.idle.setEnabled true (.first cfg.cpus)).enabled = .first cfg.cpus :=
    BitVec.zero_or
  exact
    { routing := (if_pos hprivate).symm
      enabled := by
        rw [henabled, Config.admits_private hprivate]
        exact within_first _
      active := Config.admits_zero cfg irq
      signaled := Config.admits_zero cfg irq
      level := fun _ => .inl rfl
      pending := fun _ => within_zero _
      sgi := fun _ => ⟨henabled, rfl⟩
      trigger := fun low => absurd hsgi (Nat.not_lt.mpr low)
      absent := fun hno => absurd hconnected (Nat.not_lt.mpr hno) }

/-- Any other interrupt of which nothing is set. -/
theorem formed_clear {irq : Nat} {word : Word} {routing : Routing} {trigger : Trigger}
    (hsgi : ¬ irq < numSgis) (hrouting : routing = if irq < numPrivate then .perCpu else .single)
    (htrigger : trigger = triggerOf word irq)
    (habsent : cfg.numIrqs ≤ irq → routing = .single ∧ trigger = .level) :
    Formed cfg word irq ⟨0#8, 0#8, 0#8, 0#8, 0#8, routing, trigger⟩ where
  routing := hrouting
  enabled := Config.admits_zero cfg irq
  active := Config.admits_zero cfg irq
  signaled := Config.admits_zero cfg irq
  level _ := .inl rfl
  pending _ := within_zero _
  sgi h := absurd h hsgi
  trigger _ _ := htrigger
  absent hno := by
    obtain ⟨rfl, rfl⟩ := habsent hno
    rfl

theorem stored_powerOn (cfg : Config) : Stored (powerOn cfg) := by
  intro irq hirq
  have hword : irq / 16 < 32 := by
    simp only [maxIrqs] at hirq
    omega
  simp only [powerOn, Store.powerOn, Distributor.powerOn, Table.row_build, if_pos hirq,
    if_pos hword]
  by_cases hsgi : irq < numSgis
  · rw [if_pos hsgi]
    exact formed_sgi hsgi _
  · rw [if_neg hsgi]
    by_cases hprivate : irq < numPrivate
    · have hedge : irq / 16 < 2 := by
        simp only [numPrivate] at hprivate
        omega
      rw [if_pos hprivate, if_pos hedge]
      refine formed_clear hsgi (if_pos hprivate).symm (triggerOf_allEdge irq).symm fun hno => ?_
      simp only [Config.numIrqs] at hno
      omega
    · have hlevel : ¬ irq / 16 < 2 := by
        simp only [numPrivate] at hprivate
        omega
      rw [if_neg hprivate, if_neg hlevel]
      exact formed_clear hsgi (if_neg hprivate).symm (triggerOf_zero irq).symm fun _ => ⟨rfl, rfl⟩

/-! ### The tables of the distributor -/

/-- The priorities and targets of the shared interrupts have their shape. -/
structure Registered (cfg : Config) (d : Distributor) : Prop where
  /-- Only connected CPUs are targets. -/
  targets : ∀ k, (d.targetSets.row k).Within cfg.cpus
  /-- An interrupt that is not connected has no targets. -/
  absentTargets : ∀ k, cfg.spis ≤ k → d.targetSets.row k = 0#8
  /-- An interrupt that is not connected has priority zero. -/
  absentPriority : ∀ k, cfg.spis ≤ k → d.priorities.row k = 0#8

theorem Registered.congr {d e : Distributor} (h : Registered cfg d)
    (htargets : e.targetSets = d.targetSets) (hpriorities : e.priorities = d.priorities) :
    Registered cfg e where
  targets := htargets ▸ h.targets
  absentTargets := htargets ▸ h.absentTargets
  absentPriority := hpriorities ▸ h.absentPriority

theorem Registered.setPriority {d : Distributor} (h : Registered cfg d) (cpu : Nat) {irq : Nat}
    (high : irq < cfg.numIrqs) (priority : Priority) :
    Registered cfg (d.setPriority cpu irq priority) := by
  unfold Distributor.setPriority
  split
  · exact h.congr rfl rfl
  · rename_i hshared
    refine ⟨h.targets, h.absentTargets, fun k hk => ?_⟩
    simp only [Config.numIrqs] at high
    have hne : ¬ (irq - numPrivate = k ∧ k < maxSpis) := by omega
    rw [Table.row_alter, if_neg hne]
    exact h.absentPriority k hk

theorem Registered.setTargets {d : Distributor} (h : Registered cfg d) {irq : Nat}
    (low : numPrivate ≤ irq) (high : irq < cfg.numIrqs) {targets : CpuMask}
    (ht : targets.Within cfg.cpus) : Registered cfg (d.setTargets irq targets) := by
  refine ⟨fun k => ?_, fun k hk => ?_, h.absentPriority⟩
  · rw [Distributor.setTargets, Table.row_alter]
    split
    · exact ht
    · exact h.targets k
  · simp only [Config.numIrqs] at high
    have hne : ¬ (irq - numPrivate = k ∧ k < maxSpis) := by omega
    rw [Distributor.setTargets, Table.row_alter, if_neg hne]
    exact h.absentTargets k hk

theorem registered_powerOn (cfg : Config) : Registered cfg .powerOn where
  targets k := by
    simp only [Distributor.powerOn, Table.row_replicate]
    split <;> exact within_zero _
  absentTargets k _ := by
    simp only [Distributor.powerOn, Table.row_replicate]
    split <;> rfl
  absentPriority k _ := by
    simp only [Distributor.powerOn, Table.row_replicate]
    split <;> rfl

theorem Registered.writeByte (h : Registered cfg p.distributor) (cpu : Nat)
    (register : DistributorRegister) (value : BitVec 8) :
    Registered cfg (p.writeByte cpu register value).state.distributor := by
  cases register with
  | priority irq =>
    simp only [Physical.writeByte]
    split
    · rename_i high
      exact h.setPriority cpu high value
    · exact h
  | targets irq =>
    simp only [Physical.writeByte]
    split
    · rename_i hirq
      exact h.setTargets hirq.1 hirq.2 (within_and_first _ _)
    · exact h
  | setSources sgi =>
    simp only [Physical.writeByte]
    split
    · exact h.congr rfl rfl
    · exact h
  | clearSources sgi =>
    simp only [Physical.writeByte]
    split
    · split <;> exact h.congr rfl rfl
    · exact h
  | _ => exact h

theorem Registered.writeWord (h : Registered cfg p.distributor) (cpu : Nat)
    (register : DistributorRegister) (value : Word) :
    Registered cfg (p.writeWord cpu register value).value.state.distributor := by
  cases register with
  | trigger n =>
    simp only [Physical.writeWord]
    split
    · exact h.congr rfl rfl
    · exact h
  | sgi =>
    simp only [Physical.writeWord, requestSgi]
    split
    · exact h
    · exact h.congr rfl rfl
  | control | group => exact h.congr rfl rfl
  | _ => exact h

theorem Registered.acknowledge (h : Registered cfg p.distributor) (cpu : Nat) :
    Registered cfg (p.acknowledge cpu).value.2.distributor := by
  rw [acknowledge_value]
  split
  · exact h
  · show Registered cfg (p.take cpu _).distributor
    rw [distributor_take]
    split
    · exact h.congr rfl rfl
    · exact h

end Physical

namespace Controller

variable {cfg : Config}

open Physical

/-! ### The whole controller -/

theorem Moves.stored (hpos : 0 < cfg.cpus) (hmax : cfg.cpus ≤ maxCpus)
    (hn : cfg.numIrqs ≤ maxIrqs) {g : Controller cfg} {a : Action} {p : Physical cfg}
    (h : Moves g a p) (hsettled : Settled g.physical) (hstored : Stored g.physical) :
    Stored p := by
  have hi : ∀ i, cpuOf cfg i < cfg.cpus := cpuOf_lt hpos
  cases h with
  | stays => exact hstored
  | @distributorWord i => exact (hstored.writeWord (hi i) _ _).arbitrateIf
  | @distributorBytes i =>
    refine Stored.arbitrateIf ?_
    exact writeBytes_induct (fun p register value hp => hp.writeByte (hi i) register value)
      hstored _ _
  | @distributorByte i => exact (hstored.writeByte (hi i) _ _).arbitrateIf
  | @acknowledges i => exact hstored.acknowledge hsettled hmax hn (hi i)
  | @interfaceWrite i => exact hstored.writeCpuInterface (hi i) _ _
  | @backingEnds i v irq backed low high => exact (hstored.deactivate (hi i) high).arbitrate
  | @ppiDriven a cpu index level hcpu hindex =>
    refine Stored.arbitrate (hstored.alterIrq fun word r hr => ?_)
    have hprivate : numSgis + index < numPrivate := by
      simp only [numSgis, numPpis, numPrivate] at *
      omega
    exact hr.drive (Config.lt_numIrqs hprivate) (fun h => absurd hprivate (Nat.not_lt.mpr h))
      (fun _ => within_only hcpu) level
  | @spiDriven a irq level shared high =>
    refine Stored.arbitrate (hstored.alterIrq fun word r hr => ?_)
    exact hr.drive high (fun _ => .inr rfl) (fun h => absurd h (Nat.not_lt.mpr shared)) level
  | @overdriven a irq level overdrives =>
    refine Stored.arbitrate (hstored.alterIrq fun word r hr => ?_)
    exact hr.drive (Config.lt_numIrqs overdrives.1) (fun _ => .inr rfl) (fun _ => within_zero _)
      level
  | arbitrates => exact hstored.arbitrate
  | powersOn => exact stored_powerOn cfg

theorem Moves.registered {g : Controller cfg} {a : Action} {p : Physical cfg} (h : Moves g a p)
    (hregistered : Registered cfg g.physical.distributor) : Registered cfg p.distributor := by
  cases h with
  | distributorWord =>
    rw [arbitrateIf_distributor]
    exact hregistered.writeWord _ _ _
  | distributorBytes =>
    rw [arbitrateIf_distributor]
    exact writeBytes_induct (P := fun p => Registered cfg p.distributor)
      (fun p register value hp => hp.writeByte _ register value) hregistered _ _
  | distributorByte =>
    rw [arbitrateIf_distributor]
    exact hregistered.writeByte _ _ _
  | acknowledges => exact hregistered.acknowledge _
  | interfaceWrite =>
    rw [distributor_writeCpuInterface]
    exact hregistered
  | stays | backingEnds | ppiDriven | spiDriven | overdriven | arbitrates => exact hregistered
  | powersOn => exact registered_powerOn cfg

theorem Reachable.stored (hv : cfg.validate = .ok ()) {g : Controller cfg} (h : Reachable g) :
    Stored g.physical := by
  obtain ⟨hpos, hmax, hn⟩ := Config.bounds_of_validate hv
  refine h.induct (P := fun g => Stored g.physical) (stored_powerOn cfg) ?_
  intro g a hg hstored
  exact (moves_after g a).stored hpos hmax hn hg.settled hstored

theorem Reachable.registered {g : Controller cfg} (h : Reachable g) :
    Registered cfg g.physical.distributor := by
  refine h.induct (P := fun g => Registered cfg g.physical.distributor) (registered_powerOn cfg) ?_
  intro g a _ hregistered
  exact (moves_after g a).registered hregistered

/-! ### Levels of private interrupts -/

/-- A private interrupt has no input for a CPU: it is software generated, or the CPU is not
connected. -/
def NoInput (cfg : Config) (irq c : Nat) : Prop := irq < numSgis ∨ cfg.cpus ≤ c

/-- The input of a private interrupt was overdriven to the high level, and since then neither
overdriven to the low level nor lost by a reset. -/
def LeftHigh (cfg : Config) (irq : Nat) (actions : List Action) : Prop :=
  Outstanding (fun _ a => a.Overdrives irq true)
    (fun _ a => a.Overdrives irq false ∨ a = .reset) (powerOn cfg) actions

theorem level_powerOn (cfg : Config) {irq : Nat} (hirq : irq < maxIrqs) :
    ((powerOn cfg).physical.irqs.row irq).level = 0#8 := by
  simp only [powerOn, Physical.powerOn, Store.powerOn, Table.row_build, if_pos hirq]
  split
  · rfl
  · split <;> rfl

/-- To overdrive an input is to take its level for all CPUs. -/
theorem level_of_overdrives (g : Controller cfg) {irq : Nat} {level : Bool} {a : Action}
    (h : a.Overdrives irq level) :
    ((g.after a).physical.irqs.row irq).level = if level then CpuMask.all else 0#8 := by
  obtain ⟨hprivate, index, rfl, rfl⟩ := h
  show ((g.driveSpi index level).value.physical.irqs.row (sharedIrq index)).level = _
  have hbound : sharedIrq index < maxIrqs := Nat.lt_trans hprivate (by decide)
  rw [driveSpi, if_pos (Config.lt_numIrqs hprivate), row_driveInput_private hbound hprivate,
    touched, Effect.apply, level_drive]
  cases level with
  | false => exact CpuMask.assign_all_false _
  | true => exact CpuMask.assign_all_true _

/-- A level without an input is high after an action if and only if the action overdrives it, or it
was high before and the action neither overdrives it to the low level nor resets the controller. -/
theorem level_step {irq c : Nat} (hprivate : irq < numPrivate) (hc : c < maxCpus)
    (hno : NoInput cfg irq c) (g : Controller cfg) (a : Action) :
    ((g.after a).physical.irqs.row irq).level.getLsbD c = true ↔
      a.Overdrives irq true ∨ ((g.physical.irqs.row irq).level.getLsbD c = true ∧
        ¬ (a.Overdrives irq false ∨ a = .reset)) := by
  by_cases hhigh : a.Overdrives irq true
  · rw [level_of_overdrives g hhigh, if_pos rfl, CpuMask.getLsbD_all, decide_eq_true hc]
    exact iff_of_true rfl (.inl hhigh)
  by_cases hlow : a.Overdrives irq false
  · rw [level_of_overdrives g hlow, if_neg Bool.false_ne_true, BitVec.getLsbD_zero]
    exact iff_of_false Bool.false_ne_true fun h => h.elim hhigh fun h => h.2 (.inl hlow)
  have hnone : ∀ level, ¬ a.Overdrives irq level := Bool.forall_bool.mpr ⟨hlow, hhigh⟩
  by_cases hreset : a = .reset
  · subst hreset
    rw [after_reset, level_powerOn cfg (Nat.lt_trans hprivate (by decide)), BitVec.getLsbD_zero]
    exact iff_of_false Bool.false_ne_true fun h => h.elim hhigh fun h => h.2 (.inr rfl)
  · have hsame : ((g.after a).physical.irqs.row irq).level.getLsbD c =
        (g.physical.irqs.row irq).level.getLsbD c := by
      refine ((moves_after g a).keeps_of_drives (φ := fun r => r.level.getLsbD c)
        (fun _ _ _ => rfl) (fun _ _ _ => rfl) (fun _ _ _ => rfl) (fun _ _ _ => rfl)
        (fun _ _ _ => rfl) ?_ ?_ ?_).resolve_left fun h => hreset h.1
      · -- The input of a connected CPU is that of no SGI, and not the one of `c`.
        intro cpu hcpu hinput level r
        have hother : (only cpu).getLsbD c = false := by
          rw [getLsbD_only, Bool.and_eq_false_iff, decide_eq_false_iff_not,
            decide_eq_false_iff_not]
          refine .inr fun heq => ?_
          rcases hno with hsgi | hout <;> omega
        show (r.drive level _ _).level.getLsbD c = _
        rw [level_drive, getLsbD_assign, hother, if_neg Bool.false_ne_true]
      · exact fun hshared => absurd hprivate (Nat.not_lt.mpr hshared)
      · exact fun level hover => absurd hover (hnone level)
    rw [hsame, or_iff_right hhigh, and_iff_left (not_or.mpr ⟨hlow, hreset⟩)]

/-- A level without an input is high if and only if it was overdriven to be, and was not taken back
since. -/
theorem level_run {irq c : Nat} (hprivate : irq < numPrivate) (hc : c < maxCpus)
    (hno : NoInput cfg irq c) (actions : List Action) :
    (((powerOn cfg).run actions).physical.irqs.row irq).level.getLsbD c = true ↔
      LeftHigh cfg irq actions := by
  refine iff_outstanding (P := fun g => (g.physical.irqs.row irq).level.getLsbD c = true) ?_
    (fun g a _ => level_step hprivate hc hno g a) actions
  rw [level_powerOn cfg (Nat.lt_trans hprivate (by decide)), BitVec.getLsbD_zero]
  exact Bool.false_ne_true

/-! ### The shape of the store -/

/-- The store of the interrupts has the shape that the configuration gives to it, the levels of the
private interrupts apart. -/
structure KeepsShape (g : Controller cfg) : Prop where
  /-- An interrupt that is not connected is as it was at power-on, with priority zero and without
  targets. -/
  absent : ∀ irq, cfg.numIrqs ≤ irq → irq < maxIrqs →
    g.physical.irqs.row irq = (Physical.powerOn cfg).irqs.row irq ∧
    (∀ cpu, g.physical.distributor.priority? cpu irq = some 0#8) ∧
    g.physical.distributor.targets irq = 0#8
  /-- Each CPU handles an instance of its own of a private interrupt, one CPU a shared one. -/
  routing : ∀ irq < maxIrqs,
    (g.physical.irqs.row irq).routing = if irq < numPrivate then .perCpu else .single
  /-- A shared interrupt is enabled, active, high and signaled for all CPUs or none. -/
  whole : ∀ irq, numPrivate ≤ irq → irq < maxIrqs →
    (g.physical.irqs.row irq).enabled.Whole ∧ (g.physical.irqs.row irq).active.Whole ∧
    (g.physical.irqs.row irq).level.Whole ∧ (g.physical.irqs.row irq).signaled.Whole
  /-- A private interrupt is enabled, pending, active and signaled for connected CPUs only. -/
  connected : ∀ irq < numPrivate,
    (g.physical.irqs.row irq).enabled.Within cfg.cpus ∧
    (g.physical.irqs.row irq).pending.Within cfg.cpus ∧
    (g.physical.irqs.row irq).active.Within cfg.cpus ∧
    (g.physical.irqs.row irq).signaled.Within cfg.cpus
  /-- An SGI is enabled on the connected CPUs and is triggered by an edge. -/
  sgis : ∀ irq < numSgis,
    (∀ c, (g.physical.irqs.row irq).enabled.getLsbD c = true ↔ c < cfg.cpus) ∧
    (g.physical.irqs.row irq).trigger = .edge
  /-- Only connected CPUs are targets. -/
  targets : ∀ irq, (g.physical.distributor.targets irq).Within cfg.cpus
  /-- The trigger of a connected interrupt with an input is told by the upper bit of its two in the
  trigger word that any CPU reads. -/
  triggers : ∀ irq, numSgis ≤ irq → irq < cfg.numIrqs → ∀ i, ∃ word,
    (g.read .distributor i (0xc00 + 4 * (irq / 16)) .word).value.1 = .ok word ∧
    ((g.physical.irqs.row irq).trigger = .edge ↔ word.getLsbD (2 * (irq % 16) + 1) = true)

/-- The store has its shape altogether. -/
structure InShape (g : Controller cfg) : Prop extends KeepsShape g where
  /-- The input of a private interrupt is high for connected CPUs only. -/
  levels : ∀ irq < numPrivate, (g.physical.irqs.row irq).level.Within cfg.cpus
  /-- An SGI has no input. -/
  sgiLevels : ∀ irq < numSgis, (g.physical.irqs.row irq).level = 0#8

/-- A word of triggers is read as it is kept. -/
theorem read_triggers (g : Controller cfg) (i : Initiator) {n : Nat} (hn : n < 32) :
    (g.read .distributor i (0xc00 + 4 * n) .word).value.1 =
      .ok (g.physical.distributor.triggers.row n) := by
  obtain ⟨-, -, -, -, -, hregister⟩ := DistributorRegister.ofOffset_words hn
  have haligned : (0xc00 + 4 * n) % 4 = 0 := by omega
  have hinside : checkWindow cfg .distributor (0xc00 + 4 * n) .word = .ok () := by
    refine if_pos ?_
    show 0xc00 + 4 * n + 4 ≤ 0x1000
    omega
  rw [value_read, hinside]
  simp only [readWindow, readDistributor, if_pos haligned, hregister]
  rfl

theorem trigger_eq_edge_iff {word : Word} {irq : Nat} :
    triggerOf word irq = .edge ↔ word.getLsbD (2 * (irq % 16) + 1) = true := by
  unfold triggerOf
  split
  · rename_i hbit
    exact iff_of_true rfl hbit
  · rename_i hbit
    exact iff_of_false Trigger.noConfusion hbit

theorem Reachable.keepsShape (hv : cfg.validate = .ok ()) {g : Controller cfg}
    (hg : Reachable g) : KeepsShape g := by
  obtain ⟨-, hmax, hn⟩ := Config.bounds_of_validate hv
  have hstored := hg.stored hv
  have hregistered := hg.registered
  have hsmall : ∀ irq < numPrivate, irq < maxIrqs := fun irq h => Nat.lt_trans h (by decide)
  constructor
  case absent =>
    intro irq hno hirq
    have hshared : ¬ irq < numPrivate := by
      simp only [Config.numIrqs] at hno
      omega
    have hk : cfg.spis ≤ irq - numPrivate := by
      simp only [Config.numIrqs] at hno
      omega
    refine ⟨?_, fun cpu => ?_, ?_⟩
    · rw [(hstored irq hirq).absent hno, (stored_powerOn cfg irq hirq).absent hno]
    · rw [Distributor.priority?, if_neg hshared, if_pos hirq, hregistered.absentPriority _ hk]
    · rw [Distributor.targets, if_neg hshared, hregistered.absentTargets _ hk]
  case routing =>
    intro irq hirq
    exact (hstored irq hirq).routing
  case whole =>
    intro irq hshared hirq
    have h := hstored irq hirq
    have hwhole {mask : CpuMask} : cfg.Admits irq mask → mask.Whole :=
      (Config.admits_shared hshared).mp
    exact ⟨hwhole h.enabled, hwhole h.active, h.level hshared, hwhole h.signaled⟩
  case connected =>
    intro irq hprivate
    have h := hstored irq (hsmall irq hprivate)
    have hwithin {mask : CpuMask} : cfg.Admits irq mask → mask.Within cfg.cpus :=
      (Config.admits_private hprivate).mp
    exact ⟨hwithin h.enabled, h.pending hprivate, hwithin h.active, hwithin h.signaled⟩
  case sgis =>
    intro irq hsgi
    obtain ⟨henabled, htrigger⟩ :=
      (hstored irq (hsmall irq (Nat.lt_trans hsgi (by decide)))).sgi hsgi
    refine ⟨fun c => ?_, htrigger⟩
    rw [henabled, CpuMask.getLsbD_first, Bool.and_eq_true, decide_eq_true_eq, decide_eq_true_eq]
    exact ⟨And.left, fun hc => ⟨hc, Nat.lt_of_lt_of_le hc hmax⟩⟩
  case targets =>
    intro irq
    unfold Distributor.targets
    split
    · exact within_zero _
    · exact hregistered.targets _
  case triggers =>
    intro irq low high i
    have hirq : irq < maxIrqs := Nat.lt_of_lt_of_le high hn
    have hword : irq / 16 < 32 := by
      simp only [maxIrqs] at hirq
      omega
    refine ⟨_, read_triggers g i hword, ?_⟩
    rw [(hstored irq hirq).trigger low high]
    exact trigger_eq_edge_iff

/-- In every reachable state the store of the interrupts keeps its shape, the levels of the private
interrupts apart; where such an interrupt has no input, its level is high if and only if the index
of a shared input was so large that it was overdriven to be. So the store has its shape altogether
if and only if no such level is left high. -/
theorem store_keeps_its_shape (hv : cfg.validate = .ok ()) (actions : List Action) :
    let g := (powerOn cfg).run actions
    KeepsShape g ∧
      (∀ irq < numPrivate, ∀ c < maxCpus, NoInput cfg irq c →
        ((g.physical.irqs.row irq).level.getLsbD c = true ↔ LeftHigh cfg irq actions)) ∧
      (InShape g ↔ ∀ irq < numPrivate, ∀ c < maxCpus, NoInput cfg irq c →
        ¬ LeftHigh cfg irq actions) := by
  intro g
  have hkeeps : KeepsShape g := (reachable_run actions).keepsShape hv
  have hlevels : ∀ irq < numPrivate, ∀ c < maxCpus, NoInput cfg irq c →
      ((g.physical.irqs.row irq).level.getLsbD c = true ↔ LeftHigh cfg irq actions) :=
    fun irq hprivate c hc hno => level_run hprivate hc hno actions
  refine ⟨hkeeps, hlevels, fun hshape irq hprivate c hc hno => ?_, fun hlow => ?_⟩
  · rw [← hlevels irq hprivate c hc hno]
    rcases hno with hsgi | hout
    · rw [hshape.sgiLevels irq hsgi, BitVec.getLsbD_zero]
      exact Bool.false_ne_true
    · exact fun hbit => absurd (hshape.levels irq hprivate c hbit) (Nat.not_lt.mpr hout)
  · have hclear : ∀ irq < numPrivate, ∀ c, NoInput cfg irq c →
        ¬ (g.physical.irqs.row irq).level.getLsbD c = true := by
      intro irq hprivate c hno hbit
      by_cases hc : c < maxCpus
      · exact hlow irq hprivate c hc hno ((hlevels irq hprivate c hc hno).mp hbit)
      · rw [CpuMask.getLsbD_of_le _ (Nat.not_lt.mp hc)] at hbit
        cases hbit
    refine { hkeeps with levels := fun irq hprivate c hbit => ?_, sgiLevels := fun irq hsgi => ?_ }
    · by_contra hout
      exact hclear irq hprivate c (.inr (Nat.not_lt.mp hout)) hbit
    · rw [CpuMask.eq_zero_iff]
      exact fun c => Bool.not_eq_true _ ▸ hclear irq (Nat.lt_trans hsgi (by decide)) c (.inl hsgi)

/-- All ones are written to the enables, the triggers and the targets of interrupts of which one is
connected, and SGI 5 is sent to everyone. -/
theorem store_keeps_its_shape_all_ones :
    let cfg : Config := { Config.standard with cpus := 2, spis := 1 }
    let actions : List Action :=
      [.write .distributor (.cpu 1) 0x100 0xffffffff .word,
        .write .distributor (.cpu 0) 0x104 0xffffffff .word,
        .write .distributor (.cpu 0) 0xc08 0xffffffff .word,
        .write .distributor (.cpu 0) 0x820 0xffffffff .word, .spi 0 true,
        .write .distributor (.cpu 1) 0xf00 0x00ff0005 .word]
    let g := (powerOn cfg).run actions
    cfg.validate = .ok () ∧ InShape g ∧
      (g.physical.irqs.row 5).pending = 0b11#8 ∧ (g.physical.irqs.row 16).enabled = 0b10#8 ∧
      (g.physical.irqs.row 32).level = .all ∧ (g.physical.irqs.row 32).trigger = .edge ∧
      g.physical.distributor.targets 32 = 0b11#8 ∧ g.physical.irqs.row 33 = .idleShared := by
  intro cfg actions g
  have hv : cfg.validate = .ok () := by decide
  refine ⟨hv, (store_keeps_its_shape hv actions).2.2.mpr fun irq _ c _ _ => ?_, by decide +kernel⟩
  refine not_outstanding_of_forall (fun a hmem _ hover => ?_) _
  obtain ⟨hprivate, index, hsum, rfl⟩ := hover
  obtain rfl : index = 0 := by simpa [actions] using hmem
  rw [← hsum] at hprivate
  exact absurd hprivate (by decide)

/-- A shared input whose index is the largest but 31 is taken for SGI 0, and that has an input
then, for all CPUs. -/
theorem store_loses_its_shape :
    let g := (powerOn Config.standard).run [.spi 0xffffffffffffffe0 true]
    (Config.standard.validate = .ok () ∧ Reachable g) ∧
      (g.physical.irqs.row 0).level = .all ∧ ¬ InShape g := by
  intro g
  have hlevel : (g.physical.irqs.row 0).level = .all := by decide +kernel
  refine ⟨⟨rfl, reachable_run _⟩, hlevel, fun hshape => ?_⟩
  exact absurd (hlevel.symm.trans (hshape.sgiLevels 0 (by decide))) (by decide)

end Controller

end Gic
