import Gic.Proofs.Acknowledge
import Gic.Proofs.GuestIsolation

/-!
# Banked state belongs to its CPU

Each flag of an interrupt is kept as one set of CPUs, and every operation has to
pick the CPUs that it means: its own, all of them, the targets, or those that
acknowledge and complete the interrupt together. Of the private interrupts each
CPU has its own instance, so a single wrong set would let one CPU change what
belongs to another one. This module shows that this does not happen.

## The model

* `Flags` and `Bank` — what is kept for one CPU: its flags of the private
  interrupts, its priorities and its sources of software generated interrupts,
  its interface, and its virtual half.
* `Apart cpu p q` — the bank of a CPU is the same in two physical halves.
* `Bank.receive` — a bank to which an SGI was sent.

## What is proved

* `apart_writeByte`, `apart_writeWord`, `apart_acknowledge`,
  `apart_writeCpuInterface` — what a CPU does with a register keeps the banks of
  the others, unless it requests an SGI.
* `banks_belong_to_cpus` — no access by one CPU changes the bank of another one,
  but for a request for an SGI, of which the receivers get the source, and their
  flags for it. A private input of one CPU does not either.
-/

namespace Gic

/-- A request for a software generated interrupt. -/
inductive RequestsSgi : Action → Prop where
  /-- The request register is written. -/
  | request (i : Initiator) (v : BitVec 64) : RequestsSgi (.write .distributor i 0xf00 v .word)

/-- The flags of an interrupt for one CPU. -/
structure Flags where
  /-- It is enabled. -/
  enabled : Bool
  /-- It is latched as pending. -/
  pending : Bool
  /-- It is active. -/
  active : Bool
  /-- Its input is high. -/
  level : Bool
  /-- It was signaled since its input changed. -/
  signaled : Bool
  deriving DecidableEq, Repr

namespace IrqState

/-- The flags of an interrupt for one CPU. -/
def flags (r : IrqState) (cpu : Nat) : Flags where
  enabled := r.enabled.getLsbD cpu
  pending := r.pending.getLsbD cpu
  active := r.active.getLsbD cpu
  level := r.level.getLsbD cpu
  signaled := r.signaled.getLsbD cpu

variable {cpu : Nat} {mask : CpuMask}

theorem getLsbD_assign_of_not (hm : mask.getLsbD cpu = false) (flag : CpuMask) (v : Bool) :
    (flag.assign mask v).getLsbD cpu = flag.getLsbD cpu := by
  rw [CpuMask.getLsbD_assign, hm, if_neg Bool.false_ne_true]

/-! ### What is set for others -/

theorem flags_setEnabled (hm : mask.getLsbD cpu = false) (r : IrqState) (v : Bool) :
    (r.setEnabled v mask).flags cpu = r.flags cpu := by
  simp only [flags, setEnabled, getLsbD_assign_of_not hm]

theorem flags_setPending (hm : mask.getLsbD cpu = false) (r : IrqState) (v : Bool) :
    (r.setPending v mask).flags cpu = r.flags cpu := by
  simp only [flags, setPending, getLsbD_assign_of_not hm]

theorem flags_setActive (hm : mask.getLsbD cpu = false) (r : IrqState) (v : Bool) :
    (r.setActive v mask).flags cpu = r.flags cpu := by
  simp only [flags, setActive, getLsbD_assign_of_not hm]

theorem flags_setLevel (hm : mask.getLsbD cpu = false) (r : IrqState) (v : Bool) :
    (r.setLevel v mask).flags cpu = r.flags cpu := by
  simp only [flags, setLevel, getLsbD_assign_of_not hm]

theorem flags_setSignaled (hm : mask.getLsbD cpu = false) (r : IrqState) (v : Bool) :
    (r.setSignaled v mask).flags cpu = r.flags cpu := by
  simp only [flags, setSignaled, getLsbD_assign_of_not hm]

theorem flags_enable (hm : mask.getLsbD cpu = false) (r : IrqState) :
    (r.enable mask).flags cpu = r.flags cpu := by
  unfold enable
  dsimp only
  split
  · rw [flags_setPending hm, flags_setEnabled hm]
  · rw [flags_setEnabled hm]

theorem flags_drive (hm : mask.getLsbD cpu = false) {targets : CpuMask}
    (ht : targets.getLsbD cpu = false) (r : IrqState) (value : Bool) :
    (r.drive value mask targets).flags cpu = r.flags cpu := by
  unfold drive
  dsimp only
  split
  · rw [flags_setPending ht, flags_setSignaled hm, flags_setLevel hm]
  · rw [flags_setSignaled hm, flags_setLevel hm]

theorem flags_complete {other : Nat} {r : IrqState} (hm : (r.scope other).getLsbD cpu = false) :
    (r.complete other).flags cpu = r.flags cpu := by
  rw [complete, flags_setSignaled hm, flags_setActive hm]

end IrqState

namespace Physical

variable {cfg : Config} {cpu other : Nat}

/-! ### The bank of another CPU -/

/-- What belongs to a CPU is the same in two physical halves. -/
structure Apart (cpu : Nat) (p q : Physical cfg) : Prop where
  /-- Its flags of the private interrupts. -/
  flags : ∀ irq < numPrivate, (q.irqs.row irq).flags cpu = (p.irqs.row irq).flags cpu
  /-- Its priorities of those and its sources of software generated interrupts. -/
  distributor : q.distributor.banks.row cpu = p.distributor.banks.row cpu
  /-- Its interface. -/
  interface : (q.cpus.row cpu).undecided = (p.cpus.row cpu).undecided

theorem Apart.refl (cpu : Nat) (p : Physical cfg) : Apart cpu p p := ⟨fun _ _ => rfl, rfl, rfl⟩

theorem Apart.trans {p q r : Physical cfg} (h : Apart cpu p q) (h' : Apart cpu q r) :
    Apart cpu p r where
  flags irq hirq := (h'.flags irq hirq).trans (h.flags irq hirq)
  distributor := h'.distributor.trans h.distributor
  interface := h'.interface.trans h.interface

theorem apart_arbitrate (cpu : Nat) (p : Physical cfg) : Apart cpu p p.arbitrate.value :=
  ⟨fun _ _ => rfl, rfl, undecided_arbitrate p cpu⟩

theorem Apart.arbitrateIf {p : Physical cfg} {w : Written cfg} (h : Apart cpu p w.state) :
    Apart cpu p (arbitrateIf w).value := by
  unfold Physical.arbitrateIf
  split
  · exact h.trans (apart_arbitrate cpu _)
  · exact h

/-- An interrupt changes for other CPUs. -/
theorem apart_alterIrq (p : Physical cfg) (irq : Nat) {f : IrqState → IrqState}
    (hf : irq < numPrivate → (f (p.irqs.row irq)).flags cpu = (p.irqs.row irq).flags cpu) :
    Apart cpu p (p.alterIrq irq f) where
  flags i hi := by
    rw [row_alterIrq]
    split
    · rename_i h
      obtain ⟨rfl, -⟩ := h
      exact hf hi
    · rfl
  distributor := rfl
  interface := rfl

/-- The interface of another CPU changes. -/
theorem apart_alterCpu (hne : other ≠ cpu) (p : Physical cfg) (f : CpuInterface → CpuInterface) :
    Apart cpu p (p.alterCpu other f) where
  flags _ _ := rfl
  distributor := rfl
  interface := by rw [row_alterCpu, if_neg fun h => hne h.1]

/-- The distributor changes for other CPUs. -/
theorem apart_distributor (p : Physical cfg) {d : Distributor}
    (hd : d.banks.row cpu = p.distributor.banks.row cpu) :
    Apart cpu p { p with distributor := d } :=
  ⟨fun _ _ => rfl, hd, rfl⟩

theorem getLsbD_only_of_ne (hne : other ≠ cpu) : (CpuMask.only other).getLsbD cpu = false := by
  rw [CpuMask.getLsbD_only, decide_eq_false hne, Bool.and_false]

/-- A private interrupt concerns no other CPU. -/
theorem getLsbD_view_of_ne (hne : other ≠ cpu) {irq : Nat} (hirq : irq < numPrivate) :
    (view irq other).getLsbD cpu = false := by
  rw [view, if_pos hirq]
  exact getLsbD_only_of_ne hne

/-! ### The distributor -/

theorem row_banks_setSources (hne : other ≠ cpu) (d : Distributor) (sgi : Nat) (sources : CpuMask)
    (v : Bool) : (d.setSources other sgi sources v).banks.row cpu = d.banks.row cpu := by
  rw [Distributor.setSources, Table.row_alter, if_neg fun h => hne h.1]

theorem row_banks_setPriority (hne : other ≠ cpu) (d : Distributor) (irq : Nat)
    (priority : Priority) : (d.setPriority other irq priority).banks.row cpu = d.banks.row cpu := by
  unfold Distributor.setPriority
  split
  · rw [Table.row_alter, if_neg fun h => hne h.1]
  · rfl

/-- A byte that another CPU writes. -/
theorem apart_writeByte (hne : other ≠ cpu) (p : Physical cfg) (register : DistributorRegister)
    (value : BitVec 8) : Apart cpu p (p.writeByte other register value).state := by
  have hm := getLsbD_only_of_ne hne
  cases register with
  | priority irq =>
    simp only [writeByte]
    split
    · exact apart_distributor p (row_banks_setPriority hne _ _ _)
    · exact .refl cpu p
  | targets irq =>
    simp only [writeByte]
    split
    · exact apart_distributor p rfl
    · exact .refl cpu p
  | setSources sgi =>
    simp only [writeByte]
    split
    · refine Apart.trans (apart_alterIrq p sgi fun _ => ?_)
        (apart_distributor _ (row_banks_setSources hne _ _ _ _))
      rw [IrqState.flags_setSignaled hm, IrqState.flags_setPending hm]
    · exact .refl cpu p
  | clearSources sgi =>
    simp only [writeByte]
    split
    · split
      · refine Apart.trans (apart_alterIrq p sgi fun _ => ?_)
          (apart_distributor _ (row_banks_setSources hne _ _ _ _))
        rw [IrqState.flags_setPending hm]
      · exact apart_distributor p (row_banks_setSources hne _ _ _ _)
    · exact .refl cpu p
  | _ => exact .refl cpu p

/-- The interrupts that a word selects change for other CPUs. -/
theorem apart_alterSelected (p : Physical cfg) (n : Nat) (value : Word)
    {f : Nat → IrqState → IrqState}
    (hf : ∀ irq < numPrivate, irq / 32 = n → ∀ r : IrqState, (f irq r).flags cpu = r.flags cpu) :
    Apart cpu p (p.alterSelected n value f) where
  flags i hi := by
    have hmax : i < maxIrqs := Nat.lt_trans hi (by decide)
    rw [row_alterSelected p n value f hmax]
    split
    · rename_i hsel
      simp only [selects, Bool.and_eq_true, decide_eq_true_eq] at hsel
      exact hf i hi hsel.1.1 _
    · rfl
  distributor := rfl
  interface := rfl

theorem apart_setTriggers (p : Physical cfg) (n : Nat) (value : Word) :
    Apart cpu p (p.setTriggers n value) where
  flags i _ := by
    refine Table.mapRows_keeps (fun r : IrqState => r.flags cpu) (fun r => ?_) p.irqs
    split <;> rfl
  distributor := rfl
  interface := rfl

/-- A word that another CPU writes, and that requests no SGI. -/
theorem apart_writeWord (hne : other ≠ cpu) (p : Physical cfg) {register : DistributorRegister}
    (hsgi : register ≠ .sgi) (value : Word) :
    Apart cpu p (p.writeWord other register value).value.state := by
  -- The private interrupts are those of word 0, which shows the flags of the CPU that writes.
  have hview : ∀ irq < numPrivate, ∀ n, irq / 32 = n →
      (wordView other n).getLsbD cpu = false := by
    rintro irq hirq n rfl
    rw [wordView_eq]
    exact getLsbD_view_of_ne hne hirq
  cases register with
  | control => exact apart_distributor p rfl
  | group n => exact apart_distributor p rfl
  | setEnable n =>
    refine apart_alterSelected p n value fun irq hirq hn r => ?_
    split
    · rfl
    · exact IrqState.flags_enable (hview irq hirq n hn) r
  | clearEnable n =>
    refine apart_alterSelected p n value fun irq hirq hn r => ?_
    split
    · rfl
    · exact IrqState.flags_setEnabled (hview irq hirq n hn) r _
  | setPending n =>
    refine apart_alterSelected p n value fun irq hirq hn r => ?_
    rw [if_pos hirq]
    split
    · rfl
    · exact IrqState.flags_setPending (getLsbD_only_of_ne hne) r _
  | clearPending n =>
    refine apart_alterSelected p n value fun irq hirq hn r => ?_
    split
    · rfl
    · exact IrqState.flags_setPending (hview irq hirq n hn) r _
  | clearActive n =>
    exact apart_alterSelected p n value fun irq hirq hn r =>
      IrqState.flags_setActive (hview irq hirq n hn) r _
  | trigger n =>
    simp only [writeWord]
    split
    · exact apart_setTriggers p n _
    · exact .refl cpu p
  | sgi => exact absurd rfl hsgi
  | _ => exact .refl cpu p

/-! ### The CPU interfaces -/

/-- Another CPU starts an interrupt. -/
theorem Starts.apart (hne : other ≠ cpu) {p q : Physical cfg} {irq source : Nat}
    (h : Starts p q other irq source) : Apart cpu p q where
  flags i hi := by
    by_cases hirq : i = irq
    · subst hirq
      have hm := getLsbD_view_of_ne hne hi
      rw [h.flags]
      simp only [IrqState.flags, IrqState.getLsbD_assign_of_not hm]
      split
      · rfl
      · rw [IrqState.getLsbD_assign_of_not hm]
    · rw [h.others i hirq]
  distributor := by
    rw [h.distributor]
    split
    · exact row_banks_setSources hne _ _ _ _
    · rfl
  interface := h.interfaces cpu (Ne.symm hne)

theorem apart_acknowledge (hne : other ≠ cpu) {p : Physical cfg} (hp : Settled p)
    (hshape : Shaped p) (hmax : cfg.cpus ≤ maxCpus) (hn : cfg.numIrqs ≤ maxIrqs)
    (hc : other < cfg.cpus) : Apart cpu p (p.acknowledge other).value.2 := by
  by_cases hrefused : Refuses p other
  · rw [acknowledge_value, if_pos hrefused]
    exact .refl cpu p
  · have hshown := (hp.competes hn hc (Nat.lt_of_lt_of_le hc hmax) fun h => hrefused (.inl h)).connected
    rw [acknowledge_of_allowed hrefused]
    exact (starts_take hshape hmax hn hc (Nat.lt_of_lt_of_le hshown hn) fun _ => rfl).apart hne

/-- Another CPU ends an interrupt. -/
theorem apart_deactivate (hne : other ≠ cpu) {p : Physical cfg} (hshape : Shaped p) (irq : Nat) :
    Apart cpu p (p.deactivate other irq) := by
  refine apart_alterIrq p irq fun hirq => IrqState.flags_complete ?_
  rw [hshape.scope_eq (Nat.lt_trans hirq (by decide))]
  exact getLsbD_view_of_ne hne hirq

theorem apart_endFor (hne : other ≠ cpu) {p : Physical cfg} (hshape : Shaped p)
    (ended : Option Nat) : Apart cpu p (p.endFor other ended) := by
  cases ended with
  | none => exact .refl cpu p
  | some irq => exact (apart_deactivate hne hshape irq).trans (apart_arbitrate cpu _)

theorem apart_complete (hne : other ≠ cpu) {p : Physical cfg} (hshape : Shaped p) (value : Word) :
    Apart cpu p (p.complete other value).value := by
  rw [complete_value]
  split
  · have hdropped : Shaped (p.alterCpu other fun i => i.drop (value.field 0 10)) :=
      ⟨hshape.routing, hshape.trigger⟩
    exact ((apart_alterCpu hne p _).trans (apart_deactivate hne hdropped _)).trans
      (apart_arbitrate cpu _)
  · exact .refl cpu p

/-- A word that another CPU writes to its interface. -/
theorem apart_writeCpuInterface (hne : other ≠ cpu) {p : Physical cfg} (hshape : Shaped p)
    (register : CpuRegister) (value : Word) :
    Apart cpu p (p.writeCpuInterface other register value).value := by
  cases register with
  | control | priorityMask => exact (apart_alterCpu hne p _).trans (apart_arbitrate cpu _)
  | binaryPoint | aliasPoint | deactivation => exact apart_alterCpu hne p _
  | completion => exact apart_complete hne hshape value
  | activePriorities n =>
    cases n with
    | zero => exact apart_alterCpu hne p _
    | succ n => exact .refl cpu p
  | _ => exact .refl cpu p

end Physical

/-! ### Banks -/

/-- What is kept for one CPU alone. -/
@[ext] structure Bank where
  /-- Its flags of the private interrupts. -/
  flags : Fin numPrivate → Flags
  /-- Its priorities of those and its sources of software generated interrupts. -/
  distributor : DistributorBank
  /-- Its interface, beside the decisions of arbitration. -/
  interface : CpuInterface
  /-- What it holds for its guest. -/
  guest : VirtualCpu

/-- A bank to which the CPU `source` has sent an SGI. -/
def Bank.receive (k : Bank) (sgi source : Nat) : Bank :=
  { k with
    flags := fun irq =>
      if irq.val = sgi then { k.flags irq with pending := true, signaled := false } else k.flags irq
    distributor := k.distributor.setSources sgi (.only source) true }

namespace Controller

variable {cfg : Config} {cpu other : Nat}

open Physical

/-- What is kept for one CPU alone. -/
def bank (g : Controller cfg) (cpu : Nat) : Bank where
  flags irq := (g.physical.irqs.row irq).flags cpu
  distributor := g.physical.distributor.banks.row cpu
  interface := (g.physical.cpus.row cpu).undecided
  guest := g.virtuals.row cpu

theorem bank_eq {g h : Controller cfg} (hphysical : Apart cpu g.physical h.physical)
    (hguest : Alike cpu g h) : h.bank cpu = g.bank cpu :=
  Bank.ext (funext fun irq => hphysical.flags irq irq.isLt) hphysical.distributor
    hphysical.interface hguest

/-- What another CPU writes to the distributor, if it requests no SGI. -/
theorem apart_write_distributor (hne : other ≠ cpu) (g : Controller cfg) {i : Initiator}
    (own : cpuOf cfg i = other) (o : Nat) (v : BitVec 64) (w : Width)
    (hsgi : ¬ RequestsSgi (.write .distributor i o v w)) :
    Apart cpu g.physical (g.after (.write .distributor i o v w)).physical := by
  subst own
  rw [physical_after_write_distributor]
  split
  · exact .refl cpu _
  cases w with
  | word =>
    by_cases aligned : o % 4 = 0
    · cases hb : (DistributorRegister.ofOffset o).isByte with
      | true =>
        simp only [Physical.writeDistributor, aligned, hb, if_true]
        exact Apart.arbitrateIf (writeBytes_induct (P := fun q => Apart cpu g.physical q)
          (fun q _ _ hq => hq.trans (apart_writeByte hne q _ _)) (.refl cpu _) _ _)
      | false =>
        have hregister : DistributorRegister.ofOffset o ≠ .sgi := fun h => by
          have hoffset := DistributorRegister.offset_of_sgi h
          obtain rfl : o = 0xf00 := by omega
          exact hsgi (.request i v)
        simp only [Physical.writeDistributor, aligned, hb, if_true]
        exact Apart.arbitrateIf (apart_writeWord hne _ hregister _)
    · simp only [Physical.writeDistributor, aligned, if_false]
      exact .refl cpu _
  | byte =>
    cases hb : (DistributorRegister.ofOffset o).isByte with
    | true =>
      simp only [Physical.writeDistributor, hb, if_true]
      exact Apart.arbitrateIf (apart_writeByte hne _ _ _)
    | false =>
      simp only [Physical.writeDistributor, hb]
      exact .refl cpu _
  | half | double => exact .refl cpu _

/-- What another CPU writes to its interface. -/
theorem apart_write_cpuInterface (hne : other ≠ cpu) {g : Controller cfg} (hg : Reachable g)
    {i : Initiator} (own : cpuOf cfg i = other) (o : Nat) (v : BitVec 64) (w : Width) :
    Apart cpu g.physical (g.after (.write .cpuInterface i o v w)).physical := by
  subst own
  rw [after_write]
  split
  · exact .refl cpu _
  · simp only [writeWindow]
    split
    · exact .refl cpu _
    · exact apart_writeCpuInterface hne hg.shaped _ _

/-- An access by another CPU keeps the physical part of a bank, unless it requests an SGI. -/
theorem apart_after (hv : cfg.validate = .ok ()) {g : Controller cfg} (hg : Reachable g)
    (hc : other < cfg.cpus) (hne : other ≠ cpu) {x : Action} (hx : CpuAccess cfg other x)
    (hsgi : ¬ RequestsSgi x) : Apart cpu g.physical (g.after x).physical := by
  obtain ⟨-, hmax, hirqs⟩ := Config.bounds_of_validate hv
  -- Beside its own half a guest reaches what backs the interrupt that it completes.
  have hguest : GuestAccess cfg other x → Apart cpu g.physical (g.after x).physical := fun h => by
    rw [physical_after_guest g h]
    exact apart_endFor hne hg.shaped _
  cases hx with
  | @read window i o w own =>
    by_cases hends : window = .cpuInterface ∧ o = 0x0c ∧ w = .word
    · obtain ⟨rfl, rfl, rfl⟩ := hends
      subst own
      exact apart_acknowledge hne hg.settled hg.shaped hmax hirqs hc
    · rw [physical_after_read g hends]
      exact .refl cpu _
  | @write window i o v w own =>
    cases window with
    | distributor => exact apart_write_distributor hne g own o v w hsgi
    | cpuInterface => exact apart_write_cpuInterface hne hg own o v w
    | vifControl => exact hguest (.write (.inl rfl) own)
    | vcpuInterface => exact hguest (.write (.inr rfl) own)

/-! ### Requests for software generated interrupts -/

theorem physical_after_request (g : Controller cfg) (i : Initiator) (v : BitVec 64) :
    (g.after (.write .distributor i 0xf00 v .word)).physical =
      (g.physical.requestSgi (cpuOf cfg i) (.ofWord (v.setWidth 32))).value.arbitrate.value := rfl

theorem sgi_ofWord (v : BitVec 64) :
    (SgiRequest.ofWord (v.setWidth 32)).sgi.toNat = (v.extractLsb' 0 4).toNat :=
  congrArg BitVec.toNat (BitVec.extractLsb'_setWidth_of_le (by decide))

theorem row_banks_addSource (d : Distributor) (sgi source : Nat) (targets : CpuMask)
    (hm : cpu < maxCpus) :
    (d.addSource sgi source targets).banks.row cpu =
      if targets.getLsbD cpu = true then (d.banks.row cpu).setSources sgi (.only source) true
      else d.banks.row cpu := by
  rw [Distributor.addSource, Table.row_mapRows, if_pos hm, CpuMask.has_eq]

/-- A CPU that is among the receivers of an SGI. -/
theorem bank_raiseSgi (g : Controller cfg) (hm : cpu < maxCpus) {sgi : Nat} (hsgi : sgi < numSgis)
    (source : Nat) {targets : CpuMask} (ht : targets.getLsbD cpu = true) :
    ({ g with physical := g.physical.raiseSgi source sgi targets } : Controller cfg).bank cpu =
      (g.bank cpu).receive sgi source := by
  have hbound : sgi < maxIrqs := Nat.lt_trans hsgi (by decide)
  refine Bank.ext (funext fun irq => ?_) ?_ rfl rfl
  · show ((g.physical.alterIrq sgi _).irqs.row irq).flags cpu =
      if irq.val = sgi then _ else (g.physical.irqs.row irq).flags cpu
    rw [row_alterIrq]
    by_cases hirq : irq.val = sgi
    · rw [if_pos ⟨hirq.symm, hirq ▸ hbound⟩, if_pos hirq]
      simp only [IrqState.flags, IrqState.setPending, IrqState.setSignaled, CpuMask.getLsbD_assign,
        ht, if_true]
      rfl
    · rw [if_neg fun h => hirq h.1.symm, if_neg hirq]
  · show (g.physical.distributor.addSource sgi source targets).banks.row cpu = _
    rw [row_banks_addSource _ _ _ _ hm, if_pos ht]
    rfl

/-- One that is not. -/
theorem apart_raiseSgi (p : Physical cfg) (hm : cpu < maxCpus) (sgi source : Nat)
    {targets : CpuMask} (ht : targets.getLsbD cpu = false) :
    Apart cpu p (p.raiseSgi source sgi targets) := by
  refine Apart.trans (apart_alterIrq p sgi fun _ => ?_) (apart_distributor _ ?_)
  · rw [IrqState.flags_setSignaled ht, IrqState.flags_setPending ht]
  · rw [alterIrq_distributor, row_banks_addSource _ _ _ _ hm, ht, if_neg Bool.false_ne_true]

/-- A request for an SGI gives the source to its receivers, and nothing to the others. -/
theorem bank_after_request (hv : cfg.validate = .ok ()) {g : Controller cfg} (hg : Reachable g)
    (hc : cpu < cfg.cpus) (hother : other < cfg.cpus) (hne : other ≠ cpu) {i : Initiator}
    (own : cpuOf cfg i = other) (v : BitVec 64) :
    let h := g.after (.write .distributor i 0xf00 v .word)
    (Means cfg other cpu v → h.bank cpu = (g.bank cpu).receive ((v.extractLsb' 0 4).toNat) other) ∧
      (¬ Means cfg other cpu v → h.bank cpu = g.bank cpu) := by
  intro h
  subst own
  obtain ⟨-, hmax, -⟩ := Config.bounds_of_validate hv
  have hm := Nat.lt_of_lt_of_le hc hmax
  have hmeans : (∃ targets, sgiTargets cfg (cpuOf cfg i) (.ofWord (v.setWidth 32)) = some targets ∧
      targets.getLsbD cpu = true) ↔ Means cfg (cpuOf cfg i) cpu v :=
    means_iff (Nat.lt_of_lt_of_le hother hmax) hm
  have hsgi : (v.extractLsb' 0 4).toNat < numSgis := (v.extractLsb' 0 4).isLt
  have hguest : Alike cpu g h :=
    alike_of_not_access hg hc (fun own => hne (CpuAccess.unique (.write rfl) own.cpuAccess)) nofun
  have hphysical : h.physical =
      (g.physical.requestSgi (cpuOf cfg i) (.ofWord (v.setWidth 32))).value.arbitrate.value :=
    physical_after_request g i v
  unfold requestSgi at hphysical
  cases htargets : sgiTargets cfg (cpuOf cfg i) (.ofWord (v.setWidth 32)) with
  | none =>
    rw [htargets] at hphysical hmeans
    refine ⟨fun hmean => ?_, fun _ => bank_eq ?_ hguest⟩
    · obtain ⟨_, hsome, -⟩ := hmeans.mpr hmean
      cases hsome
    · rw [hphysical]
      exact apart_arbitrate cpu _
  | some targets =>
    rw [htargets] at hphysical hmeans
    simp only [Option.some.injEq, exists_eq_left'] at hmeans
    simp only [Traced.value_bind, Traced.value_pure, sgi_ofWord] at hphysical
    refine ⟨fun hmean => ?_, fun hmean => bank_eq ?_ hguest⟩
    · rw [← bank_raiseSgi g hm hsgi (cpuOf cfg i) (hmeans.mpr hmean)]
      refine bank_eq ?_ hguest
      rw [hphysical]
      exact apart_arbitrate cpu _
    · have hnot : targets.getLsbD cpu = false := Bool.eq_false_iff.mpr fun ht => hmean (hmeans.mp ht)
      rw [hphysical]
      exact (apart_raiseSgi _ hm _ _ hnot).trans (apart_arbitrate cpu _)

/-- A private input of another CPU takes a level. -/
theorem bank_after_ppi (hne : other ≠ cpu) (g : Controller cfg) (index : Nat) (level : Bool) :
    (g.after (.ppi other index level)).bank cpu = g.bank cpu := by
  have hm := getLsbD_only_of_ne hne
  refine bank_eq ?_ ?_
  · show Apart cpu g.physical (g.drivePpi other index level).value.physical
    have hdriven : Apart cpu g.physical (g.physical.alterIrq (numSgis + index) fun r =>
        r.drive level (.only other) (.only other)) :=
      apart_alterIrq _ _ fun _ => IrqState.flags_drive hm hm _ _
    unfold drivePpi
    split
    · exact hdriven.trans (apart_arbitrate cpu _)
    · exact .refl cpu _
  · show (g.drivePpi other index level).value.virtuals.row cpu = g.virtuals.row cpu
    rw [virtuals_drivePpi]

/-- In every reachable state the bank of a CPU is its own: no access by another CPU changes it but a
request for an SGI, by which the receivers get the source and find the SGI pending; and a private
input of another CPU does not change it. -/
theorem banks_belong_to_cpus (hv : cfg.validate = .ok ()) {g : Controller cfg} (hg : Reachable g)
    {a b : Nat} (ha : a < cfg.cpus) (hb : b < cfg.cpus) (hne : a ≠ b) :
    (∀ x, CpuAccess cfg a x → ¬ RequestsSgi x → (g.after x).bank b = g.bank b) ∧
    (∀ i v, cpuOf cfg i = a →
      (Means cfg a b v → (g.after (.write .distributor i 0xf00 v .word)).bank b =
        (g.bank b).receive (v.extractLsb' 0 4).toNat a) ∧
      (¬ Means cfg a b v →
        (g.after (.write .distributor i 0xf00 v .word)).bank b = g.bank b)) ∧
    ∀ index level, (g.after (.ppi a index level)).bank b = g.bank b := by
  refine ⟨fun x hx hsgi => ?_, fun i v own => ?_, fun index level => ?_⟩
  · have hreset : x ≠ .reset := by
      rintro rfl
      cases hx
    exact bank_eq (apart_after hv hg ha hne hx hsgi)
      (alike_of_not_access hg hb (fun own => hne (hx.unique own.cpuAccess)) hreset)
  · exact bank_after_request hv hg hb ha hne own v
  · exact bank_after_ppi hne g index level

/-- Of two CPUs, the second has been sent SGI 3 and has acknowledged it. The first one latches its
private interrupt 16, requests SGI 3 for the second one, and its input for 16 goes high. -/
theorem banks_belong_to_cpus_two :
    let cfg : Config := { Config.standard with cpus := 2 }
    let g := (powerOn cfg).run
      [.write .distributor (.cpu 0) 0x000 1 .word, .write .cpuInterface (.cpu 1) 0x00 1 .word,
        .write .cpuInterface (.cpu 1) 0x04 0xf0 .word,
        .write .distributor (.cpu 0) 0xf00 0x00020003 .word,
        .read .cpuInterface (.cpu 1) 0x0c .word]
    cfg.validate = .ok () ∧ Reachable g ∧
      (g.after (.write .distributor (.cpu 0) 0x200 0x10000 .word)).bank 1 = g.bank 1 ∧
      (g.after (.write .distributor (.cpu 0) 0xf00 0x00020003 .word)).bank 1 =
        (g.bank 1).receive 3 0 ∧
      (g.after (.ppi 0 0 true)).bank 1 = g.bank 1 := by
  intro cfg g
  have hg : Reachable g := reachable_run _
  have hmeans : Means cfg 0 1 0x00020003 := by
    unfold Means
    decide
  obtain ⟨haccess, hrequest, hppi⟩ :=
    banks_belong_to_cpus (a := 0) (b := 1) (by decide) hg (by decide) (by decide) (by decide)
  exact ⟨by decide, hg, haccess _ (.write rfl) nofun, (hrequest (.cpu 0) _ rfl).1 hmeans,
    hppi 0 true⟩

end Controller

end Gic
