import Gic.Proofs.Rows

/-!
# The two records of a pending software generated interrupt

That an SGI is pending on a CPU is kept twice: as a flag of the interrupt, which
arbitration looks at, and as the set of CPUs that have sent it, which an
acknowledge takes them from. The two are changed one after the other, by four
kinds of accesses.

## The model

`Recorded p cpu sgi` says that the two records of one SGI on one CPU agree, and
that both ends are connected. Each of the four kinds of accesses puts sources
in or takes them out (`Distributor.sources_setSources`,
`Distributor.sources_addSource`), and sets or clears the flag with it.

## What is proved

* `Reachable.recorded` — the records agree in every reachable state.
* `Bypassing.untouched` — the registers that set and clear the flags of all other
  interrupts, and the inputs, do not make an SGI pending and do not take that
  back.
-/

namespace Gic

namespace Distributor

/-! ### Who waits for an answer -/

theorem sources_setSources (d : Distributor) (cpu sgi : Nat) (mask : CpuMask) (value : Bool)
    {t n : Nat} (ht : t < maxCpus) (hn : n < numSgis) :
    (d.setSources cpu sgi mask value).sources t n =
      if t = cpu ∧ n = sgi then (d.sources t n).assign mask value else d.sources t n := by
  unfold sources setSources
  dsimp only
  rw [Table.row_alter]
  by_cases hcpu : t = cpu
  · subst hcpu
    rw [if_pos ⟨rfl, ht⟩, DistributorBank.setSources]
    dsimp only
    rw [Table.row_alter]
    by_cases hsgi : n = sgi
    · subst hsgi
      rw [if_pos ⟨rfl, hn⟩, if_pos ⟨rfl, rfl⟩]
    · rw [if_neg fun h => hsgi h.1.symm, if_neg fun h => hsgi h.2]
  · rw [if_neg fun h => hcpu h.1.symm, if_neg fun h => hcpu h.1]

theorem sources_addSource (d : Distributor) (sgi source : Nat) (receivers : CpuMask) {t n : Nat}
    (ht : t < maxCpus) (hn : n < numSgis) :
    (d.addSource sgi source receivers).sources t n =
      if receivers.getLsbD t = true ∧ n = sgi then (d.sources t n).assign (.only source) true
      else d.sources t n := by
  unfold sources addSource
  dsimp only
  rw [Table.row_mapRows, if_pos ht, CpuMask.has_eq]
  by_cases hr : receivers.getLsbD t = true
  · rw [if_pos hr, DistributorBank.setSources]
    dsimp only
    rw [Table.row_alter]
    by_cases hsgi : n = sgi
    · subst hsgi
      rw [if_pos ⟨rfl, hn⟩, if_pos ⟨hr, rfl⟩]
    · rw [if_neg fun h => hsgi h.1.symm, if_neg fun h => hsgi h.2]
  · rw [if_neg hr, if_neg fun h => hr h.1]

@[simp] theorem sources_setPriority (d : Distributor) (cpu irq : Nat) (priority : Priority)
    (t n : Nat) : (d.setPriority cpu irq priority).sources t n = d.sources t n := by
  unfold setPriority sources
  split
  · dsimp only
    rw [Table.row_alter]
    split <;> rfl
  · rfl

@[simp] theorem sources_setTargets (d : Distributor) (irq : Nat) (targets : CpuMask) (t n : Nat) :
    (d.setTargets irq targets).sources t n = d.sources t n := rfl

end Distributor

namespace Physical

variable {cfg : Config}

/-! ### The records agree -/

/-- The two records of an SGI on a CPU. -/
structure Recorded (p : Physical cfg) (cpu sgi : Nat) : Prop where
  /-- It is latched as pending if and only if some source waits. -/
  agree : (p.irqs.row sgi).pending.getLsbD cpu = true ↔ p.distributor.sources cpu sgi ≠ 0#8
  /-- Only connected CPUs send, and they send to connected CPUs. -/
  connected : ∀ s, (p.distributor.sources cpu sgi).getLsbD s = true → s < cfg.cpus ∧ cpu < cfg.cpus

theorem sources_powerOn (cfg : Config) (cpu : Nat) {sgi : Nat} (hn : sgi < numSgis) :
    (powerOn cfg).distributor.sources cpu sgi = 0#8 := by
  simp only [powerOn, Distributor.powerOn, Distributor.sources, Table.row_replicate]
  split
  · simp only [DistributorBank.blank, Table.row_replicate, hn, if_true]
  · show (Table.replicate numSgis 0#8 : Table numSgis CpuMask).row sgi = 0#8
    rw [Table.row_replicate, if_pos hn]

theorem recorded_powerOn (cfg : Config) (cpu : Nat) {sgi : Nat} (hn : sgi < numSgis) :
    Recorded (powerOn cfg) cpu sgi := by
  have hsources := sources_powerOn cfg cpu hn
  have hpending : ((powerOn cfg).irqs.row sgi).pending = 0#8 := by
    have : sgi < maxIrqs := Nat.lt_trans hn (by decide)
    simp only [powerOn, Store.powerOn, Table.row_build, hn, this, if_true]
    rfl
  constructor
  · rw [hsources, hpending]
    simp
  · intro s
    rw [hsources]
    simp

theorem Recorded.congr {p q : Physical cfg} {cpu sgi : Nat} (h : Recorded p cpu sgi)
    (hp : (q.irqs.row sgi).pending.getLsbD cpu = (p.irqs.row sgi).pending.getLsbD cpu)
    (hs : q.distributor.sources cpu sgi = p.distributor.sources cpu sgi) : Recorded q cpu sgi where
  agree := by rw [hp, hs, h.agree]
  connected := by rw [hs]; exact h.connected

theorem Recorded.keep {p q : Physical cfg} {cpu sgi : Nat} (h : Recorded p cpu sgi)
    (hp : (q.irqs.row sgi).pending = (p.irqs.row sgi).pending)
    (hs : q.distributor.sources cpu sgi = p.distributor.sources cpu sgi) : Recorded q cpu sgi :=
  h.congr (by rw [hp]) hs

/-- Sources are put in, and the flag is set. -/
theorem recorded_of_gain {p q : Physical cfg} {cpu sgi : Nat} (h : Recorded p cpu sgi)
    {fresh : CpuMask} (some : fresh ≠ 0#8)
    (low : ∀ s, fresh.getLsbD s = true → s < cfg.cpus) (hcpu : cpu < cfg.cpus)
    (hp : (q.irqs.row sgi).pending.getLsbD cpu = true)
    (hs : q.distributor.sources cpu sgi = (p.distributor.sources cpu sgi).assign fresh true) :
    Recorded q cpu sgi where
  agree := by
    rw [hp, hs, CpuMask.ne_zero_iff]
    obtain ⟨s, hs⟩ := (CpuMask.ne_zero_iff fresh).mp some
    refine iff_of_true rfl ⟨s, ?_⟩
    rw [CpuMask.getLsbD_assign, if_pos hs]
  connected s := by
    rw [hs, CpuMask.getLsbD_assign]
    split
    · rename_i hfresh
      exact fun _ => ⟨low s hfresh, hcpu⟩
    · exact h.connected s

/-- Sources are taken out, and the flag is cleared if none is left. -/
theorem recorded_of_loss {p q : Physical cfg} {cpu sgi : Nat} (h : Recorded p cpu sgi)
    {spent : CpuMask}
    (hs : q.distributor.sources cpu sgi = (p.distributor.sources cpu sgi).assign spent false)
    (hp : (q.irqs.row sgi).pending.getLsbD cpu =
      if q.distributor.sources cpu sgi = 0#8 then false
      else (p.irqs.row sgi).pending.getLsbD cpu) : Recorded q cpu sgi := by
  have hold : ∀ s, (q.distributor.sources cpu sgi).getLsbD s = true →
      (p.distributor.sources cpu sgi).getLsbD s = true := by
    intro s
    rw [hs, CpuMask.getLsbD_assign]
    split
    · intro hf
      cases hf
    · exact id
  constructor
  · rw [hp]
    split
    · rename_i hzero
      simp only [hzero, Bool.false_eq_true, ne_eq, not_true_eq_false]
    · rename_i hleft
      obtain ⟨s, hs⟩ := (CpuMask.ne_zero_iff _).mp hleft
      exact iff_of_true (h.agree.mpr ((CpuMask.ne_zero_iff _).mpr ⟨s, hold s hs⟩)) hleft
  · exact fun s hs => h.connected s (hold s hs)

/-! ### Every access keeps them so -/

theorem pending_alterIrq (p : Physical cfg) (irq cpu : Nat) {n : Nat} (hn : n < maxIrqs)
    {f : IrqState → IrqState} (mask : CpuMask) (value : Bool)
    (hf : ∀ r, (f r).pending = r.pending.assign mask value) :
    ((p.alterIrq irq f).irqs.row n).pending.getLsbD cpu =
      if mask.getLsbD cpu = true ∧ n = irq then value
      else (p.irqs.row n).pending.getLsbD cpu := by
  rw [row_alterIrq]
  by_cases hirq : n = irq
  · subst hirq
    rw [if_pos ⟨rfl, hn⟩, hf, CpuMask.getLsbD_assign]
    simp only [and_true]
  · rw [if_neg fun h => hirq h.1.symm, if_neg fun h => hirq h.2]

/-- What is done to an interrupt that has an input is not done to an SGI. -/
theorem row_alterIrq_sgi (p : Physical cfg) {irq sgi : Nat} (hinput : numSgis ≤ irq)
    (hsgi : sgi < numSgis) (f : IrqState → IrqState) :
    (p.alterIrq irq f).irqs.row sgi = p.irqs.row sgi :=
  row_alterIrq_of_ne p (Nat.ne_of_gt (Nat.lt_of_lt_of_le hsgi hinput)) f

/-- An SGI is raised by a connected CPU for connected CPUs. -/
theorem recorded_raiseSgi {p : Physical cfg} {cpu n : Nat} (h : Recorded p cpu n)
    (hcpu : cpu < maxCpus) (hn : n < numSgis) {source sgi : Nat} {targets : CpuMask}
    (hm : source < maxCpus) (hs : source < cfg.cpus)
    (ht : ∀ t, targets.getLsbD t = true → t < cfg.cpus) :
    Recorded (p.raiseSgi source sgi targets) cpu n := by
  have hpending := pending_alterIrq p sgi cpu (Nat.lt_trans hn (by decide : numSgis < maxIrqs))
    (f := fun r => (r.setPending true targets).setSignaled false targets) targets true fun _ => rfl
  have hsources := Distributor.sources_addSource p.distributor sgi source targets hcpu hn
  by_cases hto : targets.getLsbD cpu = true ∧ n = sgi
  · rw [if_pos hto] at hpending hsources
    have hsome : CpuMask.only source ≠ 0#8 :=
      (CpuMask.ne_zero_iff _).mpr ⟨source, (CpuMask.getLsbD_only_iff hm source).mpr rfl⟩
    have hlow : ∀ s, (CpuMask.only source).getLsbD s = true → s < cfg.cpus :=
      fun s h => (CpuMask.getLsbD_only_iff hm s).mp h ▸ hs
    exact recorded_of_gain h hsome hlow (ht cpu hto.1) hpending hsources
  · rw [if_neg hto] at hpending hsources
    exact h.congr hpending hsources

/-- Sources of one CPU are spent, by itself. -/
theorem recorded_spend {p q : Physical cfg} {cpu n : Nat} (h : Recorded p cpu n)
    (hcpu : cpu < maxCpus) (hn : n < numSgis) {i sgi : Nat} (hm : i < maxCpus) {spent : CpuMask}
    (hd : q.distributor = p.distributor.setSources i sgi spent false)
    (hq : q.irqs = if q.distributor.sources i sgi = 0#8 then
      (p.alterIrq sgi fun r => r.setPending false (.only i)).irqs else p.irqs) :
    Recorded q cpu n := by
  have hpending := pending_alterIrq p sgi cpu (Nat.lt_trans hn (by decide : numSgis < maxIrqs))
    (f := fun r => r.setPending false (.only i)) (.only i) false fun _ => rfl
  have hsources := Distributor.sources_setSources p.distributor i sgi spent false hcpu hn
  simp only [CpuMask.getLsbD_only_iff hm] at hpending
  rw [← hd] at hsources
  by_cases hto : cpu = i ∧ n = sgi
  · rw [if_pos hto] at hpending hsources
    obtain ⟨rfl, rfl⟩ := hto
    refine recorded_of_loss h hsources ?_
    rw [hq]
    split
    · exact hpending
    · rfl
  · rw [if_neg hto] at hpending hsources
    refine h.congr ?_ hsources
    rw [hq]
    split
    · exact hpending
    · rfl

theorem recorded_writeByte {p : Physical cfg} {cpu n : Nat} (h : Recorded p cpu n)
    (hcpu : cpu < maxCpus) (hn : n < numSgis) {i : Nat} (hm : i < maxCpus) (hi : i < cfg.cpus)
    (register : DistributorRegister) (value : BitVec 8) :
    Recorded (p.writeByte i register value).state cpu n := by
  have hirq : n < maxIrqs := Nat.lt_trans hn (by decide)
  cases register with
  | setSources sgi =>
    simp only [writeByte]
    split
    · rename_i hset
      have hpending := pending_alterIrq p sgi cpu hirq
        (f := fun r => (r.setPending true (.only i)).setSignaled false (.only i)) (.only i) true
        fun _ => rfl
      have hsources := Distributor.sources_setSources p.distributor i sgi
        (value &&& CpuMask.first cfg.cpus) true hcpu hn
      simp only [CpuMask.getLsbD_only_iff hm] at hpending
      by_cases hto : cpu = i ∧ n = sgi
      · rw [if_pos hto] at hpending hsources
        refine recorded_of_gain h hset.2 (fun s hs => ?_) (hto.1 ▸ hi) hpending hsources
        simp only [BitVec.getLsbD_and, CpuMask.getLsbD_first, Bool.and_eq_true,
          decide_eq_true_eq] at hs
        exact hs.2.1
      · rw [if_neg hto] at hpending hsources
        exact h.congr hpending hsources
    · exact h
  | clearSources sgi =>
    simp only [writeByte]
    split
    · split
      · rename_i hnone
        exact recorded_spend h hcpu hn hm rfl (if_pos hnone).symm
      · rename_i hsome
        exact recorded_spend h hcpu hn hm rfl (if_neg hsome).symm
    · exact h
  | priority irq =>
    simp only [writeByte]
    split
    · exact h.congr rfl (Distributor.sources_setPriority _ _ _ _ _ _)
    · exact h
  | targets irq =>
    simp only [writeByte]
    split
    · exact h.congr rfl rfl
    · exact h
  | _ => exact h

theorem recorded_takeSgi {p : Physical cfg} {cpu n : Nat} (h : Recorded p cpu n)
    (hcpu : cpu < maxCpus) (hn : n < numSgis) {i : Nat} (hm : i < maxCpus) (sgi source : Nat) :
    Recorded (p.takeSgi i sgi source) cpu n := by
  simp only [takeSgi]
  split
  · rename_i hnone
    exact recorded_spend h hcpu hn hm rfl (if_pos hnone).symm
  · rename_i hsome
    exact recorded_spend h hcpu hn hm rfl (if_neg hsome).symm

theorem recorded_take {p : Physical cfg} {cpu n : Nat} (h : Recorded p cpu n)
    (hcpu : cpu < maxCpus) (hn : n < numSgis) {i : Nat} (hm : i < maxCpus) (irq : Nat) :
    Recorded (p.take i irq) cpu n := by
  unfold take
  split
  · exact recorded_takeSgi h hcpu hn hm irq _
  · rename_i hirq
    have hne : irq ≠ n := fun heq => hirq (heq ▸ hn)
    exact h.keep (congrArg IrqState.pending (row_alterIrq_of_ne p hne _)) rfl

theorem recorded_arbitrateIf {w : Written cfg} {cpu n : Nat} (h : Recorded w.state cpu n) :
    Recorded (arbitrateIf w).value cpu n :=
  h.keep (by rw [arbitrateIf_irqs]) (by rw [arbitrateIf_distributor])

theorem recorded_acknowledge {p : Physical cfg} {cpu n : Nat} (h : Recorded p cpu n)
    (hcpu : cpu < maxCpus) (hn : n < numSgis) {i : Nat} (hm : i < maxCpus) :
    Recorded (p.acknowledge i).value.2 cpu n := by
  rw [acknowledge_value]
  split
  · exact h
  · refine (recorded_take h hcpu hn hm _).keep ?_ rfl
    rw [arbitrate_irqs, start, alterCpu_irqs]
    exact alterIrq_keeps IrqState.pending (f := fun r => r.acknowledge i) (fun _ => rfl) _ _ _

/-- An SGI is meant for connected CPUs only. -/
theorem connected_of_sgiTargets {cpu : Nat} {request : SgiRequest} {targets : CpuMask}
    (h : sgiTargets cfg cpu request = some targets) {t : Nat} (ht : targets.getLsbD t = true) :
    t < cfg.cpus := by
  have hfirst : ∀ mask : CpuMask, (mask &&& .first cfg.cpus).getLsbD t = true → t < cfg.cpus := by
    intro mask hmask
    rw [BitVec.getLsbD_and, CpuMask.getLsbD_first, Bool.and_eq_true, Bool.and_eq_true,
      decide_eq_true_eq] at hmask
    exact hmask.2.1
  unfold sgiTargets at h
  split at h
  · exact hfirst _ (Option.some.inj h ▸ ht)
  · exact hfirst _ (Option.some.inj h ▸ ht)
  · exact hfirst _ (Option.some.inj h ▸ ht)
  · cases h

theorem recorded_writeWord {p : Physical cfg} {cpu n : Nat} (h : Recorded p cpu n)
    (hcpu : cpu < maxCpus) (hn : n < numSgis) {i : Nat} (hm : i < maxCpus) (hi : i < cfg.cpus)
    (register : DistributorRegister) (value : Word) :
    Recorded (p.writeWord i register value).value.state cpu n := by
  cases register with
  | sgi =>
    simp only [writeWord, requestSgi]
    split
    · exact h
    · rename_i targets htargets
      exact recorded_raiseSgi h hcpu hn hm hi fun t ht => connected_of_sgiTargets htargets ht
  | setEnable k | clearEnable k | setPending k | clearPending k =>
    exact h.keep (alterSelected_keeps p k value fun r => congrArg IrqState.pending (if_pos hn)) rfl
  | clearActive k => exact h.keep (alterSelected_keeps p k value fun _ => rfl) rfl
  | trigger k =>
    simp only [writeWord]
    split
    · refine h.keep (Table.mapRows_keeps IrqState.pending (fun r => ?_) _) rfl
      split <;> rfl
    · exact h
  | _ => exact h.congr rfl rfl

end Physical

namespace Controller

variable {cfg : Config}

open Physical

/-- Every rule keeps the records of an SGI on a CPU. -/
theorem Moves.recorded {g : Controller cfg} {a : Action} {p : Physical cfg} (h : Moves g a p)
    (hpos : 0 < cfg.cpus) (hmax : cfg.cpus ≤ maxCpus) {cpu n : Nat} (hcpu : cpu < maxCpus)
    (hn : n < numSgis) (hg : Recorded g.physical cpu n) : Recorded p cpu n := by
  have hi : ∀ i, cpuOf cfg i < cfg.cpus := cpuOf_lt hpos
  have hm : ∀ i, cpuOf cfg i < maxCpus := fun i => Nat.lt_of_lt_of_le (hi i) hmax
  cases h with
  | stays => exact hg
  | distributorWord => exact recorded_arbitrateIf (recorded_writeWord hg hcpu hn (hm _) (hi _) _ _)
  | distributorBytes =>
    refine recorded_arbitrateIf (writeBytes_induct (P := fun p => Recorded p cpu n) ?_ hg _ _)
    exact fun p register value hp => recorded_writeByte hp hcpu hn (hm _) (hi _) register value
  | distributorByte => exact recorded_arbitrateIf (recorded_writeByte hg hcpu hn (hm _) (hi _) _ _)
  | acknowledges => exact recorded_acknowledge hg hcpu hn (hm _)
  | interfaceWrite =>
    exact hg.keep (writeCpuInterface_keeps (φ := IrqState.pending) (fun _ _ _ => rfl)
      (fun _ _ _ => rfl) _ _ _ _ n) (by rw [distributor_writeCpuInterface])
  | backingEnds =>
    exact hg.keep (deactivate_keeps (φ := IrqState.pending) (fun _ _ _ => rfl) (fun _ _ _ => rfl)
      _ _ _ n) rfl
  | ppiDriven =>
    exact hg.keep (congrArg IrqState.pending (row_alterIrq_sgi _ (Nat.le_add_right _ _) hn _)) rfl
  | spiDriven shared =>
    have hinput := Nat.le_trans (by decide : numSgis ≤ numPrivate) shared
    exact hg.keep (congrArg IrqState.pending (row_alterIrq_sgi _ hinput hn _)) rfl
  | overdriven =>
    exact hg.keep (alterIrq_keeps IrqState.pending (fun r => r.pending_drive_zero _ _) _ _ _) rfl
  | arbitrates => exact hg.congr rfl rfl
  | powersOn => exact recorded_powerOn cfg cpu hn

theorem Reachable.recorded (hpos : 0 < cfg.cpus) (hmax : cfg.cpus ≤ maxCpus) {g : Controller cfg}
    (h : Reachable g) {cpu n : Nat} (hcpu : cpu < maxCpus) (hn : n < numSgis) :
    Recorded g.physical cpu n :=
  h.induct (P := fun g => Recorded g.physical cpu n) (recorded_powerOn cfg cpu hn)
    fun g a _ hg => (moves_after g a).recorded hpos hmax hcpu hn hg

/-! ### What does not concern them -/

/-- Actions that set and clear the flags of all other interrupts: writes to the set-pending and
clear-pending registers, of any value and width, and changes of inputs. -/
inductive Bypassing : Action → Prop where
  | pendingWrite {i : Initiator} {o : Nat} {v : BitVec 64} {w : Width} (low : 0x200 ≤ o)
      (high : o < 0x300) : Bypassing (.write .distributor i o v w)
  | ppi (cpu index : Nat) (level : Bool) : Bypassing (.ppi cpu index level)
  | spi (index : Nat) (level : Bool) : Bypassing (.spi index level)
  | request (request : Request) : Bypassing (.request request)

theorem sgi_of_pendingWrite (p : Physical cfg) (cpu : Nat) {o : Nat} (low : 0x200 ≤ o)
    (high : o < 0x300) (value : Word) {n : Nat} (hn : n < numSgis) :
    (p.writeWord cpu (.ofOffset o) value).value.state.irqs.row n = p.irqs.row n ∧
      (p.writeWord cpu (.ofOffset o) value).value.state.distributor = p.distributor := by
  obtain ⟨k, hk | hk⟩ := DistributorRegister.pending_of_offset low high
  · rw [hk]
    exact ⟨alterSelected_keeps (φ := id) p k value fun r => if_pos hn, rfl⟩
  · rw [hk]
    exact ⟨alterSelected_keeps (φ := id) p k value fun r => if_pos hn, rfl⟩

/-- What an action leaves of an SGI that it does not touch: its flags, or at least the latch if it
overdrives its input, and its sources. -/
structure Untouched (g : Controller cfg) (a : Action) (sgi : Nat) : Prop where
  /-- The SGI is pending where it was. -/
  pending : ((g.after a).physical.irqs.row sgi).pending = (g.physical.irqs.row sgi).pending
  /-- Its sources are those that it had. -/
  sources : ∀ cpu, (g.after a).physical.distributor.sources cpu sgi =
    g.physical.distributor.sources cpu sgi
  /-- All else of it is the same as well, unless its input was overdriven. -/
  row : (∀ level, ¬ a.Overdrives sgi level) →
    (g.after a).physical.irqs.row sgi = g.physical.irqs.row sgi

theorem untouched_of_row {g : Controller cfg} {a : Action} {sgi : Nat}
    (hrow : (g.after a).physical.irqs.row sgi = g.physical.irqs.row sgi)
    (hdistributor : (g.after a).physical.distributor = g.physical.distributor) :
    Untouched g a sgi :=
  ⟨congrArg IrqState.pending hrow, fun _ => by rw [hdistributor], fun _ => hrow⟩

/-- None of them touches an SGI. -/
theorem Bypassing.untouched {a : Action} (h : Bypassing a) (g : Controller cfg) {n : Nat}
    (hn : n < numSgis) : Untouched g a n := by
  have hmoves := moves_after g a
  generalize hp : (g.after a).physical = p at hmoves
  cases hmoves with
  | stays => exact untouched_of_row (by rw [hp]) (by rw [hp])
  | distributorWord =>
    cases h with
    | pendingWrite low high =>
      obtain ⟨hrow, hd⟩ := sgi_of_pendingWrite g.physical _ low high _ hn
      exact untouched_of_row (by rw [hp, arbitrateIf_irqs, hrow])
        (by rw [hp, arbitrateIf_distributor, hd])
  | distributorBytes _ bytes | distributorByte bytes =>
    cases h with
    | pendingWrite low high =>
      obtain ⟨k, hk | hk⟩ := DistributorRegister.pending_of_offset low high
      · rw [hk] at bytes
        cases bytes
      · rw [hk] at bytes
        cases bytes
  | ppiDriven =>
    refine untouched_of_row ?_ (by rw [hp]; rfl)
    rw [hp]
    exact row_alterIrq_sgi _ (Nat.le_add_right _ _) hn _
  | spiDriven shared =>
    have hinput := Nat.le_trans (by decide : numSgis ≤ numPrivate) shared
    refine untouched_of_row ?_ (by rw [hp]; rfl)
    rw [hp]
    exact row_alterIrq_sgi _ hinput hn _
  | @overdriven _ irq level overdrives =>
    refine ⟨?_, fun _ => by rw [hp]; rfl, fun hnot => ?_⟩
    · rw [hp]
      exact alterIrq_keeps IrqState.pending (fun r => r.pending_drive_zero _ _) _ _ _
    · have hne : irq ≠ n := fun heq => hnot level (heq ▸ overdrives)
      rw [hp]
      exact row_alterIrq_of_ne _ hne _
  | acknowledges | interfaceWrite | backingEnds | arbitrates | powersOn => cases h

/-- In every reachable state an SGI is pending on a CPU if and only if some source of it waits
there; its sources are connected, and nothing is recorded for a CPU that is not. The registers
and inputs that make other interrupts pending neither add to these records nor take from them; and
they leave all else of an SGI as well, unless a shared input is driven by an index so large that it
is taken for that of the SGI. -/
theorem sgi_records_agree (hv : cfg.validate = .ok ()) :
    (∀ g : Controller cfg, Reachable g → ∀ cpu < maxCpus, ∀ sgi < numSgis,
      ((g.physical.irqs.row sgi).pending.getLsbD cpu = true ↔
        g.physical.distributor.sources cpu sgi ≠ 0#8) ∧
      (∀ s, (g.physical.distributor.sources cpu sgi).getLsbD s = true → s < cfg.cpus) ∧
      (cfg.cpus ≤ cpu → (g.physical.irqs.row sgi).pending.getLsbD cpu = false ∧
        g.physical.distributor.sources cpu sgi = 0#8)) ∧
    (∀ (g : Controller cfg) (a : Action), Bypassing a → ∀ sgi < numSgis, Untouched g a sgi) := by
  obtain ⟨hpos, hmax, -⟩ := Config.bounds_of_validate hv
  constructor
  · intro g hg cpu hcpu sgi hsgi
    have h := hg.recorded hpos hmax hcpu hsgi
    refine ⟨h.agree, fun s hs => (h.connected s hs).1, fun hout => ?_⟩
    have hempty : g.physical.distributor.sources cpu sgi = 0#8 := by
      rw [CpuMask.eq_zero_iff]
      intro s
      cases hs : (g.physical.distributor.sources cpu sgi).getLsbD s with
      | false => rfl
      | true => exact absurd (h.connected s hs).2 (Nat.not_lt.mpr hout)
    refine ⟨?_, hempty⟩
    rw [← Bool.not_eq_true, h.agree]
    exact not_not_intro hempty
  · exact fun g a ha sgi hsgi => ha.untouched g hsgi

/-- A CPU sends itself one SGI, and a master that is no CPU sets a source of another. -/
theorem sgi_records_agree_standard :
    let g := (powerOn Config.standard).run
      [.write .distributor (.cpu 0) 0xf00 0x02000003 .word,
        .write .distributor .unknown 0xf20 1 .byte]
    Config.standard.validate = .ok () ∧ Reachable g ∧
      ((g.physical.irqs.row 3).pending.getLsbD 0 = true ↔
        g.physical.distributor.sources 0 3 ≠ 0#8) ∧
      (g.after (.write .distributor (.cpu 0) 0x280 0xffffffff .word)).physical.irqs.row 3 =
        g.physical.irqs.row 3 :=
  ⟨rfl, reachable_run _,
    ((sgi_records_agree rfl).1 _ (reachable_run _) 0 (by decide) 3 (by decide)).1,
    ((sgi_records_agree rfl).2 _ _ (.pendingWrite (by decide) (by decide)) 3 (by decide)).row
      (fun _ ⟨_, _, _, h⟩ => nomatch h)⟩

end Controller

end Gic
