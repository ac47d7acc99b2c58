import Gic.Proofs.GuestRun
import Gic.Proofs.Rows

/-!
# Registers that are kept and not looked at

The distributor keeps a group for each interrupt, and each CPU interface two binary
points, active priorities and a deactivation register. They can be read back, and
nothing else is done with them. They are kept in the midst of what arbitration looks
at, so this module goes through all that can be done to a controller and shows that
none of it looks at them.

## The model

* `Controller.bare` — a controller with all of these registers as they are at
  power-on. Two controllers that are the same then differ in them alone.

## What is proved

* `Physical.bare_arbitrate` — arbitration does not look at them.
* `Physical.acknowledge_bare`, `Physical.writeDistributor_bare` and their kin — no
  access looks at them.
* `Controller.bare_after` — no action looks at them.
-/

namespace Gic

/-- An interface without the registers that are not looked at. -/
def CpuInterface.bare (i : CpuInterface) : CpuInterface :=
  { i with
    binaryPoint := powerOn.binaryPoint
    aliasPoint := powerOn.aliasPoint
    activePriorities := powerOn.activePriorities
    deactivation := powerOn.deactivation }

/-- A distributor without the groups. -/
def Distributor.bare (d : Distributor) : Distributor := { d with groups := powerOn.groups }

theorem Distributor.bare_setPriority (d : Distributor) (cpu irq : Nat) (priority : Priority) :
    (d.setPriority cpu irq priority).bare = d.bare.setPriority cpu irq priority := by
  unfold setPriority
  split <;> rfl

/-- A physical half without the registers that are not looked at. -/
def Physical.bare {cfg : Config} (p : Physical cfg) : Physical cfg where
  irqs := p.irqs
  distributor := p.distributor.bare
  cpus := p.cpus.mapRows fun _ i => i.bare

/-- What a write leaves, without the registers that are not looked at. -/
def Written.bare {cfg : Config} (w : Written cfg) : Written cfg := ⟨w.state.bare, w.dirty⟩

namespace Physical

variable {cfg : Config}

@[simp] theorem row_bare (p : Physical cfg) (c : Nat) :
    p.bare.cpus.row c = (p.cpus.row c).bare := by
  by_cases hc : c < cfg.cpus
  · rw [bare, Table.row_mapRows, if_pos hc]
  · have hle := Nat.not_lt.mp hc
    rw [Table.row_of_le _ hle, Table.row_of_le _ hle]
    rfl

/-- Physical halves that differ in nothing else are the same without these registers. -/
theorem bare_ext {p q : Physical cfg} (hirqs : p.irqs = q.irqs)
    (hdistributor : p.distributor.bare = q.distributor.bare)
    (hcpus : ∀ c < cfg.cpus, (p.cpus.row c).bare = (q.cpus.row c).bare) : p.bare = q.bare := by
  have hrows : p.bare.cpus = q.bare.cpus := Table.ext_row fun c hc => by
    rw [row_bare, row_bare, hcpus c hc]
  calc p.bare = ⟨p.irqs, p.distributor.bare, p.bare.cpus⟩ := rfl
    _ = ⟨q.irqs, q.distributor.bare, q.bare.cpus⟩ := by rw [hirqs, hdistributor, hrows]
    _ = q.bare := rfl

theorem bare_bare (p : Physical cfg) : p.bare.bare = p.bare :=
  bare_ext rfl rfl fun c _ => by rw [row_bare]; rfl

theorem bare_powerOn : (powerOn cfg).bare = powerOn cfg := by
  have hrows : (powerOn cfg).bare.cpus = (powerOn cfg).cpus := Table.ext_row fun c hc => by
    rw [row_bare, powerOn, Table.row_replicate, if_pos hc]
    rfl
  calc (powerOn cfg).bare
      = ⟨(powerOn cfg).irqs, (powerOn cfg).distributor, (powerOn cfg).bare.cpus⟩ := rfl
    _ = powerOn cfg := by rw [hrows]

/-! ### Changes of one part -/

theorem bare_alterCpu {f : CpuInterface → CpuInterface} (hf : ∀ i, (f i).bare = f i.bare)
    (p : Physical cfg) (cpu : Nat) : (p.alterCpu cpu f).bare = p.bare.alterCpu cpu f := by
  have hrows : (p.alterCpu cpu f).bare.cpus = (p.bare.alterCpu cpu f).cpus :=
    Table.ext_row fun c hc => by
      rw [row_bare, row_alterCpu, row_alterCpu, row_bare]
      split
      · exact hf _
      · rfl
  calc (p.alterCpu cpu f).bare
      = ⟨p.irqs, p.distributor.bare, (p.alterCpu cpu f).bare.cpus⟩ := rfl
    _ = p.bare.alterCpu cpu f := by rw [hrows]; rfl

/-- A change of a register that is not looked at. -/
theorem bare_alterCpu_of_unregarded {f : CpuInterface → CpuInterface}
    (hf : ∀ i, (f i).bare = i.bare) (p : Physical cfg) (cpu : Nat) :
    (p.alterCpu cpu f).bare = p.bare :=
  bare_ext rfl rfl fun c _ => by
    rw [row_alterCpu]
    split
    · exact hf _
    · rfl

/-! ### Arbitration -/

theorem sameInputs_bare (p : Physical cfg) : SameInputs p p.bare where
  irqs := rfl
  enables := rfl
  targets _ := rfl
  priority _ _ := rfl
  cpuEnables c := by rw [row_bare]; rfl
  mask c := by rw [row_bare]; rfl
  running c := by rw [row_bare]; rfl

/-- Arbitration does not look at these registers. -/
theorem bare_arbitrate (p : Physical cfg) : p.arbitrate.value.bare = p.bare.arbitrate.value := by
  have hrows : p.arbitrate.value.bare.cpus = p.bare.arbitrate.value.cpus :=
    Table.ext_row fun c hc => by
      rw [row_bare, row_arbitrate p hc, row_arbitrate p.bare hc, p.sameInputs_bare.decideFor_eq,
        row_bare]
      rfl
  calc p.arbitrate.value.bare
      = ⟨p.irqs, p.distributor.bare, p.arbitrate.value.bare.cpus⟩ := rfl
    _ = p.bare.arbitrate.value := by rw [hrows]; rfl

theorem bare_arbitrateIf (w : Written cfg) :
    (arbitrateIf w).value.bare = (arbitrateIf w.bare).value := by
  obtain ⟨p, dirty⟩ := w
  cases dirty with
  | true => exact p.bare_arbitrate
  | false => rfl

/-! ### The distributor -/

theorem writeByte_bare (p : Physical cfg) (cpu : Nat) (register : DistributorRegister)
    (value : BitVec 8) :
    p.bare.writeByte cpu register value = (p.writeByte cpu register value).bare := by
  cases register with
  | priority irq =>
    simp only [writeByte]
    split
    · show (⟨{ p.bare with distributor := p.distributor.bare.setPriority cpu irq value }, true⟩ :
        Written cfg) = _
      rw [← Distributor.bare_setPriority]
      rfl
    · rfl
  | targets irq | setSources sgi =>
    simp only [writeByte]
    split <;> rfl
  | clearSources sgi =>
    simp only [writeByte]
    split
    · -- Both sides leave the interrupt pending if they leave a source.
      by_cases hleft : (p.distributor.setSources cpu sgi value false).sources cpu sgi = 0#8
      · refine (if_pos hleft).trans (Eq.trans ?_ (congrArg Written.bare (if_pos hleft)).symm)
        rfl
      · refine (if_neg hleft).trans (Eq.trans ?_ (congrArg Written.bare (if_neg hleft)).symm)
        rfl
    · rfl
  | _ => rfl

theorem writeLane_bare (w : Written cfg) (cpu offset : Nat) (value : Word) (lane : Nat) :
    writeLane w.bare cpu offset value lane = (writeLane w cpu offset value lane).bare := by
  simp only [writeLane, Written.bare, writeByte_bare]

theorem writeBytes_bare (p : Physical cfg) (cpu offset : Nat) (value : Word) :
    p.bare.writeBytes cpu offset value = (p.writeBytes cpu offset value).bare := by
  have hstart : (⟨p.bare, false⟩ : Written cfg) = Written.bare ⟨p, false⟩ := rfl
  simp only [writeBytes, List.foldl, hstart, writeLane_bare]

theorem requestSgi_bare (p : Physical cfg) (cpu : Nat) (request : SgiRequest) :
    (p.bare.requestSgi cpu request).value = (p.requestSgi cpu request).value.bare := by
  unfold requestSgi
  split <;> rfl

/-- Of the words of the distributor only the groups are not looked at. -/
theorem writeWord_bare_of_ne_group (p : Physical cfg) (cpu : Nat) {register : DistributorRegister}
    (h : ∀ n, register ≠ .group n) (value : Word) :
    (p.bare.writeWord cpu register value).value = (p.writeWord cpu register value).value.bare := by
  cases register with
  | group n => exact absurd rfl (h n)
  | trigger n =>
    simp only [writeWord]
    split <;> rfl
  | sgi =>
    simp only [writeWord, Traced.value_bind, Traced.value_pure, requestSgi_bare]
    rfl
  | _ => rfl

theorem bare_writeGroup (p : Physical cfg) (cpu n : Nat) (value : Word) :
    (p.writeWord cpu (.group n) value).value.bare = ⟨p.bare, false⟩ := rfl

theorem writeWord_bare (p : Physical cfg) (cpu : Nat) (register : DistributorRegister)
    (value : Word) :
    (p.bare.writeWord cpu register value).value.bare =
      (p.writeWord cpu register value).value.bare := by
  by_cases h : ∃ n, register = .group n
  · obtain ⟨n, rfl⟩ := h
    rw [bare_writeGroup, bare_writeGroup, bare_bare]
  · rw [writeWord_bare_of_ne_group p cpu fun n hn => h ⟨n, hn⟩]
    exact congrArg (fun q => (⟨q, _⟩ : Written cfg)) (bare_bare _)

/-- What a write to the distributor answers does not depend on these registers, nor what it leaves
apart from them. -/
theorem writeDistributor_bare (p : Physical cfg) (cpu offset : Nat) (value : Word)
    (width : Width) :
    (p.bare.writeDistributor cpu offset value width).value.map bare =
      (p.writeDistributor cpu offset value width).value.map bare := by
  cases width with
  | word =>
    simp only [writeDistributor]
    split
    · cases hbyte : (DistributorRegister.ofOffset offset).isByte with
      | true =>
        simp only [if_true, Traced.value_bind, Traced.value_pure, writeBytes_bare,
          ← bare_arbitrateIf, Except.map, bare_bare]
      | false =>
        simp only [Bool.false_eq_true, if_false, Traced.value_bind, Traced.value_pure, Except.map,
          bare_arbitrateIf, writeWord_bare]
    · rfl
  | byte =>
    simp only [writeDistributor]
    split
    · simp only [Traced.value_bind, Traced.value_pure, writeByte_bare, ← bare_arbitrateIf,
        Except.map, bare_bare]
    · rfl
  | half | double => rfl

/-! ### The interfaces of the CPUs -/

theorem refuses_bare (p : Physical cfg) (cpu : Nat) : Refuses p.bare cpu ↔ Refuses p cpu := by
  rw [Refuses, Refuses, row_bare]
  exact Iff.rfl

theorem takeSgi_bare (p : Physical cfg) (cpu sgi source : Nat) :
    p.bare.takeSgi cpu sgi source = (p.takeSgi cpu sgi source).bare := by
  simp only [takeSgi]
  -- Both sides leave the interrupt pending if they leave a source.
  by_cases hleft :
      (p.distributor.setSources cpu sgi (.only source) false).sources cpu sgi = 0#8
  · refine (if_pos hleft).trans (Eq.trans ?_ (congrArg bare (if_pos hleft)).symm)
    rfl
  · refine (if_neg hleft).trans (Eq.trans ?_ (congrArg bare (if_neg hleft)).symm)
    rfl

theorem take_bare (p : Physical cfg) (cpu irq : Nat) :
    p.bare.take cpu irq = (p.take cpu irq).bare := by
  unfold take
  split
  · exact p.takeSgi_bare cpu irq _
  · rfl

theorem start_bare (p : Physical cfg) (cpu irq : Nat) (priority : Priority) :
    p.bare.start cpu irq priority = (p.start cpu irq priority).bare :=
  (bare_alterCpu (f := fun i => i.push irq priority) (fun _ => rfl)
    (p.alterIrq irq fun r => r.acknowledge cpu) cpu).symm

/-- What an acknowledge answers does not depend on these registers, nor what it leaves apart from
them. -/
theorem acknowledge_bare (p : Physical cfg) (cpu : Nat) :
    (p.bare.acknowledge cpu).value =
      ((p.acknowledge cpu).value.1, (p.acknowledge cpu).value.2.bare) := by
  have hshown : (p.bare.cpus.row cpu).highestPending = (p.cpus.row cpu).highestPending := by
    rw [row_bare]
    rfl
  rw [acknowledge_value, acknowledge_value, hshown]
  by_cases h : Refuses p cpu
  · rw [if_pos h, if_pos ((p.refuses_bare cpu).mpr h)]
  · rw [if_neg h, if_neg fun hbare => h ((p.refuses_bare cpu).mp hbare)]
    dsimp only
    rw [bare_arbitrate, ← start_bare, ← take_bare]
    rfl

theorem deactivate_bare (p : Physical cfg) (cpu irq : Nat) :
    p.bare.deactivate cpu irq = (p.deactivate cpu irq).bare := rfl

theorem complete_bare (p : Physical cfg) (cpu : Nat) (value : Word) :
    (p.bare.complete cpu value).value = (p.complete cpu value).value.bare := by
  have hrunning : ∀ irq, (p.bare.cpus.row cpu).isRunning irq = (p.cpus.row cpu).isRunning irq := by
    intro irq
    rw [row_bare]
    rfl
  rw [complete_value, complete_value, hrunning]
  split
  · have hdrop := bare_alterCpu (f := fun i => i.drop (value.field 0 10)) (fun _ => rfl) p cpu
    rw [bare_arbitrate, ← deactivate_bare, hdrop]
  · rfl

theorem writeCpuInterface_bare (p : Physical cfg) (cpu : Nat) (register : CpuRegister)
    (value : Word) :
    (p.bare.writeCpuInterface cpu register value).value.bare =
      (p.writeCpuInterface cpu register value).value.bare := by
  have hdecides : ∀ {f : CpuInterface → CpuInterface}, (∀ i, (f i).bare = f i.bare) →
      (p.bare.alterCpu cpu f).arbitrate.value.bare = (p.alterCpu cpu f).arbitrate.value.bare := by
    intro f hf
    rw [bare_arbitrate, bare_arbitrate, bare_alterCpu hf, bare_alterCpu hf, bare_bare]
  have hkeeps : ∀ {f : CpuInterface → CpuInterface}, (∀ i, (f i).bare = i.bare) →
      (p.bare.alterCpu cpu f).bare = (p.alterCpu cpu f).bare := by
    intro f hf
    rw [bare_alterCpu_of_unregarded hf, bare_alterCpu_of_unregarded hf, bare_bare]
  cases register with
  | control | priorityMask => exact hdecides fun _ => rfl
  | binaryPoint | aliasPoint | deactivation => exact hkeeps fun _ => rfl
  | completion => exact (congrArg bare (complete_bare p cpu value)).trans (bare_bare _)
  | activePriorities n =>
    cases n with
    | zero => exact hkeeps fun _ => rfl
    | succ n => exact bare_bare p
  | _ => exact bare_bare p

end Physical

namespace Controller

variable {cfg : Config}

/-- A controller without the registers that are not looked at. -/
def bare (g : Controller cfg) : Controller cfg := { g with physical := g.physical.bare }

theorem bare_bare (g : Controller cfg) : g.bare.bare = g.bare := by
  rw [bare, bare, Physical.bare_bare]

theorem bare_powerOn : (powerOn cfg).bare = powerOn cfg := by
  rw [bare, powerOn, Physical.bare_powerOn]

/-! ### The virtual half -/

/-- The virtual halves are put back as they are with these registers. -/
theorem putVirtual_bare (g : Controller cfg) (cpu : Nat) (w : VirtualWritten) :
    (g.bare.putVirtual cpu w).value = (g.putVirtual cpu w).value.bare := by
  unfold putVirtual
  split <;> rfl

theorem endBacking_bare (g : Controller cfg) (cpu irq physical : Nat) :
    (g.bare.endBacking cpu irq physical).value = (g.endBacking cpu irq physical).value.bare := by
  unfold endBacking
  split
  · simp only [Traced.value_bind, Traced.value_pure, bare, Physical.bare_arbitrate,
      Physical.deactivate_bare]
  · rfl

theorem completeVirtual_bare (g : Controller cfg) (cpu : Nat) (value : Word) :
    (g.bare.completeVirtual cpu value).value = (g.completeVirtual cpu value).value.bare := by
  have hvirtuals : g.bare.virtuals = g.virtuals := rfl
  unfold completeVirtual
  rw [hvirtuals]
  dsimp only
  split
  · rfl
  · simp only [Traced.value_bind]
    obtain ⟨state, backing⟩ := ((g.virtuals.row cpu).complete cpu (value.field 0 10)).value
    cases backing with
    | none => rfl
    | some physical =>
      exact congrArg (fun h : Controller cfg => h.arbitrateVirtual.value)
        (endBacking_bare { g with virtuals := g.virtuals.alter cpu fun _ => state } cpu _ physical)

/-! ### Accesses -/

theorem readWindow_bare (g : Controller cfg) (window : Interface) (cpu offset : Nat)
    (width : Width) :
    (g.bare.readWindow window cpu offset width).value.2 =
      (g.readWindow window cpu offset width).value.2.bare := by
  cases window with
  | distributor => rfl
  | cpuInterface =>
    simp only [readWindow]
    split
    · rfl
    · simp only [Physical.readCpuInterface]
      split
      · exact congrArg (fun x : Word × Physical cfg => { g with physical := x.2 })
          (g.physical.acknowledge_bare cpu)
      · rfl
  | vifControl =>
    simp only [readWindow]
    split <;> rfl
  | vcpuInterface =>
    simp only [readWindow]
    split
    · rfl
    · split
      · exact g.putVirtual_bare cpu _
      · rfl

theorem writeWindow_bare (g : Controller cfg) (window : Interface) (cpu offset : Nat)
    (value : Word) (width : Width) :
    (g.bare.writeWindow window cpu offset value width).value.2.bare =
      (g.writeWindow window cpu offset value width).value.2.bare := by
  have hstays := g.bare_bare
  cases window with
  | distributor =>
    have hphysical : g.bare.physical = g.physical.bare := rfl
    have hwritten := g.physical.writeDistributor_bare cpu offset value width
    simp only [writeWindow, Traced.value_bind]
    rw [hphysical]
    generalize (g.physical.bare.writeDistributor cpu offset value width).value = x at hwritten ⊢
    generalize (g.physical.writeDistributor cpu offset value width).value = y at hwritten ⊢
    cases x with
    | error =>
      cases y with
      | error => exact hstays
      | ok => cases hwritten
    | ok p =>
      cases y with
      | error => cases hwritten
      | ok q =>
        exact congrArg (fun p => ({ g with physical := p } : Controller cfg))
          (Except.ok.inj hwritten)
  | cpuInterface =>
    simp only [writeWindow]
    split
    · exact hstays
    · exact congrArg (fun p => ({ g with physical := p } : Controller cfg))
        (g.physical.writeCpuInterface_bare cpu _ value)
  | vifControl =>
    simp only [writeWindow]
    split
    · exact hstays
    · exact (congrArg bare (g.putVirtual_bare cpu _)).trans (bare_bare _)
  | vcpuInterface =>
    simp only [writeWindow]
    split
    · exact hstays
    · split
      · exact (congrArg bare (g.completeVirtual_bare cpu value)).trans (bare_bare _)
      · exact (congrArg bare (g.putVirtual_bare cpu _)).trans (bare_bare _)

/-! ### Every action -/

theorem driveInput_bare (g : Controller cfg) (irq : Nat) (level : Bool) (mask targets : CpuMask) :
    (g.bare.driveInput irq level mask targets).value =
      (g.driveInput irq level mask targets).value.bare :=
  congrArg (fun p => ({ g with physical := p } : Controller cfg))
    (Physical.bare_arbitrate (g.physical.alterIrq irq fun r => r.drive level mask targets)).symm

theorem drivePpi_bare (g : Controller cfg) (cpu index : Nat) (level : Bool) :
    (g.bare.drivePpi cpu index level).value = (g.drivePpi cpu index level).value.bare := by
  unfold drivePpi
  split
  · exact g.driveInput_bare _ level _ _
  · rfl

theorem driveSpi_bare (g : Controller cfg) (index : Nat) (level : Bool) :
    (g.bare.driveSpi index level).value = (g.driveSpi index level).value.bare := by
  unfold driveSpi
  split
  · exact g.driveInput_bare _ level _ _
  · rfl

theorem handle_bare (g : Controller cfg) (request : Request) :
    (g.bare.handle request).value = (g.handle request).value.bare := by
  unfold handle
  split
  · rfl
  · split
    · exact g.drivePpi_bare _ _ _
    · exact g.driveSpi_bare _ _

/-- What an action leaves, apart from the registers that are not looked at, does not depend on
them. -/
theorem bare_after (g : Controller cfg) (a : Action) :
    (g.after a).bare = (g.bare.after a).bare := by
  have hstrict : g.bare.after a = (g.after a).bare → (g.after a).bare = (g.bare.after a).bare :=
    fun h => by rw [h, bare_bare]
  cases a with
  | read window i offset width =>
    apply hstrict
    rw [after_read, after_read]
    split
    · rfl
    · exact g.readWindow_bare window _ offset width
  | write window i offset value width =>
    rw [after_write, after_write]
    split
    · exact g.bare_bare.symm
    · exact (g.writeWindow_bare window _ offset _ width).symm
  | ppi cpu index level => exact hstrict (g.drivePpi_bare cpu index level)
  | spi index level => exact hstrict (g.driveSpi_bare index level)
  | request request => exact hstrict (g.handle_bare request)
  | update domain =>
    apply hstrict
    cases domain with
    | physical =>
      exact congrArg (fun p => ({ g with physical := p } : Controller cfg))
        g.physical.bare_arbitrate.symm
    | virtual => rfl
  | reset =>
    apply hstrict
    rw [after_reset, after_reset, bare_powerOn]

/-- Controllers that differ in nothing else differ in nothing else after an action. -/
theorem bare_after_congr {g h : Controller cfg} (hgh : g.bare = h.bare) (a : Action) :
    (g.after a).bare = (h.after a).bare := by
  rw [bare_after, hgh, ← bare_after]

end Controller

end Gic
