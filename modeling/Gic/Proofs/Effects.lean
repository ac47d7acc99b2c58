import Gic.Proofs.Ownership
import Gic.Proofs.SgiDelivery

/-!
# What an action does with one interrupt

The state of an interrupt is changed from many sides: by its input, by six kinds
of registers of the distributor, and by the CPUs that handle it. A claim about
its history needs one place that says which of these an action does.

## The model

* `Effect` — what can be done with an interrupt that has an input, and
  `Effect.apply` — what becomes of its state.
* `Controller.effect` — what an action does with the interrupt, as a programmer
  sees it: by offset, value and width, for an acknowledge by the value that was
  read, and for an input by its number.
* `Concerns` — what is done for one CPU concerns the interrupt of another one
  only if that interrupt is shared.

## What is proved

* `row_after` — the state of an interrupt after an action is what its effect
  makes of it, so a proof about an interrupt has one case for each effect.
* `effect_cases` — what kinds of actions have an effect at all.
* `isLevel_run` — the level that is kept of an input is the one that it was
  driven to last, since the last reset.
-/

namespace Gic

open Physical

/-- What can be done with an interrupt that has an input. The CPU for which it is done matters only
if the interrupt is private. -/
inductive Effect where
  /-- Nothing. -/
  | none
  /-- It is enabled. -/
  | enable (cpu : Nat)
  /-- It is disabled. -/
  | disable (cpu : Nat)
  /-- It is latched as pending by a write. -/
  | latch (cpu : Nat)
  /-- Its latch is cleared by a write. -/
  | unlatch (cpu : Nat)
  /-- It is made inactive by a write. -/
  | deactivate (cpu : Nat)
  /-- It gets a trigger. -/
  | configure (trigger : Trigger)
  /-- It is acknowledged. -/
  | acknowledge (cpu : Nat)
  /-- It is completed. -/
  | complete (cpu : Nat)
  /-- Its input takes a level. -/
  | drive (cpu : Nat) (level : Bool)
  /-- Its input, a private one, takes a level for all CPUs at once. -/
  | overdrive (level : Bool)
  /-- It returns to what it was at power-on. -/
  | powerOn
  deriving DecidableEq, Repr

/-- Something done for the CPU `cpu` concerns the interrupt of the CPU `c`: its own one, or one that
all CPUs share. -/
def Concerns (irq cpu c : Nat) : Prop := irq < numPrivate → cpu = c

instance (irq cpu c : Nat) : Decidable (Concerns irq cpu c) :=
  inferInstanceAs (Decidable (_ → _))

/-- The CPUs for which an interrupt is latched: that of a private one, and the targets of a shared
one. -/
def receivers (irq cpu : Nat) (targets : CpuMask) : CpuMask :=
  if irq < numPrivate then .only cpu else targets

/-- The state of an interrupt after that. -/
def Effect.apply (irq : Nat) (targets : CpuMask) (r : IrqState) : Effect → IrqState
  | .none => r
  | .enable cpu => r.enable (view irq cpu)
  | .disable cpu => r.setEnabled false (view irq cpu)
  | .latch cpu => r.setPending true (receivers irq cpu targets)
  | .unlatch cpu => r.setPending false (view irq cpu)
  | .deactivate cpu => r.setActive false (view irq cpu)
  | .configure trigger => { r with trigger }
  | .acknowledge cpu =>
    ((r.setPending false (view irq cpu)).setActive true (view irq cpu)).setSignaled true
      (view irq cpu)
  | .complete cpu => (r.setActive false (view irq cpu)).setSignaled false (view irq cpu)
  | .drive cpu level => r.drive level (view irq cpu) (receivers irq cpu targets)
  | .overdrive level => r.drive level .all 0#8
  | .powerOn => if irq < numPrivate then .idle else .idleShared

/-- What a word does with an interrupt that a CPU writes to the distributor. -/
def wordEffect (irq cpu offset : Nat) (value : BitVec 64) : Effect :=
  if offset = 0xc00 + 4 * (irq / 16) then
    .configure (if value.getLsbD (2 * (irq % 16) + 1) then .edge else .level)
  else if value.getLsbD (irq % 32) then
    if offset = 0x100 + 4 * (irq / 32) then .enable cpu
    else if offset = 0x180 + 4 * (irq / 32) then .disable cpu
    else if offset = 0x200 + 4 * (irq / 32) then .latch cpu
    else if offset = 0x280 + 4 * (irq / 32) then .unlatch cpu
    else if offset = 0x380 + 4 * (irq / 32) then .deactivate cpu
    else .none
  else .none

namespace Controller

variable {cfg : Config}

/-- What a word does with an interrupt that a CPU writes. -/
def writeEffect (g : Controller cfg) (irq cpu : Nat) (window : Interface) (offset : Nat)
    (value : BitVec 64) : Effect :=
  match window with
  | .distributor => wordEffect irq cpu offset value
  | .cpuInterface =>
    if offset = 0x10 ∧ Word.field (value.setWidth 32) 0 10 = irq ∧
        (g.physical.cpus.row cpu).isRunning irq = true then .complete cpu
    else .none
  | .vcpuInterface =>
    if offset = 0x10 ∧ g.backing? cpu (value.setWidth 32) = some irq then .complete cpu else .none
  | .vifControl => .none

/-- What an action does with an interrupt that has an input. -/
def effect (g : Controller cfg) (irq : Nat) : Action → Effect
  | .read window initiator offset width =>
    if window = .cpuInterface ∧ offset = 0x0c ∧ width = .word ∧
        (g.read window initiator offset width).value.1 = .ok (BitVec.ofNat 32 irq) then
      .acknowledge (cpuOf cfg initiator)
    else .none
  | .write window initiator offset value width =>
    if width = .word then g.writeEffect irq (cpuOf cfg initiator) window offset value else .none
  | .ppi cpu index level =>
    if cpu < cfg.cpus ∧ irq < numPrivate ∧ irq = numSgis + index then .drive cpu level else .none
  | .spi index level =>
    if sharedIrq index ≠ irq then .none
    else if irq < numPrivate then .overdrive level
    else .drive 0 level
  | .request request =>
    if request.irq ≠ irq then .none
    else if irq < numPrivate then
      if request.cpu.getD 0 < cfg.cpus then .drive (request.cpu.getD 0) request.level else .none
    else .drive 0 request.level
  | .update _ => .none
  | .reset => .powerOn

/-- The state of an interrupt after an effect, with the targets that the interrupt has. -/
def touched (g : Controller cfg) (irq : Nat) (e : Effect) : IrqState :=
  e.apply irq (g.physical.distributor.targets irq) (g.physical.irqs.row irq)

/-- An action has a kind of effect on an interrupt, for a CPU that concerns the CPU `c`. -/
def Does (irq c : Nat) (kind : Nat → Effect) (g : Controller cfg) (a : Action) : Prop :=
  ∃ cpu, g.effect irq a = kind cpu ∧ Concerns irq cpu c

/-- An action drives the input of an interrupt to a level, that of a CPU that concerns the CPU `c`
or that of every CPU. -/
def Drives (irq c : Nat) (level : Bool) (g : Controller cfg) (a : Action) : Prop :=
  Does irq c (.drive · level) g a ∨ g.effect irq a = .overdrive level

end Controller

namespace Physical

variable {cfg : Config} {irq : Nat}

/-! ### Writes to the distributor -/

/-- A byte changes no interrupt that has an input. -/
theorem row_writeByte (hlow : numSgis ≤ irq) (p : Physical cfg) (cpu : Nat)
    (register : DistributorRegister) (value : BitVec 8) :
    (p.writeByte cpu register value).state.irqs.row irq = p.irqs.row irq := by
  have hrow : ∀ sgi, sgi < numSgis → ∀ f, (p.alterIrq sgi f).irqs.row irq = p.irqs.row irq :=
    fun sgi hsgi f => row_alterIrq_of_ne p (Nat.ne_of_lt (Nat.lt_of_lt_of_le hsgi hlow)) f
  cases register with
  | priority | targets =>
    simp only [writeByte]
    split <;> rfl
  | setSources sgi =>
    simp only [writeByte]
    split
    · rename_i h
      exact hrow sgi h.1 _
    · rfl
  | clearSources sgi =>
    simp only [writeByte]
    split
    · rename_i h
      split
      · exact hrow sgi h _
      · rfl
    · rfl
  | _ => rfl

theorem row_writeBytes (hlow : numSgis ≤ irq) (p : Physical cfg) (cpu offset : Nat)
    (value : Word) : (p.writeBytes cpu offset value).state.irqs.row irq = p.irqs.row irq :=
  writeBytes_induct (P := fun q => q.irqs.row irq = p.irqs.row irq)
    (fun q register value hq => (row_writeByte hlow q cpu register value).trans hq) rfl offset value

/-- The word of a register of flags that has a bit for the interrupt, which is set. -/
theorem row_alterSelected_word (hirq : irq < cfg.numIrqs) (hmax : cfg.numIrqs ≤ maxIrqs)
    (p : Physical cfg) {value : Word} (h : value.getLsbD (irq % 32) = true)
    (f : Nat → IrqState → IrqState) :
    (p.alterSelected (irq / 32) value f).irqs.row irq = f irq (p.irqs.row irq) := by
  rw [row_alterSelected p _ _ _ (Nat.lt_of_lt_of_le hirq hmax), if_pos]
  simp only [selects, decide_true, Bool.true_and, h, hirq]

/-- The other words of a register of flags. -/
theorem row_alterSelected_of_ne (hirq : irq < cfg.numIrqs) (hmax : cfg.numIrqs ≤ maxIrqs)
    (p : Physical cfg) {n : Nat} {value : Word}
    (h : value.getLsbD (irq % 32) = true → irq / 32 ≠ n) (f : Nat → IrqState → IrqState) :
    (p.alterSelected n value f).irqs.row irq = p.irqs.row irq := by
  rw [row_alterSelected p _ _ _ (Nat.lt_of_lt_of_le hirq hmax), if_neg]
  simp only [selects, Bool.and_eq_true, decide_eq_true_eq, not_and]
  exact fun hsel _ => h hsel.2 hsel.1

/-- The word of a trigger register that has a field for the interrupt. -/
theorem row_setTriggers (hirq : irq < cfg.numIrqs) (hmax : cfg.numIrqs ≤ maxIrqs)
    (p : Physical cfg) (value : BitVec 64) :
    (p.setTriggers (irq / 16) (value.setWidth 32 &&& allEdge)).irqs.row irq =
      { p.irqs.row irq with
        trigger := if value.getLsbD (2 * (irq % 16) + 1) then .edge else .level } := by
  have hbound : irq < maxIrqs := Nat.lt_of_lt_of_le hirq hmax
  have hodd : ∀ k < 16, allEdge.getLsbD (2 * k + 1) = true := by decide
  have hlow : 2 * (irq % 16) + 1 < 32 := by omega
  have hfield : (value.setWidth 32 &&& allEdge).getLsbD (2 * (irq % 16) + 1) =
      value.getLsbD (2 * (irq % 16) + 1) := by
    rw [BitVec.getLsbD_and, hodd _ (Nat.mod_lt irq (by decide)), Bool.and_true,
      BitVec.getLsbD_setWidth, decide_eq_true hlow, Bool.true_and]
  simp only [setTriggers, Table.row_mapRows, hbound, hirq, true_and, if_true, triggerOf, hfield]

/-- A word at an offset that no register of the interrupt has. -/
theorem row_writeWord_elsewhere (hlow : numSgis ≤ irq) (hirq : irq < cfg.numIrqs)
    (hmax : cfg.numIrqs ≤ maxIrqs) (p : Physical cfg) (cpu : Nat) (register : DistributorRegister)
    (value : Word) (ht : register ≠ .trigger (irq / 16))
    (hf : value.getLsbD (irq % 32) = true → register ≠ .setEnable (irq / 32) ∧
      register ≠ .clearEnable (irq / 32) ∧ register ≠ .setPending (irq / 32) ∧
      register ≠ .clearPending (irq / 32) ∧ register ≠ .clearActive (irq / 32)) :
    (p.writeWord cpu register value).value.state.irqs.row irq = p.irqs.row irq := by
  have hbound : irq < maxIrqs := Nat.lt_of_lt_of_le hirq hmax
  cases register with
  | setEnable n =>
    exact row_alterSelected_of_ne hirq hmax p (fun hb h => (hf hb).1 (congrArg _ h.symm)) _
  | clearEnable n =>
    exact row_alterSelected_of_ne hirq hmax p (fun hb h => (hf hb).2.1 (congrArg _ h.symm)) _
  | setPending n =>
    exact row_alterSelected_of_ne hirq hmax p (fun hb h => (hf hb).2.2.1 (congrArg _ h.symm)) _
  | clearPending n =>
    exact row_alterSelected_of_ne hirq hmax p (fun hb h => (hf hb).2.2.2.1 (congrArg _ h.symm)) _
  | clearActive n =>
    exact row_alterSelected_of_ne hirq hmax p (fun hb h => (hf hb).2.2.2.2 (congrArg _ h.symm)) _
  | trigger n =>
    have hn : ¬ irq / 16 = n := fun h => ht (congrArg _ h.symm)
    simp only [writeWord]
    split
    · simp only [Traced.value_bind, Traced.value_pure, setTriggers, Table.row_mapRows, hbound, hn,
        false_and, if_true, if_false]
    · rfl
  | sgi =>
    simp only [writeWord, Traced.value_bind, Traced.value_pure, requestSgi]
    split
    · rfl
    · refine row_alterIrq_of_ne p ?_ _
      have hsgi := (SgiRequest.ofWord value).sgi.isLt
      simp only [numSgis] at hlow
      omega
  | _ => rfl

/-- A word does with an interrupt what its offset and its bit for the interrupt say. -/
theorem row_writeWord (hlow : numSgis ≤ irq) (hirq : irq < cfg.numIrqs)
    (hmax : cfg.numIrqs ≤ maxIrqs) (p : Physical cfg) (cpu : Nat) {o : Nat}
    (aligned : o % 4 = 0) (value : BitVec 64) :
    (p.writeWord cpu (.ofOffset o) (value.setWidth 32)).value.state.irqs.row irq =
      (wordEffect irq cpu o value).apply irq (p.distributor.targets irq) (p.irqs.row irq) := by
  have hbound : irq < maxIrqs := Nat.lt_of_lt_of_le hirq hmax
  have hsgi : ¬ irq < numSgis := Nat.not_lt.mpr hlow
  obtain ⟨hlt, hpos, hwords⟩ : irq / 16 < 32 ∧ 1 ≤ irq / 16 ∧ irq / 32 < 32 := by
    simp only [maxIrqs, numSgis] at hbound hlow
    omega
  obtain ⟨-, -, -, -, -, htrigger⟩ := DistributorRegister.ofOffset_words hlt
  obtain ⟨henable, hdisable, hlatch, hunlatch, hdeactivate, -⟩ :=
    DistributorRegister.ofOffset_words hwords
  have hother : ∀ {register : DistributorRegister} {place}, register.place? = some place →
      o ≠ place → DistributorRegister.ofOffset o ≠ register := fun hplace ho h =>
    ho (DistributorRegister.offset_of_place? aligned h hplace)
  have hflag : (value.setWidth 32).getLsbD (irq % 32) = value.getLsbD (irq % 32) := by
    rw [BitVec.getLsbD_setWidth, decide_eq_true (Nat.mod_lt irq (by decide)), Bool.true_and]
  unfold wordEffect
  split
  · rename_i ho
    rw [ho, htrigger]
    simp only [writeWord, hpos, hlt, true_and, if_true, Traced.value_bind, Traced.value_pure]
    exact row_setTriggers hirq hmax p value
  · rename_i ht
    split
    · rename_i hb
      have hselected := row_alterSelected_word hirq hmax p (hflag.trans hb)
      split
      · rename_i ho
        rw [ho, henable]
        refine (hselected _).trans ?_
        rw [if_neg hsgi, wordView_eq]
        rfl
      split
      · rename_i ho
        rw [ho, hdisable]
        refine (hselected _).trans ?_
        rw [if_neg hsgi, wordView_eq]
        rfl
      split
      · rename_i ho
        rw [ho, hlatch]
        refine (hselected _).trans ?_
        rw [if_neg hsgi, Effect.apply, receivers]
        split <;> rfl
      split
      · rename_i ho
        rw [ho, hunlatch]
        refine (hselected _).trans ?_
        rw [if_neg hsgi, wordView_eq]
        rfl
      split
      · rename_i ho
        rw [ho, hdeactivate]
        refine (hselected _).trans ?_
        rw [wordView_eq]
        rfl
      · rename_i h₁ h₂ h₃ h₄ h₅
        exact row_writeWord_elsewhere hlow hirq hmax p cpu _ _ (hother rfl ht) fun _ =>
          ⟨hother rfl h₁, hother rfl h₂, hother rfl h₃, hother rfl h₄, hother rfl h₅⟩
    · rename_i hb
      exact row_writeWord_elsewhere hlow hirq hmax p cpu _ _ (hother rfl ht)
        fun h => absurd (hflag.symm.trans h) hb

/-! ### Acknowledges and completions -/

/-- Of the interrupts that have an input, the one that a CPU starts is changed. -/
theorem row_start_take (hlow : numSgis ≤ irq) (hbound : irq < maxIrqs) {p : Physical cfg}
    (hp : Shaped p) (cpu shown : Nat) (priority : Priority) (targets : CpuMask) :
    ((p.take cpu shown).start cpu shown priority).irqs.row irq =
      if shown = irq then Effect.apply irq targets (p.irqs.row irq) (.acknowledge cpu)
      else p.irqs.row irq := by
  have hscope := hp.scope_eq hbound cpu
  show (((p.take cpu shown).alterIrq shown fun r => r.acknowledge cpu).irqs.row irq) = _
  by_cases hshown : shown = irq
  · subst hshown
    have hsgi : ¬ shown < numSgis := Nat.not_lt.mpr hlow
    rw [if_pos rfl, row_alterIrq, if_pos ⟨rfl, hbound⟩, take, if_neg hsgi, takeIrq, row_alterIrq,
      if_pos ⟨rfl, hbound⟩, hscope]
    -- Clearing the latch leaves the scope as it is.
    show ((IrqState.setPending (p.irqs.row shown) false (view shown cpu)).setActive true
      ((p.irqs.row shown).scope cpu)).setSignaled true ((p.irqs.row shown).scope cpu) = _
    rw [hscope]
    rfl
  · rw [if_neg hshown, row_alterIrq_of_ne _ hshown, take]
    split
    · simp only [takeSgi]
      split
      · exact row_alterIrq_of_ne _ hshown _
      · rfl
    · exact row_alterIrq_of_ne _ hshown _

theorem row_deactivate (hbound : irq < maxIrqs) {p : Physical cfg} (hp : Shaped p)
    (cpu ended : Nat) (targets : CpuMask) :
    (p.deactivate cpu ended).irqs.row irq =
      if ended = irq then Effect.apply irq targets (p.irqs.row irq) (.complete cpu)
      else p.irqs.row irq := by
  rw [deactivate, row_alterIrq]
  by_cases hended : ended = irq
  · subst hended
    rw [if_pos ⟨rfl, hbound⟩, if_pos rfl, IrqState.complete, hp.scope_eq hbound]
    rfl
  · rw [if_neg fun h => hended h.1, if_neg hended]

/-- Only a completion changes interrupts through a CPU interface. -/
theorem irqs_writeCpuInterface (p : Physical cfg) (cpu : Nat) {register : CpuRegister}
    (h : register ≠ .completion) (value : Word) :
    (p.writeCpuInterface cpu register value).value.irqs = p.irqs := by
  cases register with
  | completion => exact absurd rfl h
  | activePriorities n => cases n <;> rfl
  | _ => rfl

end Physical

namespace Controller

variable {cfg : Config} {irq : Nat}

/-- An acknowledge answers with an interrupt that has an input if and only if it is not refused and
the CPU is shown that interrupt. -/
theorem answer_iff_shown (hv : cfg.validate = .ok ()) {g : Controller cfg} (hg : Reachable g)
    (hlow : numSgis ≤ irq) (hirq : irq < cfg.numIrqs) {cpu : Nat} (hc : cpu < cfg.cpus) :
    (g.physical.acknowledge cpu).value.1 = BitVec.ofNat 32 irq ↔
      ¬ Refuses g.physical cpu ∧ (g.physical.cpus.row cpu).highestPending = irq := by
  obtain ⟨hpos, hmax, hirqs⟩ := Config.bounds_of_validate hv
  have hm : cpu < maxCpus := Nat.lt_of_lt_of_le hc hmax
  rw [acknowledge_value, ← BitVec.toNat_inj]
  by_cases hrefused : Refuses g.physical cpu
  · rw [if_pos hrefused]
    refine iff_of_false ?_ fun h => h.1 hrefused
    simp only [BitVec.toNat_ofNat, spurious, maxIrqs] at *
    omega
  · rw [if_neg hrefused]
    have hshown := (hg.settled.competes hirqs hc hm fun h => hrefused (.inl h)).connected
    simp only [hrefused, not_false_eq_true, true_and]
    generalize (g.physical.cpus.row cpu).highestPending = shown at hshown ⊢
    by_cases hsgi : shown < numSgis
    · -- The number of an SGI is in the low ten bits of the answer, whatever its source.
      rw [if_pos hsgi, tagged_eq, BitVec.toNat_ofNat, ← Nat.shiftLeft_add_eq_or_of_lt
        (show shown < 2 ^ 10 from Nat.lt_trans hsgi (by decide)), Nat.shiftLeft_eq]
      simp only [BitVec.toNat_ofNat, numSgis, maxIrqs] at *
      omega
    · rw [if_neg hsgi]
      simp only [BitVec.toNat_ofNat, maxIrqs] at *
      omega

/-- An action does nothing with an interrupt, or it is an acknowledge that answers with it, a word
for the distributor, a completion, a change of an input or a reset. -/
theorem effect_cases (g : Controller cfg) (irq : Nat) (a : Action) :
    g.effect irq a = .none ∨
      (∃ i, a = .read .cpuInterface i 0x0c .word ∧
        (g.physical.acknowledge (cpuOf cfg i)).value.1 = BitVec.ofNat 32 irq ∧
        g.effect irq a = .acknowledge (cpuOf cfg i)) ∨
      (∃ i o v, a = .write .distributor i o v .word ∧
        g.effect irq a = wordEffect irq (cpuOf cfg i) o v) ∨
      (∃ cpu, g.effect irq a = .complete cpu) ∨
      (∃ cpu level, g.effect irq a = .drive cpu level) ∨
      (∃ level, g.effect irq a = .overdrive level) ∨
      g.effect irq a = .powerOn := by
  cases a with
  | read window i o w =>
    rw [effect]
    split
    · rename_i hread
      obtain ⟨rfl, rfl, rfl, hanswer⟩ := hread
      rw [read_acknowledge] at hanswer
      exact .inr (.inl ⟨i, rfl, Except.ok.inj hanswer, rfl⟩)
    · exact .inl rfl
  | write window i o v w =>
    rw [effect]
    split
    · rename_i hword
      subst hword
      cases window with
      | distributor => exact .inr (.inr (.inl ⟨i, o, v, rfl, rfl⟩))
      | cpuInterface | vcpuInterface =>
        rw [writeEffect]
        split
        · exact .inr (.inr (.inr (.inl ⟨_, rfl⟩)))
        · exact .inl rfl
      | vifControl => exact .inl rfl
    · exact .inl rfl
  | ppi =>
    rw [effect]
    split
    · exact .inr (.inr (.inr (.inr (.inl ⟨_, _, rfl⟩))))
    · exact .inl rfl
  | spi =>
    rw [effect]
    split
    · exact .inl rfl
    split
    · exact .inr (.inr (.inr (.inr (.inr (.inl ⟨_, rfl⟩)))))
    · exact .inr (.inr (.inr (.inr (.inl ⟨_, _, rfl⟩))))
  | request request =>
    rw [effect]
    split
    · exact .inl rfl
    split
    · split
      · exact .inr (.inr (.inr (.inr (.inl ⟨_, _, rfl⟩))))
      · exact .inl rfl
    · exact .inr (.inr (.inr (.inr (.inl ⟨_, _, rfl⟩))))
  | update => exact .inl rfl
  | reset => exact .inr (.inr (.inr (.inr (.inr (.inr rfl)))))

/-- Only an acknowledge changes the physical half by a read. -/
theorem physical_after_read (g : Controller cfg) {window : Interface} {initiator : Initiator}
    {offset : Nat} {width : Width}
    (h : ¬ (window = .cpuInterface ∧ offset = 0x0c ∧ width = .word)) :
    (g.after (.read window initiator offset width)).physical = g.physical := by
  rw [after_read]
  split
  · rfl
  cases window with
  | distributor => rfl
  | vifControl =>
    simp only [readWindow]
    split <;> rfl
  | cpuInterface =>
    simp only [readWindow]
    split
    · rfl
    · rename_i hw
      simp only [Traced.value_bind, Traced.value_pure, readCpuInterface]
      split
      · rename_i hregister
        exact absurd ⟨rfl, CpuRegister.offset_of_acknowledge hregister,
          (width_of_checkWord hw).1⟩ h
      · rfl
  | vcpuInterface =>
    simp only [readWindow]
    split
    · rfl
    · split
      · simp only [Traced.value_bind, Traced.value_pure, physical_putVirtual]
      · rfl

theorem row_after_read (hv : cfg.validate = .ok ()) {g : Controller cfg} (hg : Reachable g)
    (hlow : numSgis ≤ irq) (hirq : irq < cfg.numIrqs) (window : Interface)
    (initiator : Initiator) (offset : Nat) (width : Width) :
    (g.after (.read window initiator offset width)).physical.irqs.row irq =
      g.touched irq (g.effect irq (.read window initiator offset width)) := by
  obtain ⟨hpos, hmax, hirqs⟩ := Config.bounds_of_validate hv
  rw [effect]
  by_cases h : window = .cpuInterface ∧ offset = 0x0c ∧ width = .word
  · obtain ⟨rfl, rfl, rfl⟩ := h
    have hanswer := answer_iff_shown hv hg hlow hirq (cpuOf_lt hpos initiator)
    simp only [true_and, read_acknowledge, Except.ok.injEq, hanswer]
    show ((g.physical.acknowledge (cpuOf cfg initiator)).value.2).irqs.row irq = _
    rw [acknowledge_value]
    split
    · rename_i hrefused
      rw [if_neg fun h => h.1 hrefused]
      rfl
    · rename_i hallowed
      simp only [hallowed, not_false_eq_true, true_and, arbitrate_irqs]
      rw [row_start_take hlow (Nat.lt_of_lt_of_le hirq hirqs) hg.shaped _ _ _
        (g.physical.distributor.targets irq)]
      split <;> rfl
  · have hnone : ¬ (window = .cpuInterface ∧ offset = 0x0c ∧ width = .word ∧
        (g.read window initiator offset width).value.1 = .ok (BitVec.ofNat 32 irq)) :=
      fun hack => h ⟨hack.1, hack.2.1, hack.2.2.1⟩
    rw [physical_after_read g h, if_neg hnone]
    rfl

/-- A word that does something with an interrupt is written to a register of words. -/
theorem register_of_wordEffect {cpu offset : Nat} {value : BitVec 64} (hbound : irq < maxIrqs)
    (h : wordEffect irq cpu offset value ≠ .none) :
    offset % 4 = 0 ∧ offset < 0xd00 ∧ (DistributorRegister.ofOffset offset).isByte = false := by
  obtain ⟨hlt, hwords⟩ : irq / 16 < 32 ∧ irq / 32 < 32 := by
    simp only [maxIrqs] at hbound
    omega
  obtain ⟨-, -, -, -, -, htrigger⟩ := DistributorRegister.ofOffset_words hlt
  obtain ⟨henable, hdisable, hlatch, hunlatch, hdeactivate, -⟩ :=
    DistributorRegister.ofOffset_words hwords
  unfold wordEffect at h
  split at h
  · rename_i ho
    exact ⟨by omega, by omega, by rw [ho, htrigger]; rfl⟩
  split at h
  · split at h
    · rename_i ho
      exact ⟨by omega, by omega, by rw [ho, henable]; rfl⟩
    split at h
    · rename_i ho
      exact ⟨by omega, by omega, by rw [ho, hdisable]; rfl⟩
    split at h
    · rename_i ho
      exact ⟨by omega, by omega, by rw [ho, hlatch]; rfl⟩
    split at h
    · rename_i ho
      exact ⟨by omega, by omega, by rw [ho, hunlatch]; rfl⟩
    split at h
    · rename_i ho
      exact ⟨by omega, by omega, by rw [ho, hdeactivate]; rfl⟩
    · exact absurd rfl h
  · exact absurd rfl h

theorem row_after_write_distributor (hmax : cfg.numIrqs ≤ maxIrqs) (g : Controller cfg)
    (hlow : numSgis ≤ irq) (hirq : irq < cfg.numIrqs) (initiator : Initiator) (offset : Nat)
    (value : BitVec 64) (width : Width) :
    (g.after (.write .distributor initiator offset value width)).physical.irqs.row irq =
      g.touched irq (g.effect irq (.write .distributor initiator offset value width)) := by
  rw [physical_after_write_distributor, effect]
  cases width with
  | word =>
    simp only [if_true, writeEffect]
    -- A word that is refused, or is four bytes, does nothing with the interrupt.
    have hnone : ∀ cpu, ¬ (offset % 4 = 0 ∧ offset < 0xd00 ∧
        (DistributorRegister.ofOffset offset).isByte = false) →
        wordEffect irq cpu offset value = .none := fun cpu h =>
      Decidable.byContradiction fun hne =>
        h (register_of_wordEffect (Nat.lt_of_lt_of_le hirq hmax) hne)
    cases hcheck : checkWindow cfg .distributor offset .word with
    | error e =>
      have hoffset : ¬ offset < 0xd00 := by
        intro h
        rw [checkWindow, if_pos] at hcheck
        · cases hcheck
        · simp only [Width.bytes, Interface.windowSize]
          omega
      rw [hnone _ fun h => hoffset h.2.1]
      rfl
    | ok =>
      by_cases aligned : offset % 4 = 0
      · cases hbyte : (DistributorRegister.ofOffset offset).isByte with
        | true =>
          rw [hnone _ fun h => by rw [hbyte] at h; cases h.2.2]
          simp only [writeDistributor, aligned, hbyte, if_true, Traced.value_bind,
            Traced.value_pure, arbitrateIf_irqs, row_writeBytes hlow]
          rfl
        | false =>
          simp only [writeDistributor, aligned, hbyte, if_true, Bool.false_eq_true, if_false,
            Traced.value_bind, Traced.value_pure, arbitrateIf_irqs]
          exact row_writeWord hlow hirq hmax g.physical _ aligned value
      · rw [hnone _ fun h => aligned h.1]
        simp only [writeDistributor, aligned, if_false, Traced.value_pure]
        rfl
  | byte =>
    rw [if_neg (by decide)]
    split
    · rfl
    · cases hbyte : (DistributorRegister.ofOffset offset).isByte with
      | true =>
        simp only [writeDistributor, hbyte, if_true, Traced.value_bind, Traced.value_pure,
          arbitrateIf_irqs, row_writeByte hlow]
        rfl
      | false =>
        simp only [writeDistributor, hbyte, Bool.false_eq_true, if_false, Traced.value_pure]
        rfl
  | half | double =>
    rw [if_neg (by decide)]
    split <;> rfl

/-- Outside the distributor, only completions change interrupts by a write. -/
theorem irqs_after_write (g : Controller cfg) {window : Interface} {initiator : Initiator}
    {offset : Nat} {value : BitVec 64} {width : Width} (hwindow : window ≠ .distributor)
    (h : ¬ (window ≠ .vifControl ∧ offset = 0x10 ∧ width = .word)) :
    (g.after (.write window initiator offset value width)).physical.irqs = g.physical.irqs := by
  rw [after_write]
  split
  · rfl
  cases window with
  | distributor => exact absurd rfl hwindow
  | vifControl =>
    simp only [writeWindow]
    split
    · rfl
    · simp only [Traced.value_bind, Traced.value_pure, physical_putVirtual]
  | cpuInterface =>
    simp only [writeWindow]
    split
    · rfl
    · rename_i hw
      exact irqs_writeCpuInterface _ _ (fun hregister => h ⟨by decide,
        CpuRegister.offset_of_completion hregister, (width_of_checkWord hw).1⟩) _
  | vcpuInterface =>
    simp only [writeWindow]
    split
    · rfl
    · rename_i hw
      split
      · rename_i hregister
        exact absurd ⟨by decide, CpuRegister.offset_of_completion hregister,
          (width_of_checkWord hw).1⟩ h
      · simp only [Traced.value_bind, Traced.value_pure, physical_putVirtual]

/-- A CPU completes an interrupt, if it runs it. -/
theorem row_complete (hmax : cfg.numIrqs ≤ maxIrqs) {g : Controller cfg} (hg : Reachable g)
    (hirq : irq < cfg.numIrqs) (cpu : Nat) (value : Word) :
    (g.physical.complete cpu value).value.irqs.row irq =
      g.touched irq (if value.field 0 10 = irq ∧ (g.physical.cpus.row cpu).isRunning irq = true
        then .complete cpu else .none) := by
  rw [complete_value]
  split
  · rename_i hruns
    refine (row_deactivate (p := g.physical) (Nat.lt_of_lt_of_le hirq hmax) hg.shaped cpu _
      (g.physical.distributor.targets irq)).trans ?_
    by_cases hended : value.field 0 10 = irq
    · rw [if_pos hended, if_pos ⟨hended, hended ▸ hruns.2⟩]
      rfl
    · rw [if_neg hended, if_neg fun h => hended h.1]
      rfl
  · rename_i hidle
    rw [if_neg]
    · rfl
    · rintro ⟨rfl, hruns⟩
      exact hidle ⟨hirq, hruns⟩

/-- A guest completes an interrupt, if the one that it names is backed by it. -/
theorem row_completeVirtual_backing (hmax : cfg.numIrqs ≤ maxIrqs) {g : Controller cfg}
    (hg : Reachable g) (hlow : numSgis ≤ irq) (hirq : irq < cfg.numIrqs) (cpu : Nat)
    (value : Word) :
    (g.completeVirtual cpu value).value.physical.irqs.row irq =
      g.touched irq (if g.backing? cpu value = some irq then .complete cpu else .none) := by
  rw [physical_completeVirtual]
  cases g.backing? cpu value with
  | none => rfl
  | some ended =>
    simp only [Option.some.injEq]
    split
    · refine (row_deactivate (Nat.lt_of_lt_of_le hirq hmax) hg.shaped cpu ended
        (g.physical.distributor.targets irq)).trans ?_
      split <;> rfl
    · rename_i hinvalid
      rw [if_neg]
      · rfl
      · rintro rfl
        exact hinvalid ⟨hlow, hirq⟩

theorem row_after_write_elsewhere (hmax : cfg.numIrqs ≤ maxIrqs) {g : Controller cfg}
    (hg : Reachable g) (hlow : numSgis ≤ irq) (hirq : irq < cfg.numIrqs) {window : Interface}
    (hwindow : window ≠ .distributor) (initiator : Initiator) (offset : Nat)
    (value : BitVec 64) (width : Width) :
    (g.after (.write window initiator offset value width)).physical.irqs.row irq =
      g.touched irq (g.effect irq (.write window initiator offset value width)) := by
  rw [effect]
  by_cases h : window ≠ .vifControl ∧ offset = 0x10 ∧ width = .word
  · obtain ⟨hvif, rfl, rfl⟩ := h
    rw [if_pos rfl]
    cases window with
    | distributor => exact absurd rfl hwindow
    | vifControl => exact absurd rfl hvif
    | cpuInterface =>
      simp only [writeEffect, true_and]
      exact row_complete hmax hg hirq _ _
    | vcpuInterface =>
      simp only [writeEffect, true_and]
      exact row_completeVirtual_backing hmax hg hlow hirq _ _
  · rw [irqs_after_write g hwindow h]
    split
    · rename_i hword
      cases window with
      | distributor => exact absurd rfl hwindow
      | vifControl => rfl
      | cpuInterface | vcpuInterface =>
        rw [writeEffect, if_neg fun hcompletes => h ⟨nofun, hcompletes.1, hword⟩]
        rfl
    · rfl

/-! ### Inputs -/

theorem row_driveInput (hbound : irq < maxIrqs) (g : Controller cfg) (cpu : Nat) (level : Bool) :
    (g.driveInput irq level (view irq cpu)
      (receivers irq cpu (g.physical.distributor.targets irq))).value.physical.irqs.row irq =
      g.touched irq (.drive cpu level) := by
  simp only [driveInput, Traced.value_bind, Traced.value_pure, arbitrate_irqs]
  rw [row_alterIrq, if_pos ⟨rfl, hbound⟩]
  rfl

theorem row_driveInput_of_ne (g : Controller cfg) {driven : Nat} (h : driven ≠ irq) (level : Bool)
    (mask targets : CpuMask) :
    (g.driveInput driven level mask targets).value.physical.irqs.row irq =
      g.physical.irqs.row irq := by
  simp only [driveInput, Traced.value_bind, Traced.value_pure, arbitrate_irqs]
  exact row_alterIrq_of_ne _ h _

theorem row_drivePpi (hbound : irq < maxIrqs) (g : Controller cfg) (cpu index : Nat)
    (level : Bool) :
    (g.drivePpi cpu index level).value.physical.irqs.row irq =
      g.touched irq (if cpu < cfg.cpus ∧ irq < numPrivate ∧ irq = numSgis + index then
        .drive cpu level else .none) := by
  have hprivate : index < numPpis ↔ numSgis + index < numPrivate := by
    simp only [numPpis, numSgis, numPrivate]
    omega
  unfold drivePpi
  split
  · rename_i hconnected
    by_cases hdriven : irq = numSgis + index
    · subst hdriven
      have hlow := hprivate.mp hconnected.2
      have hdrive := row_driveInput hbound g cpu level
      rw [view, receivers, if_pos hlow, if_pos hlow] at hdrive
      rw [if_pos ⟨hconnected.1, hlow, rfl⟩]
      exact hdrive
    · rw [row_driveInput_of_ne g (Ne.symm hdriven), if_neg fun h => hdriven h.2.2]
      rfl
  · rename_i hidle
    rw [if_neg]
    · rfl
    · rintro ⟨hcpu, hlow, rfl⟩
      exact hidle ⟨hcpu, hprivate.mpr hlow⟩

theorem row_driveInput_private (hbound : irq < maxIrqs) (hprivate : irq < numPrivate)
    (g : Controller cfg) (level : Bool) :
    (g.driveInput irq level .all
      (g.physical.distributor.targets irq)).value.physical.irqs.row irq =
      g.touched irq (.overdrive level) := by
  simp only [driveInput, Traced.value_bind, Traced.value_pure, arbitrate_irqs,
    Distributor.targets_of_private _ hprivate]
  rw [row_alterIrq, if_pos ⟨rfl, hbound⟩]
  rfl

theorem row_driveSpi (hmax : cfg.numIrqs ≤ maxIrqs) (hirq : irq < cfg.numIrqs)
    (g : Controller cfg) (index : Nat) (level : Bool) :
    (g.driveSpi index level).value.physical.irqs.row irq =
      g.touched irq (g.effect irq (.spi index level)) := by
  have hbound : irq < maxIrqs := Nat.lt_of_lt_of_le hirq hmax
  rw [effect]
  unfold driveSpi
  by_cases hdriven : sharedIrq index = irq
  · rw [hdriven, if_pos hirq, if_neg (not_not.mpr rfl)]
    by_cases hprivate : irq < numPrivate
    · rw [if_pos hprivate]
      exact row_driveInput_private hbound hprivate g level
    · have hdrive := row_driveInput hbound g 0 level
      rw [view, receivers, if_neg hprivate, if_neg hprivate] at hdrive
      rw [if_neg hprivate]
      exact hdrive
  · rw [if_pos hdriven]
    split
    · exact row_driveInput_of_ne g hdriven _ _ _
    · rfl

theorem row_handle (hmax : cfg.numIrqs ≤ maxIrqs) (hlow : numSgis ≤ irq)
    (hirq : irq < cfg.numIrqs) (g : Controller cfg) (request : Request) :
    (g.handle request).value.physical.irqs.row irq =
      g.touched irq (g.effect irq (.request request)) := by
  rw [effect]
  unfold handle
  split
  · rename_i hsgi
    have hother : request.irq ≠ irq := by omega
    rw [if_pos hother]
    rfl
  · rename_i hinput
    split
    · rename_i hprivate
      refine (row_drivePpi (Nat.lt_of_lt_of_le hirq hmax) g _ _ _).trans ?_
      by_cases hdriven : request.irq = irq
      · have hindex : irq = numSgis + (request.irq - numSgis) := by omega
        have hlow : irq < numPrivate := hdriven ▸ hprivate
        rw [if_neg (not_not.mpr hdriven), if_pos hlow]
        simp only [hlow, ← hindex, and_true]
      · have hindex : ¬ irq = numSgis + (request.irq - numSgis) := by omega
        rw [if_pos hdriven, if_neg fun h => hindex h.2.2]
    · rename_i hshared
      refine (row_driveSpi hmax hirq g _ _).trans ?_
      rw [effect, sharedIrq_request (Nat.not_lt.mp hshared)]
      by_cases hdriven : request.irq = irq
      · have hnot : ¬ irq < numPrivate := hdriven ▸ hshared
        rw [if_neg (not_not.mpr hdriven), if_neg (not_not.mpr hdriven), if_neg hnot, if_neg hnot]
      · rw [if_pos hdriven, if_pos hdriven]

/-- The state of an interrupt that has an input, after an action, is what the effect of the action
makes of it. -/
theorem row_after (hv : cfg.validate = .ok ()) {g : Controller cfg} (hg : Reachable g)
    (hlow : numSgis ≤ irq) (hirq : irq < cfg.numIrqs) (a : Action) :
    (g.after a).physical.irqs.row irq = g.touched irq (g.effect irq a) := by
  obtain ⟨-, -, hirqs⟩ := Config.bounds_of_validate hv
  cases a with
  | read window initiator offset width => exact row_after_read hv hg hlow hirq _ _ _ _
  | write window initiator offset value width =>
    by_cases hwindow : window = .distributor
    · subst hwindow
      exact row_after_write_distributor hirqs g hlow hirq _ _ _ _
    · exact row_after_write_elsewhere hirqs hg hlow hirq hwindow _ _ _ _
  | ppi cpu index level => exact row_drivePpi (Nat.lt_of_lt_of_le hirq hirqs) g _ _ _
  | spi index level => exact row_driveSpi hirqs hirq g _ _
  | request request => exact row_handle hirqs hlow hirq g _
  | update domain => cases domain <;> rfl
  | reset =>
    rw [after_reset]
    have hsgi : ¬ irq < numSgis := Nat.not_lt.mpr hlow
    simp only [powerOn, Physical.powerOn, Store.powerOn, Table.row_build,
      Nat.lt_of_lt_of_le hirq hirqs, hsgi, if_true, if_false]
    rfl

end Controller

/-! ### The flags that concern a CPU -/

/-- What is assigned for one CPU is seen by those whom it concerns. -/
theorem meets_assign_view {c : Nat} (hc : c < maxCpus) (mask : CpuMask) (irq cpu : Nat)
    (value : Bool) :
    (mask.assign (view irq cpu) value).meets (view irq c) =
      if Concerns irq cpu c then value else mask.meets (view irq c) := by
  by_cases hlow : irq < numPrivate
  · simp only [view, hlow, if_true, CpuMask.meets_only _ hc, CpuMask.getLsbD_assign,
      CpuMask.getLsbD_only, Concerns, true_imp_iff]
    by_cases hcpu : cpu = c
    · simp only [hcpu, hc, decide_true, Bool.and_self, if_true]
    · simp only [hcpu, decide_false, Bool.and_false, Bool.false_eq_true, if_false]
  · have hconcerns : Concerns irq cpu c := fun h => absurd h hlow
    rw [assign_view_shared (Nat.not_lt.mp hlow), view, if_neg hlow, CpuMask.meets_all,
      if_pos hconcerns]
    cases value <;> rfl

theorem meets_assign_all {irq c : Nat} (hc : c < maxCpus) (mask : CpuMask) (value : Bool) :
    (mask.assign .all value).meets (view irq c) = value := by
  cases value with
  | false => rw [CpuMask.assign_all_false, CpuMask.zero_meets]
  | true =>
    rw [CpuMask.assign_all_true]
    unfold view
    split
    · rw [CpuMask.meets_only _ hc, CpuMask.getLsbD_all, decide_eq_true hc]
    · rfl

theorem level_drive (r : IrqState) (value : Bool) (mask targets : CpuMask) :
    (r.drive value mask targets).level = r.level.assign mask value := by
  unfold IrqState.drive
  dsimp only
  split <;> rfl

/-- Only the input itself, and power-on, change the level that is kept of it. -/
theorem isLevel_apply {irq c : Nat} (hc : c < maxCpus) (targets : CpuMask) (r : IrqState)
    (e : Effect) :
    (e.apply irq targets r).isLevel (view irq c) =
      match e with
      | .drive cpu level => if Concerns irq cpu c then level else r.isLevel (view irq c)
      | .overdrive level => level
      | .powerOn => false
      | _ => r.isLevel (view irq c) := by
  cases e with
  | overdrive level =>
    show (r.drive level _ _).level.meets (view irq c) = level
    rw [level_drive, meets_assign_all hc]
  | drive cpu level =>
    show (r.drive level _ _).level.meets (view irq c) = _
    rw [level_drive, meets_assign_view hc]
    rfl
  | enable cpu =>
    exact IrqState.enable_keeps (φ := fun r => r.isLevel (view irq c)) (fun _ _ _ => rfl)
      (fun _ _ _ => rfl) r _
  | powerOn =>
    simp only [Effect.apply]
    split <;> exact CpuMask.zero_meets _
  | _ => rfl

namespace Controller

variable {cfg : Config} {irq c : Nat}

theorem row_powerOn_input (hv : cfg.validate = .ok ()) (hlow : numSgis ≤ irq)
    (hirq : irq < cfg.numIrqs) :
    (powerOn cfg).physical.irqs.row irq = (powerOn cfg).touched irq .powerOn := by
  have hrow := row_after hv (reachable_run []) hlow hirq .reset
  rwa [after_reset] at hrow

/-- The level that is kept of an input is high after an action if and only if the action drives it
high, or it was high before and the action neither drives it low nor resets the controller. -/
theorem isLevel_step (hv : cfg.validate = .ok ()) {g : Controller cfg} (hg : Reachable g)
    (hlow : numSgis ≤ irq) (hirq : irq < cfg.numIrqs) (hc : c < maxCpus) (a : Action) :
    ((g.after a).physical.irqs.row irq).isLevel (view irq c) = true ↔
      Drives irq c true g a ∨
        ((g.physical.irqs.row irq).isLevel (view irq c) = true ∧
          ¬ (Drives irq c false g a ∨ g.effect irq a = .powerOn)) := by
  rw [row_after hv hg hlow hirq, touched, isLevel_apply hc]
  unfold Drives Does
  generalize g.effect irq a = e
  cases e with
  | drive cpu level =>
    simp only [Effect.drive.injEq, reduceCtorEq, or_false]
    by_cases hcpu : Concerns irq cpu c
    · cases level with
      | true => simp [hcpu]
      | false => simp [hcpu]
    · simp [hcpu]
  | _ => simp

/-- The level that is kept of an input is high if and only if the input was driven high, and neither
driven low nor lost by a reset since. -/
theorem isLevel_run (hv : cfg.validate = .ok ()) (hlow : numSgis ≤ irq) (hirq : irq < cfg.numIrqs)
    (hc : c < maxCpus) (actions : List Action) :
    (((powerOn cfg).run actions).physical.irqs.row irq).isLevel (view irq c) = true ↔
      Outstanding (Drives irq c true)
        (fun g a => Drives irq c false g a ∨ g.effect irq a = .powerOn) (powerOn cfg) actions := by
  refine iff_outstanding
    (P := fun g => (g.physical.irqs.row irq).isLevel (view irq c) = true) ?_ ?_ actions
  · rw [row_powerOn_input hv hlow hirq, touched, isLevel_apply hc]
    exact Bool.false_ne_true
  · exact fun g a hg => isLevel_step hv hg hlow hirq hc a

/-- The smallest controller that has a shared interrupt: runs of it are soon worked out. -/
def oneShared : Config := { Config.standard with spis := 1 }

end Controller

end Gic
