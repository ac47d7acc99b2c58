import Gic.Proofs.GuestAcknowledge
import Gic.Proofs.NeverStale
import Gic.Proofs.Refusals
import Gic.Proofs.Unregarded

/-!
# Observing changes nothing

Whoever looks into a running controller reads its registers, now and then at an
address that is refused, and writes some that do nothing. Only the reads of the
two acknowledge registers act. Of the writes that change nothing, some are
followed by an arbitration all the same. This module shows that all of this may
be left out of a run: what is left of it goes as it went before.

## The model

* `Interface.isInert` — the offsets of a window where a write changes nothing, or
  registers that are not looked at.
* `Idle` — an action that is nothing but a look: a read that does not acknowledge,
  a write at such an offset, an access that is refused. Which actions are idle does
  not depend on the controller (`isIdle_iff`).
* `replies` — what each access of a run answers.
* `Thins cfg keep` — only idle actions are left out, among them all reads that do
  not acknowledge. Such a read could tell what had been written to a register
  that is not looked at.

## What is proved

* `Reachable.bare_after_idle` — in every reachable state an idle action leaves all
  but the registers that are not looked at, and `Reachable.changes_idle` — it
  publishes nothing.
* `changes_bare`, `Thins.result?_bare` — what another action publishes and answers
  does not depend on them.
* `Thins.run_bare` — so a run goes on as before without what is left out of it.
-/

namespace Gic

/-! ### Inert registers -/

/-- A register of the distributor that is read-only, for want of interrupts or by design, reserved,
or not looked at. -/
def DistributorRegister.isInert (cfg : Config) : DistributorRegister → Bool
  | .controllerType | .implementer | .group _ | .setActive _ | .component _ | .reserved => true
  | .setEnable n | .clearEnable n | .setPending n | .clearPending n | .clearActive n =>
    decide (cfg.numIrqs ≤ 32 * n)
  | .trigger n => decide (n = 0 ∨ 32 ≤ n)
  | .priority irq => decide (cfg.numIrqs ≤ irq)
  | .targets irq => decide (irq < numPrivate ∨ cfg.numIrqs ≤ irq)
  | .control | .sgi | .clearSources _ | .setSources _ => false

/-- A register of the interface of a CPU that is read-only, reserved, or not looked at. -/
def CpuRegister.isInert : CpuRegister → Bool
  | .control | .priorityMask | .completion => false
  | _ => true

/-- A register of the interface of a guest that is read-only or reserved. -/
def CpuRegister.isGuestInert : CpuRegister → Bool
  | .control | .priorityMask | .binaryPoint | .aliasPoint | .completion => false
  | .activePriorities n => decide (n ≠ 0)
  | _ => true

/-- A register of the hypervisor that is read-only or reserved. -/
def VifRegister.isInert : VifRegister → Bool
  | .control | .machineControl | .activePriorities => false
  | .list n => decide (numListRegisters ≤ n)
  | .vifType | .freeLists | .reserved => true

/-- Whether a write at an offset of a window changes nothing but registers that are not looked at;
at the distributor, each of its bytes counts. -/
def Interface.isInert (cfg : Config) (window : Interface) (offset : Nat) (width : Width) : Bool :=
  match window with
  | .distributor =>
    (List.range width.bytes).all fun lane =>
      (DistributorRegister.ofOffset (offset + lane)).isInert cfg
  | .cpuInterface => (CpuRegister.ofOffset offset).isInert
  | .vifControl => (VifRegister.ofOffset offset).isInert
  | .vcpuInterface => (CpuRegister.ofOffset offset).isGuestInert

namespace Physical

variable {cfg : Config}

/-- A word of flags of interrupts that are not connected selects none. -/
theorem selects_of_le {n : Nat} (h : cfg.numIrqs ≤ 32 * n) (value : Word) (irq : Nat) :
    selects cfg n value irq = false := by
  rw [selects, Bool.and_eq_false_iff, Bool.and_eq_false_iff, decide_eq_false_iff_not,
    decide_eq_false_iff_not]
  omega

theorem alterSelected_of_le (p : Physical cfg) {n : Nat} (h : cfg.numIrqs ≤ 32 * n) (value : Word)
    (f : Nat → IrqState → IrqState) : p.alterSelected n value f = p :=
  p.alterSelected_eq_self fun irq _ hselected =>
    absurd ((selects_of_le h value irq).symm.trans hselected) Bool.false_ne_true

theorem bare_writeWord_inert (p : Physical cfg) (cpu : Nat) {register : DistributorRegister}
    (h : register.isInert cfg = true) (value : Word) :
    (p.writeWord cpu register value).value.state.bare = p.bare := by
  cases register with
  | group n => exact congrArg Written.state (bare_writeGroup p cpu n value)
  | setEnable n | clearEnable n | setPending n | clearPending n | clearActive n =>
    exact congrArg bare (p.alterSelected_of_le (of_decide_eq_true h) value _)
  | trigger n =>
    have hword : ¬ (1 ≤ n ∧ n < 32) := by
      have := of_decide_eq_true h
      omega
    simp only [writeWord, if_neg hword]
    rfl
  | control | sgi => cases h
  | _ => rfl

theorem writeByte_inert (p : Physical cfg) (cpu : Nat) {register : DistributorRegister}
    (h : register.isInert cfg = true) (value : BitVec 8) :
    p.writeByte cpu register value = ⟨p, false⟩ := by
  cases register with
  | priority irq => exact if_neg (Nat.not_lt.mpr (of_decide_eq_true h))
  | targets irq =>
    have htargets : ¬ (numPrivate ≤ irq ∧ irq < cfg.numIrqs) := by
      have := of_decide_eq_true h
      omega
    exact if_neg htargets
  | clearSources | setSources => cases h
  | _ => rfl

theorem writeLane_inert (w : Written cfg) (cpu : Nat) {offset lane : Nat}
    (h : (DistributorRegister.ofOffset (offset + lane)).isInert cfg = true) (value : Word) :
    writeLane w cpu offset value lane = w := by
  rw [writeLane, writeByte_inert _ _ h, Bool.or_false]

theorem writeBytes_inert (p : Physical cfg) (cpu : Nat) {offset : Nat}
    (h : Interface.distributor.isInert cfg offset .word = true) (value : Word) :
    p.writeBytes cpu offset value = ⟨p, false⟩ := by
  have hlane : ∀ lane < 4, (DistributorRegister.ofOffset (offset + lane)).isInert cfg = true :=
    fun lane hlt => List.all_eq_true.mp h lane (List.mem_range.mpr hlt)
  simp only [writeBytes, List.foldl, writeLane_inert _ _ (hlane 0 (by decide)),
    writeLane_inert _ _ (hlane 1 (by decide)), writeLane_inert _ _ (hlane 2 (by decide)),
    writeLane_inert _ _ (hlane 3 (by decide))]

/-- In a settled state it makes no difference whether an arbitration follows. -/
theorem Settled.bare_arbitrateIf {p : Physical cfg} (hp : Settled p) {w : Written cfg}
    (h : w.state.bare = p.bare) : (arbitrateIf w).value.bare = p.bare := by
  unfold arbitrateIf
  split
  · rw [bare_arbitrate, h, ← Physical.bare_arbitrate, hp.arbitrate_eq]
  · exact h

/-- A write to inert registers of the distributor leaves all but those that are not looked at. -/
theorem Settled.bare_writeDistributor {p q : Physical cfg} (hp : Settled p) {cpu offset : Nat}
    {value : Word} {width : Width} (h : Interface.distributor.isInert cfg offset width = true)
    (hq : (p.writeDistributor cpu offset value width).value = .ok q) : q.bare = p.bare := by
  have hfirst : 0 < width.bytes → (DistributorRegister.ofOffset offset).isInert cfg = true :=
    fun hpos => List.all_eq_true.mp h 0 (List.mem_range.mpr hpos)
  simp only [writeDistributor] at hq
  cases width with
  | word =>
    dsimp only at hq
    split at hq
    · split at hq
      · cases hq
        rw [Traced.value_pure, writeBytes_inert p cpu h]
        rfl
      · cases hq
        exact hp.bare_arbitrateIf (p.bare_writeWord_inert cpu (hfirst (by decide)) value)
    · cases hq
  | byte =>
    dsimp only at hq
    split at hq
    · cases hq
      rw [writeByte_inert p cpu (hfirst (by decide))]
      rfl
    · cases hq
  | half | double => cases hq

theorem bare_writeCpuInterface_inert (p : Physical cfg) (cpu : Nat) {register : CpuRegister}
    (h : register.isInert = true) (value : Word) :
    (p.writeCpuInterface cpu register value).value.bare = p.bare := by
  have hkeeps : ∀ {f : CpuInterface → CpuInterface}, (∀ i, (f i).bare = i.bare) →
      (p.alterCpu cpu f).bare = p.bare := fun hf => bare_alterCpu_of_unregarded hf p cpu
  cases register with
  | control | priorityMask | completion => cases h
  | binaryPoint | aliasPoint | deactivation => exact hkeeps fun _ => rfl
  | activePriorities n =>
    cases n with
    | zero => exact hkeeps fun _ => rfl
    | succ n => rfl
  | _ => rfl

end Physical

namespace VirtualCpu

theorem writeVif_inert (v : VirtualCpu) (cpu : Nat) {register : VifRegister}
    (h : register.isInert = true) (value : Word) :
    (v.writeVif cpu register value).value = ⟨v, false⟩ := by
  cases register with
  | control | machineControl | activePriorities => cases h
  | list n =>
    simp only [writeVif, if_pos (of_decide_eq_true h)]
    rfl
  | _ => rfl

theorem writeGuest_inert (v : VirtualCpu) (cpu : Nat) {register : CpuRegister}
    (h : register.isGuestInert = true) (value : Word) :
    (v.writeGuest cpu register value).value = ⟨v, false⟩ := by
  cases register with
  | control | priorityMask | binaryPoint | aliasPoint | completion => cases h
  | activePriorities n =>
    cases n with
    | zero => exact absurd h (by decide)
    | succ n => rfl
  | _ => rfl

end VirtualCpu

/-! ### Idle actions -/

/-- What an access answers: the word that it reads, or nothing if it writes. -/
abbrev Answer := Except BusError (Option Word)

namespace Controller

variable {cfg : Config}

/-- What an action answers, if it is an access. -/
def result? (g : Controller cfg) : Action → Option Answer
  | .read window i offset width => some ((g.read window i offset width).value.1.map some)
  | .write window i offset value width =>
    some ((g.write window i offset value width).value.1.map fun _ => none)
  | _ => none

/-- What each action of a run answers, in order. -/
def replies (g : Controller cfg) : List Action → List (Action × Option Answer)
  | [] => []
  | a :: rest => (a, g.result? a) :: (g.after a).replies rest

/-- Whether an action is an access that is answered with an error. -/
def refuses (g : Controller cfg) : Action → Bool
  | .read window i offset width => !(g.read window i offset width).value.1.isOk
  | .write window i offset value width => !(g.write window i offset value width).value.1.isOk
  | _ => false

/-- A read that acknowledges. -/
def Acknowledges (window : Interface) (offset : Nat) : Prop :=
  (window = .cpuInterface ∨ window = .vcpuInterface) ∧ offset = 0x0c

instance (window : Interface) (offset : Nat) : Decidable (Acknowledges window offset) :=
  inferInstanceAs (Decidable (_ ∧ _))

/-- An action that does nothing but look. -/
inductive Idle (cfg : Config) : Action → Prop where
  /-- A read that does not acknowledge. -/
  | peeks {window : Interface} {i : Initiator} {o : Nat} {w : Width}
      (quiet : ¬ Acknowledges window o) : Idle cfg (.read window i o w)
  /-- A write to inert registers. -/
  | writes {window : Interface} {i : Initiator} {o : Nat} {v : BitVec 64} {w : Width}
      (inert : window.isInert cfg o w = true) : Idle cfg (.write window i o v w)
  /-- An access that some controller refuses, and hence all do. -/
  | refused {a : Action} (g : Controller cfg) (refused : g.refuses a = true) : Idle cfg a

theorem Idle.ne_reset {a : Action} (h : Idle cfg a) : a ≠ .reset := by
  rintro rfl
  cases h with
  | refused g hrefused => cases hrefused

/-! ### What is refused -/

/-- What is refused does not depend on the controller. -/
theorem refuses_eq (g k : Controller cfg) (a : Action) : g.refuses a = k.refuses a := by
  cases a with
  | read window i o w =>
    have hg := g.judged_read window i o w
    have hk := k.judged_read window i o w
    exact congrArg not (Bool.eq_iff_iff.mpr (hg.isOk_iff.trans hk.isOk_iff.symm))
  | write window i o v w =>
    have hg := g.judged_write window i o v w
    have hk := k.judged_write window i o v w
    exact congrArg not (Bool.eq_iff_iff.mpr (hg.isOk_iff.trans hk.isOk_iff.symm))
  | _ => rfl

/-- What is refused does nothing. -/
theorem after_of_refuses {g : Controller cfg} {a : Action} (h : g.refuses a = true) :
    g.after a = g := by
  cases a with
  | read window i o w => exact (g.judged_read window i o w).stays h
  | write window i o v w => exact (g.judged_write window i o v w).stays h
  | _ => cases h

/-- What a write answers does not depend on the controller. -/
theorem answer_write (g k : Controller cfg) (window : Interface) (i : Initiator) (o : Nat)
    (v : BitVec 64) (w : Width) :
    (g.write window i o v w).value.1 = (k.write window i o v w).value.1 := by
  have hg := g.judged_write window i o v w
  have hk := k.judged_write window i o v w
  rcases Nat.lt_or_ge window.windowSize (o + w.bytes) with houtside | hinside
  · rw [hg.outside.mpr houtside, hk.outside.mpr houtside]
  · by_cases hfits : Fits window o w
    · obtain ⟨a, ha⟩ := hg.answered.mpr ⟨hinside, hfits⟩
      obtain ⟨b, hb⟩ := hk.answered.mpr ⟨hinside, hfits⟩
      rw [ha, hb]
    · rw [hg.misfit.mpr ⟨hinside, hfits⟩, hk.misfit.mpr ⟨hinside, hfits⟩]

/-- Which actions are idle can be told without a run. -/
def isIdle (cfg : Config) : Action → Bool
  | .read window i o w =>
    !decide (Acknowledges window o) || (powerOn cfg).refuses (.read window i o w)
  | .write window i o v w => window.isInert cfg o w || (powerOn cfg).refuses (.write window i o v w)
  | _ => false

theorem isIdle_iff (a : Action) : isIdle cfg a = true ↔ Idle cfg a := by
  cases a with
  | read window i o w =>
    rw [isIdle, Bool.or_eq_true, Bool.not_eq_true', decide_eq_false_iff_not]
    constructor
    · rintro (quiet | hrefused)
      · exact .peeks quiet
      · exact .refused _ hrefused
    · rintro (quiet | - | ⟨g, hrefused⟩)
      · exact .inl quiet
      · exact .inr ((refuses_eq _ g _).trans hrefused)
  | write window i o v w =>
    rw [isIdle, Bool.or_eq_true]
    constructor
    · rintro (inert | hrefused)
      · exact .writes inert
      · exact .refused _ hrefused
    · rintro (- | inert | ⟨g, hrefused⟩)
      · exact .inl inert
      · exact .inr ((refuses_eq _ g _).trans hrefused)
  | _ =>
    refine iff_of_false Bool.false_ne_true fun h => ?_
    cases h with
    | refused g hrefused => cases hrefused

instance : DecidablePred (Idle cfg) := fun a => decidable_of_iff _ (isIdle_iff a)

/-! ### One action -/

/-- A write to inert registers leaves all but those that are not looked at. -/
theorem Reachable.bare_after_inert {g : Controller cfg} (hg : Reachable g) {window : Interface}
    {i : Initiator} {o : Nat} {v : BitVec 64} {w : Width}
    (h : window.isInert cfg o w = true) : (g.after (.write window i o v w)).bare = g.bare := by
  rw [after_write]
  split
  · rfl
  cases window with
  | distributor =>
    simp only [writeWindow, Traced.value_bind]
    cases hq : (g.physical.writeDistributor (cpuOf cfg i) o (v.setWidth 32) w).value with
    | error => rfl
    | ok q =>
      exact congrArg (fun p => ({ g with physical := p } : Controller cfg))
        (hg.settled.bare_writeDistributor h hq)
  | cpuInterface =>
    simp only [writeWindow]
    split
    · rfl
    · exact congrArg (fun p => ({ g with physical := p } : Controller cfg))
        (g.physical.bare_writeCpuInterface_inert _ h _)
  | vifControl =>
    simp only [writeWindow]
    split
    · rfl
    · simp only [Traced.value_bind, Traced.value_pure, VirtualCpu.writeVif_inert _ _ h,
        putVirtual_self]
  | vcpuInterface =>
    simp only [writeWindow]
    split
    · rfl
    · split
      · rename_i hcompletes
        rw [Interface.isInert, hcompletes] at h
        cases h
      · simp only [Traced.value_bind, Traced.value_pure, VirtualCpu.writeGuest_inert _ _ h,
          putVirtual_self]

/-- In every reachable state an idle action leaves all but the registers that are not looked at. -/
theorem Reachable.bare_after_idle {g : Controller cfg} (hg : Reachable g) {a : Action}
    (h : Idle cfg a) : (g.after a).bare = g.bare := by
  cases h with
  | peeks quiet => rw [g.after_read_of_quiet quiet]
  | writes inert => exact hg.bare_after_inert inert
  | refused k hrefused => rw [after_of_refuses ((g.refuses_eq k a).trans hrefused)]

@[simp] theorem line_bare (g : Controller cfg) (cpu : Nat) (kind : LineKind) :
    g.bare.line cpu kind = g.line cpu kind := by
  cases kind with
  | irq =>
    rw [line, line, bare, Physical.row_bare]
    rfl
  | virtualIrq => rfl

/-- Which lines differ does not depend on the registers that are not looked at. -/
theorem lineChanges_bare (g h : Controller cfg) : lineChanges g.bare h.bare = lineChanges g h := by
  simp only [lineChanges, kindChanges, line_bare]

/-- An idle action publishes nothing. -/
theorem Reachable.changes_idle {g : Controller cfg} (hg : Reachable g) {a : Action}
    (h : Idle cfg a) : (g.step a).changes = [] := by
  rw [changes_step_of_ne_reset g h.ne_reset, ← lineChanges_bare, hg.bare_after_idle h,
    lineChanges_self]

/-- What an action publishes does not depend on the registers that are not looked at. -/
theorem changes_bare (g : Controller cfg) (a : Action) :
    (g.bare.step a).changes = (g.step a).changes := by
  by_cases h : a = .reset
  · have hevents : g.bare.resetEvents = g.resetEvents := by
      funext cpu
      simp only [resetEvents, line_bare]
    rw [h]
    show g.bare.reset.changes = g.reset.changes
    rw [reset_eq, reset_eq, hevents]
  · rw [changes_step_of_ne_reset g.bare h, changes_step_of_ne_reset g h, ← lineChanges_bare,
      bare_bare, ← bare_after, lineChanges_bare]

/-- An acknowledge answers without looking at them. -/
theorem answer_acknowledge_bare (g : Controller cfg) {window : Interface} {o : Nat}
    (h : Acknowledges window o) (i : Initiator) (w : Width) :
    (g.bare.read window i o w).value.1 = (g.read window i o w).value.1 := by
  obtain ⟨hwindow, rfl⟩ := h
  rw [value_read, value_read]
  split
  · rfl
  rcases hwindow with rfl | rfl
  · simp only [readWindow]
    split
    · rfl
    · have hanswer : (g.physical.bare.acknowledge (cpuOf cfg i)).value.1 =
          (g.physical.acknowledge (cpuOf cfg i)).value.1 := by
        rw [Physical.acknowledge_bare]
      exact congrArg Except.ok hanswer
  · simp only [readWindow]
    split <;> rfl

/-! ### Runs -/

/-- Only idle actions are left out, among them all reads that do not acknowledge. -/
structure Thins (cfg : Config) (keep : Action → Bool) : Prop where
  /-- What is left out is idle. -/
  idle : ∀ {a}, keep a = false → Idle cfg a
  /-- No read is kept that could look at a register that nothing else looks at. -/
  peeks : ∀ {window i o w}, ¬ Acknowledges window o → keep (.read window i o w) = false

theorem thins_idle (cfg : Config) : Thins cfg fun a => decide (¬ Idle cfg a) where
  idle h := Decidable.not_not.mp (of_decide_eq_false h)
  peeks hquiet := decide_eq_false fun h => h (.peeks hquiet)

/-- What an action that is kept answers does not depend on them. -/
theorem Thins.result?_bare {keep : Action → Bool} (h : Thins cfg keep) (g : Controller cfg)
    {a : Action} (ha : keep a = true) : g.bare.result? a = g.result? a := by
  cases a with
  | read window i o w =>
    have hacknowledges : Acknowledges window o := by
      by_contra hquiet
      exact Bool.false_ne_true ((h.peeks hquiet).symm.trans ha)
    rw [result?, result?, g.answer_acknowledge_bare hacknowledges]
  | write window i o v w => rw [result?, result?, g.bare.answer_write g]
  | _ => rfl

/-- A run goes on as before without what is left out of it, from controllers that differ only in the
registers that are not looked at. -/
theorem Thins.run_bare {keep : Action → Bool} (h : Thins cfg keep) (actions : List Action)
    {g k : Controller cfg} (hg : Reachable g) (hgk : g.bare = k.bare) :
    k.replies (actions.filter keep) = (g.replies actions).filter (fun reply => keep reply.1) ∧
      k.published (actions.filter keep) = g.published actions ∧
      (k.run (actions.filter keep)).bare = (g.run actions).bare := by
  induction actions generalizing g k with
  | nil => exact ⟨rfl, rfl, hgk.symm⟩
  | cons a rest ih =>
    by_cases ha : keep a = true
    · have hresult : k.result? a = g.result? a := by
        rw [← h.result?_bare k ha, ← hgk, h.result?_bare g ha]
      have hchanges : (k.step a).changes = (g.step a).changes := by
        rw [← changes_bare, ← hgk, changes_bare]
      obtain ⟨hreplies, hpublished, hrun⟩ := ih (hg.after a) (bare_after_congr hgk a)
      rw [List.filter_cons_of_pos ha]
      refine ⟨?_, ?_, hrun⟩
      · rw [replies, replies, List.filter_cons, if_pos ha, hresult, hreplies]
      · rw [published, published, hchanges, hpublished]
    · -- The shorter run waits; nothing that it could see happens.
      have hidle := h.idle (Bool.eq_false_iff.mpr ha)
      obtain ⟨hreplies, hpublished, hrun⟩ :=
        ih (hg.after a) ((hg.bare_after_idle hidle).trans hgk)
      rw [List.filter_cons_of_neg ha]
      refine ⟨?_, ?_, hrun⟩
      · rw [hreplies, replies, List.filter_cons, if_neg ha]
      · rw [hpublished, published, hg.changes_idle hidle, List.nil_append]

/-- Leaving out all idle actions of a run from power-on leaves a run in which each access answers
what it answered before, which publishes the same changes of lines in the same order, and which ends
in the same state apart from the registers that are kept and not looked at. -/
theorem observing_changes_nothing (cfg : Config) (actions : List Action) :
    let rest := actions.filter fun a => ¬ Idle cfg a
    (powerOn cfg).replies rest =
        ((powerOn cfg).replies actions).filter (fun reply => ¬ Idle cfg reply.1) ∧
      (powerOn cfg).published rest = (powerOn cfg).published actions ∧
      ((powerOn cfg).run rest).bare = ((powerOn cfg).run actions).bare :=
  (thins_idle cfg).run_bare actions (reachable_run []) rfl

/-- Of what is done here, the two acts are enabling the interface and the acknowledge. -/
example :
    [Action.read .distributor (.cpu 0) 0x004 .word, .write .distributor (.cpu 0) 0x080 0xff .word,
      .write .distributor (.cpu 0) 0xc00 0 .word, .write .cpuInterface (.cpu 0) 0x08 3 .word,
      .write .cpuInterface (.cpu 0) 0x00 1 .word, .read .cpuInterface (.cpu 0) 0x0c .byte,
      .read .cpuInterface (.cpu 0) 0x0c .word, .write .vifControl (.cpu 0) 0x110 0 .word].filter
        (fun a => ¬ Idle Config.standard a) =
      [.write .cpuInterface (.cpu 0) 0x00 1 .word, .read .cpuInterface (.cpu 0) 0x0c .word] := by
  decide +kernel

end Controller

end Gic
