import Gic.Proofs.Effects

/-!
# Asserted levels are not lost

An interrupt that follows its input asks for as long as the input is high and it
was not signaled. An acknowledge signals it, so that it does not ask again while
it is handled. It has to ask again as soon as it is no longer active, and that
rests on every way out of the active state taking the signal back.

## The model

* `Muted` — an interrupt was signaled and is not active, so its level counts for
  nothing.
* `Controller.Mutes` — the active flag of a signaled interrupt is cleared by a
  write.
* `Effect.Reopens` — what takes the signal back, or makes the interrupt active
  again.

## What is proved

* `muted_run` — an interrupt is muted by a write to the clear-active registers
  only, and until something reopens it. A completion, by the CPU or by its
  guest, takes the signal back together with the active flag.
* `asserted_level_not_lost` — so an asserted interrupt that is not active asks,
  unless such a write is outstanding and the interrupt is not latched either.
* `asserted_level_lost` — and if that is so, it does not ask.
-/

namespace Gic

open Physical

/-- An interrupt was signaled to a CPU and is not active: its level counts for nothing. -/
def Muted (r : IrqState) (mask : CpuMask) : Prop :=
  r.isSignaled mask = true ∧ r.isActive mask = false

/-- An interrupt whose level is high and that is not active asks, unless it is muted and not latched
either. -/
theorem wanted_iff_of_asserted {r : IrqState} {mask : CpuMask} (ht : r.trigger = .level)
    (hl : r.isLevel mask = true) (ha : r.isActive mask = false) :
    r.wanted mask = true ↔ ¬ Muted r mask ∨ r.isPending mask = true := by
  simp only [IrqState.wanted, Muted, ht, hl, ha, decide_true, Bool.and_self, Bool.true_and,
    Bool.or_eq_true, Bool.not_eq_true', and_true, Bool.not_eq_true]
  exact or_comm

section Flags

variable {irq c : Nat}

/-- An interrupt becomes active by an acknowledge, and inactive by a completion or a write. -/
theorem isActive_apply (hc : c < maxCpus) (targets : CpuMask) (r : IrqState) (e : Effect) :
    (e.apply irq targets r).isActive (view irq c) =
      match e with
      | .acknowledge cpu => if Concerns irq cpu c then true else r.isActive (view irq c)
      | .complete cpu | .deactivate cpu =>
        if Concerns irq cpu c then false else r.isActive (view irq c)
      | .powerOn => false
      | _ => r.isActive (view irq c) := by
  cases e with
  | acknowledge cpu | complete cpu | deactivate cpu => exact meets_assign_view hc _ irq cpu _
  | enable cpu =>
    exact IrqState.enable_keeps (φ := fun r => r.isActive (view irq c)) (fun _ _ _ => rfl)
      (fun _ _ _ => rfl) r _
  | drive | overdrive =>
    exact IrqState.drive_keeps (φ := fun r => r.isActive (view irq c)) (fun _ _ _ => rfl)
      (fun _ _ _ => rfl) (fun _ _ _ => rfl) r _ _ _
  | powerOn =>
    simp only [Effect.apply]
    split <;> exact CpuMask.zero_meets _
  | _ => rfl

theorem signaled_drive (r : IrqState) (value : Bool) (mask targets : CpuMask) :
    (r.drive value mask targets).signaled = r.signaled.assign mask false := by
  unfold IrqState.drive
  dsimp only
  split <;> rfl

/-- An interrupt is signaled by an acknowledge; a completion and a change of its input take that
back. -/
theorem isSignaled_apply (hc : c < maxCpus) (targets : CpuMask) (r : IrqState) (e : Effect) :
    (e.apply irq targets r).isSignaled (view irq c) =
      match e with
      | .acknowledge cpu => if Concerns irq cpu c then true else r.isSignaled (view irq c)
      | .complete cpu | .drive cpu _ =>
        if Concerns irq cpu c then false else r.isSignaled (view irq c)
      | .overdrive _ => false
      | .powerOn => false
      | _ => r.isSignaled (view irq c) := by
  cases e with
  | acknowledge cpu | complete cpu => exact meets_assign_view hc _ irq cpu _
  | enable cpu =>
    exact IrqState.enable_keeps (φ := fun r => r.isSignaled (view irq c)) (fun _ _ _ => rfl)
      (fun _ _ _ => rfl) r _
  | drive cpu level =>
    show (r.drive level _ _).signaled.meets (view irq c) = _
    rw [signaled_drive, meets_assign_view hc]
    rfl
  | overdrive level =>
    show (r.drive level _ _).signaled.meets (view irq c) = false
    rw [signaled_drive, meets_assign_all hc]
  | powerOn =>
    simp only [Effect.apply]
    split <;> exact CpuMask.zero_meets _
  | _ => rfl

end Flags

/-- What lets a muted interrupt ask again, as the CPU `c` sees it: its input takes a level, it is
completed, it is acknowledged since it asks for another reason, or the controller is reset. -/
def Effect.Reopens (irq c : Nat) : Effect → Prop
  | .drive cpu _ | .complete cpu | .acknowledge cpu => Concerns irq cpu c
  | .overdrive _ | .powerOn => True
  | _ => False

theorem wordEffect_eq_deactivate {irq cpu c o : Nat} {v : BitVec 64} :
    wordEffect irq cpu o v = .deactivate c ↔
      o = 0x380 + 4 * (irq / 32) ∧ v.getLsbD (irq % 32) = true ∧ cpu = c := by
  unfold wordEffect
  constructor
  · intro h
    replace h := (peel h nofun).2
    rcases chosen h with ⟨hbit, h⟩ | ⟨-, h⟩
    · iterate 4 replace h := (peel h nofun).2
      rcases chosen h with ⟨ho, h⟩ | ⟨-, h⟩
      · exact ⟨ho, hbit, Effect.deactivate.inj h⟩
      · cases h
    · cases h
  · rintro ⟨rfl, hbit, rfl⟩
    rw [if_neg (by omega), if_pos hbit, if_neg (by omega), if_neg (by omega), if_neg (by omega),
      if_neg (by omega), if_pos rfl]

namespace Controller

variable {cfg : Config} {irq c : Nat}

/-- The active flag of an interrupt that was signaled is cleared by a write. -/
def Mutes (irq c : Nat) (g : Controller cfg) (a : Action) : Prop :=
  Does irq c .deactivate g a ∧ (g.physical.irqs.row irq).isSignaled (view irq c) = true

/-- An interrupt is muted after an action if and only if the action mutes it, or it was muted before
and the action does not reopen it. -/
theorem muted_step (hv : cfg.validate = .ok ()) {g : Controller cfg} (hg : Reachable g)
    (hlow : numSgis ≤ irq) (hirq : irq < cfg.numIrqs) (hc : c < maxCpus) (a : Action) :
    Muted ((g.after a).physical.irqs.row irq) (view irq c) ↔
      Mutes irq c g a ∨
        (Muted (g.physical.irqs.row irq) (view irq c) ∧ ¬ (g.effect irq a).Reopens irq c) := by
  rw [row_after hv hg hlow hirq, touched]
  unfold Muted Mutes Does
  rw [isSignaled_apply hc, isActive_apply hc]
  generalize g.effect irq a = e
  cases e with
  | deactivate cpu =>
    by_cases hcpu : Concerns irq cpu c
    · simp only [Effect.deactivate.injEq, exists_eq_left', hcpu, Effect.Reopens, if_true, true_and,
        not_false_eq_true, and_true]
      exact ⟨.inl, fun h => h.elim id And.left⟩
    · simp only [Effect.deactivate.injEq, exists_eq_left', hcpu, Effect.Reopens, if_false,
        false_and, not_false_eq_true, and_true, false_or]
  | acknowledge cpu | complete cpu | drive cpu level =>
    by_cases hcpu : Concerns irq cpu c
    · simp [hcpu, Effect.Reopens]
    · simp [hcpu, Effect.Reopens]
  | _ => simp [Effect.Reopens]

/-- An interrupt is muted if and only if it was muted and not reopened since. -/
theorem muted_run (hv : cfg.validate = .ok ()) (hlow : numSgis ≤ irq) (hirq : irq < cfg.numIrqs)
    (hc : c < maxCpus) (actions : List Action) :
    Muted (((powerOn cfg).run actions).physical.irqs.row irq) (view irq c) ↔
      Outstanding (Mutes irq c) (fun g a => (g.effect irq a).Reopens irq c) (powerOn cfg)
        actions := by
  refine iff_outstanding (P := fun g => Muted (g.physical.irqs.row irq) (view irq c)) ?_
    (fun g a hg => muted_step hv hg hlow hirq hc a) actions
  rintro ⟨hsignaled, -⟩
  rw [row_powerOn_input hv hlow hirq, touched, isSignaled_apply hc] at hsignaled
  exact Bool.noConfusion hsignaled

/-- The one access that mutes an interrupt: a word with its bit, written to the clear-active
registers. -/
theorem does_deactivate_iff {g : Controller cfg} {a : Action} :
    Does irq c .deactivate g a ↔
      ∃ i v, a = .write .distributor i (0x380 + 4 * (irq / 32)) v .word ∧
        v.getLsbD (irq % 32) = true ∧ Concerns irq (cpuOf cfg i) c := by
  constructor
  · rintro ⟨cpu, h, hcpu⟩
    rcases g.effect_cases irq a with he | ⟨_, -, -, he⟩ | ⟨i, o, v, rfl, he⟩ | ⟨_, he⟩ |
      ⟨_, _, he⟩ | ⟨_, he⟩ | he
    · cases he.symm.trans h
    · cases he.symm.trans h
    · obtain ⟨rfl, hbit, rfl⟩ := wordEffect_eq_deactivate.mp (he.symm.trans h)
      exact ⟨i, v, rfl, hbit, hcpu⟩
    · cases he.symm.trans h
    · cases he.symm.trans h
    · cases he.symm.trans h
    · cases he.symm.trans h
  · rintro ⟨i, v, rfl, hbit, hcpu⟩
    exact ⟨cpuOf cfg i, wordEffect_eq_deactivate.mpr ⟨rfl, hbit, rfl⟩, hcpu⟩

/-- An input is asserted if it was driven high, and neither driven low nor lost by a reset since. An
interrupt that follows it and is not active asks, unless it was muted by a write and not reopened
since, and is not latched either. -/
theorem asserted_level_not_lost (hv : cfg.validate = .ok ()) (actions : List Action) {irq c : Nat}
    (hlow : numSgis ≤ irq) (hirq : irq < cfg.numIrqs) (hc : c < cfg.cpus) :
    let r := ((powerOn cfg).run actions).physical.irqs.row irq
    (r.isLevel (view irq c) = true ↔
      Outstanding (Drives irq c true)
        (fun g a => Drives irq c false g a ∨ g.effect irq a = .powerOn) (powerOn cfg) actions) ∧
    (r.trigger = .level → r.isLevel (view irq c) = true → r.isActive (view irq c) = false →
      (r.wanted (view irq c) = true ↔
        ¬ Outstanding (Mutes irq c) (fun g a => (g.effect irq a).Reopens irq c) (powerOn cfg)
            actions ∨ r.isPending (view irq c) = true)) := by
  obtain ⟨-, hmax, -⟩ := Config.bounds_of_validate hv
  have hm : c < maxCpus := Nat.lt_of_lt_of_le hc hmax
  refine ⟨isLevel_run hv hlow hirq hm actions, fun ht hl ha => ?_⟩
  rw [← muted_run hv hlow hirq hm actions]
  exact wanted_iff_of_asserted ht hl ha

/-- The shared interrupt is let through to CPU 0, its input goes high, and the CPU acknowledges
it. -/
def acknowledgedHigh : List Action :=
  [.write .distributor (.cpu 0) 0x000 1 .word, .write .cpuInterface (.cpu 0) 0x00 1 .word,
    .write .cpuInterface (.cpu 0) 0x04 0xf0 .word, .write .distributor (.cpu 0) 0x104 1 .word,
    .write .distributor (.cpu 0) 0x820 1 .byte, .spi 0 true,
    .read .cpuInterface (.cpu 0) 0x0c .word]

/-- If the CPU completes the interrupt while its input is still high, it asks again. -/
theorem asserted_level_not_lost_completed :
    let actions := acknowledgedHigh ++ [.write .cpuInterface (.cpu 0) 0x10 32 .word]
    let r := ((powerOn oneShared).run actions).physical.irqs.row 32
    (oneShared.validate = .ok () ∧ r.trigger = .level ∧ r.isLevel (view 32 0) = true ∧
      r.isActive (view 32 0) = false) ∧ r.wanted (view 32 0) = true := by
  have hasserted : let actions := acknowledgedHigh ++ [.write .cpuInterface (.cpu 0) 0x10 32 .word]
      let r := ((powerOn oneShared).run actions).physical.irqs.row 32
      r.trigger = .level ∧ r.isLevel (view 32 0) = true ∧ r.isActive (view 32 0) = false := by
    decide +kernel
  obtain ⟨ht, hl, ha⟩ := hasserted
  refine ⟨⟨rfl, ht, hl, ha⟩, ((asserted_level_not_lost rfl _ (by decide) (by decide)
    (by decide)).2 ht hl ha).mpr (.inl (not_outstanding_of_forall (fun a hmem g h => ?_) _))⟩
  obtain ⟨i, v, rfl, -, -⟩ := does_deactivate_iff.mp h.1
  simp [acknowledgedHigh] at hmem

/-- If it clears the active flag by a write instead, the interrupt does not ask, although its input
is still high and it is not active. -/
theorem asserted_level_lost :
    let g := (powerOn oneShared).run
      (acknowledgedHigh ++ [.write .distributor (.cpu 0) 0x384 1 .word])
    let r := g.physical.irqs.row 32
    (oneShared.validate = .ok () ∧ Reachable g) ∧ r.trigger = .level ∧
      r.isLevel (view 32 0) = true ∧ r.isActive (view 32 0) = false ∧
      ¬ r.wanted (view 32 0) = true :=
  ⟨⟨rfl, reachable_run _⟩, by decide +kernel⟩

end Controller

end Gic
