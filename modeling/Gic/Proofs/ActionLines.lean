import Gic.Proofs.Acknowledge
import Gic.Proofs.GuestLines

/-!
# Every action publishes the lines that it changes

Lines are published by arbitrations, several of which an access can set off, and
by a reset. This module shows for every action that each line whose level it
changes is published once, with its new level, and that no other line is.

## The model

* `Physical.Publishes` — something that is done to the physical half publishes
  the lines that differ afterwards.
* `levelsOf` — the levels that changes of lines give to one line.

## What is proved

* `Physical.Publishes.arbitrate`, `Physical.Publishes.after_quiet` — a change of
  the physical half that leaves the lines to an arbitration publishes what the
  arbitration changes.
* `changes_step` — every action publishes the changes from the lines before it to
  those after it, a reset in an order of its own.
* `levelsOf_step` — so no line is published twice by an action.
-/

namespace Gic

namespace Physical

variable {cfg : Config}

/-! ### The physical half -/

/-- No line has changed. -/
def SameLines (p q : Physical cfg) : Prop :=
  ∀ c < cfg.cpus, (q.cpus.row c).line = (p.cpus.row c).line

theorem SameLines.of_cpus {p q : Physical cfg} (h : q.cpus = p.cpus) : SameLines p q :=
  fun _ _ => by rw [h]

theorem sameLines_alterCpu (p : Physical cfg) (cpu : Nat) {f : CpuInterface → CpuInterface}
    (hf : ∀ i, (f i).line = i.line) : SameLines p (p.alterCpu cpu f) :=
  fun c _ => alterCpu_keeps CpuInterface.line hf p cpu c

theorem sameLines_start (p : Physical cfg) (cpu irq : Nat) (priority : Priority) :
    SameLines p (p.start cpu irq priority) :=
  sameLines_alterCpu (p.alterIrq irq fun r => r.acknowledge cpu) cpu fun _ => rfl

/-- The lines that differ between two physical halves, with their levels in the second one. -/
def lineChanges (p q : Physical cfg) : List LineChange :=
  (List.range cfg.cpus).flatMap fun c =>
    LineChange.between .irq c (p.cpus.row c).line (q.cpus.row c).line

theorem SameLines.lineChanges {p q : Physical cfg} (h : SameLines p q) : p.lineChanges q = [] := by
  refine List.flatMap_eq_nil_iff.mpr fun c hc => ?_
  rw [h c (List.mem_range.mp hc), LineChange.between_self]

/-- What is done publishes the lines that differ afterwards. -/
def Publishes (p : Physical cfg) (x : Traced Event (Physical cfg)) : Prop :=
  x.changes = p.lineChanges x.value

/-- An arbitration publishes the changes from an earlier state, if no line has changed since. -/
theorem Publishes.arbitrate {p q : Physical cfg} (h : SameLines p q) : Publishes p q.arbitrate := by
  refine (changes_arbitrate q).trans (List.flatMap_congr fun c hc => ?_)
  rw [h c (List.mem_range.mp hc)]

/-- If no line has changed, none is to be published. -/
theorem Publishes.pure {p q : Physical cfg} (h : SameLines p q) : Publishes p (Pure.pure q) :=
  h.lineChanges.symm

/-- What publishes nothing may come before. -/
theorem Publishes.after_quiet {p : Physical cfg} {α : Type} {x : Traced Event α}
    {f : α → Traced Event (Physical cfg)} (hx : x.changes = []) (hf : Publishes p (f x.value)) :
    Publishes p (x >>= f) := by
  rw [Publishes, Traced.changes_bind, hx, List.nil_append]
  exact hf

theorem Publishes.arbitrateIf {p : Physical cfg} {w : Written cfg} (h : SameLines p w.state) :
    Publishes p (arbitrateIf w) := by
  unfold Physical.arbitrateIf
  split
  · exact .arbitrate h
  · exact .pure h

theorem cpus_writeBytes (p : Physical cfg) (cpu offset : Nat) (value : Word) :
    (p.writeBytes cpu offset value).state.cpus = p.cpus :=
  writeBytes_induct (P := fun q => q.cpus = p.cpus)
    (fun q register byte h => (cpus_writeByte q cpu register byte).trans h) rfl offset value

theorem changes_writeWord (p : Physical cfg) (cpu : Nat) (register : DistributorRegister)
    (value : Word) : (p.writeWord cpu register value).changes = [] := by
  cases register with
  | control =>
    rw [writeWord, Traced.changes_bind, Traced.changes_reportIf]
    rfl
  | trigger n =>
    have hnotes : ∀ value, (Traced.reportAll (triggerEvents cfg n value)).changes = [] := by
      intro value
      rw [Traced.changes, Traced.reportAll, triggerEvents, List.filterMap_filterMap,
        List.filterMap_eq_nil_iff]
      intro irq _
      split <;> rfl
    simp only [writeWord]
    split
    · rw [Traced.changes_bind, hnotes]
      rfl
    · rfl
  | sgi =>
    simp only [writeWord, requestSgi]
    split <;> rfl
  | _ => rfl

/-- A write to the distributor publishes the lines that it changes, and none if it is refused. -/
theorem changes_writeDistributor (p : Physical cfg) (cpu offset : Nat) (value : Word)
    (width : Width) :
    (p.writeDistributor cpu offset value width).changes =
      match (p.writeDistributor cpu offset value width).value with
      | .error _ => []
      | .ok q => p.lineChanges q := by
  have hanswer : ∀ {x : Traced Event (Written cfg)}, x.changes = [] → x.value.state.cpus = p.cpus →
      (x >>= fun w => Physical.arbitrateIf w >>= fun q =>
        Pure.pure (Except.ok q : Except BusError (Physical cfg))).changes =
          p.lineChanges (x >>= Physical.arbitrateIf).value := by
    intro x hx hcpus
    have hpublishes : Publishes p (x >>= Physical.arbitrateIf) :=
      .after_quiet hx (.arbitrateIf (.of_cpus hcpus))
    rw [← hpublishes, Traced.changes_bind, Traced.changes_bind, Traced.changes_bind,
      Traced.changes_pure, List.append_nil]
  unfold writeDistributor
  cases width with
  | word =>
    dsimp only
    split
    · cases (DistributorRegister.ofOffset offset).isByte with
      | true => exact hanswer (x := Pure.pure _) rfl (cpus_writeBytes p cpu offset value)
      | false => exact hanswer (changes_writeWord p cpu _ value) (cpus_writeWord p cpu _ value)
    · rfl
  | byte =>
    dsimp only
    split
    · exact hanswer (x := Pure.pure _) rfl (cpus_writeByte p cpu _ _)
    · rfl
  | half | double => rfl

/-- An acknowledge that is not refused publishes what the arbitration at its end does. -/
theorem changes_acknowledge_of_allowed {p : Physical cfg} {cpu : Nat} (h : ¬ Refuses p cpu) :
    (p.acknowledge cpu).changes =
      ((p.take cpu (p.cpus.row cpu).highestPending).start cpu (p.cpus.row cpu).highestPending
        (p.priority cpu (p.cpus.row cpu).highestPending)).arbitrate.changes := by
  obtain ⟨hshown, hrunning⟩ := not_or.mp h
  unfold acknowledge
  dsimp only
  rw [if_neg hshown, if_neg hrunning]
  simp only [Traced.changes_bind, Traced.changes_reportIf, Traced.changes_pure, List.append_nil,
    List.nil_append, decide_eq_true_eq]
  rfl

/-- An acknowledge publishes the lines that it changes. -/
theorem changes_acknowledge (p : Physical cfg) (cpu : Nat) :
    (p.acknowledge cpu).changes = p.lineChanges (p.acknowledge cpu).value.2 := by
  by_cases h : Refuses p cpu
  · rw [changes_of_refuses h, acknowledge_value, if_pos h]
    exact Publishes.pure (p := p) fun _ _ => rfl
  · rw [changes_acknowledge_of_allowed h, acknowledge_of_allowed h]
    refine Publishes.arbitrate fun c hc => ?_
    rw [sameLines_start _ _ _ _ c hc, cpus_take]

theorem publishes_complete (p : Physical cfg) (cpu : Nat) (value : Word) :
    Publishes p (p.complete cpu value) := by
  have hstays : SameLines p p := fun _ _ => rfl
  unfold complete
  dsimp only
  split
  · exact .after_quiet rfl (.pure hstays)
  · split
    · refine .after_quiet (Traced.changes_reportIf _ _) (.after_quiet rfl (.arbitrate ?_))
      exact sameLines_alterCpu p cpu fun _ => rfl
    · split <;> exact .after_quiet rfl (.pure hstays)

theorem publishes_writeCpuInterface (p : Physical cfg) (cpu : Nat) (register : CpuRegister)
    (value : Word) : Publishes p (p.writeCpuInterface cpu register value) := by
  have hstays : SameLines p p := fun _ _ => rfl
  have halter : ∀ {f : CpuInterface → CpuInterface}, (∀ i, (f i).line = i.line) →
      SameLines p (p.alterCpu cpu f) := sameLines_alterCpu p cpu
  cases register with
  | control => exact .after_quiet (Traced.changes_reportIf _ _) (.arbitrate (halter fun _ => rfl))
  | priorityMask => exact .arbitrate (halter fun _ => rfl)
  | binaryPoint | aliasPoint | deactivation => exact .pure (halter fun _ => rfl)
  | completion => exact publishes_complete p cpu value
  | activePriorities n =>
    cases n with
    | zero => exact .pure (halter fun _ => rfl)
    | succ n => exact .after_quiet rfl (.pure hstays)
  | acknowledge | runningPriority | highestPending | identification | component | reserved =>
    exact .after_quiet rfl (.pure hstays)

end Physical

namespace Controller

variable {cfg : Config}

open Physical

/-! ### The whole controller -/

/-- Only interrupt lines differ from those of a controller with another physical half. -/
theorem lineChanges_with (g : Controller cfg) (p : Physical cfg) :
    lineChanges g { g with physical := p } = g.physical.lineChanges p := by
  have hvirtual : kindChanges .virtualIrq g { g with physical := p } = [] :=
    kindChanges_eq_nil fun _ _ => rfl
  rw [lineChanges, hvirtual, List.append_nil]
  rfl

/-- What is done to the physical half publishes the lines that it changes. -/
theorem changes_physical (g : Controller cfg) {x : Traced Event (Physical cfg)}
    (hx : Publishes g.physical x) :
    (x >>= fun physical => pure { g with physical }).changes =
      lineChanges g { g with physical := x.value } := by
  rw [Traced.changes_bind, hx, Traced.changes_pure, List.append_nil, lineChanges_with]

/-- A read in a window publishes the lines that it changes. -/
theorem changes_readWindow_all (g : Controller cfg) (window : Interface) (cpu offset : Nat)
    (width : Width) :
    (g.readWindow window cpu offset width).changes =
      lineChanges g (g.readWindow window cpu offset width).value.2 := by
  cases window with
  | distributor => exact (lineChanges_self g).symm
  | cpuInterface =>
    simp only [readWindow]
    split
    · exact (lineChanges_self g).symm
    · rw [Traced.changes_bind, Traced.changes_pure, List.append_nil, readCpuInterface]
      split
      · rw [Physical.changes_acknowledge]
        exact (lineChanges_with g (g.physical.acknowledge cpu).value.2).symm
      · exact (lineChanges_self g).symm
  | vifControl => exact changes_readWindow g (.inl rfl) cpu offset width
  | vcpuInterface => exact changes_readWindow g (.inr rfl) cpu offset width

/-- A write in a window publishes the lines that it changes. -/
theorem changes_writeWindow_all (g : Controller cfg) (window : Interface) (cpu offset : Nat)
    (value : Word) (width : Width) :
    (g.writeWindow window cpu offset value width).changes =
      lineChanges g (g.writeWindow window cpu offset value width).value.2 := by
  cases window with
  | distributor =>
    rw [writeWindow, Traced.changes_bind, Traced.value_bind, changes_writeDistributor]
    cases (g.physical.writeDistributor cpu offset value width).value with
    | error e => exact (lineChanges_self g).symm
    | ok q => exact (List.append_nil _).trans (lineChanges_with g q).symm
  | cpuInterface =>
    simp only [writeWindow]
    split
    · exact (lineChanges_self g).symm
    · rw [Traced.changes_bind, publishes_writeCpuInterface, Traced.changes_pure, List.append_nil]
      exact (lineChanges_with g _).symm
  | vifControl => exact changes_writeWindow g (.inl rfl) cpu offset value width
  | vcpuInterface => exact changes_writeWindow g (.inr rfl) cpu offset value width

theorem changes_driveInput (g : Controller cfg) (irq : Nat) (level : Bool)
    (mask targets : CpuMask) :
    (g.driveInput irq level mask targets).changes =
      lineChanges g (g.driveInput irq level mask targets).value := by
  have hpublishes : Publishes g.physical
      (g.physical.alterIrq irq fun r => r.drive level mask targets).arbitrate :=
    .arbitrate (.of_cpus rfl)
  exact changes_physical g hpublishes

theorem changes_drivePpi (g : Controller cfg) (cpu index : Nat) (level : Bool) :
    (g.drivePpi cpu index level).changes = lineChanges g (g.drivePpi cpu index level).value := by
  unfold drivePpi
  split
  · exact changes_driveInput g _ _ _ _
  · exact (lineChanges_self g).symm

theorem changes_driveSpi (g : Controller cfg) (index : Nat) (level : Bool) :
    (g.driveSpi index level).changes = lineChanges g (g.driveSpi index level).value := by
  unfold driveSpi
  split
  · exact changes_driveInput g _ _ _ _
  · exact (lineChanges_self g).symm

theorem changes_handle (g : Controller cfg) (request : Request) :
    (g.handle request).changes = lineChanges g (g.handle request).value := by
  unfold handle
  split
  · exact (lineChanges_self g).symm
  · split
    · rw [Traced.changes_bind, Traced.changes_reportIf, List.nil_append]
      exact changes_drivePpi g _ _ _
    · exact changes_driveSpi g _ _

theorem line_powerOn (c : Nat) (kind : LineKind) : (powerOn cfg).line c kind = false := by
  cases kind with
  | irq =>
    show ((Table.replicate cfg.cpus CpuInterface.powerOn).row c).line = false
    rw [Table.row_replicate]
    split <;> rfl
  | virtualIrq =>
    show ((Table.replicate cfg.cpus VirtualCpu.powerOn).row c).line = false
    rw [Table.row_replicate]
    split <;> rfl

/-- A reset lowers the lines that are high, CPU by CPU. -/
theorem changes_reset (g : Controller cfg) :
    g.reset.changes.Perm (lineChanges g g.reset.value) := by
  have hcpu : ∀ c, (g.resetEvents c).filterMap Event.change? =
      LineChange.between .irq c (g.line c .irq) false ++
        LineChange.between .virtualIrq c (g.line c .virtualIrq) false := by
    intro c
    unfold resetEvents
    cases hirq : g.line c .irq <;> cases hvirtual : g.line c .virtualIrq <;>
      simp [hirq, hvirtual, LineChange.between, Event.change?]
  have hlines : lineChanges g (powerOn cfg) =
      ((List.range cfg.cpus).flatMap fun c => LineChange.between .irq c (g.line c .irq) false) ++
        (List.range cfg.cpus).flatMap fun c =>
          LineChange.between .virtualIrq c (g.line c .virtualIrq) false := by
    simp only [lineChanges, kindChanges, line_powerOn]
  rw [reset_eq, Traced.changes, hlines, List.filterMap_flatMap]
  refine (List.Perm.of_eq (List.flatMap_congr fun c _ => hcpu c)).trans ?_
  exact (List.flatMap_append_perm _ _ _).symm

/-- Every action but a reset publishes the changes from the lines before it to those after it. -/
theorem changes_step_of_ne_reset (g : Controller cfg) {a : Action} (h : a ≠ .reset) :
    (g.step a).changes = lineChanges g (g.after a) := by
  cases a with
  | read window i offset width =>
    rw [changes_step_read, changes_read, after_read]
    cases checkWindow cfg window offset width with
    | error e => exact (lineChanges_self g).symm
    | ok => exact changes_readWindow_all g _ _ _ _
  | write window i offset value width =>
    rw [changes_step_write, changes_write, after_write]
    cases checkWindow cfg window offset width with
    | error e => exact (lineChanges_self g).symm
    | ok => exact changes_writeWindow_all g _ _ _ _ _
  | ppi cpu index level => exact changes_drivePpi g cpu index level
  | spi index level => exact changes_driveSpi g index level
  | request request => exact changes_handle g request
  | update domain =>
    cases domain with
    | physical => exact changes_physical g (.arbitrate fun _ _ => rfl)
    | virtual =>
      have hchanges := changes_arbitrateVirtual_from (g := g) (h := g) fun _ _ => rfl
      have hlines := lineChanges_of_physical (g := g) (h := g.arbitrateVirtual.value) rfl
      exact hchanges.trans hlines.symm
  | reset => exact absurd rfl h

/-- Every action publishes the changes from the lines before it to those after it. Those of a reset
come in an order of their own. -/
theorem changes_step (g : Controller cfg) (a : Action) :
    (g.step a).changes.Perm (lineChanges g (g.after a)) := by
  by_cases h : a = .reset
  · rw [h]
    exact changes_reset g
  · exact .of_eq (changes_step_of_ne_reset g h)

end Controller

/-! ### One line -/

/-- The levels that changes of lines give to one line, in order. -/
def levelsOf (cpu : Nat) (kind : LineKind) (changes : List LineChange) : List Bool :=
  changes.filterMap fun change =>
    if change.cpu = cpu ∧ change.kind = kind then some change.level else none

theorem levelsOf_append (cpu : Nat) (kind : LineKind) (first second : List LineChange) :
    levelsOf cpu kind (first ++ second) = levelsOf cpu kind first ++ levelsOf cpu kind second :=
  List.filterMap_append

/-- What one number contributes to a range, if the others contribute nothing. -/
theorem flatMap_range_single {α : Type} {f : Nat → List α} {i : Nat}
    (h : ∀ c, c ≠ i → f c = []) {n : Nat} :
    (List.range n).flatMap f = if i < n then f i else [] := by
  induction n with
  | zero => rfl
  | succ n ih =>
    rw [List.range_succ, List.flatMap_append, ih, List.flatMap_singleton]
    rcases Nat.lt_trichotomy i n with hlt | rfl | hgt
    · rw [if_pos hlt, if_pos (Nat.lt_succ_of_lt hlt), h n (Nat.ne_of_gt hlt), List.append_nil]
    · rw [if_neg (Nat.lt_irrefl i), if_pos (Nat.lt_succ_self i), List.nil_append]
    · rw [if_neg (Nat.lt_asymm hgt), if_neg (by omega), h n (Nat.ne_of_lt hgt), List.append_nil]

theorem levelsOf_between (cpu : Nat) (kind other : LineKind) (c : Nat) (before after : Bool) :
    levelsOf cpu kind (LineChange.between other c before after) =
      if c = cpu ∧ other = kind ∧ after ≠ before then [after] else [] := by
  unfold LineChange.between
  by_cases hlevel : after = before
  · rw [if_pos hlevel, if_neg fun h => h.2.2 hlevel]
    rfl
  · rw [if_neg hlevel]
    by_cases hline : c = cpu ∧ other = kind
    · rw [if_pos ⟨hline.1, hline.2, hlevel⟩]
      simp [levelsOf, hline]
    · rw [if_neg fun h => hline ⟨h.1, h.2.1⟩]
      simp [levelsOf, hline]

namespace Controller

variable {cfg : Config}

theorem line_of_le (g : Controller cfg) {cpu : Nat} (h : cfg.cpus ≤ cpu) (kind : LineKind) :
    g.line cpu kind = false := by
  cases kind with
  | irq => exact congrArg CpuInterface.line (Table.row_of_le g.physical.cpus h)
  | virtualIrq => exact congrArg VirtualCpu.line (Table.row_of_le g.virtuals h)

theorem levelsOf_kindChanges (cpu : Nat) (kind other : LineKind) (g h : Controller cfg) :
    levelsOf cpu kind (kindChanges other g h) =
      if other = kind ∧ h.line cpu kind ≠ g.line cpu kind then [h.line cpu kind] else [] := by
  have hothers : ∀ c, c ≠ cpu → levelsOf cpu kind
      (LineChange.between other c (g.line c other) (h.line c other)) = [] := fun c hne => by
    rw [levelsOf_between, if_neg fun hc => hne hc.1]
  rw [levelsOf, kindChanges, List.filterMap_flatMap]
  refine (flatMap_range_single hothers).trans ?_
  by_cases hcpu : cpu < cfg.cpus
  · rw [if_pos hcpu, levelsOf_between]
    by_cases hkind : other = kind
    · subst hkind
      simp only [true_and]
    · rw [if_neg fun hc => hkind hc.2.1, if_neg fun hc => hkind hc.1]
  · have hle := Nat.le_of_not_lt hcpu
    rw [if_neg hcpu, line_of_le g hle, line_of_le h hle]
    simp

/-- The levels that a line is given on the way from one controller to another: its level in the
second one, if that is another one. -/
theorem levelsOf_lineChanges (cpu : Nat) (kind : LineKind) (g h : Controller cfg) :
    levelsOf cpu kind (lineChanges g h) =
      if h.line cpu kind = g.line cpu kind then [] else [h.line cpu kind] := by
  rw [lineChanges, levelsOf_append, levelsOf_kindChanges, levelsOf_kindChanges]
  by_cases hsame : h.line cpu kind = g.line cpu kind <;> cases kind <;> simp [hsame]

/-- An action publishes a line once if its level changes, and not at all otherwise. -/
theorem levelsOf_step (g : Controller cfg) (a : Action) (cpu : Nat) (kind : LineKind) :
    levelsOf cpu kind (g.step a).changes =
      if (g.after a).line cpu kind = g.line cpu kind then [] else [(g.after a).line cpu kind] := by
  have hperm := (changes_step g a).filterMap fun change =>
    if change.cpu = cpu ∧ change.kind = kind then some change.level else none
  have hlines := levelsOf_lineChanges cpu kind g (g.after a)
  change (levelsOf cpu kind _).Perm (levelsOf cpu kind _) at hperm
  rw [hlines] at hperm
  -- With one level at most there is one order only.
  split at hperm
  · rename_i hsame
    rw [if_pos hsame]
    exact hperm.eq_nil
  · rename_i hchanged
    rw [if_neg hchanged]
    exact hperm.eq_singleton

end Controller

end Gic
