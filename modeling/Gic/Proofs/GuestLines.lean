import Gic.Proofs.GuestIsolation
import Gic.Proofs.LineChanges

/-!
# The lines of guests that do not interfere

Each access to a virtual half publishes the lines that it changes. This module
shows that the changes that two CPUs publish are the same in every order of
their accesses, and puts together what it means that guests do not interfere.

## The model

* `published` — the changes of lines that a run publishes.

## What is proved

* `changes_after_guest` — an access to a virtual half publishes the changes from
  the lines before it to those after it.
* `line_rises` — it lowers no interrupt line: ending a physical interrupt only
  adds candidates. So of two accesses by different CPUs at most one changes a
  line, and they publish the same in either order (`changes_comm`).
* `published_interleave` — an interleaving publishes what one CPU after the other
  does, in some order.
* `guests_do_not_interfere` — every interleaving ends in the same state, the
  changes that are published differ in their order at most, and the reads of
  each CPU answer what they answer without the other one.
-/

namespace Gic

namespace VirtualCpu

/-! ### An access leaves the line to the arbitration -/

theorem line_writeVif (v : VirtualCpu) (cpu : Nat) (register : VifRegister) (value : Word) :
    (v.writeVif cpu register value).value.state.line = v.line := by
  cases register with
  | list n =>
    simp only [writeVif]
    split
    · rfl
    · split <;> rfl
  | _ => rfl

theorem changes_writeVif (v : VirtualCpu) (cpu : Nat) (register : VifRegister) (value : Word) :
    (v.writeVif cpu register value).changes = [] := by
  cases register with
  | control =>
    rw [writeVif, Traced.changes_bind, Traced.changes_reportIf]
    rfl
  | list n =>
    simp only [writeVif]
    split
    · rfl
    · split <;> rfl
  | _ => rfl

theorem line_writeGuest (v : VirtualCpu) (cpu : Nat) (register : CpuRegister) (value : Word) :
    (v.writeGuest cpu register value).value.state.line = v.line := by
  cases register with
  | activePriorities n => cases n <;> rfl
  | _ => rfl

theorem changes_writeGuest (v : VirtualCpu) (cpu : Nat) (register : CpuRegister) (value : Word) :
    (v.writeGuest cpu register value).changes = [] := by
  cases register with
  | control =>
    rw [writeGuest, Traced.changes_bind, Traced.changes_reportIf]
    rfl
  | activePriorities n => cases n <;> rfl
  | _ => rfl

theorem changes_findEvents (v : VirtualCpu) (irq : Nat) :
    (Traced.reportAll (v.findEvents irq)).changes = [] := by
  unfold findEvents
  split <;> rfl

theorem line_acknowledge (v : VirtualCpu) (cpu : Nat) :
    (v.acknowledge cpu).value.2.state.line = v.line := by
  unfold acknowledge
  dsimp only
  split
  · rfl
  · simp only [Traced.value_bind]
    split
    · rfl
    · cases v.find? v.highestPending <;> rfl

theorem changes_acknowledge (v : VirtualCpu) (cpu : Nat) : (v.acknowledge cpu).changes = [] := by
  unfold acknowledge
  dsimp only
  split
  · rfl
  · rw [Traced.changes_bind, changes_findEvents, List.nil_append]
    split
    · rfl
    · rw [Traced.changes_bind, changes_findEvents, List.nil_append]
      cases v.find? v.highestPending <;> rfl

theorem line_complete (v : VirtualCpu) (cpu irq : Nat) :
    (v.complete cpu irq).value.1.line = v.line := by
  simp only [complete, Traced.value_bind]
  cases v.find? irq <;> rfl

theorem changes_complete (v : VirtualCpu) (cpu irq : Nat) : (v.complete cpu irq).changes = [] := by
  rw [complete, Traced.changes_bind, changes_findEvents, List.nil_append]
  cases v.find? irq <;> rfl

end VirtualCpu

namespace Controller

variable {cfg : Config}

open Physical

/-! ### What an access publishes -/

theorem line_alterVirtual (g : Controller cfg) {cpu : Nat} {v : VirtualCpu}
    (hv : v.line = (g.virtuals.row cpu).line) {c : Nat} (hc : c < cfg.cpus) :
    ((g.virtuals.alter cpu fun _ => v).row c).line = (g.virtuals.row c).line := by
  rw [row_alterVirtual g cpu v hc]
  split
  · rename_i h
    rw [hv, h]
  · rfl

/-- An arbitration publishes the changes from an earlier state, if no line has changed since. -/
theorem changes_arbitrateVirtual_from {g h : Controller cfg}
    (hline : ∀ c < cfg.cpus, h.line c .virtualIrq = g.line c .virtualIrq) :
    h.arbitrateVirtual.changes = kindChanges .virtualIrq g h.arbitrateVirtual.value := by
  rw [changes_arbitrateVirtual]
  refine List.flatMap_congr fun c hc => ?_
  rw [← hline c (List.mem_range.mp hc)]
  rfl

theorem changes_putVirtual (g : Controller cfg) {cpu : Nat} {w : VirtualWritten}
    (hw : w.state.line = (g.virtuals.row cpu).line) :
    (g.putVirtual cpu w).changes = lineChanges g (g.putVirtual cpu w).value := by
  have hline := fun c hc => line_alterVirtual g hw (c := c) hc
  rw [lineChanges_of_physical (physical_putVirtual g cpu w)]
  unfold putVirtual
  dsimp only
  split
  · exact changes_arbitrateVirtual_from hline
  · exact (kindChanges_eq_nil hline).symm

theorem changes_endBacking (g : Controller cfg) (cpu irq physical : Nat) :
    (g.endBacking cpu irq physical).changes =
      kindChanges .irq g (g.endBacking cpu irq physical).value := by
  unfold endBacking
  split
  · rw [Traced.changes_bind, changes_arbitrate, Traced.changes_pure, List.append_nil]
    rfl
  · exact (kindChanges_eq_nil fun _ _ => rfl).symm

/-- A change of the physical half that is published, with an arbitration of the virtual halves after
it. -/
theorem changes_bind_arbitrateVirtual {g : Controller cfg} {x : Traced Event (Controller cfg)}
    (hx : x.changes = kindChanges .irq g x.value)
    (hline : ∀ c < cfg.cpus, x.value.line c .virtualIrq = g.line c .virtualIrq) :
    (x >>= arbitrateVirtual).changes = lineChanges g (x >>= arbitrateVirtual).value := by
  rw [Traced.changes_bind, hx, changes_arbitrateVirtual_from hline]
  rfl

theorem changes_completeVirtual (g : Controller cfg) (cpu : Nat) (value : Word) :
    (g.completeVirtual cpu value).changes = lineChanges g (g.completeVirtual cpu value).value := by
  unfold completeVirtual
  dsimp only
  split
  · exact (lineChanges_self g).symm
  · have hline := fun c hc => line_alterVirtual g
      ((g.virtuals.row cpu).line_complete cpu (value.field 0 10)) (c := c) hc
    rw [Traced.changes_bind, VirtualCpu.changes_complete, List.nil_append, Traced.value_bind]
    -- What backs the interrupt is ended first, so the interrupt lines are published first.
    cases ((g.virtuals.row cpu).complete cpu (value.field 0 10)).value.2 with
    | none =>
      exact changes_bind_arbitrateVirtual (kindChanges_eq_nil fun _ _ => rfl).symm hline
    | some physical =>
      refine changes_bind_arbitrateVirtual (changes_endBacking _ _ _ _) fun c hc => ?_
      show (((endBacking _ _ _ _).value.virtuals).row c).line = _
      rw [virtuals_endBacking]
      exact hline c hc

theorem changes_step_read (g : Controller cfg) (window : Interface) (i : Initiator) (o : Nat)
    (w : Width) : (g.step (.read window i o w)).changes = (g.read window i o w).changes := by
  rw [step, Traced.changes_bind, Traced.changes_pure, List.append_nil]

theorem changes_step_write (g : Controller cfg) (window : Interface) (i : Initiator) (o : Nat)
    (v : BitVec 64) (w : Width) :
    (g.step (.write window i o v w)).changes = (g.write window i o v w).changes := by
  rw [step, Traced.changes_bind, Traced.changes_pure, List.append_nil]

/-- A read of the virtual half publishes the lines that it changes. -/
theorem changes_readWindow (g : Controller cfg) {window : Interface} (isVirtual : window.IsVirtual)
    (cpu offset : Nat) (width : Width) :
    (g.readWindow window cpu offset width).changes =
      lineChanges g (g.readWindow window cpu offset width).value.2 := by
  rcases isVirtual with rfl | rfl
  · simp only [readWindow]
    split <;> exact (lineChanges_self g).symm
  · simp only [readWindow]
    split
    · exact (lineChanges_self g).symm
    · split
      · rw [Traced.changes_bind, VirtualCpu.changes_acknowledge, List.nil_append,
          Traced.changes_bind, changes_putVirtual g (VirtualCpu.line_acknowledge _ _),
          Traced.changes_pure, List.append_nil]
        rfl
      · exact (lineChanges_self g).symm

/-- A write to the virtual half publishes the lines that it changes. -/
theorem changes_writeWindow (g : Controller cfg) {window : Interface}
    (isVirtual : window.IsVirtual) (cpu offset : Nat) (value : Word) (width : Width) :
    (g.writeWindow window cpu offset value width).changes =
      lineChanges g (g.writeWindow window cpu offset value width).value.2 := by
  rcases isVirtual with rfl | rfl
  · simp only [writeWindow]
    split
    · exact (lineChanges_self g).symm
    · rw [Traced.changes_bind, VirtualCpu.changes_writeVif, List.nil_append,
        Traced.changes_bind, changes_putVirtual g (VirtualCpu.line_writeVif _ _ _ _),
        Traced.changes_pure, List.append_nil]
      rfl
  · simp only [writeWindow]
    split
    · exact (lineChanges_self g).symm
    · split
      · rw [Traced.changes_bind, changes_completeVirtual, Traced.changes_pure, List.append_nil]
        rfl
      · rw [Traced.changes_bind, VirtualCpu.changes_writeGuest, List.nil_append,
          Traced.changes_bind, changes_putVirtual g (VirtualCpu.line_writeGuest _ _ _ _),
          Traced.changes_pure, List.append_nil]
        rfl

/-- An access to a virtual half publishes the changes from the lines before it to those after it. -/
theorem changes_step_guest (g : Controller cfg) {cpu : Nat} {x : Action}
    (hx : GuestAccess cfg cpu x) : (g.step x).changes = lineChanges g (g.after x) := by
  cases hx with
  | @read window i o w isVirtual own =>
    rw [changes_step_read, changes_read, after_read]
    cases checkWindow cfg window o w with
    | error e => exact (lineChanges_self g).symm
    | ok => exact changes_readWindow g isVirtual _ _ _
  | @write window i o v w isVirtual own =>
    rw [changes_step_write, changes_write, after_write]
    cases checkWindow cfg window o w with
    | error e => exact (lineChanges_self g).symm
    | ok => exact changes_writeWindow g isVirtual _ _ _ _

end Controller

/-! ### No interrupt line is lowered -/

/-- Members that are taken out meet nobody who was not met before. -/
theorem CpuMask.meets_of_assign_false {mask chosen view : CpuMask}
    (h : (mask.assign chosen false).meets view = true) : mask.meets view = true := by
  simp only [meets, bne_iff_ne, ne_zero_iff, BitVec.getLsbD_and, Bool.and_eq_true,
    getLsbD_assign_false] at h ⊢
  obtain ⟨i, ⟨hmask, -⟩, hview⟩ := h
  exact ⟨i, hmask, hview⟩

namespace Physical

variable {cfg : Config}

/-- An interrupt that is ended for a CPU stays a candidate, if it is one. -/
theorem isCandidate_deactivate {p : Physical cfg} {c i : Nat} (cpu irq : Nat)
    (h : p.isCandidate c i = true) : (p.deactivate cpu irq).isCandidate c i = true := by
  simp only [isCandidate, deactivate, row_alterIrq, alterIrq_distributor] at h ⊢
  split
  · simp only [Bool.and_eq_true, Bool.not_eq_true', ← Bool.not_eq_true, IrqState.wanted,
      Bool.or_eq_true] at h ⊢
    obtain ⟨⟨⟨htargeted, henabled⟩, hasks⟩, hinactive⟩ := h
    refine ⟨⟨⟨htargeted, henabled⟩, hasks.imp_right fun hlevel => ⟨hlevel.1, fun hs => ?_⟩⟩,
      fun ha => hinactive ?_⟩
    · exact hlevel.2 (CpuMask.meets_of_assign_false hs)
    · exact CpuMask.meets_of_assign_false ha
  · exact h

/-- A line that is decided to be high is so with more candidates. -/
theorem raised_of_more {p q : Physical cfg} (hn : cfg.numIrqs ≤ maxIrqs)
    (hdistributor : q.distributor = p.distributor) (hcpus : q.cpus = p.cpus) {c : Nat}
    (hmore : ∀ i, p.isCandidate c i = true → q.isCandidate c i = true)
    (h : Arbitration.raised (p.decideFor c) = true) :
    Arbitration.raised (q.decideFor c) = true := by
  have hopen : q.isOpen c = p.isOpen c := by rw [isOpen, isOpen, hdistributor, hcpus]
  have hpriority : ∀ i, q.priority c i = p.priority c i := fun i => by
    rw [priority, priority, hdistributor]
  unfold decideFor at h ⊢
  rw [hopen, hcpus]
  split
  swap
  · rename_i hclosed
    rw [if_neg hclosed] at h
    exact h
  rename_i ho
  rw [if_pos ho] at h
  simp only [Arbitration.raised, Bool.and_eq_true, decide_eq_true_eq] at h ⊢
  obtain ⟨⟨hwinner, hmask⟩, hrunning⟩ := h
  rcases best_first p c cfg.numIrqs with hb | ⟨i, hi, hb, hcandidate, hidle, -⟩
  · exact absurd (congrArg Prod.fst hb) hwinner
  -- What wins now is at least as urgent as what has won before.
  have hle : (q.best c cfg.numIrqs).2 ≤ p.priority c i := by
    have := best_le q c hi (hmore i hcandidate)
    rw [hpriority] at this
    exact BitVec.not_lt.mp this
  rw [hb] at hmask hrunning
  rcases best_first q c cfg.numIrqs with hnone | ⟨j, hj, hwins, -⟩
  · rw [hnone] at hle
    exact absurd hidle (BitVec.not_lt.mpr hle)
  · refine ⟨⟨?_, Nat.lt_of_le_of_lt hle hmask⟩, Nat.lt_of_le_of_lt hle hrunning⟩
    rw [hwins]
    simp only [maxIrqs, spurious] at *
    omega

/-- Ending what backs a guest's interrupt lowers no line. -/
theorem line_endFor {p : Physical cfg} (hp : Settled p) (hn : cfg.numIrqs ≤ maxIrqs) (cpu : Nat)
    (ended : Option Nat) {c : Nat} (hc : c < cfg.cpus) (h : (p.cpus.row c).line = true) :
    ((p.endFor cpu ended).cpus.row c).line = true := by
  cases ended with
  | none => exact h
  | some irq =>
    rw [endFor, row_arbitrate _ hc]
    have hraised : Arbitration.raised (p.decideFor c) = true := (hp.line c hc).symm.trans h
    exact raised_of_more (p := p) (q := p.deactivate cpu irq) hn rfl rfl
      (fun i => isCandidate_deactivate cpu irq) hraised

end Physical

namespace Controller

variable {cfg : Config}

open Physical

/-! ### The order of two accesses -/

/-- No access to a virtual half lowers an interrupt line. -/
theorem line_rises (hv : cfg.validate = .ok ()) {g : Controller cfg} (hg : Reachable g)
    {cpu : Nat} {x : Action} (hx : GuestAccess cfg cpu x) {c : Nat} (hc : c < cfg.cpus)
    (h : g.line c .irq = true) : (g.after x).line c .irq = true := by
  obtain ⟨-, -, hirqs⟩ := Config.bounds_of_validate hv
  rw [line, physical_after_guest g hx]
  exact line_endFor hg.settled hirqs cpu _ hc h

variable {a b : Nat}

/-- Of two accesses by different CPUs at most one changes a line. -/
theorem line_straight (hv : cfg.validate = .ok ()) {g : Controller cfg} (hg : Reachable g)
    (hne : a ≠ b) {x y : Action} (hx : GuestAccess cfg a x) (hy : GuestAccess cfg b y) {c : Nat}
    (hc : c < cfg.cpus) (kind : LineKind) :
    (g.after x).line c kind = g.line c kind ∨
      (g.after x).line c kind = ((g.after x).after y).line c kind := by
  cases kind with
  | irq =>
    -- A line that the first access has raised stays high in the second.
    have hfirst := line_rises hv hg hx hc
    have hsecond := line_rises hv (hg.after x) hy hc
    cases hbetween : (g.after x).line c .irq with
    | true => exact .inr (hsecond hbetween).symm
    | false =>
      refine .inl (Bool.eq_false_iff.mpr fun h => ?_).symm
      cases (hfirst h).symm.trans hbetween
  | virtualIrq =>
    by_cases hca : c = a
    · have hkept := alike_of_other (hg.after x) hc (fun hcb => hne (hca.symm.trans hcb)) hy
      exact .inr (congrArg VirtualCpu.line hkept).symm
    · exact .inl (congrArg VirtualCpu.line (alike_of_other hg hc hca hx))

/-- Two accesses by different CPUs publish the same in either order. -/
theorem changes_comm (hv : cfg.validate = .ok ()) {g : Controller cfg} (hg : Reachable g)
    (hne : a ≠ b) {x y : Action} (hx : GuestAccess cfg a x) (hy : GuestAccess cfg b y) :
    ((g.step x).changes ++ ((g.after x).step y).changes).Perm
      ((g.step y).changes ++ ((g.after y).step x).changes) := by
  rw [changes_step_guest _ hx, changes_step_guest _ hy, changes_step_guest _ hy,
    changes_step_guest _ hx]
  refine (lineChanges_append fun c hc => line_straight hv hg hne hx hy hc).trans ?_
  rw [after_comm hv hg hne hx hy]
  exact (lineChanges_append fun c hc => line_straight hv hg (Ne.symm hne) hy hx hc).symm

/-! ### Runs -/

/-- The changes of lines that a run publishes, in order. -/
def published (g : Controller cfg) : List Action → List LineChange
  | [] => []
  | x :: rest => (g.step x).changes ++ (g.after x).published rest

theorem published_singleton (g : Controller cfg) (a : Action) :
    g.published [a] = (g.step a).changes :=
  List.append_nil _

theorem published_append (g : Controller cfg) (first second : List Action) :
    g.published (first ++ second) = g.published first ++ (g.run first).published second := by
  induction first generalizing g with
  | nil => rfl
  | cons a rest ih =>
    rw [List.cons_append, published, ih, published, List.append_assoc]
    rfl

/-- What an access and a run of those by another CPU publish does not depend on which is first. -/
theorem published_after_comm (hv : cfg.validate = .ok ()) (hne : a ≠ b) {y : Action}
    (hy : GuestAccess cfg b y) {xs : List Action} (hxs : ∀ x ∈ xs, GuestAccess cfg a x)
    {g : Controller cfg} (hg : Reachable g) :
    ((g.step y).changes ++ (g.after y).published xs).Perm
      (g.published xs ++ ((g.run xs).step y).changes) := by
  induction xs generalizing g with
  | nil => exact .of_eq (List.append_nil _)
  | cons x rest ih =>
    obtain ⟨hx, hrest⟩ := List.forall_mem_cons.mp hxs
    have hcomm := changes_comm hv hg (Ne.symm hne) hy hx
    -- The access is moved behind the first one of the run, and then behind the rest of it.
    have hmoved := (ih hrest (hg.after x)).append_left (g.step x).changes
    rw [published, published, after_comm hv hg (Ne.symm hne) hy hx, ← List.append_assoc]
    refine (hcomm.append_right _).trans ?_
    rw [List.append_assoc, List.append_assoc]
    exact hmoved

/-- An interleaving publishes what one CPU after the other does, in some order. -/
theorem published_interleave (hv : cfg.validate = .ok ()) (hne : a ≠ b) {xs ys zs : List Action}
    (hzs : Interleave xs ys zs) (hxs : ∀ x ∈ xs, GuestAccess cfg a x)
    (hys : ∀ y ∈ ys, GuestAccess cfg b y) {g : Controller cfg} (hg : Reachable g) :
    (g.published zs).Perm (g.published xs ++ (g.run xs).published ys) := by
  induction hzs generalizing g with
  | nil => exact .refl _
  | @left x xs ys zs _ ih =>
    have hrest := ih (List.forall_mem_cons.mp hxs).2 hys (hg.after x)
    rw [published, published, List.append_assoc]
    exact hrest.append_left _
  | @right y xs ys zs _ ih =>
    obtain ⟨hy, hysrest⟩ := List.forall_mem_cons.mp hys
    have hrest := (ih hxs hysrest (hg.after y)).append_left (g.step y).changes
    have hfirst := published_after_comm hv hne hy hxs hg
    rw [run_after_comm hv hne hy hxs hg, ← List.append_assoc] at hrest
    rw [published, published, ← List.append_assoc]
    exact hrest.trans (hfirst.append_right _)

/-- Two CPUs make accesses to their virtual halves. All interleavings of them end in the same state
and publish the same changes of lines, in some order, and the reads of each CPU answer what they
answer without the other one. -/
theorem guests_do_not_interfere (hv : cfg.validate = .ok ()) {g : Controller cfg}
    (hg : Reachable g) (ha : a < cfg.cpus) (hb : b < cfg.cpus) (hne : a ≠ b) {xs ys : List Action}
    (hxs : ∀ x ∈ xs, GuestAccess cfg a x) (hys : ∀ y ∈ ys, GuestAccess cfg b y) :
    (∀ zs zs', Interleave xs ys zs → Interleave xs ys zs' →
      g.run zs = g.run zs' ∧ (g.published zs).Perm (g.published zs')) ∧
    ∀ zs, Interleave xs ys zs → g.answers a zs = g.answers a xs ∧ g.answers b zs = g.answers b ys := by
  constructor
  · intro zs zs' hzs hzs'
    constructor
    · rw [run_interleave hv hne hzs hxs hys hg, run_interleave hv hne hzs' hxs hys hg]
    · exact (published_interleave hv hne hzs hxs hys hg).trans
        (published_interleave hv hne hzs' hxs hys hg).symm
  · intro zs hzs
    exact ⟨answers_interleave hne ha hzs hxs hys hg hg rfl,
      answers_interleave (Ne.symm hne) hb hzs.swap hys hxs hg hg rfl⟩

/-- Two CPUs have both given shared interrupt 32 to their guests as interrupt 40. Each guest has
acknowledged it, completes it and acknowledges once more. -/
theorem guests_do_not_interfere_one_backing :
    let cfg : Config := { Config.standard with cpus := 2 }
    let g := (powerOn cfg).run
      [.write .vifControl (.cpu 0) 0x000 1 .word, .write .vcpuInterface (.cpu 0) 0x04 0xf0 .word,
        .write .vifControl (.cpu 1) 0x000 1 .word, .write .vcpuInterface (.cpu 1) 0x04 0xf0 .word,
        .write .vifControl (.cpu 0) 0x100 0x90008028 .word,
        .write .vifControl (.cpu 1) 0x100 0x90008028 .word,
        .read .vcpuInterface (.cpu 0) 0x0c .word, .read .vcpuInterface (.cpu 1) 0x0c .word]
    let x : Action := .write .vcpuInterface (.cpu 0) 0x10 40 .word
    let x' : Action := .read .vcpuInterface (.cpu 0) 0x0c .word
    let y : Action := .write .vcpuInterface (.cpu 1) 0x10 40 .word
    let y' : Action := .read .vcpuInterface (.cpu 1) 0x0c .word
    cfg.validate = .ok () ∧ Reachable g ∧ EndsBacking g 0 32 x ∧ EndsBacking g 1 32 y ∧
      g.run [x, y, x', y'] = g.run [y, y', x, x'] ∧
      (g.published [x, y, x', y']).Perm (g.published [y, y', x, x']) ∧
      g.answers 0 [x, y, x', y'] = g.answers 0 [x, x'] ∧
      g.answers 1 [x, y, x', y'] = g.answers 1 [y, y'] := by
  intro cfg g x x' y y'
  have hg : Reachable g := reachable_run _
  have hx : GuestAccess cfg 0 x := .write (.inr rfl) rfl
  have hx' : GuestAccess cfg 0 x' := .read (.inr rfl) rfl
  have hy : GuestAccess cfg 1 y := .write (.inr rfl) rfl
  have hy' : GuestAccess cfg 1 y' := .read (.inr rfl) rfl
  have hxs : ∀ z ∈ [x, x'], GuestAccess cfg 0 z := by simp [hx, hx']
  have hys : ∀ z ∈ [y, y'], GuestAccess cfg 1 z := by simp [hy, hy']
  have hzs : Interleave [x, x'] [y, y'] [x, y, x', y'] := .left (.right (.left (.right .nil)))
  have hzs' : Interleave [x, x'] [y, y'] [y, y', x, x'] := .right (.right (.left (.left .nil)))
  obtain ⟨hruns, hanswers⟩ := guests_do_not_interfere (by decide) hg (by decide) (by decide)
    (by decide) hxs hys
  exact ⟨by decide, hg, (endsBacking_iff hx 32).mpr (by decide +kernel),
    (endsBacking_iff hy 32).mpr (by decide +kernel), (hruns _ _ hzs hzs').1, (hruns _ _ hzs hzs').2,
    hanswers _ hzs⟩

end Controller

end Gic
