import Gic.Proofs.GuestArbitration
import Gic.Proofs.GuestReach

/-!
# Guests do not interfere

Each access to the virtual half of one CPU lets all of them decide anew, and two
guests can be backed by one physical interrupt and end it both. This module
shows that the order in which two CPUs make their accesses does not matter all
the same, and that none of them can tell what the other one does.

## The model

* `Interleave xs ys zs` — `zs` is made of `xs` and `ys`, each in its order.
* `Alike` — two controllers have the same virtual half of a CPU.
* `answers` — what the reads of a CPU answer in a run.

## What is proved

* `alike_after`, `alike_of_other` — what an access leaves of the virtual half of
  its CPU depends on that half only, and an access by another CPU keeps it.
* `endFor_comm` — two CPUs may end what backs their interrupts in any order.
* `after_comm` — so two accesses by different CPUs commute, and every
  interleaving of two runs of such accesses ends like one after the other
  (`run_interleave`).
* `answers_interleave` — the reads of a CPU answer what they answer without the
  other one.
-/

namespace Gic

/-! ### Interleavings -/

/-- The list `zs` is made of `xs` and `ys`, each in its order. -/
inductive Interleave {α : Type} : List α → List α → List α → Prop where
  /-- Of nothing and nothing. -/
  | nil : Interleave [] [] []
  /-- The first one is of the left list. -/
  | left {x : α} {xs ys zs : List α} : Interleave xs ys zs → Interleave (x :: xs) ys (x :: zs)
  /-- The first one is of the right list. -/
  | right {y : α} {xs ys zs : List α} : Interleave xs ys zs → Interleave xs (y :: ys) (y :: zs)

theorem Interleave.swap {α : Type} {xs ys zs : List α} (h : Interleave xs ys zs) :
    Interleave ys xs zs := by
  induction h with
  | nil => exact .nil
  | left _ ih => exact .right ih
  | right _ ih => exact .left ih

/-- Changes of two rows, or of one row by functions that commute, commute. -/
theorem Table.alter_comm {n : Nat} {α : Type} [Inhabited α] (t : Table n α) {i j : Nat}
    {f g : α → α} (h : ∀ a, g (f a) = f (g a)) :
    (t.alter i f).alter j g = (t.alter j g).alter i f := by
  apply ext_row
  intro k hk
  simp only [row_alter, hk, and_true]
  by_cases hi : i = k <;> by_cases hj : j = k <;> simp only [hi, hj, if_true, if_false, h]

/-- Members are taken out in any order. -/
theorem CpuMask.assign_false_comm (mask a b : CpuMask) :
    (mask.assign a false).assign b false = (mask.assign b false).assign a false := by
  simp only [assign, Bool.false_eq_true, if_false]
  rw [BitVec.and_assoc, BitVec.and_comm (~~~a), ← BitVec.and_assoc]

/-- An interrupt is completed by two CPUs in any order. -/
theorem IrqState.complete_comm (r : IrqState) (a b : Nat) :
    (r.complete a).complete b = (r.complete b).complete a := by
  obtain ⟨enabled, pending, active, level, signaled, routing, trigger⟩ := r
  simp only [complete, setActive, setSignaled, scope]
  rw [CpuMask.assign_false_comm active, CpuMask.assign_false_comm signaled]

namespace Physical

variable {cfg : Config}

/-! ### What backs two guests is ended in any order -/

/-- What arbitration leaves behind does not depend on what it has decided before. -/
theorem arbitrate_congr {p q : Physical cfg} (hirqs : q.irqs = p.irqs)
    (hdistributor : q.distributor = p.distributor)
    (hcpus : ∀ c, (q.cpus.row c).undecided = (p.cpus.row c).undecided) :
    q.arbitrate.value = p.arbitrate.value := by
  have hkept : ∀ {β : Type} (φ : CpuInterface → β), (∀ i, φ i.undecided = φ i) →
      ∀ c, φ (q.cpus.row c) = φ (p.cpus.row c) := by
    intro β φ hφ c
    rw [← hφ, hcpus, hφ]
  have hinputs : SameInputs p q :=
    { irqs := hirqs
      enables := by rw [hdistributor]
      targets := fun _ => by rw [hdistributor]
      priority := fun _ _ => by rw [priority, priority, hdistributor]
      cpuEnables := hkept CpuInterface.enables fun _ => rfl
      mask := hkept CpuInterface.priorityMask fun _ => rfl
      running := hkept CpuInterface.running fun _ => rfl }
  have hrows : q.arbitrate.value.cpus = p.arbitrate.value.cpus := by
    apply Table.ext_row
    intro c hc
    rw [row_arbitrate q hc, row_arbitrate p hc, hinputs.decideFor_eq]
    exact hkept (fun i => settle i (p.decideFor c)) (fun _ => rfl) c
  calc q.arbitrate.value
      = ⟨q.irqs, q.distributor, q.arbitrate.value.cpus⟩ := rfl
    _ = ⟨p.irqs, p.distributor, p.arbitrate.value.cpus⟩ := by rw [hirqs, hdistributor, hrows]
    _ = p.arbitrate.value := rfl

theorem deactivate_comm (p : Physical cfg) (a i b j : Nat) :
    (p.deactivate a i).deactivate b j = (p.deactivate b j).deactivate a i := by
  simp only [deactivate, alterIrq]
  rw [Table.alter_comm]
  exact fun r => r.complete_comm a b

/-- Deciding anew before another interrupt is ended has no effect. -/
theorem endFor_arbitrate (p : Physical cfg) (cpu irq : Nat) :
    p.arbitrate.value.endFor cpu (some irq) = p.endFor cpu (some irq) :=
  arbitrate_congr rfl rfl fun c => undecided_arbitrate p c

/-- Two CPUs may end what backs their interrupts in any order. -/
theorem endFor_comm (p : Physical cfg) (a b : Nat) (x y : Option Nat) :
    (p.endFor a x).endFor b y = (p.endFor b y).endFor a x := by
  cases x with
  | none => rfl
  | some i =>
    cases y with
    | none => rfl
    | some j =>
      calc (p.endFor a (some i)).endFor b (some j)
          = (p.deactivate a i).endFor b (some j) := endFor_arbitrate _ b j
        _ = (p.deactivate b j).endFor a (some i) := by
          rw [endFor, deactivate_comm]
          rfl
        _ = (p.endFor b (some j)).endFor a (some i) := (endFor_arbitrate _ a i).symm

end Physical

namespace Controller

variable {cfg : Config}

open Physical

/-! ### A CPU sees its own half -/

/-- Two controllers have the same virtual half of a CPU. -/
def Alike (cpu : Nat) (g h : Controller cfg) : Prop := h.virtuals.row cpu = g.virtuals.row cpu

/-- What a CPU puts back is what it finds then. -/
theorem alike_putVirtual {cpu : Nat} (hc : cpu < cfg.cpus) (g h : Controller cfg)
    (w : VirtualWritten) : Alike cpu (g.putVirtual cpu w).value (h.putVirtual cpu w).value := by
  rw [Alike, row_putVirtual g cpu w hc, row_putVirtual h cpu w hc, if_pos rfl, if_pos rfl]

theorem alike_completeVirtual {cpu : Nat} (hc : cpu < cfg.cpus) {g h : Controller cfg}
    (hgh : Alike cpu g h) (value : Word) :
    Alike cpu (g.completeVirtual cpu value).value (h.completeVirtual cpu value).value := by
  by_cases valid : value.field 0 10 < maxIrqs
  · rw [Alike, row_completeVirtual g cpu value valid hc, row_completeVirtual h cpu value valid hc,
      if_pos rfl, if_pos rfl, hgh]
  · have invalid := Nat.not_lt.mp valid
    rw [Alike, virtuals_completeVirtual_of_le g cpu value invalid,
      virtuals_completeVirtual_of_le h cpu value invalid, hgh]

/-- What a read of the virtual half answers and leaves depends on the half of its CPU. -/
theorem alike_readWindow {cpu : Nat} (hc : cpu < cfg.cpus) {g h : Controller cfg}
    (hgh : Alike cpu g h) {window : Interface} (isVirtual : window.IsVirtual) (offset : Nat)
    (width : Width) :
    (h.readWindow window cpu offset width).value.1 =
        (g.readWindow window cpu offset width).value.1 ∧
      Alike cpu (g.readWindow window cpu offset width).value.2
        (h.readWindow window cpu offset width).value.2 := by
  rcases isVirtual with rfl | rfl
  · simp only [readWindow]
    rw [hgh]
    split <;> exact ⟨rfl, hgh⟩
  · simp only [readWindow]
    rw [hgh]
    split
    · exact ⟨rfl, hgh⟩
    · split
      · exact ⟨rfl, alike_putVirtual hc g h _⟩
      · exact ⟨rfl, hgh⟩

/-- What a write to the virtual half leaves depends on the half of its CPU. -/
theorem alike_writeWindow {cpu : Nat} (hc : cpu < cfg.cpus) {g h : Controller cfg}
    (hgh : Alike cpu g h) {window : Interface} (isVirtual : window.IsVirtual) (offset : Nat)
    (value : Word) (width : Width) :
    Alike cpu (g.writeWindow window cpu offset value width).value.2
      (h.writeWindow window cpu offset value width).value.2 := by
  rcases isVirtual with rfl | rfl
  · simp only [writeWindow]
    rw [hgh]
    split
    · exact hgh
    · exact alike_putVirtual hc g h _
  · simp only [writeWindow]
    rw [hgh]
    split
    · exact hgh
    · split
      · exact alike_completeVirtual hc hgh value
      · exact alike_putVirtual hc g h _

/-- What an access leaves of the virtual half of its CPU depends on that half only. -/
theorem alike_after {cpu : Nat} (hc : cpu < cfg.cpus) {g h : Controller cfg}
    (hgh : Alike cpu g h) {a : Action} (ha : GuestAccess cfg cpu a) :
    Alike cpu (g.after a) (h.after a) := by
  cases ha with
  | read isVirtual own =>
    subst own
    rw [after_read, after_read]
    split
    · exact hgh
    · exact (alike_readWindow hc hgh isVirtual _ _).2
  | write isVirtual own =>
    subst own
    rw [after_write, after_write]
    split
    · exact hgh
    · exact alike_writeWindow hc hgh isVirtual _ _ _

/-- So does which physical interrupt it ends. -/
theorem ended?_alike {cpu : Nat} {g h : Controller cfg} (hgh : Alike cpu g h) {a : Action}
    (ha : GuestAccess cfg cpu a) : h.ended? a = g.ended? a := by
  cases ha with
  | read => rfl
  | write _ own =>
    subst own
    simp only [ended?, backing?]
    rw [hgh]

/-- Nothing but a reset and the accesses of a CPU changes its virtual half. -/
theorem alike_of_not_access {g : Controller cfg} (hg : Reachable g) {c : Nat} (hc : c < cfg.cpus)
    {x : Action} (hx : ¬ GuestAccess cfg c x) (hreset : x ≠ .reset) : Alike c g (g.after x) := by
  have hmoves := guestMoves_after g hc x
  unfold Alike
  generalize (g.after x).virtuals.row c = v at hmoves
  cases hmoves with
  | stays => rfl
  | decides => exact (hg.guestSettled hc).decided_eq
  | hypervisorWrites own => exact absurd (.write (.inl rfl) own) hx
  | acknowledges own => exact absurd (.read (.inr rfl) own) hx
  | guestWrites own | completes own => exact absurd (.write (.inr rfl) own) hx
  | powersOn => exact absurd rfl hreset

/-- An access to one virtual half keeps those of the other CPUs. -/
theorem alike_of_other {g : Controller cfg} (hg : Reachable g) {cpu c : Nat} (hc : c < cfg.cpus)
    (hne : c ≠ cpu) {x : Action} (hx : GuestAccess cfg cpu x) : Alike c g (g.after x) := by
  refine alike_of_not_access hg hc (fun own => hne (own.cpuAccess.unique hx.cpuAccess)) ?_
  rintro rfl
  cases hx

/-! ### Accesses of two CPUs commute -/

variable {a b : Nat}

theorem connected_of_access (hv : cfg.validate = .ok ()) {cpu : Nat} {x : Action}
    (hx : GuestAccess cfg cpu x) : cpu < cfg.cpus := by
  obtain ⟨hpos, -, -⟩ := Config.bounds_of_validate hv
  cases hx with
  | read _ own | write _ own => exact own ▸ cpuOf_lt hpos _

/-- Two accesses by different CPUs leave the same behind in either order. -/
theorem after_comm (hv : cfg.validate = .ok ()) {g : Controller cfg} (hg : Reachable g)
    (hne : a ≠ b) {x y : Action} (hx : GuestAccess cfg a x) (hy : GuestAccess cfg b y) :
    (g.after x).after y = (g.after y).after x := by
  have ha := connected_of_access hv hx
  have hb := connected_of_access hv hy
  -- Each CPU finds its own half as if the other one had done nothing.
  have hxa : Alike a g (g.after y) := alike_of_other hg ha hne hy
  have hyb : Alike b g (g.after x) := alike_of_other hg hb (Ne.symm hne) hx
  have hphysical : ((g.after x).after y).physical = ((g.after y).after x).physical := by
    rw [physical_after_guest _ hy, physical_after_guest _ hx, physical_after_guest _ hx,
      physical_after_guest _ hy, ended?_alike hyb hy, ended?_alike hxa hx]
    exact endFor_comm _ _ _ _ _
  have hvirtuals : ((g.after x).after y).virtuals = ((g.after y).after x).virtuals := by
    apply Table.ext_row
    intro c hc
    by_cases hca : c = a
    · subst hca
      exact (alike_of_other (hg.after x) hc hne hy).trans (alike_after hc hxa hx).symm
    · by_cases hcb : c = b
      · subst hcb
        exact (alike_after hc hyb hy).trans (alike_of_other (hg.after y) hc hca hx).symm
      · calc ((g.after x).after y).virtuals.row c
            = g.virtuals.row c :=
              (alike_of_other (hg.after x) hc hcb hy).trans (alike_of_other hg hc hca hx)
          _ = ((g.after y).after x).virtuals.row c :=
              ((alike_of_other (hg.after y) hc hca hx).trans (alike_of_other hg hc hcb hy)).symm
  calc (g.after x).after y
      = ⟨((g.after x).after y).physical, ((g.after x).after y).virtuals⟩ := rfl
    _ = (g.after y).after x := by rw [hphysical, hvirtuals]

/-- One access commutes with a run of those by another CPU. -/
theorem run_after_comm (hv : cfg.validate = .ok ()) (hne : a ≠ b) {y : Action}
    (hy : GuestAccess cfg b y) {xs : List Action} (hxs : ∀ x ∈ xs, GuestAccess cfg a x)
    {g : Controller cfg} (hg : Reachable g) : (g.after y).run xs = (g.run xs).after y := by
  induction xs generalizing g with
  | nil => rfl
  | cons x rest ih =>
    obtain ⟨hx, hrest⟩ := List.forall_mem_cons.mp hxs
    calc ((g.after y).after x).run rest
        = ((g.after x).after y).run rest := by rw [after_comm hv hg hne hx hy]
      _ = ((g.after x).run rest).after y := ih hrest (hg.after x)

/-- Every interleaving of accesses by two CPUs ends like those of one after those of the other. -/
theorem run_interleave (hv : cfg.validate = .ok ()) (hne : a ≠ b) {xs ys zs : List Action}
    (hzs : Interleave xs ys zs) (hxs : ∀ x ∈ xs, GuestAccess cfg a x)
    (hys : ∀ y ∈ ys, GuestAccess cfg b y) {g : Controller cfg} (hg : Reachable g) :
    g.run zs = (g.run xs).run ys := by
  induction hzs generalizing g with
  | nil => rfl
  | left _ ih => exact ih (List.forall_mem_cons.mp hxs).2 hys (hg.after _)
  | @right y xs ys zs _ ih =>
    obtain ⟨hy, hrest⟩ := List.forall_mem_cons.mp hys
    -- The access comes first here, and after all of the other CPU's there.
    calc (g.after y).run zs
        = ((g.after y).run xs).run ys := ih hxs hrest (hg.after y)
      _ = ((g.run xs).after y).run ys := by rw [run_after_comm hv hne hy hxs hg]

/-! ### What the reads answer -/

/-- What an action answers, if it is a read by a CPU. -/
def answer? (g : Controller cfg) (cpu : Nat) : Action → Option (Except BusError Word)
  | .read window i o w => if cpuOf cfg i = cpu then some (g.read window i o w).value.1 else none
  | _ => none

/-- What the reads by a CPU answer in a run, in order. -/
def answers (g : Controller cfg) (cpu : Nat) : List Action → List (Except BusError Word)
  | [] => []
  | a :: rest => (g.answer? cpu a).toList ++ (g.after a).answers cpu rest

theorem value_read (g : Controller cfg) (window : Interface) (i : Initiator) (o : Nat)
    (w : Width) :
    (g.read window i o w).value.1 =
      match checkWindow cfg window o w with
      | .error e => .error e
      | .ok () => (g.readWindow window (cpuOf cfg i) o w).value.1 := by
  unfold read
  cases checkWindow cfg window o w <;> rfl

/-- What a read of the virtual half answers depends on the half of its CPU only. -/
theorem answer?_alike {cpu : Nat} (hc : cpu < cfg.cpus) {g h : Controller cfg}
    (hgh : Alike cpu g h) {x : Action} (hx : GuestAccess cfg cpu x) :
    h.answer? cpu x = g.answer? cpu x := by
  cases hx with
  | write => rfl
  | read isVirtual own =>
    subst own
    rw [answer?, answer?, if_pos rfl, if_pos rfl, value_read, value_read]
    split
    · rfl
    · rw [(alike_readWindow hc hgh isVirtual _ _).1]

theorem answer?_other (g : Controller cfg) (hne : a ≠ b) {y : Action}
    (hy : GuestAccess cfg b y) : g.answer? a y = none := by
  cases hy with
  | write => rfl
  | read _ own => exact if_neg fun h => hne (h.symm.trans own)

/-- The reads of a CPU answer in an interleaving what they answer without the other CPU, in every
state that is alike for it. -/
theorem answers_interleave (hne : a ≠ b) (ha : a < cfg.cpus)
    {xs ys zs : List Action} (hzs : Interleave xs ys zs) (hxs : ∀ x ∈ xs, GuestAccess cfg a x)
    (hys : ∀ y ∈ ys, GuestAccess cfg b y) {g h : Controller cfg} (hg : Reachable g)
    (hh : Reachable h) (hgh : Alike a g h) : h.answers a zs = g.answers a xs := by
  -- The two states differ by what the other CPU has done in one of them.
  induction hzs generalizing g h with
  | nil => rfl
  | @left x xs ys zs _ ih =>
    obtain ⟨hx, hrest⟩ := List.forall_mem_cons.mp hxs
    rw [answers, answers, answer?_alike ha hgh hx,
      ih hrest hys (hg.after x) (hh.after x) (alike_after ha hgh hx)]
  | @right y xs ys zs _ ih =>
    obtain ⟨hy, hrest⟩ := List.forall_mem_cons.mp hys
    have hkept : Alike a g (h.after y) := (alike_of_other hh ha hne hy).trans hgh
    rw [answers, answer?_other h hne hy, ih hxs hrest hg (hh.after y) hkept]
    rfl

end Controller

end Gic
