import Gic.Proofs.LineChanges
import Gic.Proofs.Ownership
import Gic.Proofs.SgiDelivery

/-!
# What an acknowledge does

A CPU learns of an interrupt in three ways: its line is raised, the highest
pending register names the interrupt, and the acknowledge register names it and
starts it. The first two go back to the last arbitration; an acknowledge takes
the interrupt that was chosen then and looks up its priority and, for an SGI,
its source again. This module shows that the three agree in every reachable
state, and says everything that an acknowledge changes.

## The model

* `Starts p q cpu irq source` — the physical half goes from `p` to `q` as a CPU
  starts an interrupt, said for each part of it.

## What is proved

* `refuses_iff_line_low` — an acknowledge is refused if and only if the line of
  the CPU is low.
* `starts_take` — an acknowledge that is not refused starts the interrupt that
  the CPU is shown.
* `line_tells_acknowledge` — so the line tells whether an acknowledge succeeds,
  and the value that it answers with is the one that could be read before.
-/

namespace Gic

namespace Physical

variable {cfg : Config}

/-! ### Starting an interrupt -/

/-- The CPU `cpu` starts the interrupt `irq`, which `source` has sent it if it is an SGI. -/
structure Starts (p q : Physical cfg) (cpu irq source : Nat) : Prop where
  /-- The interrupt gets active and signaled, and is pending no longer, unless it is an SGI that
  some other CPU has sent as well. -/
  flags : q.irqs.row irq = { p.irqs.row irq with
    pending := if irq < numSgis ∧ q.distributor.sources cpu irq ≠ 0#8 then (p.irqs.row irq).pending
      else (p.irqs.row irq).pending.assign (view irq cpu) false
    active := (p.irqs.row irq).active.assign (view irq cpu) true
    signaled := (p.irqs.row irq).signaled.assign (view irq cpu) true }
  /-- The other interrupts stay as they are. -/
  others : ∀ i, i ≠ irq → q.irqs.row i = p.irqs.row i
  /-- The source of an SGI waits no longer, and the distributor does not change otherwise. -/
  distributor : q.distributor = if irq < numSgis then
    p.distributor.setSources cpu irq (.only source) false else p.distributor
  /-- The interrupt is put on the stack of the CPU with the priority that it has now, which the CPU
  runs at from now on. -/
  own : (q.cpus.row cpu).undecided =
    ((p.cpus.row cpu).push irq (p.priority cpu irq)).undecided
  /-- The other interfaces are decided anew, and do not change otherwise. -/
  interfaces : ∀ c, c ≠ cpu → (q.cpus.row c).undecided = (p.cpus.row c).undecided
  /-- Every CPU is shown what follows from the state as it is then. -/
  current : ∀ c < cfg.cpus, q.Current c

/-- The flags of an interrupt that was taken. -/
theorem row_take {p : Physical cfg} (hp : Shaped p) (cpu : Nat) {irq : Nat}
    (hirq : irq < maxIrqs) :
    (p.take cpu irq).irqs.row irq = { p.irqs.row irq with
      pending := if irq < numSgis ∧ (p.take cpu irq).distributor.sources cpu irq ≠ 0#8 then
        (p.irqs.row irq).pending else (p.irqs.row irq).pending.assign (view irq cpu) false } := by
  unfold take
  split
  · rename_i hsgi
    have hview : view irq cpu = .only cpu := if_pos (Nat.lt_trans hsgi (by decide))
    unfold takeSgi
    dsimp only
    split
    · rename_i hnone
      rw [row_alterIrq, if_pos ⟨rfl, hirq⟩, if_neg fun h => h.2 hnone, hview]
      rfl
    · rename_i hleft
      rw [if_pos ⟨hsgi, hleft⟩]
  · rename_i hsgi
    rw [if_neg fun h => hsgi h.1, takeIrq, row_alterIrq, if_pos ⟨rfl, hirq⟩, hp.scope_eq hirq]
    rfl

theorem row_take_of_ne (p : Physical cfg) (cpu : Nat) {irq i : Nat} (h : i ≠ irq) :
    (p.take cpu irq).irqs.row i = p.irqs.row i := by
  unfold take takeSgi
  split
  · dsimp only
    split
    · exact row_alterIrq_of_ne _ (Ne.symm h) _
    · rfl
  · exact row_alterIrq_of_ne _ (Ne.symm h) _

/-- An interrupt that a CPU takes and starts, with an arbitration after that. -/
theorem starts_take {p : Physical cfg} (hp : Shaped p) (hmax : cfg.cpus ≤ maxCpus)
    (hn : cfg.numIrqs ≤ maxIrqs) {cpu irq source : Nat} (hc : cpu < cfg.cpus)
    (hirq : irq < maxIrqs) (hsource : irq < numSgis → source = p.firstSource cpu irq) :
    Starts p ((p.take cpu irq).start cpu irq (p.priority cpu irq)).arbitrate.value cpu irq
      source where
  flags := by
    have hscope := (shaped_take hp cpu irq).scope_eq hirq cpu
    show (((p.take cpu irq).alterIrq irq fun r => r.acknowledge cpu).irqs.row irq) = _
    rw [row_alterIrq, if_pos ⟨rfl, hirq⟩]
    -- Making it active leaves the scope as it is.
    show (((p.take cpu irq).irqs.row irq).setActive true (((p.take cpu irq).irqs.row irq).scope
      cpu)).setSignaled true (((p.take cpu irq).irqs.row irq).scope cpu) = _
    rw [hscope, row_take hp cpu hirq]
    rfl
  others i hi := by
    show (((p.take cpu irq).alterIrq irq fun r => r.acknowledge cpu).irqs.row i) = _
    rw [row_alterIrq_of_ne _ (Ne.symm hi), row_take_of_ne p cpu hi]
  distributor := by
    show (p.take cpu irq).distributor = _
    rw [distributor_take]
    split
    · rename_i hsgi
      rw [hsource hsgi]
    · rfl
  own := by
    rw [undecided_arbitrate, start, row_alterCpu, if_pos ⟨rfl, hc⟩, alterIrq_cpus, cpus_take]
  interfaces c hne := by
    rw [undecided_arbitrate, start, row_alterCpu, if_neg fun h => hne h.1.symm, alterIrq_cpus,
      cpus_take]
  current c hc := (settled_arbitrate _).current hn hc (Nat.lt_of_lt_of_le hc hmax)

/-! ### The line, and what can be read -/

/-- An acknowledge is refused if and only if the line of the CPU is low. -/
theorem refuses_iff_line_low {p : Physical cfg} {cpu : Nat} (hp : p.Current cpu) :
    Refuses p cpu ↔ (p.cpus.row cpu).line = false := by
  by_cases hclosed : p.distributor.enables = .none ∨ (p.cpus.row cpu).enables = .none
  · obtain ⟨hshown, hline⟩ := hp.closed hclosed
    exact iff_of_true (.inl hshown) hline
  · obtain ⟨hd, hi⟩ := not_or.mp hclosed
    rw [← Bool.not_eq_true, hp.line hd hi, Refuses, not_and_or, not_not, BitVec.not_lt]

/-- An acknowledge that is refused changes no line. -/
theorem changes_of_refuses {p : Physical cfg} {cpu : Nat} (h : Refuses p cpu) :
    (p.acknowledge cpu).changes = [] := by
  unfold acknowledge
  dsimp only
  split
  · rfl
  · rename_i hshown
    rw [if_pos (h.resolve_left hshown)]
    rfl

/-- An acknowledge that is not refused answers with what the highest pending register shows. -/
theorem acknowledge_of_allowed {p : Physical cfg} {cpu : Nat} (h : ¬ Refuses p cpu) :
    (p.acknowledge cpu).value =
      (p.pendingTag cpu,
        ((p.take cpu (p.cpus.row cpu).highestPending).start cpu (p.cpus.row cpu).highestPending
          (p.priority cpu (p.cpus.row cpu).highestPending)).arbitrate.value) := by
  rw [acknowledge_value, if_neg h]
  rfl

end Physical

namespace Controller

variable {cfg : Config}

open Physical

/-- The highest pending register names the interrupt that the CPU is shown and, if it is an SGI, the
first CPU that has sent it. -/
theorem pendingTag_of_shown (hv : cfg.validate = .ok ()) {g : Controller cfg} (hg : Reachable g)
    {cpu irq : Nat} (hc : cpu < cfg.cpus) (hshown : (g.physical.cpus.row cpu).highestPending = irq)
    (hne : irq ≠ spurious) :
    irq < cfg.numIrqs ∧ ∃ source < maxCpus,
      (irq < numSgis → (g.physical.distributor.sources cpu irq).lowest? = some source) ∧
      (numSgis ≤ irq → source = 0) ∧
      g.physical.pendingTag cpu = BitVec.ofNat 32 (source <<< 10 ||| irq) := by
  obtain ⟨hpos, hmax, hirqs⟩ := Config.bounds_of_validate hv
  have hm := Nat.lt_of_lt_of_le hc hmax
  subst hshown
  refine ⟨(hg.settled.competes hirqs hc hm hne).connected, ?_⟩
  by_cases hsgi : (g.physical.cpus.row cpu).highestPending < numSgis
  · have hrec := hg.recorded hpos hmax hm hsgi
    have hlow := lowest_of_shown hg.settled hg.shaped hirqs hc hm hsgi hrec
    have hconnected := (hrec.connected _ ((CpuMask.lowest?_eq_some_iff _ _).mp hlow).1).1
    refine ⟨_, Nat.lt_of_lt_of_le hconnected hmax, fun _ => hlow,
      fun h => absurd hsgi (Nat.not_lt.mpr h), ?_⟩
    rw [← tagged_eq]
    exact if_pos hsgi
  · refine ⟨0, by decide, fun h => absurd h hsgi, fun _ => rfl, ?_⟩
    rw [Nat.zero_shiftLeft, Nat.zero_or]
    exact if_neg hsgi

/-- Reading the acknowledge register publishes what the acknowledge does. -/
theorem changes_read_acknowledge (g : Controller cfg) (i : Initiator) :
    (g.read .cpuInterface i 0x0c .word).changes =
      (g.physical.acknowledge (cpuOf cfg i)).changes := by
  rw [changes_read]
  show (g.readWindow .cpuInterface (cpuOf cfg i) 0x0c .word).changes = _
  exact (Traced.changes_bind _ _).trans (List.append_nil _)

/-- In every reachable state, if the line of a CPU is low, its acknowledge answers with the spurious
interrupt, changes nothing and no line. If the line is high, the acknowledge answers with what the
highest pending register shows in that state, the interrupt and the first source of an SGI, and this
interrupt is started. -/
theorem line_tells_acknowledge (hv : cfg.validate = .ok ()) {g : Controller cfg}
    (hg : Reachable g) {i : Initiator} {cpu : Nat} (hi : cpuOf cfg i = cpu) :
    let read := g.read .cpuInterface i 0x0c .word
    (g.line cpu .irq = false →
      read.value = (.ok 1023#32, g) ∧ read.changes = []) ∧
    (g.line cpu .irq = true → ∃ irq < cfg.numIrqs, ∃ source < maxCpus,
      (irq < numSgis → (g.physical.distributor.sources cpu irq).lowest? = some source) ∧
      (numSgis ≤ irq → source = 0) ∧
      read.value.1 = .ok (BitVec.ofNat 32 (source <<< 10 ||| irq)) ∧
      (g.read .cpuInterface i 0x18 .word).value.1 = read.value.1 ∧
      read.value.1 ≠ .ok 1023#32 ∧
      Starts g.physical read.value.2.physical cpu irq source ∧
      read.value.2.virtuals = g.virtuals) := by
  intro read
  obtain ⟨hpos, hmax, hirqs⟩ := Config.bounds_of_validate hv
  have hc : cpu < cfg.cpus := hi ▸ cpuOf_lt hpos i
  have hrefuses := refuses_iff_line_low (hg.current hv hc)
  have hread := read_acknowledge g i
  rw [hi] at hread
  constructor
  · intro hlow
    have hrefused := hrefuses.mpr hlow
    constructor
    · rw [hread, acknowledge_value, if_pos hrefused]
      rfl
    · rw [← hi] at hrefused
      exact (changes_read_acknowledge g i).trans (changes_of_refuses hrefused)
  · intro hhigh
    have hallowed : ¬ Refuses g.physical cpu := by
      rw [hrefuses]
      exact fun hlow => Bool.noConfusion (hlow.symm.trans hhigh)
    rw [acknowledge_of_allowed hallowed] at hread
    generalize hirq : (g.physical.cpus.row cpu).highestPending = irq at hread
    have hne : irq ≠ spurious := fun h => hallowed (.inl (hirq.trans h))
    obtain ⟨hconnected, source, hs, hlowest, hzero, htag⟩ := pendingTag_of_shown hv hg hc hirq hne
    have hbound := Nat.lt_of_lt_of_le hconnected hirqs
    have hstarts : Starts g.physical read.value.2.physical cpu irq source := by
      show Starts g.physical (g.read .cpuInterface i 0x0c .word).value.2.physical cpu irq source
      rw [hread]
      refine starts_take hg.shaped hmax hirqs hc hbound fun hsgi => ?_
      rw [firstSource, hlowest hsgi, Option.getD_some]
    have hanswer : read.value.1 = .ok (BitVec.ofNat 32 (source <<< 10 ||| irq)) := by
      rw [← htag]
      exact congrArg Prod.fst hread
    refine ⟨irq, hconnected, source, hs, hlowest, hzero, hanswer, ?_, fun h => ?_, hstarts, ?_⟩
    · rw [hanswer, ← htag, ← hi]
      rfl
    · -- The interrupt would have to be the spurious one, sent by CPU 0.
      have hvalue := toNat_answer hs (Nat.lt_trans hbound (by decide))
      rw [Except.ok.inj (hanswer.symm.trans h)] at hvalue
      simp only [maxIrqs] at hbound
      have : (1023#32).toNat = 1023 := rfl
      omega
    · exact congrArg (fun reply : Reply cfg Word => reply.2.virtuals) hread

/-- Of two CPUs, both send SGI 3 to the second: its line is high and that of the first is low. -/
theorem line_tells_acknowledge_two_senders :
    let cfg : Config := { Config.standard with cpus := 2 }
    let g := (powerOn cfg).run
      [.write .distributor (.cpu 0) 0x000 1 .word, .write .cpuInterface (.cpu 1) 0x00 1 .word,
        .write .cpuInterface (.cpu 1) 0x04 0xf0 .word,
        .write .distributor (.cpu 1) 0xf00 0x00020003 .word,
        .write .distributor (.cpu 0) 0xf00 0x00020003 .word]
    cfg.validate = .ok () ∧ Reachable g ∧ cpuOf cfg (.cpu 0) = 0 ∧ cpuOf cfg (.cpu 1) = 1 ∧
      (g.read .cpuInterface (.cpu 0) 0x0c .word).value = (.ok 1023#32, g) ∧
      ∃ irq < cfg.numIrqs, ∃ source < maxCpus, Starts g.physical
        (g.read .cpuInterface (.cpu 1) 0x0c .word).value.2.physical 1 irq source := by
  intro cfg g
  have hv : cfg.validate = .ok () := by decide
  have hg : Reachable g := reachable_run _
  have hlow : g.line 0 .irq = false := by decide +kernel
  have hhigh : g.line 1 .irq = true := by decide +kernel
  have hzero : cpuOf cfg (.cpu 0) = 0 := by decide
  have hone : cpuOf cfg (.cpu 1) = 1 := by decide
  obtain ⟨hanswer, -⟩ := (line_tells_acknowledge hv hg hzero).1 hlow
  obtain ⟨irq, hirq, source, hsource, -, -, -, -, -, hstarts, -⟩ :=
    (line_tells_acknowledge hv hg hone).2 hhigh
  exact ⟨hv, hg, hzero, hone, hanswer, irq, hirq, source, hsource, hstarts⟩

end Controller

end Gic
