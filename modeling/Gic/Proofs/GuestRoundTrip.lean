import Gic.Proofs.ActivePriorities
import Gic.Proofs.GuestReach
import Gic.Proofs.SgiDelivery

/-!
# A guest acknowledges and completes

A guest reads an interrupt from its acknowledge register and writes what it has read
to its completion register. On the way the interrupt is looked up three times, by
the number that the guest is shown and by the number that it writes, and the
priorities are told from the list register first and from the active priorities
later. This module says what such a round trip leaves.

## The model

* `VirtualCpu.Distinct` — no two list registers hold the same interrupt.
* `VirtualCpu.Takes` — an acknowledge is granted, and which list register it takes;
  `taken` and `completed` are the states after an acknowledge and a completion.
* `VirtualCpu.RoundTrip` — what a round trip leaves of the active priorities and the
  running priority.

## What is proved

* `Settled.takes_or_refuses` — in a settled state an acknowledge takes a list
  register or does nothing at all.
* `Controller.guest_round_trip` — the running priority after a round trip is that of
  the levels that were active before it, and when the levels come back.
* `Controller.acknowledged_can_be_completed` — what was acknowledged is completed,
  unless its number is one that a completion does not take.
-/

namespace Gic

namespace VirtualCpu

/-! ### Interrupts in list registers -/

/-- No two list registers that hold an interrupt hold the same one. -/
def Distinct (v : VirtualCpu) : Prop :=
  ∀ m < numListRegisters, ∀ n < numListRegisters, (v.lists.row m).live = true →
    (v.lists.row n).live = true → (v.lists.row m).virtualId = (v.lists.row n).virtualId → m = n

instance (v : VirtualCpu) : Decidable v.Distinct := by
  unfold Distinct
  infer_instance

/-- Without duplicates an interrupt is found where it is held. -/
theorem Distinct.holds {v : VirtualCpu} (h : v.Distinct) {n : Nat} (inRange : n < numListRegisters)
    (live : (v.lists.row n).live = true) : v.Holds (v.lists.row n).virtualId n where
  inRange := inRange
  live := live
  names := rfl
  first m hm hlive hnames :=
    absurd (h m (Nat.lt_trans hm inRange) n inRange hlive live hnames) (Nat.ne_of_lt hm)

theorem Urgent.live {v : VirtualCpu} {n : Nat} (h : v.Urgent n) : (v.lists.row n).live = true := by
  rw [ListEntry.live, h.pending, Bool.true_or]

/-- What is held is named by ten bits. -/
theorem Holds.lt {v : VirtualCpu} {irq n : Nat} (h : v.Holds irq n) : irq < 1024 := by
  rw [← h.names]
  exact BitVec.isLt _

/-! ### Acknowledges -/

/-- An acknowledge is granted, and takes a list register. -/
structure Takes (v : VirtualCpu) (n : Nat) : Prop where
  /-- The guest is shown an interrupt. -/
  shown : v.highestPending ≠ spurious
  /-- It is found in the list register. -/
  held : v.Holds v.highestPending n
  /-- It preempts what the guest is running. -/
  preempts : (v.lists.row n).priority < v.running

/-- The state after the list register `n` was taken by an acknowledge. -/
def taken (v : VirtualCpu) (n : Nat) : VirtualCpu :=
  (v.enter (v.lists.row n).priority).alterList n fun e => { e with pending := false, active := true }

/-- The word that names an interrupt names it in its low ten bits. -/
theorem field_tagged {irq : Nat} (h : irq < 1024) (source : Nat) :
    Word.field (tagged irq source) 0 10 = irq := by
  rw [Word.field, Controller.tagged_eq, ← Nat.shiftLeft_add_eq_or_of_lt h, Nat.shiftLeft_eq,
    BitVec.extractLsb'_toNat, BitVec.toNat_ofNat, Nat.shiftRight_zero]
  omega

/-- The word that a granted acknowledge answers is not the one that stands for no interrupt. -/
theorem Takes.tagged_ne {v : VirtualCpu} {n : Nat} (h : v.Takes n) (source : Nat) :
    tagged v.highestPending source ≠ BitVec.ofNat 32 spurious := by
  intro heq
  have hfield := field_tagged h.held.lt source
  rw [heq] at hfield
  exact h.shown hfield.symm

/-- What a granted acknowledge answers and leaves. -/
theorem Takes.acknowledge {v : VirtualCpu} {n : Nat} (h : v.Takes n) (cpu : Nat) :
    (v.acknowledge cpu).value =
      (tagged v.highestPending (v.lists.row n).source, ⟨v.taken n, true⟩) := by
  have hfind := (find?_eq_some_iff v _ n).mpr h.held
  have hpriority : v.priorityOf v.highestPending = (v.lists.row n).priority := by
    rw [priorityOf, hfind]
  have hpreempts : ¬ v.running ≤ (v.lists.row n).priority := BitVec.not_le.mpr h.preempts
  unfold VirtualCpu.acknowledge
  simp only [h.shown, if_false, Traced.value_bind, hpriority, hpreempts, hfind]
  rfl

/-- In a settled state an acknowledge takes a list register or does nothing. -/
theorem Settled.takes_or_refuses {v : VirtualCpu} (hv : v.Settled) (cpu : Nat) :
    (∃ n, v.Takes n) ∨ (v.acknowledge cpu).value = (BitVec.ofNat 32 spurious, ⟨v, false⟩) := by
  by_cases hs : v.highestPending = spurious
  · refine .inr ?_
    unfold VirtualCpu.acknowledge
    simp only [hs, if_true]
    rfl
  obtain ⟨n, hfind⟩ := Option.ne_none_iff_exists'.mp (hv.find?_ne_none hs)
  have hpriority : v.priorityOf v.highestPending = (v.lists.row n).priority := by
    rw [priorityOf, hfind]
  by_cases hpreempts : (v.lists.row n).priority < v.running
  · exact .inl ⟨n, hs, (find?_eq_some_iff v _ n).mp hfind, hpreempts⟩
  · refine .inr ?_
    have hrefused : v.running ≤ (v.lists.row n).priority := BitVec.not_lt.mp hpreempts
    unfold VirtualCpu.acknowledge
    simp only [hs, if_false, Traced.value_bind, hpriority, hrefused, if_true]
    rfl

/-- The line is high only if the guest is shown the most urgent list register, and that preempts
what it is running. -/
theorem Settled.urgent_of_line {v : VirtualCpu} (hv : v.Settled) (high : v.line = true) :
    ∃ n, v.Urgent n ∧ v.highestPending = (v.lists.row n).virtualId ∧
      v.highestPending ≠ spurious ∧ (v.lists.row n).priority < v.running := by
  have hcurrent := hv.current
  cases he : v.isEnabled with
  | false =>
    rw [(hcurrent.closed he).2] at high
    cases high
  | true =>
    obtain ⟨hs, n, hn, hpreempts⟩ := (hcurrent.line he).mp high
    rcases hcurrent.shown he with ⟨m, hm, hshown⟩ | ⟨hnone, -⟩
    · obtain rfl := hn.unique hm
      split at hshown
      · exact ⟨n, hn, hshown, hs, hpreempts⟩
      · exact absurd hshown hs
    · exact absurd hn (hnone n)

/-- Without duplicates a guest whose line is high can take the most urgent list register. -/
theorem Settled.takes_of_line {v : VirtualCpu} (hv : v.Settled) (distinct : v.Distinct)
    (high : v.line = true) : ∃ n, v.Urgent n ∧ v.Takes n := by
  obtain ⟨n, hn, hshown, hs, hpreempts⟩ := hv.urgent_of_line high
  refine ⟨n, hn, hs, ?_, hpreempts⟩
  rw [hshown]
  exact distinct.holds hn.inRange hn.live

/-- Without duplicates what an acknowledge takes is the most urgent list register. -/
theorem Takes.urgent {v : VirtualCpu} {n : Nat} (h : v.Takes n) (hv : v.Settled)
    (distinct : v.Distinct) : v.Urgent n := by
  have hcurrent := hv.current
  cases he : v.isEnabled with
  | false => exact absurd (hcurrent.closed he).1 h.shown
  | true =>
    rcases hcurrent.shown he with ⟨m, hm, hshown⟩ | ⟨-, hshown⟩
    · split at hshown
      · have hnames := h.held.names.trans hshown
        obtain rfl := distinct n h.held.inRange m hm.inRange h.held.live hm.live hnames
        exact hm
      · exact absurd hshown h.shown
    · exact absurd hshown h.shown

/-! ### Completions -/

/-- The state after the list register `n` was completed. -/
def completed (v : VirtualCpu) (n : Nat) : VirtualCpu :=
  (v.setActivePriorities (dropLowest v.activePriorities)).alterList n fun e =>
    { e with active := false }

/-- What a completion of an interrupt that is held leaves, and what backs it. -/
theorem Holds.complete {v : VirtualCpu} {irq n : Nat} (h : v.Holds irq n) (cpu : Nat) :
    (v.complete cpu irq).value =
      (v.completed n,
        if (v.lists.row n).hardware then some (v.lists.row n).physicalId else none) := by
  have hfind := (find?_eq_some_iff v irq n).mpr h
  unfold VirtualCpu.complete
  simp only [Traced.value_bind, hfind]
  rfl

theorem row_taken (v : VirtualCpu) {n : Nat} (hn : n < numListRegisters) (m : Nat) :
    (v.taken n).lists.row m =
      if n = m then { v.lists.row n with pending := false, active := true }
      else v.lists.row m := by
  show (v.lists.alter n _).row m = _
  rw [Table.row_alter]
  by_cases hm : n = m
  · subst hm
    rw [if_pos ⟨rfl, hn⟩, if_pos rfl]
  · rw [if_neg fun h => hm h.1, if_neg hm]

/-- What was acknowledged is found again. -/
theorem Takes.holds_taken {v : VirtualCpu} {n : Nat} (h : v.Takes n) :
    (v.taken n).Holds v.highestPending n where
  inRange := h.held.inRange
  live := by
    rw [row_taken v h.held.inRange, if_pos rfl]
    rfl
  names := by
    rw [row_taken v h.held.inRange, if_pos rfl]
    exact h.held.names
  first m hm := by
    rw [row_taken v h.held.inRange, if_neg (Nat.ne_of_gt hm)]
    exact h.held.first m hm

theorem Takes.holds_decided {v : VirtualCpu} {n : Nat} (h : v.Takes n) :
    (v.taken n).decided.Holds v.highestPending n :=
  ⟨h.holds_taken.inRange, h.holds_taken.live, h.holds_taken.names, h.holds_taken.first⟩

theorem not_active_completed (v : VirtualCpu) {n : Nat} (hn : n < numListRegisters) :
    ((v.completed n).lists.row n).active = false := by
  show ((v.lists.alter n _).row n).active = false
  rw [Table.row_alter, if_pos ⟨rfl, hn⟩]

/-! ### Round trips -/

/-- What an acknowledge and the completion of what it has taken, the list register `n`, leave. -/
structure RoundTrip (v : VirtualCpu) (n : Nat) (w : VirtualCpu) : Prop where
  /-- The active priorities come back if and only if what was acknowledged is more urgent than all
  of their levels. -/
  levels_iff : w.activePriorities = v.activePriorities ↔
    ∀ level, v.activePriorities.getLsbD level = true → (v.lists.row n).priority.toNat < 8 * level
  /-- They come back if what ran before is at least as urgent as all of their levels. -/
  nested : (∀ level, v.activePriorities.getLsbD level = true → v.running.toNat ≤ 8 * level) →
    w.activePriorities = v.activePriorities
  /-- The running priority becomes the one that the active priorities stood for. -/
  running : w.running = priorityLevel v.activePriorities
  /-- It comes back if and only if it was that one. -/
  running_iff : w.running = v.running ↔ v.running = priorityLevel v.activePriorities

theorem Takes.roundTrip {v : VirtualCpu} {n : Nat} (h : v.Takes n) (ranked : v.Ranked) :
    v.RoundTrip n ((v.taken n).decided.completed n).decided := by
  have hwhole : (v.lists.row n).priority.toNat = 8 * ((v.lists.row n).priority.toNat / 8) := by
    rw [ListEntry.priority, toNat_ofFive]
    omega
  have hlevels : dropLowest (v.activePriorities ||| levelBit (v.lists.row n).priority) =
      v.activePriorities ↔ ∀ level, v.activePriorities.getLsbD level = true →
        (v.lists.row n).priority.toNat < 8 * level := by
    rw [dropLowest_or_levelBit_iff]
    refine forall₂_congr fun level _ => ?_
    omega
  have hpreempts := BitVec.lt_def.mp h.preempts
  have hrunning : priorityLevel (dropLowest (v.activePriorities |||
      levelBit (v.lists.row n).priority)) = priorityLevel v.activePriorities := by
    refine priorityLevel_dropLowest (by omega) (BitVec.lt_def.mpr ?_)
    exact Nat.lt_of_lt_of_le hpreempts (BitVec.le_def.mp ranked.le)
  refine ⟨hlevels, fun hnested => hlevels.mpr fun level hset => ?_, hrunning, ?_⟩
  · exact Nat.lt_of_lt_of_le hpreempts (hnested level hset)
  · exact (Eq.congr_left hrunning).trans eq_comm

end VirtualCpu

/-- What was taken out of a set is not in it. -/
theorem CpuMask.not_meets_assign_false (mask chosen : CpuMask) :
    (mask.assign chosen false).meets chosen = false := by
  rw [meets, bne_eq_false_iff_eq, eq_zero_iff]
  intro i
  rw [BitVec.getLsbD_and, getLsbD_assign]
  cases chosen.getLsbD i <;> simp

/-- An interrupt that was ended is not active where it was ended. -/
theorem Physical.Ended.not_active {cfg : Config} {p q : Physical cfg} {cpu irq : Nat}
    (h : Ended p q cpu irq) : (q.irqs.row irq).isActive (view irq cpu) = false := by
  rw [h.flags]
  exact CpuMask.not_meets_assign_false _ _

namespace Controller

variable {cfg : Config}

open VirtualCpu

theorem read_guest_acknowledge (g : Controller cfg) (i : Initiator) :
    (g.read .vcpuInterface i 0x0c .word).value.1 =
      .ok ((g.virtuals.row (cpuOf cfg i)).acknowledge (cpuOf cfg i)).value.1 := rfl

theorem after_guest_acknowledge (g : Controller cfg) (i : Initiator) :
    g.after (.read .vcpuInterface i 0x0c .word) =
      (g.putVirtual (cpuOf cfg i)
        ((g.virtuals.row (cpuOf cfg i)).acknowledge (cpuOf cfg i)).value.2).value := rfl

/-- What a granted acknowledge leaves of the virtual half of its CPU. -/
theorem row_after_acknowledge (g : Controller cfg) {c n : Nat} (hc : c < cfg.cpus) {i : Initiator}
    (own : cpuOf cfg i = c) (h : (g.virtuals.row c).Takes n) :
    (g.after (.read .vcpuInterface i 0x0c .word)).virtuals.row c =
      ((g.virtuals.row c).taken n).decided := by
  rw [after_guest_acknowledge, own, row_putVirtual g c _ hc, if_pos rfl, h.acknowledge]
  rfl

/-- What a completion does to a controller. -/
theorem after_completion (g : Controller cfg) (i : Initiator) (word : Word) :
    g.after (.write .vcpuInterface i 0x10 (word.setWidth 64) .word) =
      (g.completeVirtual (cpuOf cfg i) word).value := by
  calc g.after (.write .vcpuInterface i 0x10 (word.setWidth 64) .word)
      = (g.completeVirtual (cpuOf cfg i) ((word.setWidth 64).setWidth 32)).value := rfl
    _ = (g.completeVirtual (cpuOf cfg i) word).value := by rw [setWidth_setWidth_word]

/-- The physical interrupt behind a list register is not active where its CPU's guest has
completed the list register. -/
theorem not_active_after_completion (hv : cfg.validate = .ok ()) {g : Controller cfg}
    (hg : Reachable g) {c n : Nat} (hc : c < cfg.cpus) {j : Initiator} (hj : cpuOf cfg j = c)
    {word : Word} (valid : word.field 0 10 < maxIrqs)
    (held : (g.virtuals.row c).Holds (word.field 0 10) n)
    (hardware : ((g.virtuals.row c).lists.row n).hardware = true)
    (connected : ((g.virtuals.row c).lists.row n).physicalId < cfg.numIrqs) :
    ((g.after (.write .vcpuInterface j 0x10 (word.setWidth 64) .word)).physical.irqs.row
        ((g.virtuals.row c).lists.row n).physicalId).isActive
      (Physical.view ((g.virtuals.row c).lists.row n).physicalId c) = false := by
  obtain ⟨-, hmax, hirqs⟩ := Config.bounds_of_validate hv
  have haccepts := (hg.savable hc).lists n
  rw [accepts, hardware, Bool.not_true, Bool.false_or, Bool.and_eq_true, decide_eq_true_eq]
    at haccepts
  have haccess : GuestAccess cfg c (.write .vcpuInterface j 0x10 (word.setWidth 64) .word) :=
    .write (.inr rfl) hj
  have hends : EndsBacking g c ((g.virtuals.row c).lists.row n).physicalId
      (.write .vcpuInterface j 0x10 (word.setWidth 64) .word) := by
    refine .completes hj ?_ ?_ hardware ?_ haccepts.1 connected
    · rwa [setWidth_setWidth_word]
    · rwa [setWidth_setWidth_word]
    · rw [ListEntry.physicalId, hardware, if_pos rfl]
  rw [physical_after_guest g haccess, (endsBacking_iff haccess _).mp hends]
  exact (Physical.ended_endFor hg.shaped hmax hirqs c
    (Nat.lt_of_lt_of_le connected hirqs)).not_active

/-- What the completion of what the guest has just acknowledged leaves of the virtual half of its
CPU. -/
theorem row_after_round_trip (g : Controller cfg) {c n : Nat} (hc : c < cfg.cpus)
    {i j : Initiator} (hi : cpuOf cfg i = c) (hj : cpuOf cfg j = c)
    (h : (g.virtuals.row c).Takes n) (valid : (g.virtuals.row c).highestPending < maxIrqs)
    (source : Nat) :
    ((g.after (.read .vcpuInterface i 0x0c .word)).after (.write .vcpuInterface j 0x10
        ((tagged (g.virtuals.row c).highestPending source).setWidth 64) .word)).virtuals.row c =
      (((g.virtuals.row c).taken n).decided.completed n).decided := by
  have hfield := field_tagged h.held.lt source
  rw [after_completion, hj, row_completeVirtual _ _ _ (by rw [hfield]; exact valid) hc, if_pos rfl,
    hfield, row_after_acknowledge g hc hi h]
  rw [h.holds_decided.complete]

/-- In every reachable state in which no two list registers of a CPU hold the same interrupt, a
guest whose line is high acknowledges the most urgent list register. If it completes what it has
read, the running priority becomes the one that its active priorities stood for before. -/
theorem guest_round_trip {g : Controller cfg} (hg : Reachable g) {c : Nat} (hc : c < cfg.cpus)
    (distinct : (g.virtuals.row c).Distinct) (high : g.line c .virtualIrq = true)
    (valid : (g.virtuals.row c).highestPending < maxIrqs) {i j : Initiator}
    (hi : cpuOf cfg i = c) (hj : cpuOf cfg j = c) :
    ∃ word n, (g.read .vcpuInterface i 0x0c .word).value.1 = .ok word ∧
      (g.virtuals.row c).Urgent n ∧
      (g.virtuals.row c).RoundTrip n
        (((g.after (.read .vcpuInterface i 0x0c .word)).after
          (.write .vcpuInterface j 0x10 (word.setWidth 64) .word)).virtuals.row c) := by
  obtain ⟨n, hurgent, htakes⟩ := (hg.guestSettled hc).takes_of_line distinct high
  refine ⟨tagged (g.virtuals.row c).highestPending ((g.virtuals.row c).lists.row n).source, n, ?_,
    hurgent, ?_⟩
  · rw [read_guest_acknowledge, hi, htakes.acknowledge]
  · rw [row_after_round_trip g hc hi hj htakes valid]
    exact htakes.roundTrip (hg.ranked hc)

/-- A guest that runs interrupt 40, of the priority 0x80, is interrupted by interrupt 41, of the
priority 0x40, and completes it. -/
theorem guest_round_trip_nested :
    let g := (powerOn Config.standard).run
      [.write .vifControl (.cpu 0) 0x000 1 .word, .write .vcpuInterface (.cpu 0) 0x04 0xf0 .word,
        .write .vifControl (.cpu 0) 0x100 0x18000028 .word,
        .read .vcpuInterface (.cpu 0) 0x0c .word,
        .write .vifControl (.cpu 0) 0x104 0x14000029 .word]
    (Reachable g ∧ (g.virtuals.row 0).Distinct ∧ g.line 0 .virtualIrq = true ∧
      (g.virtuals.row 0).highestPending < maxIrqs) ∧
    ∃ word n, (g.read .vcpuInterface (.cpu 0) 0x0c .word).value.1 = .ok word ∧
      (g.virtuals.row 0).Urgent n ∧
      (g.virtuals.row 0).RoundTrip n
        (((g.after (.read .vcpuInterface (.cpu 0) 0x0c .word)).after
          (.write .vcpuInterface (.cpu 0) 0x10 (word.setWidth 64) .word)).virtuals.row 0) := by
  intro g
  have hg : Reachable g := reachable_run _
  have hdistinct : (g.virtuals.row 0).Distinct := by decide +kernel
  have hhigh : g.line 0 .virtualIrq = true := by decide +kernel
  have hvalid : (g.virtuals.row 0).highestPending < maxIrqs := by decide +kernel
  exact ⟨⟨hg, hdistinct, hhigh, hvalid⟩,
    guest_round_trip hg (by decide) hdistinct hhigh hvalid rfl rfl⟩

/-- Interrupted once more, by interrupt 42 of the priority 0x20, the guest does not return to the
running priority 0x40 when it completes that one, but to 0x80. -/
theorem running_priority_not_restored :
    let g := (powerOn Config.standard).run
      [.write .vifControl (.cpu 0) 0x000 1 .word, .write .vcpuInterface (.cpu 0) 0x04 0xf0 .word,
        .write .vifControl (.cpu 0) 0x100 0x18000028 .word,
        .read .vcpuInterface (.cpu 0) 0x0c .word,
        .write .vifControl (.cpu 0) 0x104 0x14000029 .word,
        .read .vcpuInterface (.cpu 0) 0x0c .word,
        .write .vifControl (.cpu 0) 0x108 0x1200002a .word]
    let acknowledged := g.after (.read .vcpuInterface (.cpu 0) 0x0c .word)
    let completed := acknowledged.after (.write .vcpuInterface (.cpu 0) 0x10 42 .word)
    Reachable g ∧ (g.virtuals.row 0).Distinct ∧ g.line 0 .virtualIrq = true ∧
      (g.virtuals.row 0).highestPending = 42 ∧
      (g.read .vcpuInterface (.cpu 0) 0x0c .word).value.1 = .ok 42#32 ∧
      (g.virtuals.row 0).running = 0x40#8 ∧ (completed.virtuals.row 0).running = 0x80#8 := by
  refine ⟨reachable_run _, ?_⟩
  decide +kernel

/-- In every reachable state in which no two list registers of a CPU hold the same interrupt, what
the guest acknowledges is in the most urgent list register, which becomes active. If the guest
completes what it has read and its number is below `maxIrqs`, the list register is no longer
active, and neither is the connected interrupt that backs it; with any other number nothing
happens. -/
theorem acknowledged_can_be_completed {g : Controller cfg} (hv : cfg.validate = .ok ())
    (hg : Reachable g) {c : Nat} (hc : c < cfg.cpus) (distinct : (g.virtuals.row c).Distinct)
    {i j : Initiator} (hi : cpuOf cfg i = c) (hj : cpuOf cfg j = c) {word : Word}
    (answered : (g.read .vcpuInterface i 0x0c .word).value.1 = .ok word)
    (taken : word ≠ BitVec.ofNat 32 spurious) :
    ∃ n, (g.virtuals.row c).Urgent n ∧
      let e := (g.virtuals.row c).lists.row n
      let acknowledged := g.after (.read .vcpuInterface i 0x0c .word)
      let completed := acknowledged.after (.write .vcpuInterface j 0x10 (word.setWidth 64) .word)
      e.virtualId = word.field 0 10 ∧
      ((acknowledged.virtuals.row c).lists.row n).active = true ∧
      (e.virtualId < maxIrqs →
        ((completed.virtuals.row c).lists.row n).active = false ∧
        (e.hardware = true → e.physicalId < cfg.numIrqs →
          (completed.physical.irqs.row e.physicalId).isActive
            (Physical.view e.physicalId c) = false)) ∧
      (maxIrqs ≤ e.virtualId → completed = acknowledged) := by
  have hsettled := hg.guestSettled hc
  rw [read_guest_acknowledge, hi, Except.ok.injEq] at answered
  rcases hsettled.takes_or_refuses c with ⟨n, htakes⟩ | hrefused
  · rw [htakes.acknowledge] at answered
    have hfield : word.field 0 10 = (g.virtuals.row c).highestPending := by
      rw [← answered]
      exact field_tagged htakes.held.lt _
    have hnames := htakes.held.names
    have hentry : ((g.after (.read .vcpuInterface i 0x0c .word)).virtuals.row c).lists.row n =
        { (g.virtuals.row c).lists.row n with pending := false, active := true } := by
      rw [row_after_acknowledge g hc hi htakes]
      exact (row_taken _ htakes.held.inRange n).trans (if_pos rfl)
    refine ⟨n, htakes.urgent hsettled distinct, hnames.trans hfield.symm, ?_, ?_, ?_⟩
    · rw [hentry]
    · intro hvalid
      rw [hnames] at hvalid
      refine ⟨?_, fun hardware connected => ?_⟩
      · rw [← answered, row_after_round_trip g hc hi hj htakes hvalid]
        exact not_active_completed _ htakes.held.inRange
      · have hheld : ((g.after (.read .vcpuInterface i 0x0c .word)).virtuals.row c).Holds
            (word.field 0 10) n := by
          rw [hfield, row_after_acknowledge g hc hi htakes]
          exact htakes.holds_decided
        have hquiet := not_active_after_completion hv (hg.after _) hc hj (hfield ▸ hvalid) hheld
        rw [hentry] at hquiet
        exact hquiet hardware connected
    · intro hinvalid
      rw [hnames, ← hfield] at hinvalid
      rw [after_completion, completeVirtual, if_pos hinvalid]
      rfl
  · rw [hrefused] at answered
    exact absurd answered.symm taken

/-- The guest acknowledges interrupt 40, which the shared interrupt 32 backs that the CPU runs. -/
theorem acknowledged_can_be_completed_backed :
    let g := (powerOn Config.standard).run
      [.write .distributor (.cpu 0) 0x000 1 .word, .write .cpuInterface (.cpu 0) 0x00 1 .word,
        .write .cpuInterface (.cpu 0) 0x04 0xf0 .word, .write .distributor (.cpu 0) 0x104 1 .word,
        .write .distributor (.cpu 0) 0x820 1 .byte, .spi 0 true,
        .read .cpuInterface (.cpu 0) 0x0c .word, .write .vifControl (.cpu 0) 0x000 1 .word,
        .write .vcpuInterface (.cpu 0) 0x04 0xf0 .word,
        .write .vifControl (.cpu 0) 0x100 0x90008028 .word]
    let word : Word := 40#32
    (Config.standard.validate = .ok () ∧ Reachable g ∧ (g.virtuals.row 0).Distinct ∧
      (g.read .vcpuInterface (.cpu 0) 0x0c .word).value.1 = .ok word ∧
      word ≠ BitVec.ofNat 32 spurious) ∧
    ∃ n, (g.virtuals.row 0).Urgent n ∧
      let e := (g.virtuals.row 0).lists.row n
      let acknowledged := g.after (.read .vcpuInterface (.cpu 0) 0x0c .word)
      let completed := acknowledged.after
        (.write .vcpuInterface (.cpu 0) 0x10 (word.setWidth 64) .word)
      e.virtualId = word.field 0 10 ∧
      ((acknowledged.virtuals.row 0).lists.row n).active = true ∧
      (e.virtualId < maxIrqs →
        ((completed.virtuals.row 0).lists.row n).active = false ∧
        (e.hardware = true → e.physicalId < Config.standard.numIrqs →
          (completed.physical.irqs.row e.physicalId).isActive
            (Physical.view e.physicalId 0) = false)) ∧
      (maxIrqs ≤ e.virtualId → completed = acknowledged) := by
  intro g word
  have hv : Config.standard.validate = .ok () := by decide
  have hg : Reachable g := reachable_run _
  have hdistinct : (g.virtuals.row 0).Distinct := by decide +kernel
  have hanswer : (g.read .vcpuInterface (.cpu 0) 0x0c .word).value.1 = .ok word := by
    decide +kernel
  have hne : word ≠ BitVec.ofNat 32 spurious := by decide
  exact ⟨⟨hv, hg, hdistinct, hanswer, hne⟩,
    acknowledged_can_be_completed hv hg (by decide) hdistinct rfl rfl hanswer hne⟩

/-- The hypervisor injects interrupt 600. The guest acknowledges it and completes it, and its list
register stays active. -/
theorem large_number_stays_active :
    let g := (powerOn Config.standard).run
      [.write .vifControl (.cpu 0) 0x000 1 .word, .write .vcpuInterface (.cpu 0) 0x04 0xf0 .word,
        .write .vifControl (.cpu 0) 0x100 0x18000258 .word]
    let acknowledged := g.after (.read .vcpuInterface (.cpu 0) 0x0c .word)
    let completed := acknowledged.after (.write .vcpuInterface (.cpu 0) 0x10 600 .word)
    Reachable g ∧ (g.virtuals.row 0).Distinct ∧
      (g.read .vcpuInterface (.cpu 0) 0x0c .word).value.1 = .ok 600#32 ∧
      ((g.virtuals.row 0).lists.row 0).pending = true ∧
      ((acknowledged.virtuals.row 0).lists.row 0).active = true ∧
      ((completed.virtuals.row 0).lists.row 0).active = true := by
  refine ⟨reachable_run _, ?_⟩
  decide +kernel

end Controller

end Gic
