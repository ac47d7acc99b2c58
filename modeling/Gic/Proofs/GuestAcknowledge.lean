import Gic.Proofs.ActionLines
import Gic.Proofs.GuestRoundTrip

/-!
# What a virtual interrupt line says

A guest whose virtual interrupt line is high reads its acknowledge register. What
it gets is looked up by the number that arbitration has left, among the list
registers that hold an interrupt in any state, and not by the list register that
arbitration has picked. This module says when the read is granted, what it answers,
and what it leaves behind.

## The model

* `ListEntry.named` — the word that names the interrupt of a list register, with the
  CPU that sent it.
* `VirtualCpu.Enters` — what a guest that takes a list register leaves of the
  virtual half of its CPU, and `Controller.GuestTakes` — of the whole controller.

## What is proved

* `Takes.line`, `Takes.enters` — an acknowledge is granted only if the line is high,
  and what it then changes.
* `Controller.guest_acknowledges_if_line_high` — the line is high if and only if an
  acknowledge is granted, which then takes the most urgent list register.
* `Controller.announced_as_acknowledged_iff` — the interrupt is announced by its
  number alone, so as it is going to be acknowledged only if no CPU is to be named.
-/

namespace Gic

/-- The interrupt of a list register as an acknowledge names it: with the CPU that sent it in bits
12 to 10, unless a physical interrupt backs it. -/
def ListEntry.named (e : ListEntry) : Word :=
  if e.hardware then BitVec.ofNat 32 e.virtualId
  else BitVec.ofNat 32 (e.sourceField <<< 10 ||| e.virtualId)

namespace ListEntry

theorem virtualId_lt (e : ListEntry) : e.virtualId < 1024 := BitVec.isLt _

theorem sourceField_lt (e : ListEntry) : e.sourceField < 8 := BitVec.isLt _

theorem tagged_virtualId (e : ListEntry) : tagged e.virtualId e.source = e.named := by
  rw [Controller.tagged_eq, source, named]
  split
  · rw [Nat.zero_shiftLeft, Nat.zero_or]
  · rfl

/-- An interrupt is named by its number alone if and only if no CPU is to be named. -/
theorem named_eq_iff (e : ListEntry) :
    BitVec.ofNat 32 e.virtualId = e.named ↔ e.hardware = true ∨ e.sourceField = 0 := by
  have hnumber := e.virtualId_lt
  have hsource := e.sourceField_lt
  rw [named]
  cases e.hardware with
  | true => exact iff_of_true rfl (.inl rfl)
  | false =>
    -- The number takes up the low ten bits, so what names the CPU is added to it.
    rw [if_neg Bool.false_ne_true, ← Nat.shiftLeft_add_eq_or_of_lt hnumber, Nat.shiftLeft_eq,
      ← BitVec.toNat_inj, BitVec.toNat_ofNat, BitVec.toNat_ofNat]
    constructor
    · intro h
      exact .inr (by omega)
    · rintro (h | h)
      · cases h
      · omega

end ListEntry

namespace VirtualCpu

/-! ### One virtual half -/

/-- A guest that takes the list register `n` leaves the virtual half `w` of what was `v`. -/
structure Enters (v : VirtualCpu) (n : Nat) (w : VirtualCpu) : Prop where
  /-- The list register becomes active, and is no longer pending. -/
  entry : w.lists.row n = { v.lists.row n with pending := false, active := true }
  /-- The others stay as they are. -/
  others : ∀ m ≠ n, w.lists.row m = v.lists.row m
  /-- The running priority becomes that of the list register, without the bits that do not count
  for preemption. -/
  running : ∀ bit, w.running.getLsbD bit =
    ((v.lists.row n).priority.getLsbD bit && decide (v.binaryPoint.toNat + 1 ≤ bit))
  /-- The level of that priority becomes active. -/
  levels : ∀ level, w.activePriorities.getLsbD level =
    (v.activePriorities.getLsbD level || decide ((v.lists.row n).priority.toNat / 8 = level))
  /-- No other register changes. -/
  registers : { w with
    lists := v.lists
    running := v.running
    activePriorities := v.activePriorities
    highestPending := v.highestPending
    line := v.line } = v
  /-- What the guest is shown, and its line, are decided anew. -/
  current : w.Current

theorem getLsbD_and_groupMask (priority : Priority) (point : BitVec 3) (bit : Nat) :
    (priority &&& groupMask point).getLsbD bit =
      (priority.getLsbD bit && decide (point.toNat + 1 ≤ bit)) := by
  have hones : (0xff#8 : Priority) = BitVec.allOnes 8 := rfl
  rw [BitVec.getLsbD_and, groupMask, hones, BitVec.getLsbD_shiftLeft, BitVec.getLsbD_allOnes]
  by_cases hbit : bit < 8
  · have hlow : bit - (point.toNat + 1) < 8 := by omega
    simp only [hbit, hlow, decide_true, Bool.true_and, Bool.and_true, ← decide_not, Nat.not_lt]
  · rw [BitVec.getLsbD_of_ge _ _ (Nat.not_lt.mp hbit), Bool.false_and, Bool.false_and]

theorem getLsbD_or_levelBit (active : Word) (priority : Priority) (level : Nat) :
    (active ||| levelBit priority).getLsbD level =
      (active.getLsbD level || decide (priority.toNat / 8 = level)) := by
  rw [Bool.eq_iff_iff, ← mem_levels, levels_or_levelBit, Finset.mem_insert, mem_levels, or_comm,
    Bool.or_eq_true, decide_eq_true_eq, eq_comm (a := level)]

/-- What a granted acknowledge leaves, once it has been decided anew. -/
theorem Takes.enters {v : VirtualCpu} {n : Nat} (h : v.Takes n) :
    v.Enters n (v.taken n).decided where
  entry := (row_taken v h.held.inRange n).trans (if_pos rfl)
  others m hm := (row_taken v h.held.inRange m).trans (if_neg (Ne.symm hm))
  running := getLsbD_and_groupMask _ _
  levels := getLsbD_or_levelBit _ _
  registers := rfl
  current := (settled_decided _).current

/-- Without duplicates an acknowledge is granted only if the line is high. -/
theorem Takes.line {v : VirtualCpu} {n : Nat} (h : v.Takes n) (hv : v.Settled)
    (distinct : v.Distinct) : v.line = true := by
  have hcurrent := hv.current
  have henabled : v.isEnabled = true := by
    by_contra hdisabled
    exact h.shown (hcurrent.closed (Bool.not_eq_true _ ▸ hdisabled)).1
  exact (hcurrent.line henabled).mpr ⟨h.shown, n, h.urgent hv distinct, h.preempts⟩

/-- What an acknowledge answers names the list register that it takes. -/
theorem Takes.named {v : VirtualCpu} {n : Nat} (h : v.Takes n) :
    tagged v.highestPending (v.lists.row n).source = (v.lists.row n).named := by
  rw [← h.held.names, ListEntry.tagged_virtualId]

end VirtualCpu

namespace Controller

variable {cfg : Config}

open VirtualCpu

/-! ### The whole controller -/

theorem putVirtual_self (g : Controller cfg) (cpu : Nat) :
    (g.putVirtual cpu ⟨g.virtuals.row cpu, false⟩).value = g := by
  have hvirtuals : (g.virtuals.alter cpu fun _ => g.virtuals.row cpu) = g.virtuals := by
    apply Table.ext_row
    intro c hc
    rw [row_alterVirtual g cpu _ hc]
    split
    · rename_i h
      rw [h]
    · rfl
  calc (g.putVirtual cpu ⟨g.virtuals.row cpu, false⟩).value
      = { g with virtuals := g.virtuals.alter cpu fun _ => g.virtuals.row cpu } := rfl
    _ = g := by rw [hvirtuals]

/-- An acknowledge publishes the lines that it changes. -/
theorem changes_guest_acknowledge (g : Controller cfg) (i : Initiator) :
    (g.read .vcpuInterface i 0x0c .word).changes =
      lineChanges g (g.read .vcpuInterface i 0x0c .word).value.2 := by
  rw [changes_read]
  exact changes_readWindow_all g _ _ _ _

/-- A guest whose line is low is answered that there is no interrupt, and nothing changes. -/
theorem guest_refused {g : Controller cfg} (hg : Reachable g) {c : Nat} (hc : c < cfg.cpus)
    (distinct : (g.virtuals.row c).Distinct) {i : Initiator} (own : cpuOf cfg i = c)
    (low : g.line c .virtualIrq = false) :
    (g.read .vcpuInterface i 0x0c .word).value = (.ok (BitVec.ofNat 32 spurious), g) := by
  have hsettled := hg.guestSettled hc
  rcases hsettled.takes_or_refuses c with ⟨n, htakes⟩ | hrefused
  · cases (htakes.line hsettled distinct).symm.trans low
  · have hanswer := read_guest_acknowledge g i
    have hleft := after_guest_acknowledge g i
    rw [own, hrefused] at hanswer hleft
    exact Prod.ext hanswer (hleft.trans (putVirtual_self g c))

/-- A guest takes a list register: nothing but the virtual half of its CPU changes. -/
structure GuestTakes (g : Controller cfg) (c n : Nat) (h : Controller cfg) : Prop where
  /-- It takes the list register. -/
  enters : (g.virtuals.row c).Enters n (h.virtuals.row c)
  /-- The virtual halves are decided anew. -/
  decided : (h.update .virtual).value = h
  /-- Those of the other CPUs stay as they are. -/
  others : ∀ d, d ≠ c → h.virtuals.row d = g.virtuals.row d
  /-- So does the physical half. -/
  physical : h.physical = g.physical

theorem guestTakes_of_takes {g : Controller cfg} (hg : Reachable g) {c n : Nat} (hc : c < cfg.cpus)
    {i : Initiator} (own : cpuOf cfg i = c) (h : (g.virtuals.row c).Takes n) :
    GuestTakes g c n (g.after (.read .vcpuInterface i 0x0c .word)) where
  enters := by
    rw [row_after_acknowledge g hc own h]
    exact h.enters
  decided := arbitrateVirtual_eq fun _ hd => (hg.after _).guestSettled hd
  others d hd := by
    by_cases hconnected : d < cfg.cpus
    · exact alike_of_other hg hconnected hd (.read (.inr rfl) own)
    · have hle := Nat.not_lt.mp hconnected
      rw [Table.row_of_le _ hle, Table.row_of_le _ hle]
  physical := by
    rw [after_guest_acknowledge]
    exact physical_putVirtual g _ _

/-- In every reachable state in which no two list registers of a CPU hold the same interrupt: if the
virtual line of the CPU is low, an acknowledge by its guest answers that there is no interrupt,
changes nothing and publishes nothing. If the line is high, the acknowledge names the most urgent
list register, takes it, and publishes the virtual lines that this changes. -/
theorem guest_acknowledges_if_line_high {g : Controller cfg} (hg : Reachable g) {c : Nat}
    (hc : c < cfg.cpus) (distinct : (g.virtuals.row c).Distinct) {i : Initiator}
    (own : cpuOf cfg i = c) :
    let read := g.read .vcpuInterface i 0x0c .word
    (g.line c .virtualIrq = false →
      read.value = (.ok (BitVec.ofNat 32 spurious), g) ∧ read.changes = []) ∧
    (g.line c .virtualIrq = true → ∃ n, (g.virtuals.row c).Urgent n ∧
      read.value.1 = .ok ((g.virtuals.row c).lists.row n).named ∧
      ((g.virtuals.row c).lists.row n).named ≠ BitVec.ofNat 32 spurious ∧
      GuestTakes g c n read.value.2 ∧ read.changes = lineChanges g read.value.2) := by
  constructor
  · intro hlow
    have hrefused := guest_refused hg hc distinct own hlow
    refine ⟨hrefused, ?_⟩
    rw [changes_guest_acknowledge, hrefused, lineChanges_self]
  · intro hhigh
    obtain ⟨n, hurgent, htakes⟩ := (hg.guestSettled hc).takes_of_line distinct hhigh
    refine ⟨n, hurgent, ?_, ?_, guestTakes_of_takes hg hc own htakes,
      changes_guest_acknowledge g i⟩
    · rw [read_guest_acknowledge, own, htakes.acknowledge, htakes.named]
    · rw [← htakes.named]
      exact htakes.tagged_ne _

/-- CPU 2 has sent the virtual interrupt 3 of the priority 0x80 to the guest, whose CPU also has
interrupt 40 of the priority 0x90 in a list register. -/
theorem guest_acknowledges_if_line_high_sent :
    let g := (powerOn Config.standard).run
      [.write .vifControl (.cpu 0) 0x000 1 .word, .write .vcpuInterface (.cpu 0) 0x04 0xf0 .word,
        .write .vifControl (.cpu 0) 0x100 0x19000028 .word,
        .write .vifControl (.cpu 0) 0x104 0x18000803 .word]
    let read := g.read .vcpuInterface (.cpu 0) 0x0c .word
    (Reachable g ∧ (g.virtuals.row 0).Distinct ∧ g.line 0 .virtualIrq = true ∧
      read.value.1 = .ok 0x803#32) ∧
    (g.line 0 .virtualIrq = false →
      read.value = (.ok (BitVec.ofNat 32 spurious), g) ∧ read.changes = []) ∧
    (g.line 0 .virtualIrq = true → ∃ n, (g.virtuals.row 0).Urgent n ∧
      read.value.1 = .ok ((g.virtuals.row 0).lists.row n).named ∧
      ((g.virtuals.row 0).lists.row n).named ≠ BitVec.ofNat 32 spurious ∧
      GuestTakes g 0 n read.value.2 ∧ read.changes = lineChanges g read.value.2) := by
  intro g read
  have hg : Reachable g := reachable_run _
  have hdistinct : (g.virtuals.row 0).Distinct := by decide +kernel
  exact ⟨⟨hg, hdistinct, by decide +kernel, by decide +kernel⟩,
    guest_acknowledges_if_line_high hg (by decide) hdistinct rfl⟩

/-! ### The announced interrupt -/

/-- The guest is told the interrupt that it is shown, by its number alone. -/
theorem read_highest_pending (g : Controller cfg) (i : Initiator) :
    (g.read .vcpuInterface i 0x18 .word).value =
      (.ok (BitVec.ofNat 32 (g.virtuals.row (cpuOf cfg i)).highestPending), g) := rfl

/-- In every reachable state in which no two list registers of a CPU hold the same interrupt and its
virtual line is high, its guest is told the number of the interrupt that an acknowledge takes. That
is what the acknowledge answers if and only if the list register names no CPU beside it: if a
physical interrupt backs it, or it was sent by CPU 0. -/
theorem announced_as_acknowledged_iff {g : Controller cfg} (hg : Reachable g) {c : Nat}
    (hc : c < cfg.cpus) (distinct : (g.virtuals.row c).Distinct)
    (high : g.line c .virtualIrq = true) {i : Initiator} (own : cpuOf cfg i = c) :
    ∃ n, (g.virtuals.row c).Urgent n ∧
      let e := (g.virtuals.row c).lists.row n
      (g.read .vcpuInterface i 0x18 .word).value = (.ok (BitVec.ofNat 32 e.virtualId), g) ∧
      (g.read .vcpuInterface i 0x0c .word).value.1 = .ok e.named ∧
      e.named.field 0 10 = e.virtualId ∧
      ((g.read .vcpuInterface i 0x18 .word).value.1 =
          (g.read .vcpuInterface i 0x0c .word).value.1 ↔
        e.hardware = true ∨ e.sourceField = 0) := by
  obtain ⟨n, hurgent, htakes⟩ := (hg.guestSettled hc).takes_of_line distinct high
  have hannounced := read_highest_pending g i
  have hanswer := read_guest_acknowledge g i
  rw [own, ← htakes.held.names] at hannounced
  rw [own, htakes.acknowledge, htakes.named] at hanswer
  refine ⟨n, hurgent, hannounced, hanswer, ?_, ?_⟩
  · rw [← ListEntry.tagged_virtualId]
    exact field_tagged (ListEntry.virtualId_lt _) _
  · rw [hannounced, hanswer, Except.ok.injEq]
    exact ListEntry.named_eq_iff _

/-- The shared interrupt 32 backs interrupt 40, which is announced as it is acknowledged. -/
theorem announced_as_acknowledged_iff_backed :
    let g := (powerOn Config.standard).run
      [.write .vifControl (.cpu 0) 0x000 1 .word, .write .vcpuInterface (.cpu 0) 0x04 0xf0 .word,
        .write .vifControl (.cpu 0) 0x100 0x98008028 .word]
    let v := g.virtuals.row 0
    (Reachable g ∧ v.Distinct ∧ g.line 0 .virtualIrq = true) ∧
    ∃ n, v.Urgent n ∧
      let e := v.lists.row n
      (g.read .vcpuInterface (.cpu 0) 0x18 .word).value = (.ok (BitVec.ofNat 32 e.virtualId), g) ∧
      (g.read .vcpuInterface (.cpu 0) 0x0c .word).value.1 = .ok e.named ∧
      e.named.field 0 10 = e.virtualId ∧
      ((g.read .vcpuInterface (.cpu 0) 0x18 .word).value.1 =
          (g.read .vcpuInterface (.cpu 0) 0x0c .word).value.1 ↔
        e.hardware = true ∨ e.sourceField = 0) := by
  intro g v
  have hg : Reachable g := reachable_run _
  have hdistinct : v.Distinct := by decide +kernel
  have hhigh : g.line 0 .virtualIrq = true := by decide +kernel
  exact ⟨⟨hg, hdistinct, hhigh⟩,
    announced_as_acknowledged_iff hg (by decide) hdistinct hhigh rfl⟩

/-- The virtual interrupt 3 that CPU 2 has sent is announced as 3 and acknowledged as 0x803. -/
theorem announced_without_sender :
    let g := (powerOn Config.standard).run
      [.write .vifControl (.cpu 0) 0x000 1 .word, .write .vcpuInterface (.cpu 0) 0x04 0xf0 .word,
        .write .vifControl (.cpu 0) 0x100 0x18000803 .word]
    Reachable g ∧ (g.virtuals.row 0).Distinct ∧ g.line 0 .virtualIrq = true ∧
      (g.read .vcpuInterface (.cpu 0) 0x18 .word).value.1 = .ok 3#32 ∧
      (g.read .vcpuInterface (.cpu 0) 0x0c .word).value.1 = .ok 0x803#32 := by
  refine ⟨reachable_run _, ?_⟩
  decide +kernel

end Controller

end Gic
