import Gic.Proofs.ListRegisters

/-!
# The priorities of a guest stay on their scale

The priorities of a guest have five bits on a scale of eight, so there are 32 levels of
them, and the active priorities have one bit for each. The running priority is told
from these bits where they are written or a completion clears one, and from the
interrupt and the binary point where an interrupt is acknowledged. The mask and the
binary point can be written in two places each. This module says that nothing leaves
the scale, whatever is written and in whichever order interrupts are acknowledged and
completed.

## The model

* `VirtualCpu.RunsWhole` — what a guest is running is at a whole level.
* `OnScale` — a running priority fits the levels that are active.
* `Controller.ReadsOnScale` — what is read of the priorities of a guest is on the scale.

## What is proved

* `VirtualCpu.LevelsMove.runsWhole` — whichever way the running priority is set, it is
  set to a whole level.
* `VirtualCpu.Ranked.onScale` — in a virtual half that is ranked, and runs at whole
  levels, the running priority fits the levels that are active.
* `Controller.virtual_priorities_on_scale` — in every reachable state what every CPU
  reads is on the scale.
-/

namespace Gic

/-- A running priority fits the levels that are active. -/
structure OnScale (running : Nat) (active : Word) : Prop where
  /-- It is the idle one if and only if no level is active. -/
  idle_iff : running = 0xff ↔ active = 0#32
  /-- Otherwise it is a level. -/
  level : active ≠ 0#32 → 8 ∣ running ∧ running ≤ 0xf8
  /-- And it is at least as urgent as the highest level that is active. -/
  highest : active ≠ 0#32 → ∃ n < 32, active.getLsbD n = true ∧
    (∀ m, n < m → active.getLsbD m = false) ∧ running ≤ 8 * n

/-- The last level is that of the priority 0xf8. -/
theorem Priority.le_of_whole {priority : Priority} (whole : 8 ∣ priority.toNat) :
    priority.toNat ≤ 0xf8 := by
  have := priority.isLt
  omega

namespace VirtualCpu

/-! ### Running at whole levels -/

/-- What a guest is running, if anything, it runs at a whole level. -/
def RunsWhole (v : VirtualCpu) : Prop := v.running ≠ idle → 8 ∣ v.running.toNat

theorem RunsWhole.congr {v w : VirtualCpu} (hv : v.RunsWhole) (h : SameLevels v w) :
    w.RunsWhole := by
  rw [RunsWhole, h.running]
  exact hv

theorem runsWhole_powerOn : powerOn.RunsWhole := fun h => absurd rfl h

/-- The priority that active levels stand for is one of them. -/
theorem runsWhole_setActivePriorities (v : VirtualCpu) (active : Word) :
    (v.setActivePriorities active).RunsWhole := by
  intro hrunning
  rcases priorityLevel_spec active with ⟨-, hidle⟩ | ⟨n, -, -, -, hlevel⟩
  · exact absurd hidle hrunning
  · exact ⟨n, hlevel⟩

/-- Whatever the binary point hides of a whole level, what is left of it is one. -/
theorem runsWhole_enter (v : VirtualCpu) {priority : Priority} (whole : priority.toNat % 8 = 0) :
    (v.enter priority).RunsWhole := by
  -- The lowest three bits of a whole level are clear, and no mask sets them.
  intro _
  refine Nat.dvd_of_mod_eq_zero ?_
  calc (priority &&& groupMask v.binaryPoint).toNat % 2 ^ 3
      = priority.toNat % 2 ^ 3 &&& (groupMask v.binaryPoint).toNat % 2 ^ 3 := by
        rw [BitVec.toNat_and, Nat.and_mod_two_pow]
    _ = 0 &&& (groupMask v.binaryPoint).toNat % 2 ^ 3 := congrArg (· &&& _) whole
    _ = 0 := Nat.zero_and _

/-- Whichever way the running priority is set, it is set to a whole level. -/
theorem LevelsMove.runsWhole {v w : VirtualCpu} (h : LevelsMove v w) (hv : v.RunsWhole) :
    w.RunsWhole := by
  cases h with
  | stays same => exact hv.congr same
  | writes active same => exact (runsWhole_setActivePriorities v active).congr same
  | enters whole preempts same => exact (runsWhole_enter v whole).congr same

/-- In a virtual half that is ranked, and runs at whole levels, the running priority fits the levels
that are active. -/
theorem Ranked.onScale {v : VirtualCpu} (hv : v.Ranked) (whole : v.RunsWhole) :
    OnScale v.running.toNat v.activePriorities where
  idle_iff := by
    rw [← hv.idle_iff, ← BitVec.toNat_inj]
    rfl
  level hactive := by
    have hlevel := whole fun hidle => hactive (hv.idle_iff.mp hidle)
    exact ⟨hlevel, Priority.le_of_whole hlevel⟩
  highest hactive := by
    rcases priorityLevel_spec v.activePriorities with ⟨hzero, -⟩ | ⟨n, hn, hset, hmax, hlevel⟩
    · exact absurd hzero hactive
    · exact ⟨n, hn, hset, hmax, hlevel ▸ BitVec.le_def.mp hv.le⟩

/-! ### The other registers -/

/-- A mask that comes back when it is written is a whole level. -/
theorem Savable.mask_whole {v : VirtualCpu} (h : v.Savable) : 8 ∣ v.priorityMask.toNat := by
  rw [← h.mask, toNat_ofFive]
  exact Nat.dvd_mul_right 8 _

/-- A binary point that comes back when it is written is not below the smallest one. -/
theorem Savable.minBinaryPoint_le {v : VirtualCpu} (h : v.Savable) : 2 ≤ v.binaryPoint.toNat := by
  have hclamped : ∀ point : BitVec 3, clampPoint point = point → 2 ≤ point.toNat := by decide
  exact hclamped _ h.point

end VirtualCpu

namespace Controller

variable {cfg : Config}

open VirtualCpu

/-- In every reachable state what a guest is running is at a whole level. -/
theorem Reachable.runsWhole {g : Controller cfg} (h : Reachable g) {c : Nat} (hc : c < cfg.cpus) :
    (g.virtuals.row c).RunsWhole :=
  h.guest_induct hc runsWhole_powerOn fun hmoves hwhole => hmoves.levelsMove.runsWhole hwhole

/-! ### What is read -/

/-- A guest reads its registers as they are, and changes nothing by it unless it acknowledges. -/
theorem value_read_guest (g : Controller cfg) (i : Initiator) {o : Nat}
    (inside : o + 4 ≤ Interface.vcpuInterface.windowSize) (aligned : o % 4 = 0)
    (other : CpuRegister.ofOffset o ≠ .acknowledge) :
    (g.read .vcpuInterface i o .word).value =
      (.ok ((g.virtuals.row (cpuOf cfg i)).readGuest (.ofOffset o)), g) := by
  have hwindow : checkWindow cfg .vcpuInterface o .word = .ok () := if_pos inside
  have hword : checkWord o .word = .ok () := if_pos ⟨rfl, aligned⟩
  simp only [read, hwindow, readWindow, hword, other, if_false, Traced.value_bind,
    Traced.value_pure, value_resolve]

/-- What an initiator reads of the priorities of the guest of its CPU is on their scale. -/
structure ReadsOnScale (g : Controller cfg) (i : Initiator) : Prop where
  /-- The running priority fits the active priorities. -/
  running : ∃ running active : Word,
    (g.read .vcpuInterface i 0x14 .word).value = (.ok running, g) ∧
      (g.read .vifControl i 0xf0 .word).value = (.ok active, g) ∧ OnScale running.toNat active
  /-- The priority mask is a level. -/
  mask : ∃ mask : Word, (g.read .vcpuInterface i 0x04 .word).value = (.ok mask, g) ∧
    8 ∣ mask.toNat ∧ mask.toNat ≤ 0xf8
  /-- The binary point leaves out three bits at least, and eight at most. -/
  point : ∃ point : Word, (g.read .vcpuInterface i 0x08 .word).value = (.ok point, g) ∧
    2 ≤ point.toNat ∧ point.toNat ≤ 7
  /-- The binary point of the other group has three bits. -/
  aliasPoint : ∃ point : Word, (g.read .vcpuInterface i 0x1c .word).value = (.ok point, g) ∧
    point.toNat ≤ 7
  /-- The priority of a list register is the level that is read of it. -/
  lists : ∀ n < numListRegisters, ∃ word : Word,
    (g.read .vifControl i (0x100 + 4 * n) .word).value = (.ok word, g) ∧
      ((g.virtuals.row (cpuOf cfg i)).lists.row n).priority.toNat = 8 * word.field 23 5

/-- What is read of a virtual half is on the scale if what it holds is. -/
theorem readsOnScale {g : Controller cfg} {i : Initiator}
    (honScale : OnScale (g.virtuals.row (cpuOf cfg i)).running.toNat
      (g.virtuals.row (cpuOf cfg i)).activePriorities)
    (hsavable : (g.virtuals.row (cpuOf cfg i)).Savable) : g.ReadsOnScale i where
  running := by
    refine ⟨_, _, value_read_guest g i (by decide) rfl nofun, rfl, ?_⟩
    rw [← BitVec.toNat_setWidth_of_le (show 8 ≤ 32 by decide)] at honScale
    exact honScale
  mask := by
    have hmask := hsavable.mask_whole
    have hle := Priority.le_of_whole hmask
    rw [← BitVec.toNat_setWidth_of_le (show 8 ≤ 32 by decide)] at hmask hle
    exact ⟨_, value_read_guest g i (by decide) rfl nofun, hmask, hle⟩
  point := by
    have hmin := hsavable.minBinaryPoint_le
    have hlt := (g.virtuals.row (cpuOf cfg i)).binaryPoint.isLt
    rw [← BitVec.toNat_setWidth_of_le (show 3 ≤ 32 by decide)] at hmin hlt
    exact ⟨_, value_read_guest g i (by decide) rfl nofun, hmin, Nat.le_of_lt_succ hlt⟩
  aliasPoint := by
    have hlt := (g.virtuals.row (cpuOf cfg i)).aliasPoint.isLt
    rw [← BitVec.toNat_setWidth_of_le (show 3 ≤ 32 by decide)] at hlt
    exact ⟨_, value_read_guest g i (by decide) rfl nofun, Nat.le_of_lt_succ hlt⟩
  lists n hn := by
    refine ⟨_, value_read_list g i hn, ?_⟩
    rw [ListEntry.field_toWord _ (by decide)]
    exact toNat_ofFive _

/-- In every reachable state an initiator reads of every connected CPU priorities that are on their
scale: the running priority is the idle one if no level is active, and otherwise a level, at least
as urgent as the highest active one; the mask and the priorities of the list registers are levels;
and the binary points are in their ranges. -/
theorem virtual_priorities_on_scale {g : Controller cfg} (hg : Reachable g) {c : Nat}
    (hc : c < cfg.cpus) {i : Initiator} (own : cpuOf cfg i = c) : g.ReadsOnScale i := by
  subst own
  exact readsOnScale ((hg.ranked hc).onScale (hg.runsWhole hc)) (hg.savable hc)

/-- The hypervisor writes a binary point that is too small, and active priorities up to the last
level. The guest moves its binary point and acknowledges an interrupt of the priority 0x78. It is
running at 0x40. -/
theorem virtual_priorities_on_scale_grouped :
    let g := (powerOn Config.standard).run
      [.write .vifControl (.cpu 0) 0x000 1 .word,
        .write .vifControl (.cpu 0) 0x008 0xf81c0000 .word,
        .write .vifControl (.cpu 0) 0x0f0 0x80000100 .word,
        .write .vcpuInterface (.cpu 0) 0x08 5 .word,
        .write .vifControl (.cpu 0) 0x100 0x17800028 .word,
        .read .vcpuInterface (.cpu 0) 0x0c .word]
    (Reachable g ∧ 0 < Config.standard.cpus ∧ cpuOf Config.standard (.cpu 0) = 0 ∧
      (g.read .vcpuInterface (.cpu 0) 0x14 .word).value.1 = .ok 0x40#32 ∧
      (g.read .vifControl (.cpu 0) 0xf0 .word).value.1 = .ok 0x80008100#32) ∧
    g.ReadsOnScale (.cpu 0) := by
  intro g
  have hg : Reachable g := reachable_run _
  have hc : 0 < Config.standard.cpus := by decide
  have own : cpuOf Config.standard (.cpu 0) = 0 := by decide
  exact ⟨⟨hg, hc, own, by decide +kernel, by decide +kernel⟩,
    virtual_priorities_on_scale hg hc own⟩

end Controller

end Gic
