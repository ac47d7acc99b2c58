import Gic.Proofs.Saving
import Mathlib.Data.Finset.Card
import Mathlib.Data.Finset.Max

/-!
# The levels a guest is active at

A guest's nested interrupts are kept as bits, one for each of the 32 levels of
priority. An acknowledge sets a bit, a completion clears the lowest one, and the
running priority is told from the bits in one place and from the priority of the
interrupt in another. This module says what these operations do with the set of
levels, and how the running priority and the levels are tied together.

## The model

* `levels` — the levels whose bits are set, and `depth` — how many there are.
* `VirtualCpu.SameLevels` — two virtual halves have the same active priorities and
  the same running priority.
* `VirtualCpu.LevelsMove` — what an action may do with the two: leave them, set both
  to a word and what it stands for, or start an interrupt.
* `VirtualCpu.Ranked` — what ties the running priority of a virtual half to its
  active priorities.

## What is proved

* `levels_or_levelBit`, `levels_dropLowest` — an acknowledge puts a level in, a
  completion takes the lowest one out.
* `dropLowest_or_levelBit_iff`, `priorityLevel_dropLowest` — what is left when a
  completion follows an acknowledge.
* `Controller.GuestMoves.levelsMove` — an action does one of these three things to each
  guest, so a proof about the running priority has three cases.
* `Controller.Reachable.ranked` — in every reachable state the virtual half of every
  CPU is ranked.
-/

namespace Gic

namespace VirtualCpu

/-! ### Sets of levels -/

/-- The levels whose bits are set. -/
def levels (active : Word) : Finset Nat := {n ∈ Finset.range 32 | active.getLsbD n}

/-- The number of levels whose bits are set. -/
def depth (active : Word) : Nat := (levels active).card

theorem mem_levels {active : Word} {n : Nat} : n ∈ levels active ↔ active.getLsbD n = true := by
  rw [levels, Finset.mem_filter, Finset.mem_range, and_iff_right_iff_imp]
  exact BitVec.lt_of_getLsbD

theorem depth_le (active : Word) : depth active ≤ 32 := by
  have hsub : levels active ⊆ Finset.range 32 := Finset.filter_subset _ _
  have hcard := Finset.card_le_card hsub
  rwa [Finset.card_range] at hcard

theorem eq_of_levels {a b : Word} (h : levels a = levels b) : a = b := by
  apply BitVec.eq_of_getLsbD_eq
  intro n _
  rw [Bool.eq_iff_iff, ← mem_levels, ← mem_levels, h]

theorem levels_eq_empty {active : Word} : levels active = ∅ ↔ active = 0#32 := by
  have hzero : levels 0#32 = ∅ := Finset.filter_false_of_mem fun n _ => by
    rw [BitVec.getLsbD_zero]
    exact Bool.false_ne_true
  constructor
  · intro h
    exact eq_of_levels (h.trans hzero.symm)
  · rintro rfl
    exact hzero

theorem depth_eq_zero {active : Word} : depth active = 0 ↔ active = 0#32 := by
  rw [depth, Finset.card_eq_zero, levels_eq_empty]

/-- There are no more levels than bits. -/
theorem level_lt (priority : Priority) : priority.toNat / 8 < 32 := by
  have := priority.isLt
  omega

/-- Starting an interrupt puts its level in. -/
theorem levels_or_levelBit (active : Word) (priority : Priority) :
    levels (active ||| levelBit priority) = insert (priority.toNat / 8) (levels active) := by
  ext n
  rw [Finset.mem_insert, mem_levels, mem_levels, levelBit, BitVec.getLsbD_or, BitVec.getLsbD_twoPow,
    Bool.or_eq_true, Bool.and_eq_true, decide_eq_true_eq, decide_eq_true_eq]
  constructor
  · rintro (h | ⟨-, rfl⟩)
    · exact .inr h
    · exact .inl rfl
  · rintro (rfl | h)
    · exact .inr ⟨level_lt priority, rfl⟩
    · exact .inl h

/-- What is carried into a bit when one is subtracted: something, unless a lower bit lends. -/
theorem carry_allOnes (active : Word) (n : Nat) (h : n ≤ 32) :
    BitVec.carry n active (BitVec.allOnes 32) false = true ↔ ∃ m < n, active.getLsbD m = true := by
  induction n with
  | zero =>
    rw [BitVec.carry_zero]
    exact iff_of_false Bool.false_ne_true fun ⟨m, hm, _⟩ => Nat.not_lt_zero m hm
  | succ n ih =>
    rw [BitVec.carry_succ, BitVec.getLsbD_allOnes, decide_eq_true (show n < 32 by omega)]
    have hmaj : Bool.atLeastTwo (active.getLsbD n) true
          (BitVec.carry n active (BitVec.allOnes 32) false) = true ↔
        active.getLsbD n = true ∨ BitVec.carry n active (BitVec.allOnes 32) false = true := by
      cases active.getLsbD n <;>
        cases BitVec.carry n active (BitVec.allOnes 32) false <;> decide
    rw [hmaj, ih (by omega), Nat.exists_lt_succ_right, or_comm]

/-- The bits that are left when the lowest one is cleared. -/
theorem getLsbD_dropLowest {active : Word} {n : Nat} :
    (dropLowest active).getLsbD n = true ↔
      active.getLsbD n = true ∧ ∃ m < n, active.getLsbD m = true := by
  by_cases hn : n < 32
  · have hsub : active - 1#32 = active + BitVec.allOnes 32 := by
      rw [BitVec.sub_eq_add_neg, BitVec.neg_one_eq_allOnes]
    rw [dropLowest, hsub, BitVec.getLsbD_and, BitVec.getLsbD_add hn, BitVec.getLsbD_allOnes,
      decide_eq_true hn, ← carry_allOnes active n (Nat.le_of_lt hn)]
    cases active.getLsbD n <;>
      cases BitVec.carry n active (BitVec.allOnes 32) false <;> decide
  · have hout : ∀ w : Word, w.getLsbD n = false := fun w =>
      BitVec.getLsbD_of_ge w n (Nat.not_lt.mp hn)
    rw [hout, hout]
    exact iff_of_false Bool.false_ne_true fun h => Bool.false_ne_true h.1

/-- A completion takes the lowest level out. -/
theorem levels_dropLowest {active : Word} {n : Nat} (set : active.getLsbD n = true)
    (lowest : ∀ m < n, active.getLsbD m = false) :
    levels (dropLowest active) = (levels active).erase n := by
  ext k
  rw [Finset.mem_erase, mem_levels, mem_levels, getLsbD_dropLowest, and_comm]
  refine and_congr_left fun hk => ⟨?_, fun hne => ⟨n, ?_, set⟩⟩
  · rintro ⟨m, hm, hset⟩ rfl
    rw [lowest m hm] at hset
    cases hset
  · refine Nat.lt_of_le_of_ne (Nat.not_lt.mp fun hlt => ?_) (Ne.symm hne)
    rw [lowest k hlt] at hk
    cases hk

/-- If a level is active, there is a lowest one. -/
theorem exists_lowest {active : Word} (h : active ≠ 0#32) :
    ∃ n, active.getLsbD n = true ∧ ∀ m < n, active.getLsbD m = false := by
  have hsome : (levels active).Nonempty :=
    Finset.nonempty_iff_ne_empty.mpr fun hempty => h (levels_eq_empty.mp hempty)
  refine ⟨(levels active).min' hsome, mem_levels.mp (Finset.min'_mem _ hsome), fun m hm => ?_⟩
  rw [← Bool.not_eq_true]
  exact fun hset => absurd (Finset.min'_le _ m (mem_levels.mpr hset)) (Nat.not_le.mpr hm)

/-- A completion leaves one level less, or none. -/
theorem depth_dropLowest (active : Word) : depth (dropLowest active) = depth active - 1 := by
  by_cases hzero : active = 0#32
  · subst hzero
    decide
  · obtain ⟨n, hset, hlowest⟩ := exists_lowest hzero
    rw [depth, levels_dropLowest hset hlowest, Finset.card_erase_of_mem (mem_levels.mpr hset), depth]

/-- A completion after an acknowledge leaves the levels as they were if and only if the level of
the interrupt was below all of them. -/
theorem dropLowest_or_levelBit_iff (active : Word) (priority : Priority) :
    dropLowest (active ||| levelBit priority) = active ↔
      ∀ n, active.getLsbD n = true → priority.toNat / 8 < n := by
  have hbit : ∀ n, (active ||| levelBit priority).getLsbD n = true ↔
      n = priority.toNat / 8 ∨ active.getLsbD n = true := fun n => by
    rw [← mem_levels, levels_or_levelBit, Finset.mem_insert, mem_levels]
  constructor
  · intro h n hn
    -- A level that survives a completion has another one below it: in the end the new one.
    induction n using Nat.strongRecOn with
    | ind n ih =>
      have hkept := hn
      rw [← h, getLsbD_dropLowest] at hkept
      obtain ⟨-, m, hm, hset⟩ := hkept
      rcases (hbit m).mp hset with rfl | hset
      · exact hm
      · exact Nat.lt_trans (ih m hm hset) hm
  · intro h
    apply eq_of_levels
    have hset := (hbit (priority.toNat / 8)).mpr (.inl rfl)
    have hout : priority.toNat / 8 ∉ levels active := fun hin =>
      Nat.lt_irrefl _ (h _ (mem_levels.mp hin))
    rw [levels_dropLowest hset, levels_or_levelBit, Finset.erase_insert hout]
    intro m hm
    rw [← Bool.not_eq_true, hbit m]
    rintro (rfl | hset)
    · exact Nat.lt_irrefl _ hm
    · exact Nat.lt_asymm hm (h m hset)

/-! ### The running priority that levels stand for -/

/-- A priority of five bits is a whole level. -/
theorem toNat_ofFive (upper : BitVec 5) : (Priority.ofFive upper).toNat = 8 * upper.toNat := by
  revert upper
  decide

/-- Levels with the same highest one stand for the same priority. -/
theorem priorityLevel_congr {a b : Word} {n : Nat} (ha : a.getLsbD n = true)
    (hb : b.getLsbD n = true) (hamax : ∀ m, n < m → a.getLsbD m = false)
    (hbmax : ∀ m, n < m → b.getLsbD m = false) : priorityLevel a = priorityLevel b := by
  have hhighest : ∀ {w : Word}, w.getLsbD n = true → (∀ m, n < m → w.getLsbD m = false) →
      (priorityLevel w).toNat = 8 * n := by
    intro w hw hwmax
    rcases priorityLevel_spec w with ⟨rfl, -⟩ | ⟨k, -, hk, hkmax, hlevel⟩
    · rw [BitVec.getLsbD_zero] at hw
      cases hw
    · rcases Nat.lt_trichotomy k n with hlt | rfl | hlt
      · rw [hkmax n hlt] at hw
        cases hw
      · exact hlevel
      · rw [hwmax k hlt] at hk
        cases hk
  exact BitVec.eq_of_toNat_eq ((hhighest ha hamax).trans (hhighest hb hbmax).symm)

/-- A completion after an acknowledge of something more urgent than the levels stand for: they
stand for the same priority as before. -/
theorem priorityLevel_dropLowest {active : Word} {priority : Priority}
    (whole : priority.toNat % 8 = 0) (h : priority < priorityLevel active) :
    priorityLevel (dropLowest (active ||| levelBit priority)) = priorityLevel active := by
  have hbit : ∀ n, (active ||| levelBit priority).getLsbD n = true ↔
      n = priority.toNat / 8 ∨ active.getLsbD n = true := fun n => by
    rw [← mem_levels, levels_or_levelBit, Finset.mem_insert, mem_levels]
  rcases priorityLevel_spec active with ⟨rfl, -⟩ | ⟨n, -, hn, hnmax, hlevel⟩
  · rw [(dropLowest_or_levelBit_iff 0#32 priority).mpr]
    intro n hn
    rw [BitVec.getLsbD_zero] at hn
    cases hn
  · -- The new level is below the highest one, which therefore survives the completion.
    have hbelow : priority.toNat / 8 < n := by
      rw [BitVec.lt_def, hlevel] at h
      omega
    refine priorityLevel_congr (n := n) ?_ hn (fun m hm => ?_) hnmax
    · exact getLsbD_dropLowest.mpr
        ⟨(hbit n).mpr (.inr hn), priority.toNat / 8, hbelow, (hbit _).mpr (.inl rfl)⟩
    · rw [← Bool.not_eq_true, getLsbD_dropLowest, hbit m]
      rintro ⟨rfl | hset, -⟩
      · omega
      · rw [hnmax m hm] at hset
        cases hset

/-- No level that is active is above the priority that the levels stand for. -/
theorem le_priorityLevel {active : Word} {n : Nat} (h : active.getLsbD n = true) :
    8 * n ≤ (priorityLevel active).toNat := by
  rcases priorityLevel_spec active with ⟨rfl, -⟩ | ⟨k, -, -, hkmax, hlevel⟩
  · rw [BitVec.getLsbD_zero] at h
    cases h
  · rw [hlevel]
    refine Nat.mul_le_mul_left 8 (Nat.not_lt.mp fun hlt => ?_)
    rw [hkmax n hlt] at h
    cases h

/-- Only no level at all stands for the idle priority. -/
theorem priorityLevel_eq_idle {active : Word} : priorityLevel active = idle ↔ active = 0#32 := by
  rcases priorityLevel_spec active with ⟨rfl, h⟩ | ⟨n, -, hn, -, hlevel⟩
  · exact iff_of_true h rfl
  · refine iff_of_false (fun h => ?_) ?_
    · rw [h, show idle.toNat = 255 from rfl] at hlevel
      omega
    · rintro rfl
      rw [BitVec.getLsbD_zero] at hn
      cases hn

/-! ### The running priority of a guest -/

/-- What is more urgent than something is not idle. -/
theorem not_idle_le_of_lt {a b : Priority} (h : a < b) : ¬ idle ≤ a := by
  have := b.isLt
  rw [BitVec.lt_def] at h
  rw [BitVec.le_def, show idle.toNat = 255 from rfl]
  omega

/-- What a guest starts runs at most at its own priority. -/
theorem running_enter_le (v : VirtualCpu) (priority : Priority) :
    (v.enter priority).running ≤ priority := by
  rw [BitVec.le_def, enter, BitVec.toNat_and]
  exact Nat.and_le_left

/-- The level of what a guest starts is active. -/
theorem getLsbD_enter (v : VirtualCpu) (priority : Priority) :
    (v.enter priority).activePriorities.getLsbD (priority.toNat / 8) = true := by
  rw [← mem_levels, enter, levels_or_levelBit]
  exact Finset.mem_insert_self _ _

/-- The priority of a list register, or of none, is a whole level. -/
theorem priorityOf_whole (v : VirtualCpu) (irq : Nat) : (v.priorityOf irq).toNat % 8 = 0 := by
  rw [priorityOf]
  split
  · rfl
  · rw [ListEntry.priority, toNat_ofFive]
    exact Nat.mul_mod_right _ _

/-! ### Steps with the levels of a guest -/

/-- Two virtual halves have the same active priorities and the same running priority. -/
structure SameLevels (v w : VirtualCpu) : Prop where
  activePriorities : w.activePriorities = v.activePriorities
  running : w.running = v.running

theorem SameLevels.refl (v : VirtualCpu) : SameLevels v v := ⟨rfl, rfl⟩

theorem SameLevels.decided {v w : VirtualCpu} (h : SameLevels v w) : SameLevels v w.decided :=
  ⟨h.activePriorities, h.running⟩

theorem SameLevels.result {v : VirtualCpu} {w : VirtualWritten} (h : SameLevels v w.state) :
    SameLevels v w.result := by
  unfold VirtualWritten.result
  split
  · exact h.decided
  · exact h

/-- The hypervisor changes the levels only where they are written. -/
theorem sameLevels_writeVif (v : VirtualCpu) (cpu : Nat) {register : VifRegister} (value : Word)
    (h : register ≠ .activePriorities) :
    SameLevels v (v.writeVif cpu register value).value.state := by
  cases register with
  | activePriorities => exact absurd rfl h
  | list n =>
    simp only [VirtualCpu.writeVif]
    split
    · exact .refl v
    · split <;> exact ⟨rfl, rfl⟩
  | _ => exact ⟨rfl, rfl⟩

/-- So does the guest, other than by a completion. -/
theorem sameLevels_writeGuest (v : VirtualCpu) (cpu : Nat) {register : CpuRegister} (value : Word)
    (h : register ≠ .activePriorities 0) :
    SameLevels v (v.writeGuest cpu register value).value.state := by
  cases register with
  | activePriorities n =>
    cases n with
    | zero => exact absurd rfl h
    | succ n => exact .refl v
  | _ => exact ⟨rfl, rfl⟩

/-- A completion sets the levels to what is left without the lowest one, whatever it names. -/
theorem sameLevels_complete (v : VirtualCpu) (cpu irq : Nat) :
    SameLevels (v.setActivePriorities (dropLowest v.activePriorities))
      (v.complete cpu irq).value.1 := by
  simp only [VirtualCpu.complete, Traced.value_bind]
  cases v.find? irq <;> exact ⟨rfl, rfl⟩

/-- What an action may do with the levels of a guest. -/
inductive LevelsMove (v : VirtualCpu) : VirtualCpu → Prop where
  /-- They stay as they are. -/
  | stays {w : VirtualCpu} (same : SameLevels v w) : LevelsMove v w
  /-- They are set, and the running priority to what they stand for. -/
  | writes {w : VirtualCpu} (active : Word) (same : SameLevels (v.setActivePriorities active) w) :
      LevelsMove v w
  /-- The guest starts an interrupt of whole level that preempts what is running. -/
  | enters {w : VirtualCpu} {priority : Priority} (whole : priority.toNat % 8 = 0)
      (preempts : priority < v.running) (same : SameLevels (v.enter priority) w) : LevelsMove v w

theorem LevelsMove.decided {v w : VirtualCpu} (h : LevelsMove v w) : LevelsMove v w.decided := by
  cases h with
  | stays same => exact .stays same.decided
  | writes active same => exact .writes active same.decided
  | enters whole preempts same => exact .enters whole preempts same.decided

theorem LevelsMove.result {v : VirtualCpu} {w : VirtualWritten} (h : LevelsMove v w.state) :
    LevelsMove v w.result := by
  unfold VirtualWritten.result
  split
  · exact h.decided
  · exact h

theorem levelsMove_writeVif (v : VirtualCpu) (cpu : Nat) (register : VifRegister) (value : Word) :
    LevelsMove v (v.writeVif cpu register value).value.state := by
  by_cases h : register = .activePriorities
  · subst h
    exact .writes value (.refl _)
  · exact .stays (sameLevels_writeVif v cpu value h)

theorem levelsMove_writeGuest (v : VirtualCpu) (cpu : Nat) (register : CpuRegister) (value : Word) :
    LevelsMove v (v.writeGuest cpu register value).value.state := by
  by_cases h : register = .activePriorities 0
  · subst h
    exact .writes value (.refl _)
  · exact .stays (sameLevels_writeGuest v cpu value h)

theorem levelsMove_acknowledge (v : VirtualCpu) (cpu : Nat) :
    LevelsMove v (v.acknowledge cpu).value.2.state := by
  unfold VirtualCpu.acknowledge
  dsimp only
  split
  · exact .stays (.refl v)
  · simp only [Traced.value_bind]
    split
    · exact .stays (.refl v)
    · rename_i hpreempts
      refine .enters (priorityOf_whole v v.highestPending) (BitVec.not_le.mp hpreempts) ?_
      cases v.find? v.highestPending <;> exact ⟨rfl, rfl⟩

theorem levelsMove_complete (v : VirtualCpu) (cpu irq : Nat) :
    LevelsMove v (v.complete cpu irq).value.1 :=
  .writes (dropLowest v.activePriorities) (sameLevels_complete v cpu irq)

/-! ### What ties the running priority to the levels -/

/-- What ties the running priority of a guest to its active priorities. -/
structure Ranked (v : VirtualCpu) : Prop where
  /-- Nothing is running if and only if no level is active. -/
  idle_iff : v.running = idle ↔ v.activePriorities = 0#32
  /-- What is running is at least as urgent as the priority that the levels stand for. -/
  le : v.running ≤ priorityLevel v.activePriorities

theorem ranked_powerOn : powerOn.Ranked where
  idle_iff := iff_of_true rfl rfl
  le := BitVec.le_refl _

theorem Ranked.congr {v w : VirtualCpu} (hv : v.Ranked) (h : SameLevels v w) : w.Ranked where
  idle_iff := by
    rw [h.running, h.activePriorities]
    exact hv.idle_iff
  le := by
    rw [h.running, h.activePriorities]
    exact hv.le

/-- Writing active priorities sets the running priority to what they stand for. -/
theorem ranked_setActivePriorities (v : VirtualCpu) (active : Word) :
    (v.setActivePriorities active).Ranked :=
  ⟨priorityLevel_eq_idle, BitVec.le_refl _⟩

/-- A guest starts an interrupt of whole level that preempts what is running. -/
theorem ranked_enter (v : VirtualCpu) {priority : Priority} (whole : priority.toNat % 8 = 0)
    (preempts : priority < v.running) : (v.enter priority).Ranked where
  idle_iff := by
    refine iff_of_false (fun hidle => ?_) fun hzero => ?_
    · exact not_idle_le_of_lt preempts (hidle ▸ running_enter_le v priority)
    · have hset := getLsbD_enter v priority
      rw [hzero, BitVec.getLsbD_zero] at hset
      cases hset
  le := by
    have hle := BitVec.le_def.mp (running_enter_le v priority)
    have hlevel := le_priorityLevel (getLsbD_enter v priority)
    rw [BitVec.le_def]
    omega

/-- What a step with the levels leaves is ranked, if what it started from is. -/
theorem LevelsMove.ranked {v w : VirtualCpu} (h : LevelsMove v w) (hv : v.Ranked) : w.Ranked := by
  cases h with
  | stays same => exact hv.congr same
  | writes active same => exact (ranked_setActivePriorities v active).congr same
  | enters whole preempts same => exact (ranked_enter v whole preempts).congr same

end VirtualCpu

namespace Controller

variable {cfg : Config}

open VirtualCpu

/-- Every rule takes a step with the levels of a guest. -/
theorem GuestMoves.levelsMove {g : Controller cfg} {c : Nat} {a : Action} {v : VirtualCpu}
    (h : GuestMoves g c a v) : LevelsMove (g.virtuals.row c) v := by
  cases h with
  | stays => exact .stays (.refl _)
  | decides => exact .stays (SameLevels.refl _).decided
  | hypervisorWrites => exact (levelsMove_writeVif _ c _ _).result
  | guestWrites => exact (levelsMove_writeGuest _ c _ _).result
  | acknowledges => exact (levelsMove_acknowledge _ c).result
  | completes => exact (levelsMove_complete _ c _).decided
  | powersOn => exact .writes 0#32 ⟨rfl, rfl⟩

/-- In every reachable state the running priority of a guest is tied to its levels. -/
theorem Reachable.ranked {g : Controller cfg} (h : Reachable g) {c : Nat} (hc : c < cfg.cpus) :
    (g.virtuals.row c).Ranked :=
  h.guest_induct hc ranked_powerOn fun hmoves hranked => hmoves.levelsMove.ranked hranked

end Controller

end Gic
