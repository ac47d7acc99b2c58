import Gic.Proofs.GuestRoundTrip

/-!
# As many completions as acknowledges

A guest that has acknowledged interrupts within one another returns to idle by
completing them, whichever numbers it writes: all that counts is how often. The
interrupts may have any priorities, the list registers and the binary point may be
rewritten on the way, and other CPUs and the physical half may do what they want.

## The model

* `tally` — how often something of a kind is done in a run.
* `acknowledges`, `completes`, `writesLevels` — an action is a granted acknowledge by
  the guest of a CPU, a completion that is not ignored, or a write to the active
  priorities.
* `VirtualCpu.Stacked` — what a guest is running is at least as urgent as every
  level that is active.

## What is proved

* `taken_of_acknowledges`, `sameLevels_of_completes`, `sameLevels_after` — what an
  action does with the levels of a guest.
* `depth_of_acknowledges`, `depth_of_completions` — how many levels are active after
  a run of the one kind or the other.
* `as_many_completions_as_acknowledges` — a guest is idle again after as many
  completions as it made acknowledges, and not before.
-/

namespace Gic

/-- Where the hypervisor finds the active priorities. -/
theorem VifRegister.offset_of_activePriorities {o : Nat} (h : ofOffset o = .activePriorities) :
    o = 0xf0 := by
  unfold ofOffset at h
  iterate 4 replace h := (peel h nofun).2
  by_cases ho : o = 0xf0
  · exact ho
  · rw [if_neg ho] at h
    replace h := (peel h nofun).2
    cases h

/-- Where the guest finds its active priorities. -/
theorem CpuRegister.offset_of_activePriorities {o : Nat} (h : ofOffset o = .activePriorities 0)
    (aligned : o % 4 = 0) : o = 0xd0 := by
  unfold ofOffset at h
  iterate 8 replace h := (peel h nofun).2
  rcases chosen h with ⟨hrange, hplace⟩ | ⟨-, h⟩
  · rw [activePriorities.injEq] at hplace
    omega
  · iterate 3 replace h := (peel h nofun).2
    cases h

namespace VirtualCpu

/-- What a guest is running is at least as urgent as every level that is active. -/
def Stacked (v : VirtualCpu) : Prop :=
  ∀ level, v.activePriorities.getLsbD level = true → v.running.toNat ≤ 8 * level

theorem stacked_of_zero {v : VirtualCpu} (h : v.activePriorities = 0#32) : v.Stacked := by
  intro level hset
  rw [h, BitVec.getLsbD_zero] at hset
  cases hset

theorem Stacked.congr {v w : VirtualCpu} (hv : v.Stacked) (h : SameLevels v w) : w.Stacked := by
  intro level hset
  rw [h.activePriorities] at hset
  rw [h.running]
  exact hv level hset

/-- The priority of a list register is a whole level. -/
theorem ListEntry.priority_whole (e : ListEntry) :
    e.priority.toNat = 8 * (e.priority.toNat / 8) := by
  rw [ListEntry.priority, toNat_ofFive]
  omega

/-- An acknowledge lowers the running priority. -/
theorem Takes.running_lt {v : VirtualCpu} {n : Nat} (h : v.Takes n) :
    (v.taken n).running < v.running := by
  have hle := BitVec.le_def.mp (running_enter_le v (v.lists.row n).priority)
  exact BitVec.lt_def.mpr (Nat.lt_of_le_of_lt hle (BitVec.lt_def.mp h.preempts))

/-- In a stacked state the level of what is acknowledged lies below all others. -/
theorem Takes.level_lt {v : VirtualCpu} {n : Nat} (h : v.Takes n) (hv : v.Stacked) {level : Nat}
    (hset : v.activePriorities.getLsbD level = true) :
    (v.lists.row n).priority.toNat / 8 < level := by
  have hrunning := hv level hset
  have hpreempts := BitVec.lt_def.mp h.preempts
  have hwhole := ListEntry.priority_whole (v.lists.row n)
  omega

theorem Takes.levels_taken {v : VirtualCpu} {n : Nat} :
    levels (v.taken n).activePriorities =
      insert ((v.lists.row n).priority.toNat / 8) (levels v.activePriorities) :=
  levels_or_levelBit _ _

/-- An acknowledge keeps a state stacked. -/
theorem Takes.stacked {v : VirtualCpu} {n : Nat} (h : v.Takes n) (hv : v.Stacked) :
    (v.taken n).Stacked := by
  intro level hset
  have hle := BitVec.le_def.mp (running_enter_le v (v.lists.row n).priority)
  have hwhole := ListEntry.priority_whole (v.lists.row n)
  rw [← mem_levels, Takes.levels_taken, Finset.mem_insert, mem_levels] at hset
  rcases hset with rfl | hset
  · exact Nat.le_trans hle (Nat.le_of_eq hwhole)
  · have hlt := h.level_lt hv hset
    refine Nat.le_trans hle ?_
    omega

/-- In a stacked state an acknowledge makes one level more active. -/
theorem Takes.depth_taken {v : VirtualCpu} {n : Nat} (h : v.Takes n) (hv : v.Stacked) :
    depth (v.taken n).activePriorities = depth v.activePriorities + 1 := by
  have hout : (v.lists.row n).priority.toNat / 8 ∉ levels v.activePriorities := fun hin =>
    Nat.lt_irrefl _ (h.level_lt hv (mem_levels.mp hin))
  rw [depth, Takes.levels_taken, Finset.card_insert_of_notMem hout, depth]

end VirtualCpu

namespace Controller

variable {cfg : Config}

open VirtualCpu

/-! ### Kinds of actions -/

/-- How often something of a kind is done in a run. -/
def tally (kind : Controller cfg → Action → Bool) (g : Controller cfg) : List Action → Nat
  | [] => 0
  | a :: rest => (kind g a).toNat + tally kind (g.after a) rest

theorem tally_concat (kind : Controller cfg → Action → Bool) (g : Controller cfg)
    (actions : List Action) (a : Action) :
    tally kind g (actions ++ [a]) = tally kind g actions + (kind (g.run actions) a).toNat := by
  induction actions generalizing g with
  | nil => exact Nat.add_comm _ _
  | cons b rest ih =>
    show (kind g b).toNat + tally kind (g.after b) (rest ++ [a]) = _
    rw [ih, ← Nat.add_assoc]
    rfl

/-- The guest of a CPU reads its acknowledge register and is not answered that there is nothing. -/
def acknowledges (c : Nat) (g : Controller cfg) : Action → Bool
  | .read window i o w =>
    decide (window = .vcpuInterface ∧ o = 0x0c ∧ w = .word ∧ cpuOf cfg i = c) &&
      decide ((g.read window i o w).value.1 ≠ .ok (BitVec.ofNat 32 spurious))
  | _ => false

/-- The guest of a CPU completes an interrupt that can exist. -/
def completes (cfg : Config) (c : Nat) : Action → Bool
  | .write window i o v w =>
    decide (window = .vcpuInterface ∧ o = 0x10 ∧ w = .word ∧ cpuOf cfg i = c ∧
      Word.field (v.setWidth 32) 0 10 < maxIrqs)
  | _ => false

/-- The active priorities of a CPU are written, by its hypervisor or by its guest. -/
def writesLevels (cfg : Config) (c : Nat) : Action → Bool
  | .write window i o _ w =>
    decide (w = .word ∧ cpuOf cfg i = c ∧
      (window = .vifControl ∧ o = 0xf0 ∨ window = .vcpuInterface ∧ o = 0xd0))
  | _ => false

/-- A granted acknowledge takes a list register. -/
theorem taken_of_acknowledges {g : Controller cfg} (hg : Reachable g) {c : Nat}
    (hc : c < cfg.cpus) {a : Action} (h : acknowledges c g a = true) :
    ∃ n, (g.virtuals.row c).Takes n ∧
      (g.after a).virtuals.row c = ((g.virtuals.row c).taken n).decided := by
  cases a with
  | read window i o w =>
    rw [acknowledges, Bool.and_eq_true, decide_eq_true_eq, decide_eq_true_eq] at h
    obtain ⟨⟨rfl, rfl, rfl, own⟩, hanswer⟩ := h
    rcases (hg.guestSettled hc).takes_or_refuses c with ⟨n, htakes⟩ | hrefused
    · exact ⟨n, htakes, row_after_acknowledge g hc own htakes⟩
    · rw [read_guest_acknowledge, own, hrefused] at hanswer
      exact absurd rfl hanswer
  | _ => cases h

/-- A completion takes the lowest level out. -/
theorem sameLevels_of_completes (g : Controller cfg) {c : Nat} (hc : c < cfg.cpus) {a : Action}
    (h : completes cfg c a = true) :
    SameLevels ((g.virtuals.row c).setActivePriorities
      (dropLowest (g.virtuals.row c).activePriorities)) ((g.after a).virtuals.row c) := by
  cases a with
  | write window i o v w =>
    rw [completes, decide_eq_true_eq] at h
    obtain ⟨rfl, rfl, rfl, own, valid⟩ := h
    have hafter : g.after (.write .vcpuInterface i 0x10 v .word) =
        (g.completeVirtual (cpuOf cfg i) (v.setWidth 32)).value := rfl
    rw [hafter, own, row_completeVirtual g c _ valid hc, if_pos rfl]
    exact (sameLevels_complete _ c _).decided
  | _ => cases h

/-- Nothing else changes the levels of a guest. -/
theorem sameLevels_after {g : Controller cfg} (hg : Reachable g) {c : Nat} (hc : c < cfg.cpus)
    {a : Action} (hreset : a ≠ .reset) (hwrite : writesLevels cfg c a = false)
    (hacknowledge : acknowledges c g a = false) (hcomplete : completes cfg c a = false) :
    SameLevels (g.virtuals.row c) ((g.after a).virtuals.row c) := by
  have hmoves := guestMoves_after g hc a
  generalize hw : (g.after a).virtuals.row c = w at hmoves
  cases hmoves with
  | stays => exact .refl _
  | decides => exact (SameLevels.refl _).decided
  | @hypervisorWrites i o v own =>
    refine (sameLevels_writeVif _ c _ fun h => ?_).result
    obtain rfl := VifRegister.offset_of_activePriorities h
    rw [writesLevels, decide_eq_false_iff_not] at hwrite
    exact hwrite ⟨rfl, own, .inl ⟨rfl, rfl⟩⟩
  | @guestWrites i o v own other =>
    by_cases aligned : o % 4 = 0
    · refine (sameLevels_writeGuest _ c _ fun h => ?_).result
      obtain rfl := CpuRegister.offset_of_activePriorities h aligned
      rw [writesLevels, decide_eq_false_iff_not] at hwrite
      exact hwrite ⟨rfl, own, .inr ⟨rfl, rfl⟩⟩
    · have hwindow : Interface.vcpuInterface ≠ .distributor := by decide
      rw [← hw, after_write_unaligned g hwindow i v aligned]
      exact .refl _
  | @acknowledges i own =>
    rcases (hg.guestSettled hc).takes_or_refuses c with ⟨n, htakes⟩ | hrefused
    · have hanswer : (g.read .vcpuInterface i 0x0c .word).value.1 ≠
          .ok (BitVec.ofNat 32 spurious) := by
        rw [read_guest_acknowledge, own, htakes.acknowledge]
        exact fun h => htakes.tagged_ne _ (Except.ok.inj h)
      rw [Controller.acknowledges, decide_eq_true ⟨rfl, rfl, rfl, own⟩, Bool.true_and,
        decide_eq_false_iff_not] at hacknowledge
      exact absurd hanswer hacknowledge
    · rw [hrefused]
      exact .refl _
  | @completes i v own valid =>
    rw [Controller.completes, decide_eq_false_iff_not] at hcomplete
    exact absurd ⟨rfl, rfl, rfl, own, valid⟩ hcomplete
  | powersOn => exact absurd rfl hreset

/-! ### Runs -/

/-- A run without completions keeps a guest stacked, and makes as many levels active as it grants
acknowledges. -/
theorem depth_of_acknowledges {g : Controller cfg} (hg : Reachable g) {c : Nat} (hc : c < cfg.cpus)
    (start : (g.virtuals.row c).Stacked) {actions : List Action}
    (h : Avoids (fun _ a => a = .reset ∨ writesLevels cfg c a = true ∨ completes cfg c a = true)
      g actions) :
    ((g.run actions).virtuals.row c).Stacked ∧
      depth ((g.run actions).virtuals.row c).activePriorities =
        depth (g.virtuals.row c).activePriorities + tally (acknowledges c) g actions := by
  induction actions using List.reverseRecOn with
  | nil => exact ⟨start, rfl⟩
  | append_singleton actions a ih =>
    obtain ⟨hactions, ha⟩ := avoids_concat.mp h
    obtain ⟨hstacked, hdepth⟩ := ih hactions
    simp only [not_or, Bool.not_eq_true] at ha
    obtain ⟨hreset, hwrite, hcomplete⟩ := ha
    rw [run_concat, tally_concat, ← Nat.add_assoc, ← hdepth]
    cases hacknowledge : acknowledges c (g.run actions) a with
    | true =>
      obtain ⟨n, htakes, hrow⟩ := taken_of_acknowledges (hg.run actions) hc hacknowledge
      rw [hrow]
      exact ⟨htakes.stacked hstacked, htakes.depth_taken hstacked⟩
    | false =>
      have hsame := sameLevels_after (hg.run actions) hc hreset hwrite hacknowledge hcomplete
      rw [hsame.activePriorities]
      exact ⟨hstacked.congr hsame, rfl⟩

/-- A run without acknowledges takes out as many levels as it contains completions, as long as
there are any. -/
theorem depth_of_completions {g : Controller cfg} (hg : Reachable g) {c : Nat} (hc : c < cfg.cpus)
    {actions : List Action}
    (h : Avoids (fun g a => a = .reset ∨ writesLevels cfg c a = true ∨ acknowledges c g a = true)
      g actions) :
    depth ((g.run actions).virtuals.row c).activePriorities =
      depth (g.virtuals.row c).activePriorities - tally (fun _ => completes cfg c) g actions := by
  induction actions using List.reverseRecOn with
  | nil => rfl
  | append_singleton actions a ih =>
    obtain ⟨hactions, ha⟩ := avoids_concat.mp h
    simp only [not_or, Bool.not_eq_true] at ha
    obtain ⟨hreset, hwrite, hacknowledge⟩ := ha
    rw [run_concat, tally_concat, ← Nat.sub_sub, ← ih hactions]
    cases hcomplete : completes cfg c a with
    | true =>
      rw [(sameLevels_of_completes (g.run actions) hc hcomplete).activePriorities]
      exact depth_dropLowest _
    | false =>
      rw [(sameLevels_after (hg.run actions) hc hreset hwrite hacknowledge
        hcomplete).activePriorities]
      rfl

/-- A guest that is active at no level, and then for a run grants acknowledges and makes no
completion, is active at as many levels as it has granted, each more urgent than the one before.
After a further run without acknowledges it is active at as many levels less as it has made
completions, of whatever interrupts, and it is idle if and only if there were as many of them as
acknowledges. -/
theorem as_many_completions_as_acknowledges {g : Controller cfg} (hg : Reachable g) {c : Nat}
    (hc : c < cfg.cpus) (start : (g.virtuals.row c).activePriorities = 0#32)
    {first second : List Action}
    (nesting : Avoids (fun _ a => a = .reset ∨ writesLevels cfg c a = true ∨
      completes cfg c a = true) g first)
    (unwinding : Avoids (fun g a => a = .reset ∨ writesLevels cfg c a = true ∨
      acknowledges c g a = true) (g.run first) second) :
    let granted := tally (acknowledges c) g first
    let completed := tally (fun _ => completes cfg c) (g.run first) second
    let nested := (g.run first).virtuals.row c
    let unwound := ((g.run first).run second).virtuals.row c
    granted ≤ 32 ∧ depth nested.activePriorities = granted ∧
      (∀ before a rest, first = before ++ a :: rest → acknowledges c (g.run before) a = true →
        (((g.run before).after a).virtuals.row c).running <
          ((g.run before).virtuals.row c).running) ∧
      depth unwound.activePriorities = granted - completed ∧
      (unwound.running = idle ↔ granted ≤ completed) := by
  intro granted completed nested unwound
  have hnested : depth nested.activePriorities = granted := by
    have hdepth := (depth_of_acknowledges hg hc (stacked_of_zero start) nesting).2
    rwa [depth_eq_zero.mpr start, Nat.zero_add] at hdepth
  have hunwound : depth unwound.activePriorities = granted - completed := by
    rw [← hnested]
    exact depth_of_completions (hg.run first) hc unwinding
  refine ⟨hnested ▸ depth_le _, hnested, fun before a rest _ hacknowledge => ?_, hunwound, ?_⟩
  · obtain ⟨n, htakes, hrow⟩ := taken_of_acknowledges (hg.run before) hc hacknowledge
    rw [hrow]
    exact htakes.running_lt
  · rw [(((hg.run first).run second).ranked hc).idle_iff, ← depth_eq_zero]
    rw [hunwound, Nat.sub_eq_zero_iff_le]

/-- A guest acknowledges interrupt 40, of the priority 0x80, changes its binary point, acknowledges
interrupt 41, of the priority 0x40, and completes first the one and then the other. -/
theorem as_many_completions_as_acknowledges_two :
    let g := (powerOn Config.standard).run
      [.write .vifControl (.cpu 0) 0x000 1 .word, .write .vcpuInterface (.cpu 0) 0x04 0xf0 .word,
        .write .vifControl (.cpu 0) 0x100 0x18000028 .word]
    let first : List Action :=
      [.read .vcpuInterface (.cpu 0) 0x0c .word, .write .vcpuInterface (.cpu 0) 0x08 4 .word,
        .write .vifControl (.cpu 0) 0x104 0x14000029 .word,
        .read .vcpuInterface (.cpu 0) 0x0c .word]
    let second : List Action :=
      [.write .vcpuInterface (.cpu 0) 0x10 40 .word, .write .vcpuInterface (.cpu 0) 0x10 41 .word]
    let granted := tally (acknowledges 0) g first
    let completed := tally (fun _ => completes Config.standard 0) (g.run first) second
    let nested := (g.run first).virtuals.row 0
    let unwound := ((g.run first).run second).virtuals.row 0
    (Reachable g ∧ (g.virtuals.row 0).activePriorities = 0#32 ∧
      Avoids (fun _ a => a = .reset ∨ writesLevels Config.standard 0 a = true ∨
        completes Config.standard 0 a = true) g first ∧
      Avoids (fun g a => a = .reset ∨ writesLevels Config.standard 0 a = true ∨
        acknowledges 0 g a = true) (g.run first) second ∧
      granted = 2 ∧ completed = 2) ∧
    granted ≤ 32 ∧ depth nested.activePriorities = granted ∧
      (∀ before a rest, first = before ++ a :: rest → acknowledges 0 (g.run before) a = true →
        (((g.run before).after a).virtuals.row 0).running <
          ((g.run before).virtuals.row 0).running) ∧
      depth unwound.activePriorities = granted - completed ∧
      (unwound.running = idle ↔ granted ≤ completed) := by
  intro g first second granted completed nested unwound
  have hg : Reachable g := reachable_run _
  have hstart : (g.virtuals.row 0).activePriorities = 0#32 := by decide +kernel
  have hfirst : Avoids (fun _ a => a = .reset ∨ writesLevels Config.standard 0 a = true ∨
      completes Config.standard 0 a = true) g first := by
    refine avoids_of_forall (fun a ha _ => ?_) _
    revert a
    decide
  have hsecond : Avoids (fun g a => a = .reset ∨ writesLevels Config.standard 0 a = true ∨
      acknowledges 0 g a = true) (g.run first) second := by
    refine avoids_of_forall (fun a ha g h => ?_) _
    simp only [second, List.mem_cons, List.not_mem_nil, or_false] at ha
    obtain rfl | rfl := ha
    · rcases h with h | h | h <;> cases h
    · rcases h with h | h | h <;> cases h
  exact ⟨⟨hg, hstart, hfirst, hsecond, by decide +kernel, by decide +kernel⟩,
    as_many_completions_as_acknowledges hg (by decide) hstart hfirst hsecond⟩

end Controller

end Gic
