import Gic.Proofs.Arbitration
import Gic.Proofs.GuestRun

/-!
# Virtual arbitration is never stale

The hypervisor and the guest write what virtual arbitration looks at through
nine registers, two of which also refuse values, and an acknowledge can end in
four ways. This module shows that after each of them a guest is shown what
arbitration would show it now.

## The model

* `VirtualCpu.Settled` — what the guest is shown, and the level of its line, are
  those that arbitration would decide now.
* `VirtualCpu.Urgent` — the list register that arbitration picks, read off the
  flags of the list registers.
* `VirtualCpu.Current` — what the guest is shown, and the level of its line, in
  terms of that list register.

## What is proved

* `urgent?_spec` — the search finds the first of the most urgent entries.
* `Reachable.guestSettled` — every reachable state is settled. An acknowledge
  that finds no list register has already changed the running priority, and
  arbitration does not follow it; but in a settled state that does not occur
  (`Settled.find?_ne_none`).
* `virtual_arbitration_never_stale` — what every guest is shown.
-/

namespace Gic

namespace VirtualCpu

/-! ### The search for the most urgent entry -/

/-- The entry `e`, at `n`, is the first of the most urgent entries that wait. -/
structure FirstUrgent (entries : List ListEntry) (n : Nat) (e : ListEntry) : Prop where
  /-- It is there. -/
  found : entries[n]? = some e
  /-- It waits. -/
  waiting : waits e = true
  /-- The others that wait are less urgent, or as urgent and come later. -/
  least : ∀ (m : Nat) other, entries[m]? = some other → waits other = true →
    e.priority < other.priority ∨ (e.priority = other.priority ∧ n ≤ m)

/-- An entry in front of a list that is not more urgent than its winner, if it waits at all. -/
theorem FirstUrgent.cons {entries : List ListEntry} {n : Nat} {best e : ListEntry}
    (h : FirstUrgent entries n best) (he : waits e = true → best.priority < e.priority) :
    FirstUrgent (e :: entries) (n + 1) best where
  found := h.found
  waiting := h.waiting
  least m other hm hw := by
    cases m with
    | zero =>
      obtain rfl : e = other := Option.some.inj hm
      exact .inl (he hw)
    | succ m =>
      rcases h.least m other hm hw with hlt | ⟨heq, hle⟩
      · exact .inl hlt
      · exact .inr ⟨heq, Nat.succ_le_succ hle⟩

/-- An entry in front of a list that waits, and is not less urgent than any other that does. -/
theorem firstUrgent_head {entries : List ListEntry} {e : ListEntry} (hw : waits e = true)
    (h : ∀ (m : Nat) other, entries[m]? = some other → waits other = true →
      e.priority ≤ other.priority) :
    FirstUrgent (e :: entries) 0 e where
  found := rfl
  waiting := hw
  least m other hm how := by
    have hle : e.priority ≤ other.priority := by
      cases m with
      | zero =>
        obtain rfl : e = other := Option.some.inj hm
        exact BitVec.le_refl _
      | succ m => exact h m other hm how
    by_cases heq : e.priority = other.priority
    · exact .inr ⟨heq, Nat.zero_le m⟩
    · exact .inl (BitVec.lt_of_le_ne hle heq)

/-- No entry that waits is more urgent than the winner. -/
theorem FirstUrgent.le {entries : List ListEntry} {n m : Nat} {best other : ListEntry}
    (h : FirstUrgent entries n best) (hm : entries[m]? = some other) (hw : waits other = true) :
    best.priority ≤ other.priority := by
  rcases h.least m other hm hw with hlt | ⟨heq, -⟩
  · exact BitVec.le_of_lt hlt
  · rw [heq]
    exact BitVec.le_refl _

/-- The search finds the first of the most urgent entries, unless none waits. -/
theorem urgent?_spec (entries : List ListEntry) :
    (∃ n e, FirstUrgent entries n e ∧ urgent? entries = some e) ∨
      ((∀ (m : Nat) e, entries[m]? = some e → waits e = false) ∧ urgent? entries = none) := by
  induction entries with
  | nil => exact .inr ⟨fun m e hm => (by simp at hm), rfl⟩
  | cons e rest ih =>
    rcases ih with ⟨n, best, hbest, hu⟩ | ⟨hnone, hu⟩
    · by_cases hwins : waits e = true ∧ e.priority ≤ best.priority
      · refine .inl ⟨0, e, firstUrgent_head hwins.1 fun m other hm hw => ?_, ?_⟩
        · exact BitVec.le_trans hwins.2 (hbest.le hm hw)
        · simp only [urgent?, hu, hwins.1, hwins.2, decide_true, Bool.and_self, if_true]
      · refine .inl ⟨n + 1, best, hbest.cons fun hw => ?_, ?_⟩
        · exact BitVec.not_le.mp fun hle => hwins ⟨hw, hle⟩
        · have hloses : ¬ (waits e && decide (e.priority ≤ best.priority)) = true := by
            rwa [Bool.and_eq_true, decide_eq_true_eq]
          simp only [urgent?, hu, hloses]
          rfl
    · by_cases hw : waits e = true
      · refine .inl ⟨0, e, firstUrgent_head hw fun m other hm how => ?_, ?_⟩
        · rw [hnone m other hm] at how
          cases how
        · simp only [urgent?, hu, hw, if_true]
      · refine .inr ⟨fun m other hm => ?_, ?_⟩
        · cases m with
          | zero =>
            obtain rfl : e = other := Option.some.inj hm
            exact Bool.not_eq_true _ ▸ hw
          | succ m => exact hnone m other hm
        · simp only [urgent?, hu, hw]
          rfl

/-- A list register is the first of the most urgent ones that are pending and not active. -/
structure Urgent (v : VirtualCpu) (n : Nat) : Prop where
  inRange : n < numListRegisters
  pending : (v.lists.row n).pending = true
  inactive : (v.lists.row n).active = false
  least : ∀ m < numListRegisters, (v.lists.row m).pending = true → (v.lists.row m).active = false →
    (v.lists.row n).priority < (v.lists.row m).priority ∨
      ((v.lists.row n).priority = (v.lists.row m).priority ∧ n ≤ m)

theorem waits_iff (e : ListEntry) : waits e = true ↔ e.pending = true ∧ e.active = false := by
  rw [waits, Bool.and_eq_true, Bool.not_eq_true']

/-- The search over the list registers finds the one to be shown, if there is any. -/
theorem urgent_spec (v : VirtualCpu) :
    (∃ n, Urgent v n ∧ urgent? v.lists.toList = some (v.lists.row n)) ∨
      ((∀ n < numListRegisters, (v.lists.row n).pending = true → (v.lists.row n).active = true) ∧
        urgent? v.lists.toList = none) := by
  have hget : ∀ m < numListRegisters, v.lists.toList[m]? = some (v.lists.row m) := fun m hm => by
    rw [Table.getElem?_toList, if_pos hm]
  rcases urgent?_spec v.lists.toList with ⟨n, e, hfirst, hu⟩ | ⟨hnone, hu⟩
  · have hfound := hfirst.found
    rw [Table.getElem?_toList] at hfound
    split at hfound
    · rename_i hn
      obtain rfl := Option.some.inj hfound
      obtain ⟨hp, ha⟩ := (waits_iff _).mp hfirst.waiting
      refine .inl ⟨n, ⟨hn, hp, ha, fun m hm hmp hma => ?_⟩, hu⟩
      exact hfirst.least m _ (hget m hm) ((waits_iff _).mpr ⟨hmp, hma⟩)
    · cases hfound
  · refine .inr ⟨fun n hn hp => ?_, hu⟩
    have hw := hnone n _ (hget n hn)
    by_contra ha
    rw [(waits_iff _).mpr ⟨hp, Bool.not_eq_true _ ▸ ha⟩] at hw
    cases hw

/-! ### Settled states -/

/-- The guest is shown what arbitration would show it now. -/
structure Settled (v : VirtualCpu) : Prop where
  /-- The interrupt that it is shown is the one that passes its mask. -/
  shown : v.highestPending = Arbitration.visible v.decideFor
  /-- Its line has the level that was decided. -/
  line : v.line = Arbitration.raised v.decideFor

/-- Deciding anew settles every state. -/
theorem settled_decided (v : VirtualCpu) : v.decided.Settled := ⟨rfl, rfl⟩

/-- At power-on the virtual interface is not enabled. -/
theorem settled_powerOn : powerOn.Settled := ⟨rfl, rfl⟩

/-- Deciding anew does not change a settled state. -/
theorem Settled.decided_eq {v : VirtualCpu} (hv : v.Settled) : v.decided = v := by
  rw [decided, Controller.settle, ← hv.shown, ← hv.line]

/-- An access settles the state if it does so when arbitration does not follow. -/
theorem settled_result {w : VirtualWritten} (h : w.dirty = false → w.state.Settled) :
    w.result.Settled := by
  unfold VirtualWritten.result
  split
  · exact settled_decided _
  · rename_i hd
    exact h (Bool.not_eq_true _ ▸ hd)

/-- What the guest is shown, and the level of its line, follow from the state as it is now. -/
structure Current (v : VirtualCpu) : Prop where
  /-- With the virtual interface disabled, nothing is shown. -/
  closed : v.isEnabled = false → v.highestPending = spurious ∧ v.line = false
  /-- Otherwise the interrupt of the most urgent list register is shown, if it passes the mask. -/
  shown : v.isEnabled = true →
    (∃ n, Urgent v n ∧ v.highestPending =
        if (v.lists.row n).virtualId ≠ spurious ∧ (v.lists.row n).priority < v.priorityMask
        then (v.lists.row n).virtualId else spurious) ∨
      ((∀ n, ¬ Urgent v n) ∧ v.highestPending = spurious)
  /-- The line is raised if what is shown is more urgent than what is running. -/
  line : v.isEnabled = true →
    (v.line = true ↔ v.highestPending ≠ spurious ∧
      ∃ n, Urgent v n ∧ (v.lists.row n).priority < v.running)

theorem decideFor_of_disabled {v : VirtualCpu} (h : v.isEnabled = false) : v.decideFor = none := by
  simp only [decideFor, h, Bool.false_eq_true, if_false]

/-- There is only one most urgent list register. -/
theorem Urgent.unique {v : VirtualCpu} {n m : Nat} (hn : v.Urgent n) (hm : v.Urgent m) :
    n = m := by
  have hnm := hn.least m hm.inRange hm.pending hm.inactive
  have hmn := hm.least n hn.inRange hn.pending hn.inactive
  rcases hnm with hlt | ⟨heq, hle⟩
  · rcases hmn with hlt' | ⟨heq', -⟩
    · exact absurd hlt' (BitVec.lt_asymm hlt)
    · exact absurd heq'.symm (BitVec.ne_of_lt hlt)
  · rcases hmn with hlt' | ⟨-, hle'⟩
    · exact absurd heq.symm (BitVec.ne_of_lt hlt')
    · exact Nat.le_antisymm hle hle'

/-- What an enabled virtual interface is shown of the most urgent list register. -/
theorem visible_of_urgent {v : VirtualCpu} {e : ListEntry} (he : v.isEnabled = true)
    (hu : urgent? v.lists.toList = some e) :
    Arbitration.visible v.decideFor =
      if e.virtualId ≠ spurious ∧ e.priority < v.priorityMask then e.virtualId else spurious := by
  simp only [decideFor, he, if_true, hu, Arbitration.visible, Bool.and_eq_true, decide_eq_true_eq]

theorem raised_of_urgent {v : VirtualCpu} {e : ListEntry} (he : v.isEnabled = true)
    (hu : urgent? v.lists.toList = some e) :
    Arbitration.raised v.decideFor = true ↔
      (e.virtualId ≠ spurious ∧ e.priority < v.priorityMask) ∧ e.priority < v.running := by
  simp only [decideFor, he, if_true, hu, Arbitration.raised, Bool.and_eq_true, decide_eq_true_eq]

/-- Nothing is shown if no list register waits. -/
theorem decideFor_of_no_urgent {v : VirtualCpu} (hu : urgent? v.lists.toList = none) :
    Arbitration.visible v.decideFor = spurious ∧ Arbitration.raised v.decideFor = false := by
  unfold decideFor
  split
  · simp only [hu, Arbitration.visible, Arbitration.raised]
    exact ⟨rfl, rfl⟩
  · exact ⟨rfl, rfl⟩

/-- In a settled state the guest is shown the most urgent list register. -/
theorem Settled.current {v : VirtualCpu} (hv : v.Settled) : v.Current := by
  have hshown := hv.shown
  have hline := hv.line
  cases he : v.isEnabled with
  | false =>
    rw [decideFor_of_disabled he] at hshown hline
    refine ⟨fun _ => ⟨hshown, hline⟩, fun h => ?_, fun h => ?_⟩
    · cases he.symm.trans h
    · cases he.symm.trans h
  | true =>
    refine ⟨fun h => ?_, fun _ => ?_, fun _ => ?_⟩
    · cases he.symm.trans h
    · rcases urgent_spec v with ⟨n, hn, hu⟩ | ⟨hnone, hu⟩
      · exact .inl ⟨n, hn, hshown.trans (visible_of_urgent he hu)⟩
      · refine .inr ⟨fun n hn => ?_, hshown.trans (decideFor_of_no_urgent hu).1⟩
        cases hn.inactive.symm.trans (hnone n hn.inRange hn.pending)
    · rcases urgent_spec v with ⟨n, hn, hu⟩ | ⟨hnone, hu⟩
      · rw [hline, raised_of_urgent he hu, hshown, visible_of_urgent he hu]
        constructor
        · rintro ⟨hmask, hless⟩
          rw [if_pos hmask]
          exact ⟨hmask.1, n, hn, hless⟩
        · rintro ⟨hvisible, m, hm, hless⟩
          obtain rfl := hn.unique hm
          split at hvisible
          · rename_i hmask
            exact ⟨hmask, hless⟩
          · exact absurd rfl hvisible
      · rw [hline, hshown, (decideFor_of_no_urgent hu).1, (decideFor_of_no_urgent hu).2]
        simp only [Bool.false_eq_true, ne_eq, not_true_eq_false, false_and]

/-! ### Accesses settle what they touch -/

/-- A list register that holds an interrupt is found. -/
theorem find?_ne_none {v : VirtualCpu} {n : Nat} (hn : n < numListRegisters)
    (hl : (v.lists.row n).live = true) : v.find? (v.lists.row n).virtualId ≠ none := by
  intro hnone
  have hall := List.find?_eq_none.mp hnone n (List.mem_range.mpr hn)
  simp only [hl, beq_self_eq_true, Bool.and_self, not_true_eq_false] at hall

/-- In a settled state what the guest is shown is in a list register. -/
theorem Settled.find?_ne_none {v : VirtualCpu} (hv : v.Settled)
    (hs : v.highestPending ≠ spurious) : v.find? v.highestPending ≠ none := by
  have hcurrent := hv.current
  cases he : v.isEnabled with
  | false => exact absurd (hcurrent.closed he).1 hs
  | true =>
    rcases hcurrent.shown he with ⟨n, hn, hshown⟩ | ⟨-, hshown⟩
    · split at hshown
      · rw [hshown]
        exact VirtualCpu.find?_ne_none hn.inRange (by rw [ListEntry.live, hn.pending, Bool.true_or])
      · exact absurd hshown hs
    · exact absurd hshown hs

/-- A word of the hypervisor that arbitration does not follow has changed nothing. -/
theorem writeVif_state {v : VirtualCpu} {cpu : Nat} {register : VifRegister} {value : Word}
    (h : (v.writeVif cpu register value).value.dirty = false) :
    (v.writeVif cpu register value).value.state = v := by
  cases register with
  | control | machineControl | activePriorities => cases h
  | list n =>
    simp only [writeVif] at h ⊢
    split
    · rfl
    · rename_i hn
      rw [if_neg hn] at h
      split
      · rename_i haccepted
        rw [if_pos haccepted] at h
        cases h
      · rfl
  | _ => rfl

/-- A word of the guest that arbitration does not follow has changed nothing. -/
theorem writeGuest_state {v : VirtualCpu} {cpu : Nat} {register : CpuRegister} {value : Word}
    (h : (v.writeGuest cpu register value).value.dirty = false) :
    (v.writeGuest cpu register value).value.state = v := by
  cases register with
  | control | priorityMask | binaryPoint | aliasPoint => cases h
  | activePriorities n =>
    cases n with
    | zero => cases h
    | succ n => rfl
  | _ => rfl

/-- In a settled state an acknowledge that arbitration does not follow has changed nothing. -/
theorem Settled.acknowledge_state {v : VirtualCpu} (hv : v.Settled) {cpu : Nat}
    (h : (v.acknowledge cpu).value.2.dirty = false) : (v.acknowledge cpu).value.2.state = v := by
  unfold acknowledge at h ⊢
  dsimp only at h ⊢
  by_cases hs : v.highestPending = spurious
  · simp only [hs, if_true]
    rfl
  · rw [if_neg hs] at h ⊢
    by_cases hr : v.running ≤ v.priorityOf v.highestPending
    · rw [if_pos hr]
      rfl
    · rw [if_neg hr] at h ⊢
      cases hf : v.find? v.highestPending with
      | none => exact absurd hf (hv.find?_ne_none hs)
      | some n =>
        rw [hf] at h
        cases h

end VirtualCpu

namespace Controller

variable {cfg : Config}

open VirtualCpu

/-- Every rule keeps the virtual half of a CPU settled. -/
theorem GuestMoves.settled {g : Controller cfg} {c : Nat} {a : Action} {v : VirtualCpu}
    (h : GuestMoves g c a v) (hg : (g.virtuals.row c).Settled) : v.Settled := by
  cases h with
  | stays => exact hg
  | decides | completes => exact settled_decided _
  | hypervisorWrites =>
    exact settled_result fun hd => by rw [writeVif_state hd]; exact hg
  | guestWrites =>
    exact settled_result fun hd => by rw [writeGuest_state hd]; exact hg
  | acknowledges =>
    exact settled_result fun hd => by rw [hg.acknowledge_state hd]; exact hg
  | powersOn => exact settled_powerOn

theorem Reachable.guestSettled {g : Controller cfg} (h : Reachable g) {c : Nat}
    (hc : c < cfg.cpus) : (g.virtuals.row c).Settled :=
  h.guest_induct hc settled_powerOn GuestMoves.settled

/-- Deciding anew does not change a controller whose virtual halves are settled. -/
theorem arbitrateVirtual_eq {g : Controller cfg}
    (hg : ∀ c < cfg.cpus, (g.virtuals.row c).Settled) : g.arbitrateVirtual.value = g := by
  have hvirtuals : g.arbitrateVirtual.value.virtuals = g.virtuals := by
    apply Table.ext_row
    intro c hc
    rw [row_arbitrateVirtual g hc, (hg c hc).decided_eq]
  calc g.arbitrateVirtual.value
      = { g with virtuals := g.arbitrateVirtual.value.virtuals } := rfl
    _ = g := by rw [hvirtuals]

/-- Deciding anew changes no virtual line if the virtual halves are settled. -/
theorem arbitrateVirtual_quiet {g : Controller cfg}
    (hg : ∀ c < cfg.cpus, (g.virtuals.row c).Settled) :
    g.arbitrateVirtual.reports.filterMap Event.change? = [] := by
  apply Arbitration.quiet_flatMap
  intro c hc
  rw [(hg c hc).line, Table.row_build, if_pos hc]

/-- In every reachable state each guest is shown its most urgent list register and has its line
accordingly, so deciding once more changes nothing, and no line is reported. -/
theorem virtual_arbitration_never_stale {g : Controller cfg} (hg : Reachable g) :
    (∀ cpu < cfg.cpus, (g.virtuals.row cpu).Current) ∧
      (g.update .virtual).value = g ∧
      (g.update .virtual).reports.filterMap Event.change? = [] := by
  have hsettled : ∀ c < cfg.cpus, (g.virtuals.row c).Settled := fun c hc => hg.guestSettled hc
  exact ⟨fun c hc => (hsettled c hc).current, arbitrateVirtual_eq hsettled,
    arbitrateVirtual_quiet hsettled⟩

/-- Two list registers of one CPU hold an interrupt, of the priorities 0x28 and 0x20, and the guest
acknowledges once: the less urgent one is shown, but its line stays low. -/
theorem virtual_arbitration_never_stale_nested :
    let g := (powerOn Config.standard).run
      [.write .vifControl (.cpu 0) 0x000 1 .word, .write .vcpuInterface (.cpu 0) 0x04 0xf0 .word,
        .write .vifControl (.cpu 0) 0x100 0x12800021 .word,
        .write .vifControl (.cpu 0) 0x104 0x12000022 .word,
        .read .vcpuInterface (.cpu 0) 0x0c .word]
    (Reachable g ∧ (g.virtuals.row 0).highestPending = 0x21 ∧ (g.virtuals.row 0).line = false) ∧
      (∀ cpu < Config.standard.cpus, (g.virtuals.row cpu).Current) ∧
      (g.update .virtual).value = g ∧
      (g.update .virtual).reports.filterMap Event.change? = [] :=
  ⟨⟨reachable_run _, by decide +kernel, by decide +kernel⟩,
    virtual_arbitration_never_stale (reachable_run _)⟩

end Controller

end Gic
