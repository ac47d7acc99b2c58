import Gic.Proofs.Refusals
import Gic.Proofs.Saving

/-!
# A virtual CPU can be saved and restored

A hypervisor that takes a guest off a CPU reads seven registers there, and writes
them back before the guest goes on, whatever another guest has left in them. This
module shows that in whatever order it does so the guest finds what it has left:
its registers, the interrupt that it is shown, the running priority and the
line.

## The model

* `savedOffsets` — the registers that are saved.
* `Carries v w register` — a register of the virtual half `w` is as it was read in
  `v`.
* `writesBack` — the write of a word that was saved.
* `Restored s t t' c` — the virtual half of a CPU has come from `s`, and all the rest
  from `t`.

## What is proved

* `carries_write`, `Carries.keep` — a write restores its own register and leaves
  those that were restored before.
* `carries_run` — so a run of writes restores all of its registers, and nothing
  else changes.
* `shown_of_carries` — what a guest is shown follows from what was restored.
* `guest_saved_and_restored` — put together, for all orders of the writes.
-/

namespace Gic

namespace VirtualCpu

/-! ### Registers that were restored -/

/-- A register of `w` holds what is read of it in `v`. -/
def Carries (v w : VirtualCpu) : VifRegister → Prop
  | .control => w.hypervisorControl = v.hypervisorControl
  | .machineControl =>
    w.control = (v.control.extractLsb' 0 10).setWidth 32 ∧ w.aliasPoint = v.aliasPoint ∧
      w.binaryPoint = v.binaryPoint ∧ w.priorityMask = v.priorityMask
  | .activePriorities =>
    w.activePriorities = v.activePriorities ∧ w.running = priorityLevel v.activePriorities
  | .list n => (v.lists.row n).Agrees (w.lists.row n)
  | .vifType | .freeLists | .reserved => True

/-- The registers that are saved. -/
def IsSaved : VifRegister → Prop
  | .control | .machineControl | .activePriorities => True
  | .list n => n < numListRegisters
  | .vifType | .freeLists | .reserved => False

instance : DecidablePred IsSaved := fun register => by
  cases register <;> unfold IsSaved <;> infer_instance

/-- What was read, written to the same register, restores it. -/
theorem carries_write {v : VirtualCpu} (hv : v.Savable) (w : VirtualCpu) (cpu : Nat)
    {register : VifRegister} (h : IsSaved register) :
    Carries v (w.writeVif cpu register (v.readVif register)).value.state register := by
  cases register with
  | control => rfl
  | machineControl =>
    have hfields : MachineControl.ofWord (v.readVif .machineControl) = v.machineControl :=
      MachineControl.ofWord_toWord _
    show Carries v (w.setMachineControl (.ofWord (v.readVif .machineControl))) .machineControl
    rw [hfields]
    exact ⟨rfl, rfl, hv.point, hv.mask⟩
  | activePriorities => exact ⟨rfl, rfl⟩
  | list n =>
    have hagrees := (v.lists.row n).agrees_ofWord_toWord
    have haccepts : accepts (.ofWord (v.lists.row n).toWord) = true := by
      rw [hagrees.accepts]
      exact hv.lists n
    simp only [readVif, writeVif, if_neg (Nat.not_le.mpr h), haccepts, if_true]
    show ListEntry.Agrees _ ((w.lists.alter n _).row n)
    rw [Table.row_alter, if_pos ⟨rfl, h⟩]
    exact hagrees
  | vifType | freeLists | reserved => exact h.elim

/-- A write of another register leaves what was restored. -/
theorem Carries.keep {v w : VirtualCpu} {register : VifRegister} (h : Carries v w register)
    (cpu : Nat) {written : VifRegister} (hne : register ≠ written) (value : Word) :
    Carries v (w.writeVif cpu written value).value.state register := by
  cases written with
  | control | machineControl | activePriorities =>
    cases register with
    | control | machineControl | activePriorities => first | exact h | exact absurd rfl hne
    | _ => exact h
  | list n =>
    simp only [writeVif]
    split
    · exact h
    · split
      · cases register with
        | list m =>
          have hother : ¬ (n = m ∧ m < numListRegisters) := fun hm =>
            hne (congrArg VifRegister.list hm.1.symm)
          show ListEntry.Agrees _ ((w.lists.alter n _).row m)
          rw [Table.row_alter, if_neg hother]
          exact h
        | _ => exact h
      · exact h
  | vifType | freeLists | reserved => exact h

/-- What was restored is not touched by an arbitration. -/
theorem Carries.result {v : VirtualCpu} {w : VirtualWritten} {register : VifRegister}
    (h : Carries v w.state register) : Carries v w.result register := by
  unfold VirtualWritten.result
  split
  · cases register <;> exact h
  · exact h

/-! ### What follows from the registers -/

/-- The most urgent list register is the same one if all of them hold the same. -/
theorem Urgent.of_agrees {v w : VirtualCpu}
    (h : ∀ n < numListRegisters, (v.lists.row n).Agrees (w.lists.row n)) {n : Nat}
    (hn : v.Urgent n) : w.Urgent n := by
  have hagrees := h n hn.inRange
  refine ⟨hn.inRange, hagrees.pending.trans hn.pending, hagrees.active.trans hn.inactive,
    fun m hm hpending hactive => ?_⟩
  rw [(h m hm).pending] at hpending
  rw [(h m hm).active] at hactive
  rw [hagrees.priority, (h m hm).priority]
  exact hn.least m hm hpending hactive

/-- A guest is shown the same interrupt if its list registers, its mask and the enable are the
same. -/
theorem shown_of_carries {v w : VirtualCpu} (hv : v.Current) (hw : w.Current)
    (hcontrol : w.hypervisorControl = v.hypervisorControl)
    (hmask : w.priorityMask = v.priorityMask)
    (hlists : ∀ n < numListRegisters, (v.lists.row n).Agrees (w.lists.row n)) :
    w.highestPending = v.highestPending := by
  have henabled : w.isEnabled = v.isEnabled := by rw [isEnabled, isEnabled, hcontrol]
  cases he : v.isEnabled with
  | false => rw [(hv.closed he).1, (hw.closed (henabled.trans he)).1]
  | true =>
    rcases hw.shown (henabled.trans he) with ⟨n, hn, hshown⟩ | ⟨hnone, hshown⟩
    · rcases hv.shown he with ⟨m, hm, hshown'⟩ | ⟨hnone', -⟩
      · obtain rfl := hn.unique (hm.of_agrees hlists)
        have hagrees := hlists n hn.inRange
        rw [hshown, hshown', hagrees.virtualId, hagrees.priority, hmask]
      · exact absurd (hn.of_agrees fun m hm => (hlists m hm).symm) (hnone' n)
    · rcases hv.shown he with ⟨m, hm, -⟩ | ⟨-, hshown'⟩
      · exact absurd (hm.of_agrees hlists) (hnone m)
      · rw [hshown, hshown']

/-- The line of a guest is high if and only if it is shown an interrupt, and the most urgent one is
more urgent than what it runs. -/
theorem Current.line_iff {v : VirtualCpu} (h : v.Current) :
    v.line = true ↔
      v.highestPending ≠ spurious ∧ ∃ n, v.Urgent n ∧ (v.lists.row n).priority < v.running := by
  cases he : v.isEnabled with
  | false =>
    obtain ⟨hshown, hline⟩ := h.closed he
    rw [hline]
    exact iff_of_false Bool.false_ne_true fun hn => hn.1 hshown
  | true => exact h.line he

end VirtualCpu

namespace Controller

variable {cfg : Config}

open VirtualCpu

/-! ### Runs of writes -/

/-- The offsets of the registers that a hypervisor saves: the control register, the gathered guest
registers, the active priorities and the list registers. -/
def savedOffsets : List Nat := [0x000, 0x008, 0x0f0, 0x100, 0x104, 0x108, 0x10c]

/-- The write by a CPU of the word that was saved of a register. -/
def writesBack (c : Nat) (word : Nat → Word) (offset : Nat) : Action :=
  .write .vifControl (.cpu c) offset ((word offset).setWidth 64) .word

theorem isSaved_ofOffset : ∀ o ∈ savedOffsets, IsSaved (.ofOffset o) := by
  decide

theorem fits_of_saved : ∀ o ∈ savedOffsets,
    o + Width.word.bytes ≤ Interface.vifControl.windowSize ∧ o % 4 = 0 := by
  decide

/-- An access to a register that is saved lies in the window, and is of a width that it takes. -/
theorem checks_of_saved (cfg : Config) {o : Nat} (ho : o ∈ savedOffsets) :
    checkWindow cfg .vifControl o .word = .ok () ∧ checkWord o .word = .ok () := by
  obtain ⟨hinside, haligned⟩ := fits_of_saved o ho
  exact ⟨if_pos hinside, if_pos ⟨rfl, haligned⟩⟩

/-- The word that is read of a register that is saved. -/
theorem value_read_saved (g : Controller cfg) {c : Nat} (hc : c < cfg.cpus) {o : Nat}
    (ho : o ∈ savedOffsets) :
    (g.read .vifControl (.cpu c) o .word).value =
      (.ok ((g.virtuals.row c).readVif (.ofOffset o)), g) := by
  obtain ⟨hwindow, hword⟩ := checks_of_saved cfg ho
  have hcpu : cpuOf cfg (.cpu c) = c := if_pos hc
  unfold read
  rw [hwindow]
  show (((g.readWindow .vifControl (cpuOf cfg (.cpu c)) o .word).value.1,
    (g.readWindow .vifControl (cpuOf cfg (.cpu c)) o .word).value.2) : Reply cfg Word) = _
  rw [readWindow, hword, hcpu]
  rfl

/-- A write to a register that is saved is answered. -/
theorem write_saved_answers (g : Controller cfg) (c : Nat) {o : Nat} (ho : o ∈ savedOffsets)
    (value : BitVec 64) : (g.write .vifControl (.cpu c) o value .word).value.1 = .ok () := by
  obtain ⟨hinside, haligned⟩ := fits_of_saved o ho
  obtain ⟨⟨⟩, hanswer⟩ := (judged_write g .vifControl (.cpu c) o value .word).answered.mpr
    ⟨hinside, .inl ⟨rfl, haligned⟩⟩
  exact hanswer

/-- A write to a register that is saved writes the virtual half of the CPU. -/
theorem after_writesBack (g : Controller cfg) {c : Nat} (hc : c < cfg.cpus) (word : Nat → Word)
    {o : Nat} (ho : o ∈ savedOffsets) :
    g.after (writesBack c word o) =
      (g.putVirtual c
        ((g.virtuals.row c).writeVif c (.ofOffset o) (word o)).value).value := by
  obtain ⟨hwindow, hword⟩ := checks_of_saved cfg ho
  have hcpu : cpuOf cfg (.cpu c) = c := if_pos hc
  rw [writesBack, after_write, hwindow]
  dsimp only
  rw [writeWindow, hword, hcpu, setWidth_setWidth_word]
  rfl

/-- What a run of writes of saved words has done with the virtual half of their CPU, and that it has
done nothing else. -/
structure CarriedBack (v : VirtualCpu) (t t' : Controller cfg) (c : Nat) (order : List Nat) :
    Prop where
  /-- The registers that were written are restored. -/
  carries : ∀ o ∈ order, Carries v (t'.virtuals.row c) (.ofOffset o)
  /-- The physical half has not changed. -/
  physical : t'.physical = t.physical
  /-- Nor have the virtual halves of other CPUs. -/
  others : ∀ d, d ≠ c → t'.virtuals.row d = t.virtuals.row d

/-- Words that were saved can be written back in any order: by induction on the run, since each write
restores its register and keeps those that were restored before. -/
theorem carries_run {v : VirtualCpu} (hv : v.Savable) {t : Controller cfg} (ht : Reachable t)
    {c : Nat} (hc : c < cfg.cpus) {order : List Nat} (horder : ∀ o ∈ order, o ∈ savedOffsets) :
    CarriedBack v t (t.run (order.map (writesBack c fun o => v.readVif (.ofOffset o))))
      c order := by
  induction order using List.reverseRecOn with
  | nil => exact ⟨fun o ho => absurd ho List.not_mem_nil, rfl, fun _ _ => rfl⟩
  | append_singleton before o ih =>
    have hih := ih fun o' ho' => horder o' (List.mem_append_left _ ho')
    have ho := horder o (List.mem_append_right _ (List.mem_singleton_self o))
    have hreachable := ht.run (before.map (writesBack c fun o => v.readVif (.ofOffset o)))
    rw [List.map_append, List.map_singleton, run_concat]
    generalize t.run (before.map _) = g at hih hreachable ⊢
    rw [after_writesBack g hc _ ho]
    have hrow := fun {d : Nat} (hd : d < cfg.cpus) => row_putVirtual g c
      ((g.virtuals.row c).writeVif c (.ofOffset o) (v.readVif (.ofOffset o))).value hd
    refine ⟨fun o' ho' => ?_, (physical_putVirtual g c _).trans hih.physical, fun d hd => ?_⟩
    · rw [hrow hc, if_pos rfl]
      refine Carries.result ?_
      by_cases hsame : VifRegister.ofOffset o' = .ofOffset o
      · rw [hsame]
        exact carries_write hv _ c (isSaved_ofOffset o ho)
      · have hbefore : o' ∈ before := by
          obtain hbefore | hlast := List.mem_append.mp ho'
          · exact hbefore
          · exact absurd (congrArg VifRegister.ofOffset (List.mem_singleton.mp hlast)) hsame
        exact (hih.carries o' hbefore).keep c hsame _
    · rw [← hih.others d hd]
      by_cases hconnected : d < cfg.cpus
      · -- The others decide anew, which changes nothing.
        rw [hrow hconnected, if_neg (Ne.symm hd), (hreachable.guestSettled hconnected).decided_eq,
          ite_self]
      · have hle := Nat.le_of_not_lt hconnected
        rw [Table.row_of_le _ hle, Table.row_of_le _ hle]

/-- The virtual half of a CPU has come from `s`, and all the rest from `t`. -/
structure Restored (s t t' : Controller cfg) (c : Nat) : Prop where
  /-- The hypervisor's control register. -/
  hypervisorControl : (t'.virtuals.row c).hypervisorControl = (s.virtuals.row c).hypervisorControl
  /-- The active priorities. -/
  activePriorities : (t'.virtuals.row c).activePriorities = (s.virtuals.row c).activePriorities
  /-- The guest's priority mask. -/
  priorityMask : (t'.virtuals.row c).priorityMask = (s.virtuals.row c).priorityMask
  /-- The guest's binary point. -/
  binaryPoint : (t'.virtuals.row c).binaryPoint = (s.virtuals.row c).binaryPoint
  /-- The binary point of the other group. -/
  aliasPoint : (t'.virtuals.row c).aliasPoint = (s.virtuals.row c).aliasPoint
  /-- The low ten bits of the guest's control register; the others are clear. -/
  control : (t'.virtuals.row c).control = ((s.virtuals.row c).control.extractLsb' 0 10).setWidth 32
  /-- What the list registers hold, and what is read of them. -/
  lists : ∀ n < numListRegisters,
    ((s.virtuals.row c).lists.row n).Agrees ((t'.virtuals.row c).lists.row n)
  /-- The interrupt that the guest is shown. -/
  highestPending : (t'.virtuals.row c).highestPending = (s.virtuals.row c).highestPending
  /-- The running priority follows from the highest bit of the active priorities. -/
  running :
    ((s.virtuals.row c).activePriorities = 0#32 ∧ (t'.virtuals.row c).running = idle) ∨
      ∃ n < 32, (s.virtuals.row c).activePriorities.getLsbD n = true ∧
        (∀ m, n < m → (s.virtuals.row c).activePriorities.getLsbD m = false) ∧
        (t'.virtuals.row c).running.toNat = 8 * n
  /-- The line follows from the interrupt that is shown and from the most urgent list register. -/
  line : (t'.virtuals.row c).line = true ↔
    (s.virtuals.row c).highestPending ≠ spurious ∧
      ∃ n, (s.virtuals.row c).Urgent n ∧
        ((s.virtuals.row c).lists.row n).priority < (t'.virtuals.row c).running
  /-- The physical half is that of `t`. -/
  physical : t'.physical = t.physical
  /-- So are the virtual halves of the other CPUs. -/
  others : ∀ d, d ≠ c → t'.virtuals.row d = t.virtuals.row d

/-- The words that are read of the saved registers of a CPU can be written back in every other
reachable state, in every order, without being refused. The guest then finds what it has left, and
nothing else has changed. -/
theorem guest_saved_and_restored {s t : Controller cfg} (hs : Reachable s) (ht : Reachable t)
    {c : Nat} (hc : c < cfg.cpus) :
    ∃ word : Nat → Word,
      (∀ o ∈ savedOffsets, (s.read .vifControl (.cpu c) o .word).value = (.ok (word o), s)) ∧
      ∀ order, order.Perm savedOffsets →
        (∀ before o rest, order = before ++ o :: rest →
          ((t.run (before.map (writesBack c word))).write .vifControl (.cpu c) o
            ((word o).setWidth 64) .word).value.1 = .ok ()) ∧
        Restored s t (t.run (order.map (writesBack c word))) c := by
  refine ⟨fun o => (s.virtuals.row c).readVif (.ofOffset o),
    fun o ho => value_read_saved s hc ho, fun order horder => ⟨?_, ?_⟩⟩
  · rintro before o rest rfl
    have ho : o ∈ savedOffsets :=
      horder.mem_iff.mp (List.mem_append_right _ List.mem_cons_self)
    exact write_saved_answers _ c ho _
  · have hback := carries_run (hs.savable hc) ht hc fun o ho => horder.mem_iff.mp ho
    have hsettled := (ht.run (order.map
      (writesBack c fun o => (s.virtuals.row c).readVif (.ofOffset o)))).guestSettled hc
    generalize t.run (order.map _) = t' at hback hsettled ⊢
    have hcarries : ∀ o ∈ savedOffsets, Carries (s.virtuals.row c) (t'.virtuals.row c)
        (.ofOffset o) := fun o ho => hback.carries o (horder.mem_iff.mpr ho)
    have hcontrol := hcarries 0x000 (by decide)
    obtain ⟨hguest, halias, hpoint, hmask⟩ := hcarries 0x008 (by decide)
    obtain ⟨hactive, hrunning⟩ := hcarries 0x0f0 (by decide)
    have hlists : ∀ n < numListRegisters,
        ((s.virtuals.row c).lists.row n).Agrees ((t'.virtuals.row c).lists.row n) := by
      intro n hn
      have hoffset : ∀ n < numListRegisters,
          0x100 + 4 * n ∈ savedOffsets ∧ VifRegister.ofOffset (0x100 + 4 * n) = .list n := by
        decide
      have hlist := hcarries _ (hoffset n hn).1
      rw [(hoffset n hn).2] at hlist
      exact hlist
    have hshown := shown_of_carries (hs.guestSettled hc).current hsettled.current hcontrol hmask
      hlists
    refine ⟨hcontrol, hactive, hmask, hpoint, halias, hguest, hlists, hshown, ?_, ?_,
      hback.physical, hback.others⟩
    · rw [hrunning]
      exact priorityLevel_spec _
    · rw [hsettled.current.line_iff, hshown]
      refine and_congr_right fun _ => exists_congr fun n => ?_
      constructor
      · rintro ⟨hn, hless⟩
        rw [(hlists n hn.inRange).priority] at hless
        exact ⟨hn.of_agrees fun m hm => (hlists m hm).symm, hless⟩
      · rintro ⟨hn, hless⟩
        rw [← (hlists n hn.inRange).priority] at hless
        exact ⟨hn.of_agrees hlists, hless⟩

/-- A guest that has acknowledged the interrupt 0x22 is shown 0x21. It is saved, another guest runs
that is shown 0x30, and the first one is restored, the last register first. -/
theorem guest_saved_and_restored_nested :
    let first : List Action :=
      [.write .vifControl (.cpu 0) 0x000 1 .word, .write .vcpuInterface (.cpu 0) 0x00 0xffff .word,
        .write .vcpuInterface (.cpu 0) 0x04 0xf0 .word,
        .write .vifControl (.cpu 0) 0x100 0x12800021 .word,
        .write .vifControl (.cpu 0) 0x104 0x12000022 .word,
        .read .vcpuInterface (.cpu 0) 0x0c .word]
    let second : List Action :=
      [.write .vifControl (.cpu 0) 0x000 1 .word, .write .vcpuInterface (.cpu 0) 0x04 0x80 .word,
        .write .vifControl (.cpu 0) 0x108 0x91008030 .word]
    let s := (powerOn Config.standard).run first
    let t := s.run second
    ((Reachable s ∧ (s.virtuals.row 0).highestPending = 0x21) ∧
        Reachable t ∧ (t.virtuals.row 0).highestPending = 0x30) ∧
      ∃ word : Nat → Word,
        (∀ o ∈ savedOffsets, (s.read .vifControl (.cpu 0) o .word).value = (.ok (word o), s)) ∧
        Restored s t (t.run (savedOffsets.reverse.map (writesBack 0 word))) 0 := by
  intro first second s t
  have hs : Reachable s := reachable_run first
  have ht : Reachable t := hs.run second
  have hc : 0 < Config.standard.cpus := by decide
  obtain ⟨word, hreads, hwrites⟩ := guest_saved_and_restored hs ht hc
  obtain ⟨-, hrestored⟩ := hwrites savedOffsets.reverse (List.reverse_perm savedOffsets)
  exact ⟨⟨⟨hs, by decide +kernel⟩, ht, by decide +kernel⟩, word, hreads, hrestored⟩

end Controller

end Gic
