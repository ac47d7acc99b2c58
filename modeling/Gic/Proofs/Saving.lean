import Gic.Proofs.GuestArbitration

/-!
# What is read of a guest's registers can be written back

A hypervisor saves the virtual half of a CPU by reading seven registers, and
restores it by writing what it has read. Each of them packs several values, some
of them cut short or merged with live state, and some are checked when they are
written. This module shows that nothing is lost on the way.

## The model

* `ListEntry.Agrees` — two list registers hold the same values and are read as the
  same word.
* `VirtualCpu.Savable` — the virtual half has values only that come back when they
  are written.

## What is proved

* `ListEntry.agrees_ofWord_toWord`, `MachineControl.ofWord_toWord` — what is read of
  a list register, and of the gathered guest registers, is what was written.
* `VirtualCpu.priorityLevel_spec` — the running priority that active priorities
  stand for.
* `Controller.Reachable.savable` — in every reachable state every virtual half can
  be saved.
-/

namespace Gic

/-! ### List registers -/

namespace ListEntry

/-- Two list registers hold the same values, and are read as the same word. -/
structure Agrees (e f : ListEntry) : Prop where
  pending : f.pending = e.pending
  active : f.active = e.active
  hardware : f.hardware = e.hardware
  group1 : f.group1 = e.group1
  priority : f.priority = e.priority
  virtualId : f.virtualId = e.virtualId
  physicalId : f.physicalId = e.physicalId
  source : f.source = e.source
  word : f.toWord = e.toWord

theorem Agrees.symm {e f : ListEntry} (h : Agrees e f) : Agrees f e :=
  ⟨h.pending.symm, h.active.symm, h.hardware.symm, h.group1.symm, h.priority.symm,
    h.virtualId.symm, h.physicalId.symm, h.source.symm, h.word.symm⟩

theorem getLsbD_toWord (e : ListEntry) {bit : Nat} (h : bit < 32) :
    e.toWord.getLsbD bit =
      if bit = 28 then e.pending else if bit = 29 then e.active else e.written.getLsbD bit := by
  rw [toWord, Word.getLsbD_ofBits, decide_eq_true h, Bool.true_and]

/-- The values below the state are read as they were written. -/
theorem extractLsb'_toWord (e : ListEntry) {low width : Nat} (h : low + width ≤ 28) :
    e.toWord.extractLsb' low width = e.written.extractLsb' low width := by
  apply BitVec.eq_of_getLsbD_eq
  intro i hi
  rw [BitVec.getLsbD_extractLsb', BitVec.getLsbD_extractLsb', getLsbD_toWord e (by omega),
    if_neg (by omega), if_neg (by omega)]

theorem field_toWord (e : ListEntry) {low width : Nat} (h : low + width ≤ 28) :
    Word.field e.toWord low width = Word.field e.written low width := by
  rw [Word.field, Word.field, extractLsb'_toWord e h]

/-- The word that is read, written again, gives the same list register. -/
theorem agrees_ofWord_toWord (e : ListEntry) : Agrees e (ofWord e.toWord) := by
  have hpending : (ofWord e.toWord).pending = e.pending := getLsbD_toWord e (by decide)
  have hactive : (ofWord e.toWord).active = e.active := getLsbD_toWord e (by decide)
  have hhardware : (ofWord e.toWord).hardware = e.hardware := getLsbD_toWord e (by decide)
  refine ⟨hpending, hactive, hhardware, getLsbD_toWord e (by decide), ?_,
    field_toWord e (by decide), ?_, ?_, ?_⟩
  · exact congrArg Priority.ofFive (extractLsb'_toWord e (by decide))
  · rw [physicalId, physicalId, hhardware]
    exact congrArg (fun link => if e.hardware then link else 0) (field_toWord e (by decide))
  · rw [source, source, hhardware]
    exact congrArg (fun cpu => if e.hardware then 0 else cpu) (field_toWord e (by decide))
  · apply BitVec.eq_of_getLsbD_eq
    intro i hi
    rw [getLsbD_toWord _ hi, getLsbD_toWord _ hi, hpending, hactive]
    split
    · rfl
    · rename_i hpendingBit
      split
      · rfl
      · rename_i hactiveBit
        show e.toWord.getLsbD i = e.written.getLsbD i
        rw [getLsbD_toWord e hi, if_neg hpendingBit, if_neg hactiveBit]

/-- An entry that agrees with one that was taken is taken. -/
theorem Agrees.accepts {e f : ListEntry} (h : Agrees e f) :
    VirtualCpu.accepts f = VirtualCpu.accepts e := by
  rw [VirtualCpu.accepts, VirtualCpu.accepts, h.hardware, h.physicalId]

end ListEntry

/-! ### The gathered guest registers -/

/-- What lies in a word above its lowest part. -/
theorem extractLsb'_above {m n start width : Nat} {upper : BitVec m} {lower : BitVec n}
    (h : n ≤ start) :
    (upper ++ lower).extractLsb' start width = upper.extractLsb' (start - n) width :=
  BitVec.extractLsb'_append_eq_of_le h

/-- The fields of a gathered word are the values that were gathered. -/
theorem MachineControl.ofWord_toWord (m : MachineControl) : ofWord m.toWord = m := by
  have hcontrol : m.toWord.extractLsb' 0 10 = m.control := BitVec.extractLsb'_append_eq_right
  have haliasPoint : m.toWord.extractLsb' 18 3 = m.aliasPoint := by
    refine (extractLsb'_above (by decide)).trans ((extractLsb'_above (by decide)).trans ?_)
    exact BitVec.extractLsb'_append_eq_right
  have hbinaryPoint : m.toWord.extractLsb' 21 3 = m.binaryPoint := by
    refine (extractLsb'_above (by decide)).trans ((extractLsb'_above (by decide)).trans ?_)
    refine (extractLsb'_above (by decide)).trans ?_
    exact BitVec.extractLsb'_append_eq_right
  have hmask : m.toWord.extractLsb' 27 5 = m.mask := by
    refine (extractLsb'_above (by decide)).trans ((extractLsb'_above (by decide)).trans ?_)
    refine (extractLsb'_above (by decide)).trans ((extractLsb'_above (by decide)).trans ?_)
    refine (extractLsb'_above (by decide)).trans ?_
    exact BitVec.extractLsb'_eq_self
  rw [ofWord, hcontrol, haliasPoint, hbinaryPoint, hmask]

theorem Priority.toFive_ofFive (upper : BitVec 5) : toFive (ofFive upper) = upper :=
  BitVec.extractLsb'_append_eq_left

namespace VirtualCpu

theorem clampPoint_clampPoint (point : BitVec 3) :
    clampPoint (clampPoint point) = clampPoint point := by
  revert point
  decide

/-! ### Active priorities -/

/-- The running priority that active priorities stand for: eight times the number of the highest
bit that is set, and idle if there is none. -/
theorem priorityLevel_spec (active : Word) :
    (active = 0#32 ∧ priorityLevel active = idle) ∨
      ∃ n < 32, active.getLsbD n = true ∧ (∀ m, n < m → active.getLsbD m = false) ∧
        (priorityLevel active).toNat = 8 * n := by
  by_cases hzero : active = 0#32
  · exact .inl ⟨hzero, if_pos hzero⟩
  · have hne : active.toNat ≠ 0 := fun h => hzero (BitVec.eq_of_toNat_eq h)
    have hlow : active.toNat.log2 < 32 := (Nat.log2_lt hne).mpr active.isLt
    refine .inr ⟨active.toNat.log2, hlow, Nat.testBit_log2 hne, fun m hm => ?_, ?_⟩
    · refine Nat.testBit_lt_two_pow (Nat.lt_of_lt_of_le Nat.lt_log2_self ?_)
      exact Nat.pow_le_pow_right (by decide) hm
    · rw [priorityLevel, if_neg hzero, BitVec.toNat_ofNat, Nat.mod_eq_of_lt]
      omega

/-! ### Virtual halves that can be saved -/

/-- What is read of a virtual half can be written back. -/
structure Savable (v : VirtualCpu) : Prop where
  /-- The priority mask has five bits. -/
  mask : Priority.ofFive v.priorityMask.toFive = v.priorityMask
  /-- The binary point is one that the virtual interface can have. -/
  point : clampPoint v.binaryPoint = v.binaryPoint
  /-- The list registers hold what list registers take. -/
  lists : ∀ n, accepts (v.lists.row n) = true

theorem savable_powerOn : powerOn.Savable where
  mask := rfl
  point := by decide
  lists n := by
    rw [powerOn, Table.row_replicate]
    split <;> rfl

theorem Savable.decided {v : VirtualCpu} (h : v.Savable) : v.decided.Savable :=
  ⟨h.mask, h.point, h.lists⟩

theorem Savable.result {w : VirtualWritten} (h : w.state.Savable) : w.result.Savable := by
  unfold VirtualWritten.result
  split
  · exact h.decided
  · exact h

/-- A list register takes an entry. -/
theorem Savable.alterList {v : VirtualCpu} (h : v.Savable) (n : Nat) {f : ListEntry → ListEntry}
    (hf : accepts (f (v.lists.row n)) = true) : (v.alterList n f).Savable where
  mask := h.mask
  point := h.point
  lists m := by
    rw [VirtualCpu.alterList, Table.row_alter]
    split
    · rename_i hm
      rw [← hm.1]
      exact hf
    · exact h.lists m

theorem Savable.setActivePriorities {v : VirtualCpu} (h : v.Savable) (active : Word) :
    (v.setActivePriorities active).Savable :=
  ⟨h.mask, h.point, h.lists⟩

theorem Savable.writeVif {v : VirtualCpu} (h : v.Savable) (cpu : Nat) (register : VifRegister)
    (value : Word) : (v.writeVif cpu register value).value.state.Savable := by
  cases register with
  | control => exact ⟨h.mask, h.point, h.lists⟩
  | machineControl =>
    refine ⟨?_, clampPoint_clampPoint _, h.lists⟩
    exact congrArg Priority.ofFive (Priority.toFive_ofFive _)
  | activePriorities => exact h.setActivePriorities value
  | list n =>
    simp only [VirtualCpu.writeVif]
    split
    · exact h
    · split
      · rename_i haccepts
        exact h.alterList n haccepts
      · exact h
  | vifType | freeLists | reserved => exact h

theorem Savable.writeGuest {v : VirtualCpu} (h : v.Savable) (cpu : Nat) (register : CpuRegister)
    (value : Word) : (v.writeGuest cpu register value).value.state.Savable := by
  cases register with
  | control | aliasPoint => exact ⟨h.mask, h.point, h.lists⟩
  | priorityMask => exact ⟨congrArg Priority.ofFive (Priority.toFive_ofFive _), h.point, h.lists⟩
  | binaryPoint => exact ⟨h.mask, clampPoint_clampPoint _, h.lists⟩
  | activePriorities n =>
    cases n with
    | zero => exact h.setActivePriorities value
    | succ n => exact h
  | _ => exact h

theorem Savable.acknowledge {v : VirtualCpu} (h : v.Savable) (cpu : Nat) :
    (v.acknowledge cpu).value.2.state.Savable := by
  have henter : ∀ priority, (v.enter priority).Savable := fun _ => ⟨h.mask, h.point, h.lists⟩
  unfold VirtualCpu.acknowledge
  dsimp only
  split
  · exact h
  · simp only [Traced.value_bind]
    split
    · exact h
    · cases v.find? v.highestPending with
      | none => exact henter _
      | some n => exact (henter _).alterList n (h.lists n)

theorem Savable.complete {v : VirtualCpu} (h : v.Savable) (cpu irq : Nat) :
    (v.complete cpu irq).value.1.Savable := by
  simp only [VirtualCpu.complete, Traced.value_bind]
  cases v.find? irq with
  | none => exact h.setActivePriorities _
  | some n => exact (h.setActivePriorities _).alterList n (h.lists n)

end VirtualCpu

namespace Controller

variable {cfg : Config}

/-- Every rule keeps the virtual half of a CPU savable. -/
theorem GuestMoves.savable {g : Controller cfg} {c : Nat} {a : Action} {v : VirtualCpu}
    (h : GuestMoves g c a v) (hg : (g.virtuals.row c).Savable) : v.Savable := by
  cases h with
  | stays => exact hg
  | decides => exact hg.decided
  | hypervisorWrites => exact (hg.writeVif c _ _).result
  | guestWrites => exact (hg.writeGuest c _ _).result
  | acknowledges => exact (hg.acknowledge c).result
  | completes => exact (hg.complete c _).decided
  | powersOn => exact VirtualCpu.savable_powerOn

/-- In every reachable state the virtual half of a CPU can be saved. -/
theorem Reachable.savable {g : Controller cfg} (h : Reachable g) {c : Nat} (hc : c < cfg.cpus) :
    (g.virtuals.row c).Savable :=
  h.guest_induct hc VirtualCpu.savable_powerOn GuestMoves.savable

end Controller

end Gic
