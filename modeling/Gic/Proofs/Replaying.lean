import Gic.Proofs.ActionLines
import Gic.Proofs.Queueing
import Gic.Proofs.Transparency
import Gic.Scenario.Replay

/-!
# Replaying a script

The steps of a script are not done to the controller directly. Accesses go over
the bus, at an address that may leave the address space. Changes of inputs are
queued by the number of an interrupt, of which there are only so many: a private
input that does not exist would be taken for a shared one, and a shared one that
is too large has no number. And a step that fails ends the run, so it should not
have done anything by then. This module says what a run of a script does, and
when it fails.

## The model

* `Step.direct?` — what is done directly in the place of a step, and
  `Board.reached` — the board after the first steps were done directly.
* `Board.Fails` — a step fails on a board, with a fault.
* `Board.NeverFails`, `Board.FirstFault` — no step of a script fails, or which one is
  the first, given where the steps before it have led.
* `Board.Replayed` — the outcome of a run, and what it leaves.

## What is proved

* `Board.runStep_board`, `Board.runStep_fault` — a step does what is done directly
  in its place, and fails if and only if it should.
* `Board.unchanged_of_fails` — a step that fails has done nothing, unless it has
  acknowledged an interrupt.
* `Board.replay_acts_like_direct` — the same of runs.
-/

namespace Gic

/-- What is done directly in the place of a step, if anything: no access beyond the address space or
of a width that does not exist, and nothing for an expectation. -/
def Step.direct? (cfg : Config) : Step → Option BoardAction
  | .write window cpu offset value bits =>
    if cfg.base window + offset < addressSpace then
      (Width.ofBits? bits).map fun width =>
        .write (.cpu cpu) (cfg.base window + offset) (BitVec.ofNat 64 value) width
    else none
  | .read window cpu offset _ bits =>
    if cfg.base window + offset < addressSpace then
      (Width.ofBits? bits).map fun width => .read (.cpu cpu) (cfg.base window + offset) width
    else none
  | .ppi cpu index level => some (.direct (.ppi cpu index.toNat level))
  | .spi index level => some (.direct (.spi index.toNat level))
  | .expectIrq _ _ | .expectVirq _ _ => none

/-- The step accesses a window at an offset, with a number of bits. -/
inductive Step.Accesses (window : Interface) (offset bits : Nat) : Step → Prop where
  /-- It writes. -/
  | write (cpu value : Nat) : Step.Accesses window offset bits (.write window cpu offset value bits)
  /-- It reads. -/
  | read (cpu : Nat) (expect : Option Nat) :
      Step.Accesses window offset bits (.read window cpu offset expect bits)

/-- The step reads an acknowledge register, of a CPU or of its guest. -/
inductive Step.ReadsAcknowledge (cfg : Config) : Step → Prop where
  /-- The address is that of the acknowledge register in either window. -/
  | read {window own : Interface} {cpu offset : Nat} {expect : Option Nat} {bits : Nat}
      (interface : own = .cpuInterface ∨ own = .vcpuInterface)
      (address : cfg.base window + offset = cfg.base own + 0x0c) :
      Step.ReadsAcknowledge cfg (.read window cpu offset expect bits)

namespace Controller

variable {cfg : Config}

/-- What leaves the controller publishes no change of a line. -/
theorem changes_of_after_eq {g : Controller cfg} {a : Action} (h : g.after a = g) :
    (g.step a).changes = [] := by
  have hperm := changes_step g a
  rw [h, lineChanges_self] at hperm
  exact hperm.eq_nil

end Controller

namespace Board

variable {cfg : Config}

/-! ### What fails -/

/-- A step fails on a board. -/
inductive Fails (b : Board cfg) : Step → Fault → Prop where
  /-- It accesses an address that would leave the address space, with any number of bits. -/
  | overrun {s : Step} {window : Interface} {offset bits : Nat}
      (accesses : s.Accesses window offset bits)
      (beyond : addressSpace ≤ cfg.base window + offset) :
      Fails b s (.bus (.invalidAddress ((cfg.base window + offset) % addressSpace)))
  /-- There are no accesses of so many bits. -/
  | badWidth {s : Step} {window : Interface} {offset bits : Nat}
      (accesses : s.Accesses window offset bits)
      (inside : cfg.base window + offset < addressSpace) (none : Width.ofBits? bits = none) :
      Fails b s (.invalidWidth bits)
  /-- The write is refused. -/
  | refusedWrite {window : Interface} {cpu offset value bits : Nat} {width : Width} {e : BusError}
      (inside : cfg.base window + offset < addressSpace) (some : Width.ofBits? bits = some width)
      (refused : (b.write (.cpu cpu) (cfg.base window + offset) (BitVec.ofNat 64 value)
        width).value.1 = .error e) :
      Fails b (.write window cpu offset value bits) (.bus e)
  /-- The read is refused. -/
  | refusedRead {window : Interface} {cpu offset : Nat} {expect : Option Nat} {bits : Nat}
      {width : Width} {e : BusError} (inside : cfg.base window + offset < addressSpace)
      (some : Width.ofBits? bits = some width)
      (refused : (b.read (.cpu cpu) (cfg.base window + offset) width).value.1 = .error e) :
      Fails b (.read window cpu offset expect bits) (.bus e)
  /-- The read answers with another value than the one that is expected. -/
  | mismatchedRead {window : Interface} {cpu offset expected bits : Nat} {width : Width}
      {value : Word} (inside : cfg.base window + offset < addressSpace)
      (some : Width.ofBits? bits = some width)
      (answer : (b.read (.cpu cpu) (cfg.base window + offset) width).value.1 = .ok value)
      (other : expected ≠ value.toNat) :
      Fails b (.read window cpu offset (.some expected) bits)
        (.mismatch (.register window offset cpu) expected value.toNat)
  /-- The interrupt line has another level than the one that is expected. -/
  | mismatchedIrq {cpu : Nat} {level : Bool} (other : b.controller.line cpu .irq ≠ level) :
      Fails b (.expectIrq cpu level)
        (.mismatch (.line .irq cpu) level.toNat (b.controller.line cpu .irq).toNat)
  /-- The virtual interrupt line has another level than the one that is expected. -/
  | mismatchedVirq {cpu : Nat} {level : Bool} (other : b.controller.line cpu .virtualIrq ≠ level) :
      Fails b (.expectVirq cpu level)
        (.mismatch (.line .virtualIrq cpu) level.toNat (b.controller.line cpu .virtualIrq).toNat)

/-! ### Where an access goes -/

variable {window : Interface} {offset bits : Nat}

/-- An address that leaves the address space is told before the width is looked at. -/
theorem target_of_overrun (beyond : addressSpace ≤ cfg.base window + offset) :
    target cfg window offset bits =
      .error (.bus (.invalidAddress ((cfg.base window + offset) % addressSpace))) := by
  rw [target, address?, if_neg (Nat.not_lt.mpr beyond)]
  rfl

theorem target_of_badWidth (inside : cfg.base window + offset < addressSpace)
    (none : Width.ofBits? bits = none) :
    target cfg window offset bits = .error (.invalidWidth bits) := by
  rw [target, address?, if_pos inside, none]

theorem target_of_some (inside : cfg.base window + offset < addressSpace) {width : Width}
    (some : Width.ofBits? bits = some width) :
    target cfg window offset bits = .ok (cfg.base window + offset, width) := by
  rw [target, address?, if_pos inside, some]

/-- One of the three is the case. -/
theorem target_cases (cfg : Config) (window : Interface) (offset bits : Nat) :
    addressSpace ≤ cfg.base window + offset ∨
      (cfg.base window + offset < addressSpace ∧ Width.ofBits? bits = none) ∨
      ∃ width, cfg.base window + offset < addressSpace ∧ Width.ofBits? bits = some width := by
  rcases Nat.lt_or_ge (cfg.base window + offset) addressSpace with inside | beyond
  · cases hwidth : Width.ofBits? bits with
    | none => exact .inr (.inl ⟨inside, rfl⟩)
    | some width => exact .inr (.inr ⟨width, inside, rfl⟩)
  · exact .inl beyond

theorem of_target_eq_ok {place : Nat × Width} (h : target cfg window offset bits = .ok place) :
    ∃ width, cfg.base window + offset < addressSpace ∧ Width.ofBits? bits = some width ∧
      (cfg.base window + offset, width) = place := by
  obtain beyond | ⟨inside, none⟩ | ⟨width, inside, some⟩ := target_cases cfg window offset bits
  · cases h.symm.trans (target_of_overrun beyond)
  · cases h.symm.trans (target_of_badWidth inside none)
  · exact ⟨width, inside, some, Except.ok.inj ((target_of_some inside some).symm.trans h)⟩

/-- No access is made if it has no target. -/
theorem direct?_of_error {s : Step} (accesses : s.Accesses window offset bits) {fault : Fault}
    (h : target cfg window offset bits = .error fault) : s.direct? cfg = none := by
  obtain beyond | ⟨inside, none⟩ | ⟨width, inside, some⟩ := target_cases cfg window offset bits
  · cases accesses <;> exact if_neg (Nat.not_lt.mpr beyond)
  · cases accesses <;> rw [Step.direct?, if_pos inside, none] <;> rfl
  · rw [target_of_some inside some] at h
    cases h

theorem direct?_write (inside : cfg.base window + offset < addressSpace) {width : Width}
    (some : Width.ofBits? bits = some width) (cpu value : Nat) :
    (Step.write window cpu offset value bits).direct? cfg =
      .some (.write (.cpu cpu) (cfg.base window + offset) (BitVec.ofNat 64 value) width) := by
  rw [Step.direct?, if_pos inside, some]
  rfl

theorem direct?_read (inside : cfg.base window + offset < addressSpace) {width : Width}
    (some : Width.ofBits? bits = some width) (cpu : Nat) (expect : Option Nat) :
    (Step.read window cpu offset expect bits).direct? cfg =
      .some (.read (.cpu cpu) (cfg.base window + offset) width) := by
  rw [Step.direct?, if_pos inside, some]
  rfl

/-! ### Boards on which scripts are run -/

/-- A board that is connected and on which no request waits. -/
structure Ready (b : Board cfg) : Prop where
  /-- It is connected. -/
  wired : b.Wired
  /-- No request waits. -/
  idle : b.plumbing.requests = .empty

/-- What does nothing with the queues on its own account leaves the queue of requests. -/
theorem Ready.after {b : Board cfg} (h : b.Ready) {a : BoardAction} (ha : b.prepared a = b) :
    (b.after a).Ready := by
  refine ⟨h.wired.after a, ?_⟩
  rw [after_eq h.wired.isOpen, ha]
  exact h.idle

theorem prepared_direct? {b : Board cfg} {s : Step} {a : BoardAction}
    (ha : s.direct? cfg = some a) : b.prepared a = b := by
  cases s with
  | write window cpu offset value bits =>
    obtain ⟨-, hmap⟩ := Option.ite_none_right_eq_some.mp ha
    obtain ⟨width, -, rfl⟩ := Option.map_eq_some_iff.mp hmap
    rfl
  | read window cpu offset expect bits =>
    obtain ⟨-, hmap⟩ := Option.ite_none_right_eq_some.mp ha
    obtain ⟨width, -, rfl⟩ := Option.map_eq_some_iff.mp hmap
    rfl
  | ppi | spi =>
    obtain rfl := Option.some.inj ha
    rfl
  | expectIrq | expectVirq => cases ha

theorem Ready.afterDirect {b : Board cfg} (h : b.Ready) (s : Step) :
    (b.afterAll (s.direct? cfg).toList).Ready := by
  cases ha : s.direct? cfg with
  | none => exact h
  | some a => exact h.after (prepared_direct? ha)

/-! ### One step -/

/-- A change of an input that is queued and received is the change that it stands for. -/
theorem Ready.value_apply {b : Board cfg} (h : b.Ready) (r : Request) :
    (b.apply r).value = b.afterAll (r.direct?.toList.map .direct) := by
  have hfits : [r].length ≤ requestCapacity := Nat.succ_le_of_lt (Nat.pos_of_ne_zero (by decide))
  have hdelivers := deliversDirectly h.wired h.idle hfits
  have hlist : [r].filterMap Request.direct? = r.direct?.toList :=
    (filterMap_cons_toList _ _ _).trans (List.append_nil _)
  rw [← hlist, ← hdelivers.board]
  rfl

/-- A shared input that is not connected stays as it is. -/
theorem after_spi_of_absent {b : Board cfg} (h : b.Wired) {index : Nat} (hno : cfg.spis ≤ index)
    (hsmall : index < 0x10000) (level : Bool) : b.after (.direct (.spi index level)) = b := by
  have hsum : numPrivate + index < 0x10000000000000000 := by
    simp only [numPrivate]
    omega
  have habsent : ¬ Controller.sharedIrq index < cfg.numIrqs := by
    rw [Controller.sharedIrq_of_lt hsum]
    exact Nat.not_lt.mpr (Nat.add_le_add_left hno numPrivate)
  have hstays : b.controller.after (.spi index level) = b.controller := by
    show (b.controller.driveSpi index level).value = b.controller
    rw [Controller.driveSpi, if_neg habsent]
    rfl
  have hnone := Controller.changes_of_after_eq hstays
  rw [after_eq h.isOpen, asks, Controller.published_singleton, hnone]
  show b.moved (b.controller.after (.spi index level)) [] = b
  rw [hstays]
  rfl

/-- A number that is cut off at the last interrupt that can be named is that of no input. -/
theorem after_spi_saturated (hv : cfg.validate = .ok ()) {b : Board cfg} (h : b.Wired)
    {index : Nat} (hindex : index < 0x10000) (level : Bool) :
    b.after (.direct (.spi (min (numPrivate + index) 0xffff - numPrivate) level)) =
      b.after (.direct (.spi index level)) := by
  obtain ⟨-, -, hn⟩ := Config.bounds_of_validate hv
  simp only [Config.numIrqs, numPrivate, maxIrqs] at *
  by_cases hfits : 32 + index ≤ 0xffff
  · have hsame : min (32 + index) 0xffff - 32 = index := by omega
    rw [hsame]
  · have hcut : cfg.spis ≤ min (32 + index) 0xffff - 32 := by omega
    have hlarge : cfg.spis ≤ index := by omega
    rw [after_spi_of_absent h hcut (by omega), after_spi_of_absent h hlarge hindex]

theorem value_runStep_write (b : Board cfg) (window : Interface) (cpu offset value bits : Nat) :
    (b.runStep (.write window cpu offset value bits)).value =
      match target cfg window offset bits with
      | .error fault => (.error fault, b)
      | .ok (address, width) =>
        ((b.write (.cpu cpu) address (BitVec.ofNat 64 value) width).value.1.mapError .bus,
          b.after (.write (.cpu cpu) address (BitVec.ofNat 64 value) width)) := by
  rw [runStep]
  cases target cfg window offset bits <;> rfl

theorem value_runStep_read (b : Board cfg) (window : Interface) (cpu offset : Nat)
    (expect : Option Nat) (bits : Nat) :
    (b.runStep (.read window cpu offset expect bits)).value =
      match target cfg window offset bits with
      | .error fault => (.error fault, b)
      | .ok (address, width) =>
        (checkRead (.register window offset cpu) expect (b.read (.cpu cpu) address width).value.1,
          b.after (.read (.cpu cpu) address width)) := by
  rw [runStep]
  cases target cfg window offset bits <;> rfl

/-- The private input of a step is queued by its number, if it exists. -/
theorem direct?_private {cpu : Nat} {index : BitVec 16} (hindex : index.toNat < numPpis)
    (level : Bool) :
    Request.direct? ⟨.ofNat 16 (numSgis + index.toNat), some cpu, level⟩ =
      some (.ppi cpu index.toNat level) := by
  have hlow : ¬ numSgis + index.toNat < numSgis := by omega
  have hhigh : numSgis + index.toNat < numPrivate := by
    simp only [numPpis, numSgis, numPrivate] at *
    omega
  have hsmall : numSgis + index.toNat < 0x10000 := Nat.lt_trans hhigh (by decide)
  rw [Request.direct?, Request.irq_ofNat hsmall, if_neg hlow, if_pos hhigh,
    Nat.add_sub_cancel_left]
  rfl

/-- Every other number is that of a shared input. -/
theorem direct?_shared {irq : Nat} (hirq : numPrivate ≤ irq) (hsmall : irq < 0x10000)
    (level : Bool) :
    Request.direct? ⟨.ofNat 16 irq, none, level⟩ = some (.spi (irq - numPrivate) level) := by
  have hsgi : ¬ irq < numSgis := Nat.not_lt.mpr (Nat.le_trans (by decide) hirq)
  rw [Request.direct?, Request.irq_ofNat hsmall, if_neg hsgi, if_neg (Nat.not_lt.mpr hirq)]

/-- A step leaves what is left when its direct action is done in its place. -/
theorem runStep_board (hv : cfg.validate = .ok ()) {b : Board cfg} (h : b.Ready) (s : Step) :
    (b.runStep s).value.2 = b.afterAll (s.direct? cfg).toList := by
  cases s with
  | write window cpu offset value bits =>
    rw [value_runStep_write]
    cases htarget : target cfg window offset bits with
    | error fault =>
      rw [direct?_of_error (.write cpu value) htarget]
      rfl
    | ok place =>
      obtain ⟨width, inside, some, rfl⟩ := of_target_eq_ok htarget
      rw [direct?_write inside some]
      rfl
  | read window cpu offset expect bits =>
    rw [value_runStep_read]
    cases htarget : target cfg window offset bits with
    | error fault =>
      rw [direct?_of_error (.read cpu expect) htarget]
      rfl
    | ok place =>
      obtain ⟨width, inside, some, rfl⟩ := of_target_eq_ok htarget
      rw [direct?_read inside some]
      rfl
  | ppi cpu index level =>
    rw [Step.direct?, runStep]
    by_cases hindex : index.toNat < numPpis
    · rw [if_pos hindex, Traced.value_bind, h.value_apply, direct?_private hindex]
      rfl
    · rw [if_neg hindex]
      rfl
  | spi index level =>
    have hshared : numPrivate ≤ min (numPrivate + index.toNat) 0xffff :=
      Nat.le_min.mpr ⟨Nat.le_add_right _ _, by decide⟩
    have hsmall : min (numPrivate + index.toNat) 0xffff < 0x10000 :=
      Nat.lt_succ_of_le (Nat.min_le_right _ _)
    rw [Step.direct?, runStep, Traced.value_bind, h.value_apply, direct?_shared hshared hsmall]
    exact after_spi_saturated hv h.wired index.isLt level
  | expectIrq | expectVirq => rfl

/-! ### When a step fails -/

theorem check_eq_error_iff {subject : Subject} {expected actual : Nat} {fault : Fault} :
    check subject expected actual = .error fault ↔
      expected ≠ actual ∧ fault = .mismatch subject expected actual := by
  unfold check
  split
  · rename_i heq
    exact iff_of_false (fun h => by cases h) fun h => h.1 heq
  · rename_i hne
    rw [Except.error.injEq, eq_comm]
    exact ⟨fun h => ⟨hne, h⟩, And.right⟩

/-- A level and its number stand for each other. -/
theorem toNat_ne_iff {expected actual : Bool} :
    expected.toNat ≠ actual.toNat ↔ actual ≠ expected := by
  cases expected <;> cases actual <;> decide

/-- An access that has no target fails. -/
theorem Fails.of_target {b : Board cfg} {s : Step} (accesses : s.Accesses window offset bits)
    {fault : Fault} (h : target cfg window offset bits = .error fault) : b.Fails s fault := by
  obtain beyond | ⟨inside, none⟩ | ⟨width, inside, some⟩ := target_cases cfg window offset bits
  · obtain rfl := Except.error.inj (h.symm.trans (target_of_overrun beyond))
    exact .overrun accesses beyond
  · obtain rfl := Except.error.inj (h.symm.trans (target_of_badWidth inside none))
    exact .badWidth accesses inside none
  · cases h.symm.trans (target_of_some inside some)

/-- What is answered with an error should fail. -/
theorem fails_of_runStep {b : Board cfg} {s : Step} {fault : Fault}
    (h : (b.runStep s).value.1 = .error fault) : b.Fails s fault := by
  cases s with
  | write window cpu offset value bits =>
    rw [value_runStep_write] at h
    cases htarget : target cfg window offset bits with
    | error =>
      rw [htarget] at h
      cases h
      exact .of_target (.write cpu value) htarget
    | ok place =>
      obtain ⟨width, inside, some, rfl⟩ := of_target_eq_ok htarget
      rw [htarget] at h
      dsimp only at h
      cases hanswer : (b.write (.cpu cpu) (cfg.base window + offset) (BitVec.ofNat 64 value)
        width).value.1 with
      | error e =>
        rw [hanswer] at h
        cases h
        exact .refusedWrite inside some hanswer
      | ok =>
        rw [hanswer] at h
        cases h
  | read window cpu offset expect bits =>
    rw [value_runStep_read] at h
    cases htarget : target cfg window offset bits with
    | error =>
      rw [htarget] at h
      cases h
      exact .of_target (.read cpu expect) htarget
    | ok place =>
      obtain ⟨width, inside, some, rfl⟩ := of_target_eq_ok htarget
      rw [htarget] at h
      dsimp only at h
      cases hanswer : (b.read (.cpu cpu) (cfg.base window + offset) width).value.1 with
      | error e =>
        rw [hanswer] at h
        cases h
        exact .refusedRead inside some hanswer
      | ok value =>
        rw [hanswer] at h
        cases expect with
        | none => cases h
        | some expected =>
          obtain ⟨other, rfl⟩ := check_eq_error_iff.mp h
          exact .mismatchedRead inside some hanswer other
  | ppi cpu index level =>
    rw [runStep] at h
    by_cases hindex : index.toNat < numPpis
    · rw [if_pos hindex] at h
      cases h
    · rw [if_neg hindex] at h
      cases h
  | spi => cases h
  | expectIrq cpu level =>
    obtain ⟨other, rfl⟩ := check_eq_error_iff.mp h
    exact .mismatchedIrq (toNat_ne_iff.mp other)
  | expectVirq cpu level =>
    obtain ⟨other, rfl⟩ := check_eq_error_iff.mp h
    exact .mismatchedVirq (toNat_ne_iff.mp other)

/-- A step fails if and only if it should. -/
theorem runStep_fault {b : Board cfg} {s : Step} {fault : Fault} :
    (b.runStep s).value.1 = .error fault ↔ b.Fails s fault := by
  refine ⟨fails_of_runStep, fun h => ?_⟩
  cases h with
  | overrun accesses beyond =>
    cases accesses with
    | write => rw [value_runStep_write, target_of_overrun beyond]
    | read => rw [value_runStep_read, target_of_overrun beyond]
  | badWidth accesses inside none =>
    cases accesses with
    | write => rw [value_runStep_write, target_of_badWidth inside none]
    | read => rw [value_runStep_read, target_of_badWidth inside none]
  | refusedWrite inside some refused =>
    rw [value_runStep_write, target_of_some inside some]
    dsimp only
    rw [refused]
    rfl
  | refusedRead inside some refused =>
    rw [value_runStep_read, target_of_some inside some]
    dsimp only
    rw [refused]
    rfl
  | mismatchedRead inside some answer other =>
    rw [value_runStep_read, target_of_some inside some]
    dsimp only
    rw [answer]
    exact check_eq_error_iff.mpr ⟨other, rfl⟩
  | mismatchedIrq other | mismatchedVirq other =>
    exact check_eq_error_iff.mpr ⟨toNat_ne_iff.mpr other, rfl⟩

/-- A step fails with one fault. -/
theorem Fails.unique {b : Board cfg} {s : Step} {first second : Fault} (h : b.Fails s first)
    (h' : b.Fails s second) : first = second :=
  Except.error.inj ((runStep_fault.mpr h).symm.trans (runStep_fault.mpr h'))

/-! ### A step that fails has done nothing -/

/-- A write that is refused leaves the board. -/
theorem after_refused_write {b : Board cfg} (h : b.Wired) {i : Initiator} {address : Nat}
    {value : BitVec 64} {width : Width} {e : BusError}
    (refused : (b.write i address value width).value.1 = .error e) :
    b.after (.write i address value width) = b := by
  show (b.write i address value width).value.2 = b
  by_cases hheld : ∃ window, cfg.Holds window address
  · obtain ⟨window, ha⟩ := hheld
    have hrelays := relays_write h ha i value width
    obtain ⟨hstays, hnone⟩ := (Controller.judged_write b.controller window i _ value
      width).atomic e (hrelays.answer.symm.trans refused)
    exact hrelays.still hstays hnone
  · rw [value_write_unmapped h (not_exists.mp hheld)]

/-- A read that is refused leaves the board. -/
theorem after_refused_read {b : Board cfg} (h : b.Wired) {i : Initiator} {address : Nat}
    {width : Width} {e : BusError} (refused : (b.read i address width).value.1 = .error e) :
    b.after (.read i address width) = b := by
  show (b.read i address width).value.2 = b
  by_cases hheld : ∃ window, cfg.Holds window address
  · obtain ⟨window, ha⟩ := hheld
    have hrelays := relays_read h ha i width
    obtain ⟨hstays, hnone⟩ := (Controller.judged_read b.controller window i _
      width).atomic e (hrelays.answer.symm.trans refused)
    exact hrelays.still hstays hnone
  · rw [value_read_unmapped h (not_exists.mp hheld)]

/-- A read leaves the board unless it is at an acknowledge register. -/
theorem after_quiet_read {b : Board cfg} (h : b.Wired) {address : Nat}
    (quiet : ∀ own, own = .cpuInterface ∨ own = .vcpuInterface → address ≠ cfg.base own + 0x0c)
    (i : Initiator) (width : Width) : b.after (.read i address width) = b := by
  show (b.read i address width).value.2 = b
  by_cases hheld : ∃ window, cfg.Holds window address
  · obtain ⟨window, ha⟩ := hheld
    have hother : ¬ ((window = .cpuInterface ∨ window = .vcpuInterface) ∧
        address - cfg.base window = 0x0c) := by
      rintro ⟨hown, hoffset⟩
      have hbase := ha.1
      exact quiet window hown (by omega)
    have hstays := b.controller.after_read_of_quiet hother i width
    have hnone := Controller.changes_of_after_eq hstays
    rw [Controller.changes_step_read] at hnone
    exact (relays_read h ha i width).still hstays hnone
  · rw [value_read_unmapped h (not_exists.mp hheld)]

/-- A step that fails has done nothing, unless it has acknowledged an interrupt and found another
value than the one that is expected. -/
theorem unchanged_of_fails {b : Board cfg} (h : b.Wired) {s : Step} {fault : Fault}
    (hfails : b.Fails s fault) :
    b.afterAll (s.direct? cfg).toList = b ∨ (s.ReadsAcknowledge cfg ∧
      ∃ subject expected actual, fault = .mismatch subject expected actual) := by
  cases hfails with
  | overrun accesses beyond =>
    rw [direct?_of_error accesses (target_of_overrun beyond)]
    exact .inl rfl
  | badWidth accesses inside none =>
    rw [direct?_of_error accesses (target_of_badWidth inside none)]
    exact .inl rfl
  | refusedWrite inside some refused =>
    rw [direct?_write inside some]
    exact .inl (after_refused_write h refused)
  | refusedRead inside some refused =>
    rw [direct?_read inside some]
    exact .inl (after_refused_read h refused)
  | mismatchedRead inside some answer other =>
    rename_i window cpu offset expected bits width value
    by_cases hack : ∃ own, (own = Interface.cpuInterface ∨ own = Interface.vcpuInterface) ∧
        cfg.base window + offset = cfg.base own + 0x0c
    · obtain ⟨own, hown, haddress⟩ := hack
      exact .inr ⟨.read hown haddress, _, _, _, rfl⟩
    · rw [direct?_read inside some]
      refine .inl (after_quiet_read h (fun own hown haddress => ?_) _ _)
      exact hack ⟨own, hown, haddress⟩
  | mismatchedIrq | mismatchedVirq => exact .inl rfl

/-! ### Runs -/

/-- The board after the first `k` steps of a script were done directly. -/
def reached (b : Board cfg) (script : Script) (k : Nat) : Board cfg :=
  b.afterAll ((script.take k).filterMap (Step.direct? cfg))

theorem reached_cons (b : Board cfg) (s : Step) (rest : Script) (k : Nat) :
    b.reached (s :: rest) (k + 1) = (b.afterAll (s.direct? cfg).toList).reached rest k := by
  rw [reached, List.take_succ_cons, filterMap_cons_toList, afterAll_append]
  rfl

/-- One more step is done after the others. -/
theorem reached_succ {b : Board cfg} {script : Script} {k : Nat} {s : Step}
    (hs : script[k]? = some s) :
    b.reached script (k + 1) = (b.reached script k).afterAll (s.direct? cfg).toList := by
  rw [reached, List.take_add_one, hs, List.filterMap_append, afterAll_append]
  refine congrArg (afterAll _) ?_
  exact (filterMap_cons_toList _ _ _).trans (List.append_nil _)

/-- No step of a script fails, each on the board that the steps before it lead to. -/
def NeverFails (b : Board cfg) (script : Script) : Prop :=
  ∀ k s, script[k]? = some s → ∀ fault, ¬ (b.reached script k).Fails s fault

/-- The first step of a script that fails is the one with the number `k`, with a fault. -/
structure FirstFault (b : Board cfg) (script : Script) (k : Nat) (fault : Fault) : Prop where
  /-- It fails. -/
  fails : ∃ s, script[k]? = some s ∧ (b.reached script k).Fails s fault
  /-- None of those before it does. -/
  before : ∀ j < k, ∀ s, script[j]? = some s → ∀ other, ¬ (b.reached script j).Fails s other

theorem NeverFails.cons {b : Board cfg} {s : Step} {rest : Script}
    (hfirst : ∀ fault, ¬ b.Fails s fault)
    (hrest : (b.afterAll (s.direct? cfg).toList).NeverFails rest) : b.NeverFails (s :: rest) := by
  intro k t ht
  cases k with
  | zero =>
    obtain rfl := Option.some.inj ht
    exact hfirst
  | succ k =>
    rw [reached_cons]
    exact hrest k t ht

theorem FirstFault.cons {b : Board cfg} {s : Step} {rest : Script} {k : Nat} {fault : Fault}
    (hfirst : ∀ other, ¬ b.Fails s other)
    (hrest : (b.afterAll (s.direct? cfg).toList).FirstFault rest k fault) :
    b.FirstFault (s :: rest) (k + 1) fault := by
  refine ⟨?_, fun j hj t ht => ?_⟩
  · rw [reached_cons]
    exact hrest.fails
  · cases j with
    | zero =>
      obtain rfl := Option.some.inj ht
      exact hfirst
    | succ j =>
      rw [reached_cons]
      exact hrest.before j (Nat.lt_of_succ_lt_succ hj) t ht

/-- A script that never fails has no first step that fails. -/
theorem NeverFails.not_firstFault {b : Board cfg} {script : Script} (h : b.NeverFails script)
    (k : Nat) (fault : Fault) : ¬ b.FirstFault script k fault := by
  rintro ⟨⟨s, hs, hfails⟩, -⟩
  exact h k s hs fault hfails

/-- There is one first step that fails, with one fault. -/
theorem FirstFault.unique {b : Board cfg} {script : Script} {k l : Nat} {fault other : Fault}
    (h : b.FirstFault script k fault) (h' : b.FirstFault script l other) :
    k = l ∧ fault = other := by
  obtain ⟨⟨s, hs, hfails⟩, hbefore⟩ := h
  obtain ⟨⟨t, ht, hfails'⟩, hbefore'⟩ := h'
  rcases Nat.lt_trichotomy k l with hlt | rfl | hlt
  · exact absurd hfails (hbefore' k hlt s hs fault)
  · obtain rfl := Option.some.inj (hs.symm.trans ht)
    exact ⟨rfl, hfails.unique hfails'⟩
  · exact absurd hfails' (hbefore l hlt t ht other)

theorem value_runFrom_cons (b : Board cfg) (index : Nat) (s : Step) (rest : Script) :
    (b.runFrom index (s :: rest)).value =
      match (b.runStep s).value.1 with
      | .error fault => (.error ⟨index, fault⟩, (b.runStep s).value.2)
      | .ok () => ((b.runStep s).value.2.runFrom (index + 1) rest).value := by
  rw [runFrom, Traced.value_bind, Traced.value_bind]
  obtain ⟨answer, next⟩ := (b.runStep s).value
  cases answer <;> rfl

/-- A run of a script goes through, or ends after the first step that fails. -/
theorem value_runFrom (hv : cfg.validate = .ok ()) {b : Board cfg} (h : b.Ready) (index : Nat)
    (script : Script) :
    (b.NeverFails script ∧
      (b.runFrom index script).value = (.ok (), b.reached script script.length)) ∨
    ∃ k fault, b.FirstFault script k fault ∧
      (b.runFrom index script).value = (.error ⟨index + k, fault⟩, b.reached script (k + 1)) := by
  induction script generalizing b index with
  | nil =>
    refine .inl ⟨fun k s hs => ?_, rfl⟩
    cases hs
  | cons s rest ih =>
    have hrun := value_runFrom_cons b index s rest
    rw [runStep_board hv h s] at hrun
    cases hanswer : (b.runStep s).value.1 with
    | error fault =>
      have hfails : b.Fails s fault := runStep_fault.mp hanswer
      rw [hanswer] at hrun
      refine .inr ⟨0, fault, ⟨⟨s, rfl, hfails⟩, fun j hj => absurd hj (Nat.not_lt_zero j)⟩, ?_⟩
      rw [reached_cons]
      exact hrun
    | ok =>
      have hfirst : ∀ fault, ¬ b.Fails s fault := fun fault hfails => by
        cases hanswer.symm.trans (runStep_fault.mpr hfails)
      rw [hanswer] at hrun
      rcases ih (h.afterDirect s) (index + 1) with ⟨hnever, hrest⟩ | ⟨k, fault, hfault, hrest⟩
      · refine .inl ⟨hnever.cons hfirst, ?_⟩
        rw [List.length_cons, reached_cons]
        exact hrun.trans hrest
      · refine .inr ⟨k + 1, fault, hfault.cons hfirst, ?_⟩
        have hnumber : index + (k + 1) = index + 1 + k := Nat.add_right_comm index k 1
        rw [reached_cons, hnumber]
        exact hrun.trans hrest

/-- The outcome of a run of a script on a board. -/
structure Replayed (b : Board cfg) (script : Script)
    (outcome : Except ReplayError Unit × Board cfg) : Prop where
  /-- The run succeeds if and only if no step fails. -/
  succeeds : outcome.1 = .ok () ↔ b.NeverFails script
  /-- Otherwise the first step that fails is told, by its number, and why it does. -/
  fails : ∀ k fault, outcome.1 = .error ⟨k, fault⟩ ↔ b.FirstFault script k fault
  /-- A run that succeeds leaves the board that is left when all steps are done directly: the
  controller, the changes of lines that wait, and all else. -/
  whole : outcome.1 = .ok () → outcome.2 = b.reached script script.length
  /-- A run that fails leaves the board that is left when the steps up to the one that fails are
  done directly, with that one, and none after it. -/
  upTo : ∀ k fault, outcome.1 = .error ⟨k, fault⟩ → outcome.2 = b.reached script (k + 1)
  /-- The step that fails has done nothing, unless it has acknowledged an interrupt and found
  another value than the one that is expected. -/
  atomic : ∀ k fault, outcome.1 = .error ⟨k, fault⟩ → outcome.2 = b.reached script k ∨
    ∃ s, script[k]? = some s ∧ s.ReadsAcknowledge cfg ∧
      ∃ subject expected actual, fault = .mismatch subject expected actual

/-- A run of a script on a board that is ready for it. -/
theorem replayed_run (hv : cfg.validate = .ok ()) {b : Board cfg} (h : b.Ready)
    (script : Script) : b.Replayed script (b.run script).value := by
  rcases value_runFrom hv h 0 script with ⟨hnever, hrun⟩ | ⟨k, fault, hfault, hrun⟩
  · rw [run, hrun]
    exact
      { succeeds := iff_of_true rfl hnever
        fails := fun k fault => iff_of_false (fun he => by cases he) (hnever.not_firstFault k fault)
        whole := fun _ => rfl
        upTo := fun k fault he => by cases he
        atomic := fun k fault he => by cases he }
  · rw [Nat.zero_add] at hrun
    obtain ⟨s, hs, hfails⟩ := hfault.fails
    rw [run, hrun]
    refine
      { succeeds := iff_of_false (fun he => by cases he) fun hn => hn.not_firstFault k fault hfault
        fails := fun l other => ⟨fun he => ?_, fun hother => ?_⟩
        whole := fun he => by cases he
        upTo := fun l other he => ?_
        atomic := fun l other he => ?_ }
    · cases he
      exact hfault
    · obtain ⟨rfl, rfl⟩ := hfault.unique hother
      rfl
    · cases he
      rfl
    · cases he
      rw [reached_succ hs]
      refine (unchanged_of_fails (h.wired.afterAll _) hfails).imp_right ?_
      exact fun ⟨hreads, hmismatch⟩ => ⟨s, hs, hreads, hmismatch⟩

/-- On every board that is built, whatever was done to it: if no request waits, every script does
what is done when its steps are done directly, up to the first one that fails. -/
theorem replay_acts_like_direct {built : Board cfg} (hbuild : build cfg = .ok built)
    (actions : List BoardAction) (hnone : (built.afterAll actions).plumbing.requests = .empty)
    (script : Script) :
    (built.afterAll actions).Replayed script ((built.afterAll actions).run script).value := by
  obtain ⟨hwired, -, -⟩ := wired_of_build hbuild
  exact replayed_run (validate_of_build hbuild) ⟨hwired.afterAll actions, hnone⟩ script

/-- The first step names a shared input that does not exist, and does nothing. The second one leaves
the address space by an access of 12 bits: it is told that the address is bad, and the third step
is never run. -/
theorem replay_acts_like_direct_wrapped :
    let script : Script :=
      [.spi 0xffff true, .read .distributor 0 0xffffffffffffffff none 12, .expectIrq 0 true]
    ∃ built, build Config.standard = .ok built ∧ (built.afterAll []).plumbing.requests = .empty ∧
      (built.run script).value = (.error ⟨1, .bus (.invalidAddress 0x07ffffff)⟩, built) := by
  intro script
  have hv : Config.standard.validate = .ok () := by decide
  obtain ⟨map, -, hbuild⟩ := build_of_valid hv
  refine ⟨_, hbuild, rfl, ?_⟩
  have hreplayed := replay_acts_like_direct hbuild [] rfl script
  obtain ⟨hwired, -, -⟩ := wired_of_build hbuild
  have hover : addressSpace ≤ Config.standard.base .distributor + 0xffffffffffffffff := by decide
  have hfault := (hreplayed.fails 1 (.bus (.invalidAddress 0x07ffffff))).mpr
    { fails := ⟨_, rfl, .overrun (.read 0 none) hover⟩
      before := fun j hj s hs other hfails => by
        obtain rfl := Nat.lt_one_iff.mp hj
        obtain rfl := Option.some.inj hs
        cases hfails with
        | overrun accesses | badWidth accesses => cases accesses }
  refine Prod.ext hfault ((hreplayed.upTo _ _ hfault).trans ?_)
  exact after_spi_of_absent hwired (by decide) (by decide) true

end Board

end Gic
