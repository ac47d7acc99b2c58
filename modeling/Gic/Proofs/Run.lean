import Gic.Proofs.Offsets
import Gic.Proofs.Reset
import Mathlib.Data.List.Induction

/-!
# Runs of a controller

A controller is driven from outside by reads and writes of its registers, by its
input lines, by requests to decide anew, and by resets. This module says what a
run of such actions is, and what each of them does with the physical half.

## The model

* `Action`, `Controller.after`, `Controller.run` — one action, and a list of
  them done one after the other. A state is `Reachable` if some run from
  power-on leads to it.
* `Avoids` and `Outstanding` — what a run contains: nothing of a kind, or
  something of one kind and nothing of another kind after it. An action is
  judged in the state in which it is done.
* `Moves g a p` — the action `a`, done in `g`, may leave the physical half `p`
  behind. There is one rule for each operation of the physical half that an
  action can set off, with the conditions under which it does.

## What is proved

* `Reachable.induct` — what holds at power-on and is kept by every action holds
  of every reachable state.
* `run_keeps` — what every action keeps that is not of a kind holds after a run
  that avoids this kind.
* `iff_outstanding` — what is set by the actions of one kind and cleared by
  those of another kind holds if and only if one of the first is outstanding.
* `moves_after` — every action does what one of the rules of `Moves` says, so a
  proof about the physical half has one case for each of its operations.
-/

namespace Gic

/-- Something that is done to a controller from outside. -/
inductive Action where
  /-- A register is read. -/
  | read (window : Interface) (initiator : Initiator) (offset : Nat) (width : Width)
  /-- A register is written. -/
  | write (window : Interface) (initiator : Initiator) (offset : Nat) (value : BitVec 64)
      (width : Width)
  /-- A private input takes a level. -/
  | ppi (cpu index : Nat) (level : Bool)
  /-- A shared input takes a level. -/
  | spi (index : Nat) (level : Bool)
  /-- A queued change of an input is delivered. -/
  | request (request : Request)
  /-- One half decides anew. -/
  | update (domain : Domain)
  /-- Everything returns to what it was at power-on. -/
  | reset
  deriving DecidableEq, Repr

/-- A shared input is driven by an index for which the sum of 64 bits is the number of the private
interrupt `irq`. -/
def Action.Overdrives (irq : Nat) (level : Bool) (a : Action) : Prop :=
  irq < numPrivate ∧ ∃ index, Controller.sharedIrq index = irq ∧ a = .spi index level

namespace Controller

variable {cfg : Config}

/-! ### Runs -/

/-- Does something to a controller. -/
def step (g : Controller cfg) : Action → Traced Event (Controller cfg)
  | .read window initiator offset width => do
    let reply ← g.read window initiator offset width
    return reply.2
  | .write window initiator offset value width => do
    let reply ← g.write window initiator offset value width
    return reply.2
  | .ppi cpu index level => g.drivePpi cpu index level
  | .spi index level => g.driveSpi index level
  | .request request => g.handle request
  | .update domain => g.update domain
  | .reset => g.reset

/-- The controller after an action. -/
def after (g : Controller cfg) (a : Action) : Controller cfg := (g.step a).value

/-- The controller after a run of actions, the first one done first. -/
def run (g : Controller cfg) (actions : List Action) : Controller cfg := actions.foldl after g

/-- A state that some run from power-on leads to. -/
def Reachable (g : Controller cfg) : Prop := ∃ actions, (powerOn cfg).run actions = g

theorem run_append (g : Controller cfg) (first second : List Action) :
    g.run (first ++ second) = (g.run first).run second :=
  List.foldl_append

theorem run_concat (g : Controller cfg) (actions : List Action) (a : Action) :
    g.run (actions ++ [a]) = (g.run actions).after a :=
  run_append g actions [a]

theorem after_reset (g : Controller cfg) : g.after .reset = powerOn cfg := g.value_reset

theorem reachable_run (actions : List Action) : Reachable ((powerOn cfg).run actions) :=
  ⟨actions, rfl⟩

theorem Reachable.after {g : Controller cfg} (h : Reachable g) (a : Action) :
    Reachable (g.after a) := by
  obtain ⟨actions, rfl⟩ := h
  exact ⟨actions ++ [a], run_concat _ actions a⟩

theorem Reachable.run {g : Controller cfg} (h : Reachable g) (actions : List Action) :
    Reachable (g.run actions) := by
  obtain ⟨before, rfl⟩ := h
  exact ⟨before ++ actions, run_append _ before actions⟩

/-- What holds at power-on and is kept by every action holds of every reachable state. -/
theorem Reachable.induct {P : Controller cfg → Prop} (start : P (powerOn cfg))
    (keep : ∀ g a, Reachable g → P g → P (g.after a)) {g : Controller cfg} (h : Reachable g) :
    P g := by
  obtain ⟨actions, rfl⟩ := h
  suffices ∀ g : Controller cfg, Reachable g → P g → P (g.run actions) from
    this _ (reachable_run []) start
  induction actions with
  | nil => exact fun _ _ hg => hg
  | cons a rest ih => exact fun g hr hg => ih _ (hr.after a) (keep g a hr hg)

/-! ### What a run contains -/

/-- Nothing `bad` is done in a run. -/
def Avoids (bad : Controller cfg → Action → Prop) (g : Controller cfg)
    (actions : List Action) : Prop :=
  ∀ before a rest, actions = before ++ a :: rest → ¬ bad (g.run before) a

/-- Something that `raises` is done in a run, and nothing that `ends` it after that. -/
def Outstanding (raises ends : Controller cfg → Action → Prop) (g : Controller cfg)
    (actions : List Action) : Prop :=
  ∃ before a rest, actions = before ++ a :: rest ∧ raises (g.run before) a ∧
    Avoids ends (g.run (before ++ [a])) rest

/-- The last action of a run is the one that is looked at, or it comes later. -/
theorem split_concat {actions before rest : List Action} {a c : Action}
    (h : actions ++ [c] = before ++ a :: rest) :
    (actions = before ∧ c = a ∧ rest = []) ∨
      ∃ rest', rest = rest' ++ [c] ∧ actions = before ++ a :: rest' := by
  rcases List.eq_nil_or_concat rest with rfl | ⟨rest', b, rfl⟩
  · obtain ⟨hactions, hc⟩ := List.append_inj' h rfl
    exact .inl ⟨hactions, List.singleton_inj.mp hc, rfl⟩
  · rw [List.concat_eq_append, ← List.cons_append, ← List.append_assoc] at h
    obtain ⟨hactions, hc⟩ := List.append_inj' h rfl
    obtain rfl := List.singleton_inj.mp hc
    exact .inr ⟨rest', List.concat_eq_append, hactions⟩

theorem avoids_nil (bad : Controller cfg → Action → Prop) (g : Controller cfg) :
    Avoids bad g [] := by
  intro before a rest h
  cases before <;> cases h

theorem avoids_concat {bad : Controller cfg → Action → Prop} {g : Controller cfg}
    {actions : List Action} {c : Action} :
    Avoids bad g (actions ++ [c]) ↔ Avoids bad g actions ∧ ¬ bad (g.run actions) c := by
  constructor
  · intro h
    constructor
    · rintro before a rest rfl
      exact h before a (rest ++ [c]) (by rw [List.append_assoc, List.cons_append])
    · exact h actions c [] rfl
  · rintro ⟨hactions, hc⟩ before a rest h
    rcases split_concat h with ⟨rfl, rfl, -⟩ | ⟨rest', -, h⟩
    · exact hc
    · exact hactions before a rest' h

theorem avoids_of_forall {bad : Controller cfg → Action → Prop} {actions : List Action}
    (h : ∀ a ∈ actions, ∀ g, ¬ bad g a) (g : Controller cfg) : Avoids bad g actions := by
  rintro before a rest rfl
  exact h a (List.mem_append_right before List.mem_cons_self) _

/-- What is kept by every action that is not bad holds after a run that avoids the bad ones. -/
theorem run_keeps {bad : Controller cfg → Action → Prop} {P : Controller cfg → Prop}
    (keep : ∀ g a, Reachable g → ¬ bad g a → P g → P (g.after a)) {g : Controller cfg}
    (hg : Reachable g) (start : P g) {actions : List Action} (h : Avoids bad g actions) :
    P (g.run actions) := by
  induction actions using List.reverseRecOn with
  | nil => exact start
  | append_singleton actions a ih =>
    obtain ⟨hactions, ha⟩ := avoids_concat.mp h
    rw [run_concat]
    exact keep _ a (hg.run actions) ha (ih hactions)

theorem not_outstanding_nil {raises ends : Controller cfg → Action → Prop} {g : Controller cfg} :
    ¬ Outstanding raises ends g [] := by
  rintro ⟨before, a, rest, h, -⟩
  cases before <;> cases h

theorem outstanding_concat {raises ends : Controller cfg → Action → Prop} {g : Controller cfg}
    {actions : List Action} {c : Action} :
    Outstanding raises ends g (actions ++ [c]) ↔
      raises (g.run actions) c ∨
        (Outstanding raises ends g actions ∧ ¬ ends (g.run actions) c) := by
  constructor
  · rintro ⟨before, a, rest, h, hraises, hrest⟩
    rcases split_concat h with ⟨rfl, rfl, rfl⟩ | ⟨rest', rfl, rfl⟩
    · exact .inl hraises
    · obtain ⟨hrest', hc⟩ := avoids_concat.mp hrest
      rw [← run_append, List.append_assoc] at hc
      exact .inr ⟨⟨before, a, rest', rfl, hraises, hrest'⟩, hc⟩
  · rintro (hraises | ⟨⟨before, a, rest, rfl, hraises, hrest⟩, hc⟩)
    · exact ⟨actions, c, [], rfl, hraises, avoids_nil _ _⟩
    · refine ⟨before, a, rest ++ [c], by rw [List.append_assoc, List.cons_append], hraises,
        avoids_concat.mpr ⟨hrest, ?_⟩⟩
      rwa [← run_append, List.append_assoc]

/-- What is done nowhere in a run is not outstanding. -/
theorem not_outstanding_of_forall {raises ends : Controller cfg → Action → Prop}
    {actions : List Action} (h : ∀ a ∈ actions, ∀ g, ¬ raises g a) (g : Controller cfg) :
    ¬ Outstanding raises ends g actions := by
  rintro ⟨before, a, rest, rfl, hraises, -⟩
  exact h a (List.mem_append_right before List.mem_cons_self) _ hraises

/-- What does not hold at power-on, and after every action holds if and only if the action raises
it or it held before and the action does not end it, holds if and only if it was raised and not
ended since. -/
theorem iff_outstanding {raises ends : Controller cfg → Action → Prop} {P : Controller cfg → Prop}
    (start : ¬ P (powerOn cfg))
    (step : ∀ g a, Reachable g → (P (g.after a) ↔ raises g a ∨ (P g ∧ ¬ ends g a)))
    (actions : List Action) :
    P ((powerOn cfg).run actions) ↔ Outstanding raises ends (powerOn cfg) actions := by
  induction actions using List.reverseRecOn with
  | nil => exact iff_of_false start not_outstanding_nil
  | append_singleton actions c ih =>
    rw [run_concat, step _ c (reachable_run actions), outstanding_concat, ih]

/-! ### Accesses -/

theorem after_read (g : Controller cfg) (window : Interface) (initiator : Initiator)
    (offset : Nat) (width : Width) :
    g.after (.read window initiator offset width) =
      match checkWindow cfg window offset width with
      | .error _ => g
      | .ok () => (g.readWindow window (cpuOf cfg initiator) offset width).value.2 := by
  simp only [after, step, read, Traced.value_bind, Traced.value_pure]
  cases checkWindow cfg window offset width <;> rfl

theorem after_write (g : Controller cfg) (window : Interface) (initiator : Initiator)
    (offset : Nat) (value : BitVec 64) (width : Width) :
    g.after (.write window initiator offset value width) =
      match checkWindow cfg window offset width with
      | .error _ => g
      | .ok () =>
        (g.writeWindow window (cpuOf cfg initiator) offset (value.setWidth 32) width).value.2 := by
  simp only [after, step, write, Traced.value_bind, Traced.value_pure]
  cases checkWindow cfg window offset width <;> rfl

/-- A word that is written in the lower half of a bus value is the word that arrives. -/
theorem setWidth_setWidth_word (word : Word) : (word.setWidth 64).setWidth 32 = word := by
  rw [BitVec.setWidth_setWidth_of_le _ (by decide), BitVec.setWidth_eq]

/-- What a write to the distributor leaves of the physical half: all of it, if it is refused. -/
theorem physical_after_write_distributor (g : Controller cfg) (i : Initiator) (o : Nat)
    (v : BitVec 64) (w : Width) :
    (g.after (.write .distributor i o v w)).physical =
      match checkWindow cfg .distributor o w with
      | .error _ => g.physical
      | .ok () =>
        match (g.physical.writeDistributor (cpuOf cfg i) o (v.setWidth 32) w).value with
        | .error _ => g.physical
        | .ok p => p := by
  rw [after_write]
  split
  · rfl
  · simp only [writeWindow, Traced.value_bind]
    cases (g.physical.writeDistributor (cpuOf cfg i) o (v.setWidth 32) w).value <;> rfl

/-- Only an acknowledge changes anything by a read. -/
theorem after_read_of_quiet (g : Controller cfg) {window : Interface} {offset : Nat}
    (h : ¬ ((window = .cpuInterface ∨ window = .vcpuInterface) ∧ offset = 0x0c)) (i : Initiator)
    (width : Width) : g.after (.read window i offset width) = g := by
  rw [after_read]
  split
  · rfl
  cases window with
  | distributor => rfl
  | vifControl =>
    simp only [readWindow]
    split <;> rfl
  | cpuInterface =>
    simp only [readWindow]
    split
    · rfl
    · simp only [Traced.value_bind, Traced.value_pure, Physical.readCpuInterface]
      split
      · rename_i hregister
        exact absurd ⟨.inl rfl, CpuRegister.offset_of_acknowledge hregister⟩ h
      · rfl
  | vcpuInterface =>
    simp only [readWindow]
    split
    · rfl
    · split
      · rename_i hregister
        exact absurd ⟨.inr rfl, CpuRegister.offset_of_acknowledge hregister⟩ h
      · rfl

theorem cpuOf_lt (h : 0 < cfg.cpus) (initiator : Initiator) : cpuOf cfg initiator < cfg.cpus := by
  unfold cpuOf
  split
  · split <;> assumption
  · exact h

theorem width_of_checkWord {offset : Nat} {width : Width} (h : checkWord offset width = .ok ()) :
    width = .word ∧ offset % 4 = 0 := by
  unfold checkWord at h
  split at h
  · assumption
  · cases h

/-! ### The virtual half's part in it -/

/-- The physical interrupt behind the virtual one that a CPU's guest completes with a word: that
of the first list register that holds it, if that one is backed. -/
def backing? (g : Controller cfg) (cpu : Nat) (value : Word) : Option Nat :=
  if value.field 0 10 < maxIrqs then
    match (g.virtuals.row cpu).find? (value.field 0 10) with
    | none => none
    | some n =>
      let entry := (g.virtuals.row cpu).lists.row n
      if entry.hardware then some entry.physicalId else none
  else none

theorem physical_putVirtual (g : Controller cfg) (cpu : Nat) (w : VirtualWritten) :
    (g.putVirtual cpu w).value.physical = g.physical := by
  unfold putVirtual
  split <;> rfl

/-- Completing a virtual interrupt ends the physical one behind it, if that one has an input,
and does nothing else to the physical half. -/
theorem physical_completeVirtual (g : Controller cfg) (cpu : Nat) (value : Word) :
    (g.completeVirtual cpu value).value.physical =
      match g.backing? cpu value with
      | none => g.physical
      | some irq =>
        if numSgis ≤ irq ∧ irq < cfg.numIrqs then
          (g.physical.deactivate cpu irq).arbitrate.value
        else g.physical := by
  unfold completeVirtual backing?
  by_cases h : value.field 0 10 < maxIrqs
  · have h' : ¬ maxIrqs ≤ value.field 0 10 := Nat.not_le.mpr h
    simp only [h, h', if_true, if_false, Traced.value_bind, VirtualCpu.complete]
    cases (g.virtuals.row cpu).find? (value.field 0 10) with
    | none => rfl
    | some n =>
      simp only [Traced.value_bind, Traced.value_pure]
      by_cases hw : ((g.virtuals.row cpu).lists.row n).hardware
      · simp only [hw, if_true, endBacking]
        split <;> rfl
      · simp only [hw]
        rfl
  · have h' : maxIrqs ≤ value.field 0 10 := Nat.not_lt.mp h
    simp only [h, h', if_true, if_false]
    rfl

/-! ### What an action does with the physical half -/

/-- What an action may leave of the physical half of a controller. -/
inductive Moves (g : Controller cfg) : Action → Physical cfg → Prop where
  /-- The physical half stays as it is. -/
  | stays (a : Action) : Moves g a g.physical
  /-- A word of the distributor is written that is no array of bytes. -/
  | distributorWord {i : Initiator} {o : Nat} {v : BitVec 64} (aligned : o % 4 = 0)
      (whole : (DistributorRegister.ofOffset o).isByte = false) :
      Moves g (.write .distributor i o v .word)
        (Physical.arbitrateIf
          (g.physical.writeWord (cpuOf cfg i) (.ofOffset o) (v.setWidth 32)).value).value
  /-- Four bytes of the distributor are written. -/
  | distributorBytes {i : Initiator} {o : Nat} {v : BitVec 64} (aligned : o % 4 = 0)
      (bytes : (DistributorRegister.ofOffset o).isByte = true) :
      Moves g (.write .distributor i o v .word)
        (Physical.arbitrateIf (g.physical.writeBytes (cpuOf cfg i) o (v.setWidth 32))).value
  /-- A byte of the distributor is written. -/
  | distributorByte {i : Initiator} {o : Nat} {v : BitVec 64}
      (byte : (DistributorRegister.ofOffset o).isByte = true) :
      Moves g (.write .distributor i o v .byte)
        (Physical.arbitrateIf
          (g.physical.writeByte (cpuOf cfg i) (.ofOffset o) ((v.setWidth 32).setWidth 8))).value
  /-- A CPU acknowledges. -/
  | acknowledges {i : Initiator} :
      Moves g (.read .cpuInterface i 0x0c .word) (g.physical.acknowledge (cpuOf cfg i)).value.2
  /-- A CPU writes its interface. -/
  | interfaceWrite {i : Initiator} {o : Nat} {v : BitVec 64} :
      Moves g (.write .cpuInterface i o v .word)
        (g.physical.writeCpuInterface (cpuOf cfg i) (.ofOffset o) (v.setWidth 32)).value
  /-- A guest completes an interrupt that a physical one backs. -/
  | backingEnds {i : Initiator} {v : BitVec 64} {irq : Nat}
      (backed : g.backing? (cpuOf cfg i) (v.setWidth 32) = some irq) (low : numSgis ≤ irq)
      (high : irq < cfg.numIrqs) :
      Moves g (.write .vcpuInterface i 0x10 v .word)
        (g.physical.deactivate (cpuOf cfg i) irq).arbitrate.value
  /-- A connected private input takes a level. -/
  | ppiDriven {a : Action} {cpu index : Nat} {level : Bool} (hcpu : cpu < cfg.cpus)
      (hindex : index < numPpis) :
      Moves g a (g.physical.alterIrq (numSgis + index) fun r =>
        r.drive level (.only cpu) (.only cpu)).arbitrate.value
  /-- A connected shared input takes a level. -/
  | spiDriven {a : Action} {irq : Nat} {level : Bool} (shared : numPrivate ≤ irq)
      (high : irq < cfg.numIrqs) :
      Moves g a (g.physical.alterIrq irq fun r =>
        r.drive level .all (g.physical.distributor.targets irq)).arbitrate.value
  /-- A private interrupt takes a level for all CPUs, and is latched for none. -/
  | overdriven {a : Action} {irq : Nat} {level : Bool} (overdrives : a.Overdrives irq level) :
      Moves g a (g.physical.alterIrq irq fun r => r.drive level .all 0#8).arbitrate.value
  /-- The physical half decides anew. -/
  | arbitrates : Moves g (.update .physical) g.physical.arbitrate.value
  /-- The physical half returns to what it was at power-on. -/
  | powersOn : Moves g .reset (.powerOn cfg)

theorem moves_read (g : Controller cfg) (window : Interface) (initiator : Initiator) (offset : Nat)
    (width : Width) :
    Moves g (.read window initiator offset width)
      (g.after (.read window initiator offset width)).physical := by
  rw [after_read]
  split
  · exact .stays _
  cases window with
  | distributor => exact .stays _
  | vifControl =>
    simp only [readWindow]
    split <;> exact .stays _
  | cpuInterface =>
    simp only [readWindow]
    split
    · exact .stays _
    · rename_i hw
      obtain ⟨rfl, -⟩ := width_of_checkWord hw
      simp only [Traced.value_bind, Traced.value_pure, Physical.readCpuInterface]
      split
      · rename_i h
        obtain rfl := CpuRegister.offset_of_acknowledge h
        exact .acknowledges
      · exact .stays _
  | vcpuInterface =>
    simp only [readWindow]
    split
    · exact .stays _
    · split
      · simp only [Traced.value_bind, Traced.value_pure, physical_putVirtual]
        exact .stays _
      · exact .stays _

theorem moves_write (g : Controller cfg) (window : Interface) (initiator : Initiator)
    (offset : Nat) (value : BitVec 64) (width : Width) :
    Moves g (.write window initiator offset value width)
      (g.after (.write window initiator offset value width)).physical := by
  rw [after_write]
  split
  · exact .stays _
  cases window with
  | distributor =>
    simp only [writeWindow, Traced.value_bind, Physical.writeDistributor]
    cases width with
    | word =>
      by_cases aligned : offset % 4 = 0
      · cases hb : (DistributorRegister.ofOffset offset).isByte with
        | true =>
          simp only [aligned, if_true]
          exact .distributorBytes aligned hb
        | false =>
          simp only [aligned, if_true, Bool.false_eq_true, if_false]
          exact .distributorWord aligned hb
      · simp only [aligned, if_false]
        exact .stays _
    | byte =>
      cases hb : (DistributorRegister.ofOffset offset).isByte with
      | true => exact .distributorByte hb
      | false => exact .stays _
    | half => exact .stays _
    | double => exact .stays _
  | vifControl =>
    simp only [writeWindow]
    split
    · exact .stays _
    · simp only [Traced.value_bind, Traced.value_pure, physical_putVirtual]
      exact .stays _
  | cpuInterface =>
    simp only [writeWindow]
    split
    · exact .stays _
    · rename_i hw
      obtain ⟨rfl, -⟩ := width_of_checkWord hw
      exact .interfaceWrite
  | vcpuInterface =>
    simp only [writeWindow]
    split
    · exact .stays _
    · rename_i hw
      obtain ⟨rfl, -⟩ := width_of_checkWord hw
      split
      · rename_i h
        obtain rfl := CpuRegister.offset_of_completion h
        simp only [Traced.value_bind, Traced.value_pure, physical_completeVirtual]
        split
        · exact .stays _
        · rename_i irq backed
          split
          · rename_i hirq
            exact .backingEnds backed hirq.1 hirq.2
          · exact .stays _
      · simp only [Traced.value_bind, Traced.value_pure, physical_putVirtual]
        exact .stays _

theorem moves_ppi (g : Controller cfg) (a : Action) (cpu index : Nat) (level : Bool) :
    Moves g a (g.drivePpi cpu index level).value.physical := by
  unfold drivePpi
  split
  · rename_i h
    exact .ppiDriven h.1 h.2
  · exact .stays _

theorem moves_spi (g : Controller cfg) (index : Nat) (level : Bool) :
    Moves g (.spi index level) (g.driveSpi index level).value.physical := by
  unfold driveSpi
  split
  · rename_i high
    by_cases hprivate : sharedIrq index < numPrivate
    · rw [g.physical.distributor.targets_of_private hprivate]
      exact .overdriven ⟨hprivate, index, rfl, rfl⟩
    · exact .spiDriven (Nat.not_lt.mp hprivate) high
  · exact .stays _

theorem moves_request (g : Controller cfg) (a : Action) (request : Request) :
    Moves g a (g.handle request).value.physical := by
  unfold handle
  split
  · exact .stays _
  · split
    · exact moves_ppi g a _ _ _
    · rename_i hshared
      have hsum := sharedIrq_request (Nat.not_lt.mp hshared)
      unfold driveSpi
      split
      · rename_i high
        rw [hsum] at high ⊢
        exact .spiDriven (Nat.not_lt.mp hshared) high
      · exact .stays _

/-- Every action does what one of the rules says. -/
theorem moves_after (g : Controller cfg) (a : Action) : Moves g a (g.after a).physical := by
  cases a with
  | read window initiator offset width => exact moves_read g window initiator offset width
  | write window initiator offset value width =>
    exact moves_write g window initiator offset value width
  | ppi cpu index level => exact moves_ppi g _ cpu index level
  | spi index level => exact moves_spi g index level
  | request request => exact moves_request g _ request
  | update domain =>
    cases domain with
    | physical => exact .arbitrates
    | virtual => exact .stays _
  | reset =>
    rw [after_reset]
    exact .powersOn

end Controller

end Gic
