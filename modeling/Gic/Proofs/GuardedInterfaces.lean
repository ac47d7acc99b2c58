import Gic.Physical.CpuInterfaceAccess
import Gic.Proofs.GuardedPhysical
import Gic.Proofs.GuestArbitration
import Gic.Proofs.GuestReach

/-!
# The interfaces with operations that can fail

The accesses to the CPU interfaces and to the virtual half of a CPU once more, step
by step as they are done, with operations that can fail.

## The model

A name that ends in a question mark is the operation of that name which fails if one
of its steps does. It also fails where the controller would report that it has found
something that cannot be:

* an acknowledge, if the interrupt that the CPU is shown has no priority, or is an
  SGI that nobody has sent;
* a guest's acknowledge that is not refused, if no list register holds the interrupt.

`Presentable` is what rules out the first two.

## What is proved

* `readCpuInterface?_eq`, `writeCpuInterface?_eq` — where what the CPU is shown is
  presentable, the accesses to its interface do not fail.
* `readGuest?_eq`, `writeGuest?_eq`, `readVif?_eq`, `writeVif?_eq` — the accesses to
  the virtual half of a CPU do not, whatever its state is.
* `VirtualCpu.acknowledge?_eq`, `VirtualCpu.complete?_eq` — an acknowledge does not if
  the state is settled, a completion does not at all.
-/

namespace Gic

/-- An interrupt with the CPU that sent it, which goes to the bits from 10 on. -/
def tagged? (irq source : Nat) : Option Word :=
  (shiftLeft? (BitVec.ofNat 32 source) 10).map fun tag => BitVec.ofNat 32 irq ||| tag

theorem tagged?_eq (irq source : Nat) : tagged? irq source = some (tagged irq source) := by
  rw [tagged?, shiftLeft?_of_lt _ (by decide)]
  rfl

/-- The innermost occurrence of an interrupt is taken off the stack: it is looked for, and then
removed from its place. -/
def CpuInterface.drop? (i : CpuInterface) (irq : Nat) : Option CpuInterface := do
  let place ← i.stack.findIdx? fun r => r.irq == irq
  let _ ← i.stack[place]?
  let stack := i.stack.eraseIdx place
  return { i with stack, running := topPriority stack }

theorem CpuInterface.drop?_eq {i : CpuInterface} {irq : Nat} (h : i.isRunning irq = true) :
    i.drop? irq = some (i.drop irq) := by
  obtain ⟨place, hplace⟩ : ∃ place, i.stack.findIdx? (fun r => r.irq == irq) = some place := by
    rw [← Option.isSome_iff_exists, List.findIdx?_isSome]
    exact h
  obtain ⟨hin, -⟩ := List.findIdx?_eq_some_iff_getElem.mp hplace
  rw [drop?, hplace, some_bind, List.getElem?_eq_getElem hin, some_bind, drop,
    List.eraseP_eq_eraseIdx, hplace]
  rfl

namespace Physical

variable {cfg : Config} {cpu irq : Nat}

/-! ### The CPU interfaces -/

/-- Changes the interface of one CPU. -/
def alterCpu? (p : Physical cfg) (cpu : Nat) (f? : CpuInterface → Option CpuInterface) :
    Option (Physical cfg) := do
  return { p with cpus := ← p.cpus.alter? cpu f? }

/-- Changes an interrupt in those of its flags that an acknowledge or completion by a CPU
touches. -/
def alterScoped? (p : Physical cfg) (cpu irq : Nat) (f : CpuMask → IrqState → IrqState) :
    Option (Physical cfg) :=
  p.alterIrq? irq fun r => (r.scope? cpu).map fun mask => f mask r

/-- The source of an SGI that a CPU is shown. -/
def firstSource? (p : Physical cfg) (cpu sgi : Nat) : Option Nat := do
  (← p.distributor.sources? cpu sgi).lowest?

/-- The interrupt that a CPU is shown, as its registers name it. -/
def pendingTag? (p : Physical cfg) (cpu : Nat) : Option Word := do
  let irq := (← p.cpus.at? cpu).highestPending
  if irq < numSgis then tagged? irq (← p.firstSource? cpu irq) else return BitVec.ofNat 32 irq

/-- An SGI of one source is taken by a CPU. -/
def takeSgi? (p : Physical cfg) (cpu sgi source : Nat) : Option (Physical cfg) := do
  let distributor ← p.distributor.setSources? cpu sgi (← CpuMask.only? source) false
  if (← distributor.sources? cpu sgi) = 0#8 then
    let own ← CpuMask.only? cpu
    alterIrq? { p with distributor } sgi fun r => some (r.setPending false own)
  else return { p with distributor }

/-- An interrupt is taken by a CPU that has waited for it. -/
def takeIrq? (p : Physical cfg) (cpu irq : Nat) : Option (Physical cfg) :=
  p.alterScoped? cpu irq fun mask r => r.setPending false mask

/-- An interrupt that a CPU has taken becomes the one that it runs. -/
def start? (p : Physical cfg) (cpu irq : Nat) (priority : Priority) : Option (Physical cfg) := do
  let p ← p.alterScoped? cpu irq fun mask r => (r.setActive true mask).setSignaled true mask
  p.alterCpu? cpu fun i => some (i.push irq priority)

/-- Acknowledges the interrupt that a CPU is shown. -/
def acknowledge? (p : Physical cfg) (cpu : Nat) : Option (Word × Physical cfg) := do
  let i ← p.cpus.at? cpu
  let irq := i.highestPending
  if irq = spurious then return (BitVec.ofNat 32 spurious, p)
  else
    let priority ← p.distributor.priorityAt? cpu irq
    if i.running ≤ priority then return (BitVec.ofNat 32 spurious, p)
    else if irq < numSgis then
      let source ← p.firstSource? cpu irq
      let taken ← p.takeSgi? cpu irq source
      let started ← taken.start? cpu irq priority
      return (← tagged? irq source, ← started.arbitrate?)
    else
      let taken ← p.takeIrq? cpu irq
      let started ← taken.start? cpu irq priority
      return (BitVec.ofNat 32 irq, ← started.arbitrate?)

/-- An interrupt is no longer active for the CPU that has acknowledged it. -/
def deactivate? (p : Physical cfg) (cpu irq : Nat) : Option (Physical cfg) :=
  p.alterScoped? cpu irq fun mask r => (r.setActive false mask).setSignaled false mask

/-- Completes the interrupt that a CPU names in the low ten bits of a word. -/
def complete? (p : Physical cfg) (cpu : Nat) (value : Word) : Option (Physical cfg) := do
  let irq := value.field 0 10
  if cfg.numIrqs ≤ irq then return p
  else if (← p.cpus.at? cpu).isRunning irq then
    let dropped ← p.alterCpu? cpu fun i => i.drop? irq
    (← dropped.deactivate? cpu irq).arbitrate?
  else return p

/-- The word of a register of a CPU's interface that is read without effect. -/
def readInterface? (p : Physical cfg) (cpu : Nat) (register : CpuRegister) : Option Word := do
  let i ← p.cpus.at? cpu
  match register with
  | .control => return i.enables.toWord
  | .priorityMask => return i.priorityMask.setWidth 32
  | .binaryPoint => return i.binaryPoint.setWidth 32
  | .aliasPoint => return i.aliasPoint.setWidth 32
  | .runningPriority => return i.running.setWidth 32
  | .highestPending => p.pendingTag? cpu
  | .activePriorities n => return if n = 0 then i.activePriorities else 0#32
  | .deactivation => return i.deactivation
  | .identification => return interfaceId
  | .component n => componentIdByte? n
  | .acknowledge | .completion | .reserved => return 0#32

/-- Reads a register of a CPU's interface. -/
def readCpuInterface? (p : Physical cfg) (cpu : Nat) (register : CpuRegister) :
    Option (Word × Physical cfg) := do
  if register = .acknowledge then p.acknowledge? cpu
  else return (← p.readInterface? cpu register, p)

/-- Writes a register of a CPU's interface. -/
def writeCpuInterface? (p : Physical cfg) (cpu : Nat) (register : CpuRegister) (value : Word) :
    Option (Physical cfg) := do
  match register with
  | .control =>
    (← p.alterCpu? cpu fun i => some { i with enables := .ofWord value }).arbitrate?
  | .priorityMask =>
    (← p.alterCpu? cpu fun i => some { i with priorityMask := value.setWidth 8 }).arbitrate?
  | .binaryPoint => p.alterCpu? cpu fun i => some { i with binaryPoint := value.setWidth 3 }
  | .aliasPoint => p.alterCpu? cpu fun i => some { i with aliasPoint := value.setWidth 3 }
  | .completion => p.complete? cpu value
  | .deactivation => p.alterCpu? cpu fun i => some { i with deactivation := value }
  | .activePriorities 0 => p.alterCpu? cpu fun i => some { i with activePriorities := value }
  | .acknowledge | .runningPriority | .highestPending | .identification | .component _
  | .activePriorities _ | .reserved =>
    return p

theorem alterCpu?_eq (p : Physical cfg) (hc : cpu < cfg.cpus)
    {f? : CpuInterface → Option CpuInterface} {f : CpuInterface → CpuInterface}
    (hf : f? (p.cpus.row cpu) = some (f (p.cpus.row cpu))) :
    p.alterCpu? cpu f? = some (p.alterCpu cpu f) := by
  rw [alterCpu?, Table.alter?_of_lt _ hc hf]
  rfl

/-- A change of an interface that cannot fail. -/
theorem alterCpu?_some (p : Physical cfg) (hc : cpu < cfg.cpus) (f : CpuInterface → CpuInterface) :
    (p.alterCpu? cpu fun i => some (f i)) = some (p.alterCpu cpu f) :=
  alterCpu?_eq p hc rfl

theorem alterScoped?_eq (p : Physical cfg) (hm : cpu < maxCpus) (hirq : irq < maxIrqs)
    (f : CpuMask → IrqState → IrqState) :
    p.alterScoped? cpu irq f = some (p.alterIrq irq fun r => f (r.scope cpu) r) := by
  refine alterIrq?_eq p hirq ?_
  rw [IrqState.scope?_eq _ hm]
  rfl

/-- What a CPU is shown can be presented to it: it is connected, and if it is an SGI, somebody has
sent it. -/
structure Presentable (p : Physical cfg) (cpu : Nat) : Prop where
  connected : (p.cpus.row cpu).highestPending ≠ spurious →
    (p.cpus.row cpu).highestPending < cfg.numIrqs
  sent : (p.cpus.row cpu).highestPending < numSgis →
    (p.distributor.sources cpu (p.cpus.row cpu).highestPending).lowest? ≠ none

theorem firstSource?_eq {p : Physical cfg} (hc : cpu < maxCpus) (hs : irq < numSgis)
    (hsent : (p.distributor.sources cpu irq).lowest? ≠ none) :
    p.firstSource? cpu irq = some (p.firstSource cpu irq) ∧ p.firstSource cpu irq < maxCpus := by
  obtain ⟨source, hsource⟩ := Option.ne_none_iff_exists'.mp hsent
  have hfirst : p.firstSource cpu irq = source := by rw [firstSource, hsource, Option.getD_some]
  constructor
  · rw [firstSource?, Distributor.sources?_eq _ hc hs, some_bind, hsource, hfirst]
  · have hbit := ((CpuMask.lowest?_eq_some_iff _ _).mp hsource).1
    rw [hfirst]
    by_contra hge
    rw [CpuMask.getLsbD_of_le _ (Nat.le_of_not_lt hge)] at hbit
    cases hbit

theorem pendingTag?_eq {p : Physical cfg} (hp : p.Presentable cpu) (hc : cpu < cfg.cpus)
    (hm : cpu < maxCpus) : p.pendingTag? cpu = some (p.pendingTag cpu) := by
  rw [pendingTag?, Table.at?_of_lt _ hc, some_bind]
  refine ite_eq_some (fun hsgi => ?_) fun _ => rfl
  rw [(firstSource?_eq hm hsgi (hp.sent hsgi)).1, some_bind, tagged?_eq]
  rfl

theorem takeSgi?_eq (p : Physical cfg) (hm : cpu < maxCpus) (hs : irq < numSgis) {source : Nat}
    (hsource : source < maxCpus) :
    p.takeSgi? cpu irq source = some (p.takeSgi cpu irq source) := by
  have hirq : irq < maxIrqs := Nat.lt_trans hs (by decide)
  rw [takeSgi?, CpuMask.only?_eq hsource, some_bind, Distributor.setSources?_eq _ hm hs, some_bind,
    Distributor.sources?_eq _ hm hs, some_bind, CpuMask.only?_eq hm, some_bind,
    alterIrq?_some _ hirq]
  exact ite_eq_some (fun _ => rfl) fun _ => rfl

theorem start?_eq (p : Physical cfg) (hc : cpu < cfg.cpus) (hm : cpu < maxCpus)
    (hirq : irq < maxIrqs) (priority : Priority) :
    p.start? cpu irq priority = some (p.start cpu irq priority) := by
  rw [start?, alterScoped?_eq p hm hirq, some_bind, alterCpu?_some _ hc]
  rfl

/-- An acknowledge of what can be presented stays in range. -/
theorem acknowledge?_eq {p : Physical cfg} (hp : p.Presentable cpu) (hc : cpu < cfg.cpus)
    (hmax : cfg.cpus ≤ maxCpus) (hn : cfg.numIrqs ≤ maxIrqs) :
    p.acknowledge? cpu = some (p.acknowledge cpu).value := by
  have hm := Nat.lt_of_lt_of_le hc hmax
  rw [acknowledge?, Table.at?_of_lt _ hc, some_bind, acknowledge_value]
  by_cases hshown : (p.cpus.row cpu).highestPending = spurious
  · rw [if_pos hshown, if_pos (.inl hshown)]
    rfl
  have hirq := Nat.lt_of_lt_of_le (hp.connected hshown) hn
  have hpriority : p.distributor.priorityAt? cpu (p.cpus.row cpu).highestPending =
      some (p.priority cpu (p.cpus.row cpu).highestPending) :=
    (Distributor.priorityAt?_eq _ hm hirq).trans (Distributor.priority?_of_lt _ hirq idle)
  rw [if_neg hshown, hpriority, some_bind]
  by_cases hrunning : (p.cpus.row cpu).running ≤ p.priority cpu (p.cpus.row cpu).highestPending
  · rw [if_pos hrunning, if_pos (.inr hrunning)]
    rfl
  rw [if_neg hrunning, if_neg fun h : Refuses p cpu => h.elim hshown hrunning]
  by_cases hsgi : (p.cpus.row cpu).highestPending < numSgis
  · obtain ⟨hsource, hlt⟩ := firstSource?_eq hm hsgi (hp.sent hsgi)
    rw [if_pos hsgi, hsource, some_bind, takeSgi?_eq p hm hsgi hlt, some_bind,
      start?_eq _ hc hm hirq, some_bind, tagged?_eq, some_bind, arbitrate?_eq _ hmax hn]
    simp only [take, if_pos hsgi]
    rfl
  · rw [if_neg hsgi, takeIrq?, alterScoped?_eq p hm hirq, some_bind, start?_eq _ hc hm hirq,
      some_bind, arbitrate?_eq _ hmax hn]
    simp only [take, if_neg hsgi]
    rfl

/-- A CPU that is shown an interrupt beyond the last one cannot acknowledge it. -/
example : (((powerOn Config.standard).alterCpu 0 fun i => { i with highestPending := 600 }
    ).acknowledge? 0).isNone = true := by
  decide +kernel

theorem deactivate?_eq (p : Physical cfg) (hm : cpu < maxCpus) (hirq : irq < maxIrqs) :
    p.deactivate? cpu irq = some (p.deactivate cpu irq) :=
  alterScoped?_eq p hm hirq _

theorem complete?_eq (p : Physical cfg) (hc : cpu < cfg.cpus) (hmax : cfg.cpus ≤ maxCpus)
    (hn : cfg.numIrqs ≤ maxIrqs) (value : Word) :
    p.complete? cpu value = some (p.complete cpu value).value := by
  rw [complete?, complete_value, Table.at?_of_lt _ hc]
  by_cases hin : cfg.numIrqs ≤ value.field 0 10
  · rw [if_pos hin, if_neg fun h => Nat.not_lt.mpr hin h.1]
    rfl
  rw [if_neg hin, some_bind]
  by_cases hrunning : (p.cpus.row cpu).isRunning (value.field 0 10) = true
  · have hirq := Nat.lt_of_lt_of_le (Nat.not_le.mp hin) hn
    rw [if_pos hrunning, if_pos ⟨Nat.not_le.mp hin, hrunning⟩,
      alterCpu?_eq (f := fun i => i.drop (value.field 0 10)) p hc
        (CpuInterface.drop?_eq hrunning), some_bind,
      deactivate?_eq _ (Nat.lt_of_lt_of_le hc hmax) hirq, some_bind]
    exact arbitrate?_eq _ hmax hn
  · rw [if_neg hrunning, if_neg fun h => hrunning h.2]
    rfl

/-- Reading a CPU interface stays in range. -/
theorem readCpuInterface?_eq {p : Physical cfg} (hp : p.Presentable cpu) (hc : cpu < cfg.cpus)
    (hmax : cfg.cpus ≤ maxCpus) (hn : cfg.numIrqs ≤ maxIrqs) {register : CpuRegister}
    (hid : ∀ n, register = .component n → n < 4) :
    p.readCpuInterface? cpu register = some (p.readCpuInterface cpu register).value := by
  unfold readCpuInterface? readCpuInterface
  split
  · exact acknowledge?_eq hp hc hmax hn
  · have hread : p.readInterface? cpu register = some (p.readInterface cpu register) := by
      rw [readInterface?, Table.at?_of_lt _ hc, some_bind]
      cases register with
      | highestPending => exact pendingTag?_eq hp hc (Nat.lt_of_lt_of_le hc hmax)
      | component n => exact componentIdByte?_eq (hid n rfl)
      | _ => rfl
    rw [hread]
    rfl

/-- Writing a CPU interface stays in range. -/
theorem writeCpuInterface?_eq (p : Physical cfg) (hc : cpu < cfg.cpus)
    (hmax : cfg.cpus ≤ maxCpus) (hn : cfg.numIrqs ≤ maxIrqs) (register : CpuRegister)
    (value : Word) :
    p.writeCpuInterface? cpu register value =
      some (p.writeCpuInterface cpu register value).value := by
  cases register with
  | control | priorityMask =>
    rw [writeCpuInterface?, alterCpu?_some _ hc, some_bind, arbitrate?_eq _ hmax hn]
    rfl
  | completion => exact complete?_eq p hc hmax hn value
  | binaryPoint | aliasPoint | deactivation => exact alterCpu?_some p hc _
  | activePriorities n =>
    cases n with
    | zero => exact alterCpu?_some p hc _
    | succ n => rfl
  | _ => rfl

end Physical

namespace VirtualCpu

/-! ### The virtual half of a CPU -/

/-- The bits of a priority that count for preemption. -/
def groupMask? (point : BitVec 3) : Option Priority :=
  (shiftLeft? 0xff#32 (point.toNat + 1)).map fun mask => mask.setWidth 8

/-- The bit of the active priorities that stands for a priority. -/
def levelBit? (priority : Priority) : Option Word := do
  let level ← shiftRight? priority 3
  shiftLeft? 1#32 (level.toNat % 32)

/-- The priority that active priorities stand for: the level of the highest bit, which is found by
the number of clear bits above it. -/
def priorityLevel? (active : Word) : Option Priority := do
  if active = 0#32 then return idle
  else
    let level ← minus? 31 active.clz.toNat
    let priority ← shiftLeft? (BitVec.ofNat 32 level) 3
    return priority.setWidth 8

/-- Sets the active priorities, and with them the running priority. -/
def setActivePriorities? (v : VirtualCpu) (active : Word) : Option VirtualCpu := do
  return { v with activePriorities := active, running := ← priorityLevel? active }

/-- The priority of the first list register that holds an interrupt, zero if none does. -/
def priorityOf? (v : VirtualCpu) (irq : Nat) : Option Priority :=
  match v.find? irq with
  | none => some 0#8
  | some n => (v.lists.at? n).map ListEntry.priority

/-- Changes a list register. -/
def alterList? (v : VirtualCpu) (n : Nat) (f : ListEntry → ListEntry) : Option VirtualCpu := do
  return { v with lists := ← v.lists.alter? n fun e => some (f e) }

/-- Which list registers hold no interrupt, one bit for each. -/
def freeLists? (v : VirtualCpu) : Option Word :=
  Word.gather? (fun n =>
    if n < numListRegisters then (v.lists.at? n).map fun e => !e.live else some false) 32

/-- The guest starts to run an interrupt of a priority. -/
def enter? (v : VirtualCpu) (priority : Priority) : Option VirtualCpu := do
  let mask ← groupMask? v.binaryPoint
  let bit ← levelBit? priority
  return { v with running := priority &&& mask, activePriorities := v.activePriorities ||| bit }

/-- Acknowledges the interrupt that the guest is shown. -/
def acknowledge? (v : VirtualCpu) : Option (Word × VirtualWritten) := do
  let irq := v.highestPending
  if irq = spurious then return (BitVec.ofNat 32 spurious, ⟨v, false⟩)
  else
    let priority ← v.priorityOf? irq
    if v.running ≤ priority then return (BitVec.ofNat 32 spurious, ⟨v, false⟩)
    else
      let entered ← v.enter? priority
      let n ← v.find? irq
      let source := (← v.lists.at? n).source
      let taken ← entered.alterList? n fun e => { e with pending := false, active := true }
      return (← tagged? irq source, ⟨taken, true⟩)

/-- Completes an interrupt, and says which physical interrupt backs it. -/
def complete? (v : VirtualCpu) (irq : Nat) : Option (VirtualCpu × Option Nat) := do
  let left ← v.setActivePriorities? (dropLowest v.activePriorities)
  match v.find? irq with
  | none => return (left, none)
  | some n =>
    let entry ← v.lists.at? n
    let ended ← left.alterList? n fun e => { e with active := false }
    return (ended, if entry.hardware then some entry.physicalId else none)

/-- The word of a register of the hypervisor's window. -/
def readVif? (v : VirtualCpu) : VifRegister → Option Word
  | .control => some v.hypervisorControl
  | .vifType => some vifType
  | .machineControl => some v.machineControl.toWord
  | .freeLists => v.freeLists?
  | .activePriorities => some v.activePriorities
  | .list n => some ((v.lists.at? n).getD default).toWord
  | .reserved => some 0#32

/-- Writes a register of the hypervisor's window. -/
def writeVif? (v : VirtualCpu) (register : VifRegister) (value : Word) :
    Option VirtualWritten := do
  match register with
  | .control => return ⟨{ v with hypervisorControl := value }, true⟩
  | .machineControl => return ⟨v.setMachineControl (.ofWord value), true⟩
  | .activePriorities => return ⟨← v.setActivePriorities? value, true⟩
  | .list n =>
    if numListRegisters ≤ n then return ⟨v, false⟩
    else if accepts (.ofWord value) then
      return ⟨← v.alterList? n fun _ => .ofWord value, true⟩
    else return ⟨v, false⟩
  | .vifType | .freeLists | .reserved => return ⟨v, false⟩

/-- The word of a register of the guest's window that is read without effect. -/
def readGuest? (v : VirtualCpu) : CpuRegister → Option Word
  | .component n => componentIdByte? n
  | register => some (v.readGuest register)

/-- Writes a register of the guest's window, other than the completion register. -/
def writeGuest? (v : VirtualCpu) (register : CpuRegister) (value : Word) :
    Option VirtualWritten := do
  match register with
  | .control => return ⟨{ v with control := value }, true⟩
  | .priorityMask => return ⟨{ v with priorityMask := .ofFive (value.extractLsb' 3 5) }, true⟩
  | .binaryPoint => return ⟨{ v with binaryPoint := clampPoint (value.setWidth 3) }, true⟩
  | .aliasPoint => return ⟨{ v with aliasPoint := value.setWidth 3 }, true⟩
  | .activePriorities 0 => return ⟨← v.setActivePriorities? value, true⟩
  | .acknowledge | .completion | .runningPriority | .highestPending | .identification
  | .component _ | .activePriorities _ | .deactivation | .reserved =>
    return ⟨v, false⟩

theorem groupMask?_eq (point : BitVec 3) : groupMask? point = some (groupMask point) := by
  have hpoint : point.toNat < 8 := point.isLt
  rw [groupMask?, shiftLeft?_of_lt _ (by omega), Option.map_some]
  refine congrArg some ?_
  revert point
  decide

theorem levelBit?_eq (priority : Priority) : levelBit? priority = some (levelBit priority) := by
  have hpriority : priority.toNat < 256 := priority.isLt
  have hlevel : (priority >>> 3).toNat = priority.toNat / 8 := by
    rw [BitVec.toNat_ushiftRight, Nat.shiftRight_eq_div_pow]
  rw [levelBit?, shiftRight?_of_lt _ (by decide), some_bind, hlevel,
    Nat.mod_eq_of_lt (by omega), shiftLeft?_one (by omega)]
  rfl

/-- The highest bit of a word that is not zero. -/
theorem log2_eq_clz {x : Word} (h : x ≠ 0#32) :
    x.clz.toNat ≤ 31 ∧ Nat.log2 x.toNat = 31 - x.clz.toNat := by
  have hclz : x.clz.toNat < 32 := BitVec.lt_def.mp (BitVec.clz_lt_iff_ne_zero.mpr h)
  have hne : x.toNat ≠ 0 := fun hzero => h (BitVec.eq_of_toNat_eq hzero)
  have hbelow := BitVec.toNat_lt_two_pow_sub_clz (x := x)
  refine ⟨by omega, (Nat.log2_eq_iff hne).mpr
    ⟨BitVec.two_pow_sub_clz_le_toNat_of_ne_zero (by decide) h, ?_⟩⟩
  have hsucc : 31 - x.clz.toNat + 1 = 32 - x.clz.toNat := by omega
  rwa [hsucc]

theorem priorityLevel?_eq (active : Word) :
    priorityLevel? active = some (priorityLevel active) := by
  unfold priorityLevel? priorityLevel
  refine ite_eq_some (fun _ => rfl) fun hactive => ?_
  obtain ⟨hle, hlog⟩ := log2_eq_clz hactive
  rw [minus?_of_le hle, some_bind, shiftLeft?_of_lt _ (by decide), some_bind, hlog]
  refine congrArg some (BitVec.eq_of_toNat_eq ?_)
  rw [BitVec.toNat_setWidth, BitVec.toNat_shiftLeft, BitVec.toNat_ofNat, BitVec.toNat_ofNat,
    Nat.shiftLeft_eq]
  omega

theorem setActivePriorities?_eq (v : VirtualCpu) (active : Word) :
    v.setActivePriorities? active = some (v.setActivePriorities active) := by
  rw [setActivePriorities?, priorityLevel?_eq]
  rfl

theorem priorityOf?_eq (v : VirtualCpu) (irq : Nat) :
    v.priorityOf? irq = some (v.priorityOf irq) := by
  unfold priorityOf? priorityOf
  cases hfind : v.find? irq with
  | none => rfl
  | some n =>
    show (v.lists.at? n).map ListEntry.priority = _
    rw [Table.at?_of_lt _ ((find?_eq_some_iff v irq n).mp hfind).inRange]
    rfl

theorem alterList?_eq (v : VirtualCpu) {n : Nat} (hn : n < numListRegisters)
    (f : ListEntry → ListEntry) : v.alterList? n f = some (v.alterList n f) := by
  rw [alterList?, Table.alter?_some _ hn]
  rfl

theorem freeLists?_eq (v : VirtualCpu) : v.freeLists? = some v.freeLists := by
  unfold freeLists? freeLists Word.ofBits
  refine Word.gather?_eq (Nat.le_refl 32) fun n _ => ?_
  split
  · rename_i hn
    rw [Table.at?_of_lt _ hn, decide_eq_true hn, Bool.true_and]
    rfl
  · rename_i hn
    rw [decide_eq_false hn, Bool.false_and]

theorem enter?_eq (v : VirtualCpu) (priority : Priority) :
    v.enter? priority = some (v.enter priority) := by
  rw [enter?, groupMask?_eq, some_bind, levelBit?_eq]
  rfl

/-- An acknowledge by a guest in a settled state stays in range, and finds a list register. -/
theorem acknowledge?_eq {v : VirtualCpu} (hv : v.Settled) (cpu : Nat) :
    v.acknowledge? = some (v.acknowledge cpu).value := by
  unfold acknowledge? acknowledge
  dsimp only
  by_cases hshown : v.highestPending = spurious
  · rw [if_pos hshown, if_pos hshown]
    rfl
  rw [if_neg hshown, if_neg hshown, priorityOf?_eq, some_bind, Traced.value_bind]
  by_cases hrunning : v.running ≤ v.priorityOf v.highestPending
  · rw [if_pos hrunning, if_pos hrunning]
    rfl
  obtain ⟨n, hfind⟩ := Option.ne_none_iff_exists'.mp (hv.find?_ne_none hshown)
  have hn := ((find?_eq_some_iff v _ n).mp hfind).inRange
  rw [if_neg hrunning, if_neg hrunning, enter?_eq, some_bind, hfind, some_bind,
    Table.at?_of_lt _ hn, some_bind, alterList?_eq _ hn, some_bind, tagged?_eq]
  rfl

/-- A guest that is shown an interrupt which no list register holds cannot acknowledge it. -/
example : ({ powerOn with highestPending := 40 } : VirtualCpu).acknowledge?.isNone = true := by
  decide +kernel

/-- A completion by a guest stays in range. -/
theorem complete?_eq (v : VirtualCpu) (cpu irq : Nat) :
    v.complete? irq = some (v.complete cpu irq).value := by
  rw [complete?, setActivePriorities?_eq, some_bind]
  unfold complete
  cases hfind : v.find? irq with
  | none => rfl
  | some n =>
    have hn := ((find?_eq_some_iff v irq n).mp hfind).inRange
    simp only [Table.at?_of_lt _ hn, some_bind, alterList?_eq _ hn]
    rfl

/-- Reading the hypervisor's window stays in range. -/
theorem readVif?_eq (v : VirtualCpu) (register : VifRegister) :
    v.readVif? register = some (v.readVif register) := by
  cases register with
  | freeLists => exact freeLists?_eq v
  | list n =>
    rw [readVif?, Table.getD_at?]
    rfl
  | _ => rfl

/-- Writing the hypervisor's window stays in range. -/
theorem writeVif?_eq (v : VirtualCpu) (cpu : Nat) (register : VifRegister) (value : Word) :
    v.writeVif? register value = some (v.writeVif cpu register value).value := by
  cases register with
  | activePriorities =>
    rw [writeVif?, setActivePriorities?_eq]
    rfl
  | list n =>
    unfold writeVif? writeVif
    dsimp only
    split
    · rfl
    · rename_i hn
      rw [alterList?_eq v (Nat.not_le.mp hn)]
      split <;> rfl
  | _ => rfl

/-- Reading the guest's window stays in range. -/
theorem readGuest?_eq (v : VirtualCpu) {register : CpuRegister}
    (hid : ∀ n, register = .component n → n < 4) :
    v.readGuest? register = some (v.readGuest register) := by
  cases register with
  | component n => exact componentIdByte?_eq (hid n rfl)
  | _ => rfl

/-- Writing the guest's window stays in range. -/
theorem writeGuest?_eq (v : VirtualCpu) (cpu : Nat) (register : CpuRegister) (value : Word) :
    v.writeGuest? register value = some (v.writeGuest cpu register value).value := by
  cases register with
  | activePriorities n =>
    cases n with
    | zero =>
      rw [writeGuest?, setActivePriorities?_eq]
      rfl
    | succ n => rfl
  | _ => rfl

end VirtualCpu

end Gic
