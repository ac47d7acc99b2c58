import Gic.Proofs.Arbitration
import Gic.Proofs.Guarded

/-!
# The distributor with operations that can fail

Arbitration and the accesses to the distributor once more, step by step as they are
done, with every row looked up, every difference taken and every word shifted by an
operation that can fail.

## The model

A name that ends in a question mark is the operation of that name which fails if one
of its steps does. It also fails if a CPU cannot be served or has no output line, and
if an interrupt that could be shown to a CPU has no priority.

## What is proved

With up to eight CPUs and up to 512 interrupts none of them fails, whatever the
state is and whatever is written, and they do what the operations of the model do:
`arbitrate?_eq`, `readDistributor?_eq` and `writeDistributor?_eq`, each from a lemma
for every operation that it is made of.
-/

namespace Gic

/-! ### Interrupts -/

/-- The CPUs whose flags an acknowledge or completion by a CPU touches. -/
def IrqState.scope? (r : IrqState) (cpu : Nat) : Option CpuMask :=
  match r.routing with
  | .single => some .all
  | .perCpu => CpuMask.only? cpu

theorem IrqState.scope?_eq (r : IrqState) {cpu : Nat} (hc : cpu < maxCpus) :
    r.scope? cpu = some (r.scope cpu) := by
  unfold scope? scope
  cases r.routing with
  | single => rfl
  | perCpu => exact CpuMask.only?_eq hc

/-! ### The registers of the distributor -/

/-- Takes sources of an SGI in or out. -/
def DistributorBank.setSources? (b : DistributorBank) (sgi : Nat) (sources : CpuMask)
    (value : Bool) : Option DistributorBank := do
  return { b with sources := ← b.sources.alter? sgi fun s => some (s.assign sources value) }

theorem DistributorBank.setSources?_eq (b : DistributorBank) {sgi : Nat} (hs : sgi < numSgis)
    (sources : CpuMask) (value : Bool) :
    b.setSources? sgi sources value = some (b.setSources sgi sources value) := by
  rw [setSources?, Table.alter?_some _ hs]
  rfl

namespace Distributor

variable {cpu irq sgi : Nat}

/-- The priority of an interrupt as a CPU sees it: what `priority?` gives, looked up. -/
def priorityAt? (d : Distributor) (cpu irq : Nat) : Option Priority := do
  if irq < numPrivate then (← d.banks.at? cpu).priorities.at? irq
  else d.priorities.at? (← minus? irq numPrivate)

/-- The CPUs that a shared interrupt may be signaled to. -/
def targets? (d : Distributor) (irq : Nat) : Option CpuMask := do
  if irq < numPrivate then return 0#8 else d.targetSets.at? (← minus? irq numPrivate)

/-- The CPUs that have sent an SGI to a CPU and were not yet answered. -/
def sources? (d : Distributor) (cpu sgi : Nat) : Option CpuMask := do
  (← d.banks.at? cpu).sources.at? sgi

/-- Takes sources of an SGI in or out of those that wait on one CPU. -/
def setSources? (d : Distributor) (cpu sgi : Nat) (sources : CpuMask) (value : Bool) :
    Option Distributor := do
  let banks ← d.banks.alter? cpu fun b => b.setSources? sgi sources value
  return { d with banks }

/-- Records, one CPU after the other, that `source` has sent an SGI to each of some CPUs. -/
def addSource? (d : Distributor) (sgi source : Nat) (receivers : CpuMask) :
    Option Distributor := do
  let sources ← CpuMask.only? source
  let banks ← d.banks.alterFrom? 0 maxCpus receivers.has? fun _ b =>
    b.setSources? sgi sources true
  return { d with banks }

/-- Sets the priority of an interrupt as a CPU sees it. -/
def setPriority? (d : Distributor) (cpu irq : Nat) (priority : Priority) :
    Option Distributor := do
  if irq < numPrivate then
    let banks ← d.banks.alter? cpu fun b => do
      return { b with priorities := ← b.priorities.alter? irq fun _ => some priority }
    return { d with banks }
  else
    let priorities ← d.priorities.alter? (← minus? irq numPrivate) fun _ => some priority
    return { d with priorities }

/-- Sets the targets of a shared interrupt. -/
def setTargets? (d : Distributor) (irq : Nat) (targets : CpuMask) : Option Distributor := do
  let targetSets ← d.targetSets.alter? (← minus? irq numPrivate) fun _ => some targets
  return { d with targetSets }

theorem lt_maxSpis (hlow : ¬ irq < numPrivate) (hirq : irq < maxIrqs) :
    irq - numPrivate < maxSpis := by
  simp only [numPrivate, maxIrqs, maxSpis] at *
  omega

theorem priorityAt?_eq (d : Distributor) (hc : cpu < maxCpus) (hirq : irq < maxIrqs) :
    d.priorityAt? cpu irq = d.priority? cpu irq := by
  unfold priorityAt? priority?
  by_cases hlow : irq < numPrivate
  · simp only [if_pos hlow, Table.at?_of_lt _ hc, some_bind,
      Table.at?_of_lt _ hlow]
  · have hindex := lt_maxSpis hlow hirq
    simp only [if_neg hlow, minus?_of_le (Nat.not_lt.mp hlow), some_bind,
      Table.at?_of_lt _ hindex, if_pos hirq]

/-- An interrupt that there can be has a priority. -/
theorem priority?_of_lt (d : Distributor) (hirq : irq < maxIrqs) (otherwise : Priority) :
    d.priority? cpu irq = some ((d.priority? cpu irq).getD otherwise) := by
  unfold priority?
  rw [if_pos hirq]
  split <;> rfl

theorem targets?_eq (d : Distributor) (hirq : irq < maxIrqs) :
    d.targets? irq = some (d.targets irq) := by
  unfold targets? targets
  by_cases hlow : irq < numPrivate
  · simp only [if_pos hlow, Option.pure_def]
  · have hindex := lt_maxSpis hlow hirq
    simp only [if_neg hlow, minus?_of_le (Nat.not_lt.mp hlow), some_bind, Table.at?_of_lt _ hindex]

theorem sources?_eq (d : Distributor) (hc : cpu < maxCpus) (hs : sgi < numSgis) :
    d.sources? cpu sgi = some (d.sources cpu sgi) := by
  simp only [sources?, sources, Table.at?_of_lt _ hc, Table.at?_of_lt _ hs, some_bind]

theorem setSources?_eq (d : Distributor) (hc : cpu < maxCpus) (hs : sgi < numSgis)
    (sources : CpuMask) (value : Bool) :
    d.setSources? cpu sgi sources value = some (d.setSources cpu sgi sources value) := by
  rw [setSources?, Table.alter?_of_lt (f := fun b => b.setSources sgi sources value) _ hc
    (DistributorBank.setSources?_eq _ hs _ _)]
  rfl

theorem addSource?_eq (d : Distributor) {source : Nat} (hsource : source < maxCpus)
    (hs : sgi < numSgis) (receivers : CpuMask) :
    d.addSource? sgi source receivers = some (d.addSource sgi source receivers) := by
  simp only [addSource?, CpuMask.only?_eq hsource, some_bind]
  rw [Table.alterFrom?_eq d.banks receivers.has (fun _ b => b.setSources sgi (.only source) true)
    (fun cpu _ => CpuMask.has?_eq receivers cpu) fun cpu hc _ => by
      rw [Nat.zero_add]
      exact ⟨hc, DistributorBank.setSources?_eq _ hs _ _⟩]
  refine congrArg (fun banks => some { d with banks }) (Table.ext_row fun cpu hc => ?_)
  rw [Table.row_mapRows, Table.row_mapRows, if_pos hc, if_pos hc]
  refine ite_congr (propext ?_) (fun _ => rfl) fun _ => rfl
  rw [Nat.sub_zero, Nat.zero_add]
  exact ⟨fun h => h.2.2, fun h => ⟨Nat.zero_le cpu, hc, h⟩⟩

theorem setPriority?_eq (d : Distributor) (hc : cpu < maxCpus) (hirq : irq < maxIrqs)
    (priority : Priority) :
    d.setPriority? cpu irq priority = some (d.setPriority cpu irq priority) := by
  unfold setPriority? setPriority
  by_cases hlow : irq < numPrivate
  · have hbanks : (d.banks.alter? cpu fun b => do
        return { b with priorities := ← b.priorities.alter? irq fun _ => some priority }) =
          some (d.banks.alter cpu fun b =>
            { b with priorities := b.priorities.alter irq fun _ => priority }) := by
      refine Table.alter?_of_lt _ hc ?_
      rw [Table.alter?_some _ hlow]
      rfl
    rw [if_pos hlow, if_pos hlow, hbanks]
    rfl
  · rw [if_neg hlow, if_neg hlow, minus?_of_le (Nat.not_lt.mp hlow), some_bind,
      Table.alter?_some _ (lt_maxSpis hlow hirq)]
    rfl

theorem setTargets?_eq (d : Distributor) (hlow : ¬ irq < numPrivate) (hirq : irq < maxIrqs)
    (targets : CpuMask) : d.setTargets? irq targets = some (d.setTargets irq targets) := by
  rw [setTargets?, minus?_of_le (Nat.not_lt.mp hlow), some_bind,
    Table.alter?_some _ (lt_maxSpis hlow hirq)]
  rfl

end Distributor

namespace Physical

variable {cfg : Config} {cpu irq : Nat}

/-- Changes the state of one interrupt. -/
def alterIrq? (p : Physical cfg) (irq : Nat) (f? : IrqState → Option IrqState) :
    Option (Physical cfg) := do
  return { p with irqs := ← p.irqs.alter? irq f? }

theorem alterIrq?_eq (p : Physical cfg) (hirq : irq < maxIrqs) {f? : IrqState → Option IrqState}
    {f : IrqState → IrqState} (hf : f? (p.irqs.row irq) = some (f (p.irqs.row irq))) :
    p.alterIrq? irq f? = some (p.alterIrq irq f) := by
  rw [alterIrq?, Table.alter?_of_lt _ hirq hf]
  rfl

/-- A change of an interrupt that cannot fail. -/
theorem alterIrq?_some (p : Physical cfg) (hirq : irq < maxIrqs) (f : IrqState → IrqState) :
    (p.alterIrq? irq fun r => some (f r)) = some (p.alterIrq irq f) :=
  alterIrq?_eq p hirq rfl

/-- Two changes of the same interrupt, one after the other. -/
theorem alterIrq_alterIrq (p : Physical cfg) (irq : Nat) (f g : IrqState → IrqState) :
    (p.alterIrq irq f).alterIrq irq g = p.alterIrq irq fun r => g (f r) := by
  have hirqs : ((p.alterIrq irq f).alterIrq irq g).irqs =
      (p.alterIrq irq fun r => g (f r)).irqs := by
    refine Table.ext_row fun i _ => ?_
    rw [row_alterIrq, row_alterIrq, row_alterIrq]
    split <;> rfl
  exact congrArg (fun irqs => { p with irqs }) hirqs

/-! ### Arbitration -/

/-- The CPUs whose flags of an interrupt say whether it can be signaled to a CPU. -/
def view? (irq cpu : Nat) : Option CpuMask :=
  if irq < numPrivate then CpuMask.only? cpu else some .all

/-- Whether an interrupt may be signaled to a CPU at all. -/
def isCandidate? (p : Physical cfg) (cpu irq : Nat) : Option Bool := do
  let targeted ← if irq < numPrivate then some true
    else p.distributor.targets? irq >>= fun targets => targets.has? cpu
  let mask ← view? irq cpu
  let r ← p.irqs.at? irq
  return targeted && r.isEnabled mask && r.wanted mask && !r.isActive mask

/-- The winner among the interrupts below a number, and its priority. -/
def best? (p : Physical cfg) (cpu : Nat) : Nat → Option (Nat × Priority)
  | 0 => some (spurious, idle)
  | n + 1 => do
    let leader ← p.best? cpu n
    if ← p.isCandidate? cpu n then
      let priority ← p.distributor.priorityAt? cpu n
      return if priority < leader.2 then (n, priority) else leader
    else return leader

/-- The interface of a CPU after an arbitration, if the CPU has an output line. -/
def settle? (p : Physical cfg) (cpu : Nat) (i : CpuInterface) : Option CpuInterface := do
  if maxCpus ≤ cpu then none
  else if p.distributor.enables.any && i.enables.any then
    let winner ← p.best? cpu cfg.numIrqs
    return settle i <| some
      { winner := winner.1
        priority := winner.2
        mask := i.priorityMask
        running := i.running
        level := decide (winner.1 ≠ spurious) && decide (winner.2 < i.priorityMask)
          && decide (winner.2 < i.running) }
  else return settle i none

/-- Decides anew for one CPU after the other. -/
def arbitrate? (p : Physical cfg) : Option (Physical cfg) := do
  let cpus ← p.cpus.alterFrom? 0 cfg.cpus (fun _ => some true) p.settle?
  return { p with cpus }

theorem view?_eq (hc : cpu < maxCpus) (irq : Nat) : view? irq cpu = some (view irq cpu) := by
  unfold view? view
  split
  · exact CpuMask.only?_eq hc
  · rfl

theorem isCandidate?_eq (p : Physical cfg) (hc : cpu < maxCpus) (hirq : irq < maxIrqs) :
    p.isCandidate? cpu irq = some (p.isCandidate cpu irq) := by
  unfold isCandidate? isCandidate
  simp only [view?_eq hc, Distributor.targets?_eq _ hirq, Table.at?_of_lt _ hirq,
    CpuMask.has?_eq, Option.pure_def, some_bind]
  by_cases hlow : irq < numPrivate
  · simp only [if_pos hlow, decide_eq_true hlow, Bool.true_or]
  · simp only [if_neg hlow, decide_eq_false hlow, Bool.false_or]

theorem best?_eq (p : Physical cfg) (hc : cpu < maxCpus) {n : Nat} (hn : n ≤ maxIrqs) :
    p.best? cpu n = some (p.best cpu n) := by
  induction n with
  | zero => rfl
  | succ n ih =>
    have hpriority : p.distributor.priorityAt? cpu n = some (p.priority cpu n) :=
      (Distributor.priorityAt?_eq _ hc hn).trans (Distributor.priority?_of_lt _ hn idle)
    simp only [best?, best, ih (Nat.le_of_succ_le hn), isCandidate?_eq p hc hn, hpriority,
      some_bind, Option.pure_def]
    by_cases hcand : p.isCandidate cpu n = true
    · simp only [hcand, if_true, Bool.true_and, decide_eq_true_eq]
    · rw [Bool.not_eq_true] at hcand
      simp only [hcand, Bool.false_eq_true, if_false, Bool.false_and]

theorem settle?_eq (p : Physical cfg) (hc : cpu < maxCpus) (hn : cfg.numIrqs ≤ maxIrqs) :
    p.settle? cpu (p.cpus.row cpu) = some (settle (p.cpus.row cpu) (p.decideFor cpu)) := by
  unfold settle? decideFor isOpen
  rw [if_neg (Nat.not_le.mpr hc), best?_eq p hc hn]
  split <;> rfl

/-- Arbitration stays in range. -/
theorem arbitrate?_eq (p : Physical cfg) (hmax : cfg.cpus ≤ maxCpus)
    (hn : cfg.numIrqs ≤ maxIrqs) : p.arbitrate? = some p.arbitrate.value := by
  have hcpus : (p.cpus.mapRows fun cpu i => settle i (p.decideFor cpu)) =
      p.arbitrate.value.cpus := by
    refine Table.ext_row fun cpu hc => ?_
    rw [row_arbitrate p hc, Table.row_mapRows, if_pos hc]
  rw [arbitrate?, Table.alterFrom?_all _ (fun cpu i => settle i (p.decideFor cpu))
    fun cpu hc => settle?_eq p (Nat.lt_of_lt_of_le hc hmax) hn, hcpus]
  rfl

/-! ### Reading the distributor -/

/-- The CPUs that word `n` of a register of flags shows to a CPU. -/
def wordView? (cpu n : Nat) : Option CpuMask := if n = 0 then CpuMask.only? cpu else some .all

/-- The word `n` of a flag of the connected interrupts. -/
def flagWord? (cfg : Config) (n : Nat) (flag? : Nat → Option Bool) : Option Word :=
  Word.gather? (fun bit =>
    if 32 * n + bit < cfg.numIrqs then flag? (32 * n + bit) else some false) 32

/-- The word of a register of the distributor, as a CPU reads it. -/
def readWord? (p : Physical cfg) (cpu : Nat) : DistributorRegister → Option Word
  | .control => some p.distributor.enables.toWord
  | .controllerType => some (ControllerType.describe cfg.numIrqs cfg.cpus).toWord
  | .group n => some ((p.distributor.groups.at? n).getD default)
  | .setEnable n | .clearEnable n => do
    let mask ← wordView? cpu n
    flagWord? cfg n fun irq => do
      return decide (irq < numSgis) || (← p.irqs.at? irq).isEnabled mask
  | .setPending n | .clearPending n => do
    let mask ← wordView? cpu n
    flagWord? cfg n fun irq => return (← p.irqs.at? irq).wanted mask
  | .setActive n | .clearActive n => do
    let mask ← wordView? cpu n
    flagWord? cfg n fun irq => return (← p.irqs.at? irq).isActive mask
  | .trigger n =>
    if n < 2 then p.distributor.triggers.at? n
    else do
      -- The shared interrupts have words of their own.
      let shared ← minus? n 2
      return (p.distributor.triggers.at? (2 + shared)).getD default
  | .component n => componentIdByte? n
  | .implementer | .sgi | .reserved => some 0#32
  | .priority _ | .targets _ | .clearSources _ | .setSources _ => some 0#32

/-- The byte of a register of the distributor, as a CPU reads it. -/
def readByte? (p : Physical cfg) (cpu : Nat) : DistributorRegister → Option (BitVec 8)
  | .priority irq => if irq < cfg.numIrqs then p.distributor.priorityAt? cpu irq else some 0#8
  | .targets irq =>
    if irq < numPrivate then CpuMask.only? cpu
    else if irq < cfg.numIrqs then p.distributor.targets? irq
    else some 0#8
  | .clearSources sgi | .setSources sgi =>
    if sgi < numSgis then p.distributor.sources? cpu sgi else some 0#8
  | _ => some 0#8

/-- The four bytes from an offset on, the first in the lowest bits. -/
def readBytes? (p : Physical cfg) (cpu offset : Nat) : Option Word :=
  [0, 1, 2, 3].foldlM (fun word lane => do
    let byte ← p.readByte? cpu (← DistributorRegister.ofOffset? (offset + lane))
    return word ||| (← shiftLeft? (byte.setWidth 32) (8 * lane))) 0#32

/-- Reads the distributor as a CPU. -/
def readDistributor? (p : Physical cfg) (cpu offset : Nat) (width : Width) :
    Option (Except BusError Word) := do
  let register ← DistributorRegister.ofOffset? offset
  match width with
  | .word =>
    if offset % 4 = 0 then
      return .ok (← if register.isByte then p.readBytes? cpu offset else p.readWord? cpu register)
    else return .error (.unsupportedWidth offset width)
  | .byte =>
    if register.isByte then return .ok ((← p.readByte? cpu register).setWidth 32)
    else return .error (.unsupportedWidth offset width)
  | .half | .double => return .error (.unsupportedWidth offset width)

theorem wordView?_eq (hc : cpu < maxCpus) (n : Nat) : wordView? cpu n = some (wordView cpu n) := by
  unfold wordView? wordView
  split
  · exact CpuMask.only?_eq hc
  · rfl

theorem flagWord?_eq (n : Nat) {flag? : Nat → Option Bool} {flag : Nat → Bool}
    (hflag : ∀ irq < cfg.numIrqs, flag? irq = some (flag irq)) :
    flagWord? cfg n flag? = some (flagWord cfg n flag) := by
  unfold flagWord? flagWord Word.ofBits
  refine Word.gather?_eq (Nat.le_refl 32) fun bit _ => ?_
  split
  · rename_i hin
    rw [hflag _ hin, decide_eq_true hin, Bool.true_and]
  · rename_i hin
    rw [decide_eq_false hin, Bool.false_and]

theorem readWord?_eq (p : Physical cfg) (hc : cpu < maxCpus) (hn : cfg.numIrqs ≤ maxIrqs)
    {register : DistributorRegister} (hid : ∀ n, register = .component n → n < 4) :
    p.readWord? cpu register = some (p.readWord cpu register) := by
  have hrow : ∀ irq < cfg.numIrqs, p.irqs.at? irq = some (p.irqs.row irq) := fun irq hirq =>
    Table.at?_of_lt _ (Nat.lt_of_lt_of_le hirq hn)
  cases register with
  | group n => exact congrArg some (Table.getD_at? _ n)
  | setEnable n | clearEnable n | setPending n | clearPending n | setActive n | clearActive n =>
    simp only [readWord?, readWord, wordView?_eq hc, some_bind]
    refine flagWord?_eq n fun irq hirq => ?_
    rw [hrow irq hirq]
    rfl
  | trigger n =>
    by_cases hlow : n < 2
    · rw [readWord?, if_pos hlow, Table.at?_of_lt _ (Nat.lt_trans hlow (by decide))]
      rfl
    · rw [readWord?, if_neg hlow, minus?_of_le (Nat.not_lt.mp hlow), some_bind, Table.getD_at?,
        Nat.add_sub_cancel' (Nat.not_lt.mp hlow)]
      rfl
  | component n => exact componentIdByte?_eq (hid n rfl)
  | _ => rfl

theorem readByte?_eq (p : Physical cfg) (hc : cpu < maxCpus) (hn : cfg.numIrqs ≤ maxIrqs)
    (register : DistributorRegister) :
    p.readByte? cpu register = some (p.readByte cpu register) := by
  cases register with
  | priority irq =>
    refine ite_eq_some (fun hin => ?_) fun _ => rfl
    have hirq := Nat.lt_of_lt_of_le hin hn
    exact (Distributor.priorityAt?_eq _ hc hirq).trans (Distributor.priority?_of_lt _ hirq 0#8)
  | targets irq =>
    refine ite_eq_some (fun _ => CpuMask.only?_eq hc) fun _ =>
      ite_eq_some (fun hin => ?_) fun _ => rfl
    exact Distributor.targets?_eq _ (Nat.lt_of_lt_of_le hin hn)
  | clearSources sgi | setSources sgi =>
    exact ite_eq_some (fun hin => Distributor.sources?_eq _ hc hin) fun _ => rfl
  | _ => rfl

theorem readBytes?_eq (p : Physical cfg) (hc : cpu < maxCpus) (hn : cfg.numIrqs ≤ maxIrqs)
    (offset : Nat) : p.readBytes? cpu offset = some (p.readBytes cpu offset) := by
  simp (disch := decide) only [readBytes?, List.foldlM_cons, List.foldlM_nil,
    DistributorRegister.ofOffset?_eq, readByte?_eq p hc hn, shiftLeft?_of_lt, some_bind,
    Option.pure_def]
  rw [readBytes, append_bytes, BitVec.zero_or, Nat.mul_zero, BitVec.shiftLeft_zero]
  rfl

/-- Reading the distributor stays in range. -/
theorem readDistributor?_eq (p : Physical cfg) (hc : cpu < maxCpus) (hn : cfg.numIrqs ≤ maxIrqs)
    (offset : Nat) (width : Width) :
    p.readDistributor? cpu offset width = some (p.readDistributor cpu offset width) := by
  have hword : p.readWord? cpu (.ofOffset offset) = some (p.readWord cpu (.ofOffset offset)) :=
    readWord?_eq p hc hn fun _ h => DistributorRegister.component_lt h
  cases width with
  | word | byte =>
    simp only [readDistributor?, readDistributor, DistributorRegister.ofOffset?_eq, hword,
      readByte?_eq p hc hn, readBytes?_eq p hc hn, some_bind,
      Option.pure_def]
    repeat' split
    all_goals rfl
  | half | double =>
    rw [readDistributor?, DistributorRegister.ofOffset?_eq]
    rfl

/-! ### Writing the distributor -/

/-- Changes the interrupts that `value`, written to word `n` of a register, selects, one after the
other. -/
def alterSelected? (p : Physical cfg) (n : Nat) (value : Word)
    (f? : Nat → IrqState → Option IrqState) : Option (Physical cfg) := do
  let irqs ← p.irqs.alterFrom? (32 * n) 32
    (fun bit => do
      let mask ← shiftLeft? 1#32 bit
      return decide (32 * n + bit < cfg.numIrqs) && value &&& mask != 0#32)
    fun bit => f? (32 * n + bit)
  return { p with irqs }

/-- The CPUs that a request of `cpu` for a software generated interrupt is meant for;
`some none` if its filter has no meaning. -/
def sgiTargets? (cfg : Config) (cpu : Nat) (request : SgiRequest) : Option (Option CpuMask) := do
  let own ← CpuMask.only? cpu
  let connected ← CpuMask.first? cfg.cpus
  match request.filter with
  | .targetList => return some (request.targets &&& connected)
  | .allButSelf => return some ((CpuMask.all ^^^ own) &&& connected)
  | .selfOnly => return some (own &&& connected)
  | .reserved => return none

/-- Handles a request of a CPU for a software generated interrupt. -/
def requestSgi? (p : Physical cfg) (cpu : Nat) (request : SgiRequest) :
    Option (Physical cfg) := do
  match ← sgiTargets? cfg cpu request with
  | none => return p
  | some targets =>
    let sgi := request.sgi.toNat
    let p ← p.alterIrq? sgi fun r => some (r.setPending true targets)
    let distributor ← p.distributor.addSource? sgi cpu targets
    let p ← p.alterIrq? sgi fun r => some (r.setSignaled false targets)
    return { p with distributor }

/-- The first of the sixteen interrupts whose triggers word `n` holds: the words of the shared
interrupts come after the two of the private ones. -/
def firstTriggered? (n : Nat) : Option Nat :=
  if n = 1 then some numSgis else (minus? n 2).map fun k => numPrivate + 16 * k

/-- Sets the triggers of the sixteen interrupts of word `n`. -/
def setTriggers? (p : Physical cfg) (n : Nat) (value : Word) : Option (Physical cfg) := do
  let first ← firstTriggered? n
  let triggers ← p.distributor.triggers.alter? n fun _ => some value
  let irqs ← p.irqs.alterFrom? first 16 (fun k => some (decide (first + k < cfg.numIrqs)))
    fun k r => do
      let mask ← shiftLeft? 2#32 (2 * k)
      return { r with trigger := if value &&& mask != 0#32 then .edge else .level }
  return { p with irqs, distributor := { p.distributor with triggers } }

/-- Writes the word of a register of the distributor as a CPU. -/
def writeWord? (p : Physical cfg) (cpu : Nat) (register : DistributorRegister) (value : Word) :
    Option (Written cfg) := do
  match register with
  | .control =>
    return ⟨{ p with distributor := { p.distributor with enables := .ofWord value } }, true⟩
  | .group n =>
    if n < 16 then
      let groups ← p.distributor.groups.alter? n fun _ => some value
      return ⟨{ p with distributor := { p.distributor with groups } }, false⟩
    else return ⟨p, false⟩
  | .setEnable n =>
    let mask ← wordView? cpu n
    return ⟨← p.alterSelected? n value fun irq r =>
      some (if irq < numSgis then r else r.enable mask), true⟩
  | .clearEnable n =>
    let mask ← wordView? cpu n
    return ⟨← p.alterSelected? n value fun irq r =>
      some (if irq < numSgis then r else r.setEnabled false mask), true⟩
  | .setPending n =>
    let own ← CpuMask.only? cpu
    return ⟨← p.alterSelected? n value fun irq r =>
      if irq < numSgis then some r
      else if irq < numPrivate then some (r.setPending true own)
      else (p.distributor.targets? irq).map fun targets => r.setPending true targets, true⟩
  | .clearPending n =>
    let mask ← wordView? cpu n
    return ⟨← p.alterSelected? n value fun irq r =>
      some (if irq < numSgis then r else r.setPending false mask), true⟩
  | .clearActive n =>
    let mask ← wordView? cpu n
    return ⟨← p.alterSelected? n value fun _ r => some (r.setActive false mask), true⟩
  | .trigger n =>
    if 1 ≤ n ∧ n < 32 then return ⟨← p.setTriggers? n (value &&& allEdge), true⟩
    else return ⟨p, false⟩
  | .sgi => return ⟨← p.requestSgi? cpu (.ofWord value), true⟩
  | .setActive _ | .controllerType | .implementer | .component _ | .reserved | .priority _
  | .targets _ | .clearSources _ | .setSources _ =>
    return ⟨p, false⟩

/-- Writes the byte of a register of the distributor as a CPU. -/
def writeByte? (p : Physical cfg) (cpu : Nat) (register : DistributorRegister)
    (value : BitVec 8) : Option (Written cfg) := do
  let own ← CpuMask.only? cpu
  let connected ← CpuMask.first? cfg.cpus
  match register with
  | .priority irq =>
    if irq < cfg.numIrqs then
      return ⟨{ p with distributor := ← p.distributor.setPriority? cpu irq value }, true⟩
    else return ⟨p, false⟩
  | .targets irq =>
    if numPrivate ≤ irq ∧ irq < cfg.numIrqs then
      let distributor ← p.distributor.setTargets? irq (value &&& connected)
      return ⟨{ p with distributor }, true⟩
    else return ⟨p, false⟩
  | .setSources sgi =>
    let sources := value &&& connected
    if sgi < numSgis ∧ sources ≠ 0#8 then
      let distributor ← p.distributor.setSources? cpu sgi sources true
      let p ← p.alterIrq? sgi fun r => some ((r.setPending true own).setSignaled false own)
      return ⟨{ p with distributor }, true⟩
    else return ⟨p, false⟩
  | .clearSources sgi =>
    if sgi < numSgis then
      let distributor ← p.distributor.setSources? cpu sgi value false
      if (← distributor.sources? cpu sgi) = 0#8 then
        let p ← p.alterIrq? sgi fun r => some (r.setPending false own)
        return ⟨{ p with distributor }, true⟩
      else return ⟨{ p with distributor }, true⟩
    else return ⟨p, false⟩
  | _ => return ⟨p, false⟩

/-- Writes the byte of a word that goes to the offset `lane` bytes further on. -/
def writeLane? (w : Written cfg) (cpu offset : Nat) (value : Word) (lane : Nat) :
    Option (Written cfg) := do
  let register ← DistributorRegister.ofOffset? (offset + lane)
  let byte ← shiftRight? value (8 * lane)
  let next ← w.state.writeByte? cpu register (byte.setWidth 8)
  return ⟨next.state, w.dirty || next.dirty⟩

/-- Writes four bytes from an offset on, the lowest bits to the first. -/
def writeBytes? (p : Physical cfg) (cpu offset : Nat) (value : Word) : Option (Written cfg) :=
  [0, 1, 2, 3].foldlM (fun w lane => writeLane? w cpu offset value lane) ⟨p, false⟩

/-- Arbitrates if something was written that arbitration looks at. -/
def arbitrateIf? (w : Written cfg) : Option (Physical cfg) :=
  if w.dirty then w.state.arbitrate? else some w.state

/-- Writes the distributor as a CPU. -/
def writeDistributor? (p : Physical cfg) (cpu offset : Nat) (value : Word) (width : Width) :
    Option (Except BusError (Physical cfg)) := do
  let register ← DistributorRegister.ofOffset? offset
  match width with
  | .word =>
    if offset % 4 = 0 then
      let w ← if register.isByte then p.writeBytes? cpu offset value
        else p.writeWord? cpu register value
      return .ok (← arbitrateIf? w)
    else return .error (.unsupportedWidth offset width)
  | .byte =>
    if register.isByte then
      return .ok (← arbitrateIf? (← p.writeByte? cpu register (value.setWidth 8)))
    else return .error (.unsupportedWidth offset width)
  | .half | .double => return .error (.unsupportedWidth offset width)

theorem alterSelected?_eq (p : Physical cfg) (hn : cfg.numIrqs ≤ maxIrqs) (n : Nat) (value : Word)
    {f? : Nat → IrqState → Option IrqState} {f : Nat → IrqState → IrqState}
    (hf : ∀ irq < cfg.numIrqs, ∀ r, f? irq r = some (f irq r)) :
    p.alterSelected? n value f? = some (p.alterSelected n value f) := by
  have hchosen : ∀ bit < 32, (do
      let mask ← shiftLeft? 1#32 bit
      return decide (32 * n + bit < cfg.numIrqs) && value &&& mask != 0#32) =
        some (decide (32 * n + bit < cfg.numIrqs) && value.getLsbD bit) := by
    intro bit hbit
    rw [shiftLeft?_one hbit, some_bind, mask_bne_zero value hbit]
    rfl
  have hirqs : (p.irqs.mapRows fun irq r => if 32 * n ≤ irq ∧ irq < 32 * n + 32 ∧
      (decide (32 * n + (irq - 32 * n) < cfg.numIrqs) && value.getLsbD (irq - 32 * n)) = true then
        f irq r else r) = (p.alterSelected n value f).irqs := by
    refine Table.ext_row fun irq hirq => ?_
    show _ = (p.irqs.mapRows _).row irq
    rw [Table.row_mapRows, Table.row_mapRows, if_pos hirq, if_pos hirq]
    refine ite_congr (propext ?_) (fun _ => rfl) fun _ => rfl
    simp only [selects, Bool.and_eq_true, decide_eq_true_eq]
    constructor
    · rintro ⟨hle, hlt, hin, hbit⟩
      have hplace : irq - 32 * n = irq % 32 := by omega
      rw [hplace] at hbit
      exact ⟨⟨by omega, hbit⟩, by omega⟩
    · rintro ⟨⟨hword, hbit⟩, hin⟩
      have hplace : irq - 32 * n = irq % 32 := by omega
      rw [hplace]
      exact ⟨by omega, by omega, by omega, hbit⟩
  rw [alterSelected?, Table.alterFrom?_eq p.irqs
    (fun bit => decide (32 * n + bit < cfg.numIrqs) && value.getLsbD bit) f hchosen
    fun bit _ hpick => ?_, hirqs]
  · rfl
  · rw [Bool.and_eq_true, decide_eq_true_eq] at hpick
    exact ⟨Nat.lt_of_lt_of_le hpick.1 hn, hf _ hpick.1 _⟩

theorem sgiTargets?_eq (cfg : Config) (hc : cpu < maxCpus) (request : SgiRequest) :
    sgiTargets? cfg cpu request = some (sgiTargets cfg cpu request) := by
  rw [sgiTargets?, CpuMask.only?_eq hc, some_bind, CpuMask.first?_eq, some_bind]
  unfold sgiTargets
  cases request.filter <;> rfl

theorem requestSgi?_eq (p : Physical cfg) (hc : cpu < maxCpus) (request : SgiRequest) :
    p.requestSgi? cpu request = some (p.requestSgi cpu request).value := by
  have hs : request.sgi.toNat < numSgis := request.sgi.isLt
  have hirq : request.sgi.toNat < maxIrqs := Nat.lt_trans hs (by decide)
  rw [requestSgi?, sgiTargets?_eq cfg hc, some_bind, requestSgi]
  cases sgiTargets cfg cpu request with
  | none => rfl
  | some targets =>
    simp only [alterIrq?_some _ hirq, some_bind, alterIrq_distributor,
      Distributor.addSource?_eq _ hc hs, alterIrq_alterIrq, Option.pure_def]
    rfl

theorem firstTriggered?_eq {n : Nat} (h : 1 ≤ n) : firstTriggered? n = some (16 * n) := by
  unfold firstTriggered?
  split
  · rename_i hone
    rw [hone]
    rfl
  · rw [minus?_of_le (by omega), Option.map_some]
    refine congrArg some ?_
    simp only [numPrivate]
    omega

theorem setTriggers?_eq (p : Physical cfg) (hn : cfg.numIrqs ≤ maxIrqs) {n : Nat}
    (hlow : 1 ≤ n) (hhigh : n < 32) (value : Word) :
    p.setTriggers? n value = some (p.setTriggers n value) := by
  have hmask : ∀ k < 16, shiftLeft? 2#32 (2 * k) = some (BitVec.twoPow 32 (2 * k + 1)) := by
    intro k hk
    rw [shiftLeft?_of_lt _ (by omega), BitVec.twoPow_eq, Nat.add_comm, BitVec.shiftLeft_add]
    rfl
  have hirqs : (p.irqs.mapRows fun irq r =>
      if 16 * n ≤ irq ∧ irq < 16 * n + 16 ∧
          decide (16 * n + (irq - 16 * n) < cfg.numIrqs) = true then
        { r with trigger := triggerOf value irq } else r) = (p.setTriggers n value).irqs := by
    refine Table.ext_row fun irq hirq => ?_
    show _ = (p.irqs.mapRows _).row irq
    rw [Table.row_mapRows, Table.row_mapRows, if_pos hirq, if_pos hirq]
    refine ite_congr (propext ?_) (fun _ => rfl) fun _ => rfl
    rw [decide_eq_true_eq]
    omega
  rw [setTriggers?, firstTriggered?_eq hlow, some_bind, Table.alter?_some _ hhigh, some_bind,
    Table.alterFrom?_eq p.irqs (fun k => decide (16 * n + k < cfg.numIrqs))
      (fun irq r => { r with trigger := triggerOf value irq }) (fun _ _ => rfl)
      fun k hk hin => ?_, hirqs]
  · rfl
  · rw [decide_eq_true_eq] at hin
    refine ⟨Nat.lt_of_lt_of_le hin hn, ?_⟩
    have hplace : (16 * n + k) % 16 = k := by omega
    rw [hmask k hk, some_bind, mask_bne_zero value (by omega),
      triggerOf, hplace]
    rfl

theorem writeWord?_eq (p : Physical cfg) (hc : cpu < maxCpus) (hn : cfg.numIrqs ≤ maxIrqs)
    (register : DistributorRegister) (value : Word) :
    p.writeWord? cpu register value = some (p.writeWord cpu register value).value := by
  cases register with
  | control => rfl
  | group n =>
    rw [writeWord?]
    split
    · rename_i hin
      rw [Table.alter?_some _ hin]
      rfl
    · rename_i hout
      have hgroups : (p.distributor.groups.alter n fun _ => value) = p.distributor.groups := by
        refine Table.ext_row fun i hi => ?_
        rw [Table.row_alter, if_neg fun (h : n = i ∧ i < 16) => hout (h.1 ▸ hi)]
      simp only [writeWord, Traced.value_pure, hgroups]
      rfl
  | setEnable n | clearEnable n | clearPending n | clearActive n =>
    rw [writeWord?, wordView?_eq hc, some_bind,
      alterSelected?_eq p hn n value fun _ _ _ => rfl]
    rfl
  | setPending n =>
    rw [writeWord?, CpuMask.only?_eq hc, some_bind,
      alterSelected?_eq (f := fun irq r => if irq < numSgis then r
        else if irq < numPrivate then r.setPending true (.only cpu)
        else r.setPending true (p.distributor.targets irq)) p hn n value fun irq hirq r => ?_]
    · rfl
    · refine ite_eq_some (fun _ => rfl) fun _ => ite_eq_some (fun _ => rfl) fun _ => ?_
      rw [Distributor.targets?_eq _ (Nat.lt_of_lt_of_le hirq hn)]
      rfl
  | trigger n =>
    rw [writeWord?, writeWord]
    split
    · rename_i hin
      rw [setTriggers?_eq p hn hin.1 hin.2]
      rfl
    · rfl
  | sgi =>
    rw [writeWord?, requestSgi?_eq p hc]
    rfl
  | _ => rfl

theorem writeByte?_eq (p : Physical cfg) (hc : cpu < maxCpus) (hn : cfg.numIrqs ≤ maxIrqs)
    (register : DistributorRegister) (value : BitVec 8) :
    p.writeByte? cpu register value = some (p.writeByte cpu register value) := by
  have hsgi : ∀ {sgi}, sgi < numSgis → sgi < maxIrqs := fun h => Nat.lt_trans h (by decide)
  rw [writeByte?, CpuMask.only?_eq hc, some_bind, CpuMask.first?_eq, some_bind]
  cases register with
  | priority irq =>
    refine ite_eq_some (fun hin => ?_) fun _ => rfl
    rw [Distributor.setPriority?_eq _ hc (Nat.lt_of_lt_of_le hin hn)]
    rfl
  | targets irq =>
    refine ite_eq_some (fun hin => ?_) fun _ => rfl
    rw [Distributor.setTargets?_eq _ (Nat.not_lt.mpr hin.1) (Nat.lt_of_lt_of_le hin.2 hn)]
    rfl
  | setSources sgi =>
    refine ite_eq_some (fun hin => ?_) fun _ => rfl
    rw [Distributor.setSources?_eq _ hc hin.1, some_bind, alterIrq?_some _ (hsgi hin.1)]
    rfl
  | clearSources sgi =>
    refine ite_eq_some (fun hin => ?_) fun _ => rfl
    rw [Distributor.setSources?_eq _ hc hin, some_bind, Distributor.sources?_eq _ hc hin,
      some_bind, alterIrq?_some _ (hsgi hin)]
    exact ite_eq_some (fun _ => rfl) fun _ => rfl
  | _ => rfl

theorem writeBytes?_eq (p : Physical cfg) (hc : cpu < maxCpus) (hn : cfg.numIrqs ≤ maxIrqs)
    (offset : Nat) (value : Word) :
    p.writeBytes? cpu offset value = some (p.writeBytes cpu offset value) := by
  have hlane : ∀ (w : Written cfg) (lane : Nat), 8 * lane < 32 →
      writeLane? w cpu offset value lane = some (writeLane w cpu offset value lane) := by
    intro w lane hlane
    simp only [writeLane?, DistributorRegister.ofOffset?_eq, shiftRight?_of_lt _ hlane,
      writeByte?_eq _ hc hn, setWidth_ushiftRight, some_bind]
    rfl
  simp (disch := decide) only [writeBytes?, List.foldlM_cons, List.foldlM_nil, hlane,
    some_bind]
  rfl

theorem arbitrateIf?_eq (w : Written cfg) (hmax : cfg.cpus ≤ maxCpus)
    (hn : cfg.numIrqs ≤ maxIrqs) : arbitrateIf? w = some (arbitrateIf w).value := by
  unfold arbitrateIf? arbitrateIf
  split
  · exact arbitrate?_eq _ hmax hn
  · rfl

/-- Writing the distributor stays in range. -/
theorem writeDistributor?_eq (p : Physical cfg) (hc : cpu < maxCpus) (hmax : cfg.cpus ≤ maxCpus)
    (hn : cfg.numIrqs ≤ maxIrqs) (offset : Nat) (value : Word) (width : Width) :
    p.writeDistributor? cpu offset value width =
      some (p.writeDistributor cpu offset value width).value := by
  cases width with
  | word | byte =>
    simp only [writeDistributor?, writeDistributor, DistributorRegister.ofOffset?_eq, some_bind,
      writeBytes?_eq p hc hn, writeWord?_eq p hc hn, writeByte?_eq p hc hn,
      arbitrateIf?_eq _ hmax hn]
    repeat' split
    all_goals rfl
  | half | double =>
    rw [writeDistributor?, DistributorRegister.ofOffset?_eq]
    rfl

end Physical

end Gic
