import Gic.Proofs.GuardedInterfaces
import Gic.Proofs.GuestRoundTrip
import Gic.Proofs.SgiDelivery

/-!
# Nothing is out of range

Whatever the guests do, no register access, no change of a private input, no request
to decide anew and no reset makes the controller look up a row that is not there,
take a difference below zero or shift a word by its width or more, and the cases
that it reports as impossible never occur.

## The model

* `Controller.read?`, `Controller.write?`, `Controller.drivePpi?`,
  `Controller.update?`, `Controller.reset?` — these actions, made of operations that
  can fail.
* `Controller.InRange` — in a state none of them fails, and what the controller has
  stored for each CPU and uses later on is still valid.

## What is proved

* `Reachable.presentable` — what a CPU is shown is an interrupt with a priority, and
  an SGI that it is shown was sent by a connected CPU.
* `read?_eq`, `write?_eq`, `drivePpi?_eq`, `update?_eq`, `reset?_eq` — these actions
  do not fail, and do what those of the model do.
* `reachable_in_range` — every reachable state is in range.
-/

namespace Gic

/-- The interrupts at power-on, changed from a table of idle ones in two loops. -/
def Store.powerOn? (cpus : Nat) : Option Store := do
  let connected ← CpuMask.first? cpus
  let sgis ← Store.blank.alterFrom? 0 numSgis (fun _ => some true) fun _ r =>
    some (r.setEnabled true connected)
  sgis.alterFrom? numPrivate maxSpis (fun _ => some true) fun _ r =>
    some { r with routing := .single, trigger := .level }

theorem Store.powerOn?_eq (cpus : Nat) : powerOn? cpus = some (powerOn cpus) := by
  rw [powerOn?, CpuMask.first?_eq, some_bind,
    Table.alterFrom?_eq _ (fun _ => true) (fun _ r => r.setEnabled true (.first cpus))
      (fun _ _ => rfl) fun k hk _ => ⟨by simp only [numSgis, maxIrqs] at *; omega, rfl⟩,
    some_bind,
    Table.alterFrom?_eq _ (fun _ => true)
      (fun _ r => { r with routing := .single, trigger := .level }) (fun _ _ => rfl)
      fun k hk _ => ⟨by simp only [numPrivate, maxSpis, maxIrqs] at *; omega, rfl⟩]
  refine congrArg some (Table.ext_row fun irq hirq => ?_)
  rw [powerOn, blank, Table.row_mapRows, Table.row_mapRows, Table.row_replicate, Table.row_build,
    if_pos hirq, if_pos hirq, if_pos hirq, if_pos hirq]
  have hsgis : numSgis = 16 := rfl
  have hprivate : numPrivate = 32 := rfl
  have hshared : maxSpis = 480 := rfl
  have hall : maxIrqs = 512 := rfl
  -- An interrupt is an SGI, or one of a CPU's inputs, or shared.
  by_cases hsgi : irq < numSgis
  · rw [if_neg fun h => absurd h.1 (by omega),
      if_pos ⟨Nat.zero_le irq, by rwa [Nat.zero_add], rfl⟩, if_pos hsgi]
  · have hout : ¬ (0 ≤ irq ∧ irq < 0 + numSgis ∧ true = true) := fun h => absurd h.2.1 (by omega)
    by_cases hlow : irq < numPrivate
    · rw [if_neg fun h => absurd h.1 (by omega), if_neg hout, if_neg hsgi, if_pos hlow]
    · rw [if_pos ⟨by omega, by omega, rfl⟩, if_neg hout, if_neg hsgi, if_neg hlow]
      rfl

namespace Controller

variable {cfg : Config} {cpu : Nat}

/-! ### The virtual half of all CPUs -/

/-- The virtual half of a CPU after an arbitration, if the CPU has an output line. -/
def settle? (cpu : Nat) (v : VirtualCpu) : Option VirtualCpu :=
  if maxCpus ≤ cpu then none else some (settle v v.decideFor)

/-- Decides anew which virtual interrupt the guest of each CPU is shown, one after the other. -/
def arbitrateVirtual? (g : Controller cfg) : Option (Controller cfg) := do
  let virtuals ← g.virtuals.alterFrom? 0 cfg.cpus (fun _ => some true) settle?
  return { g with virtuals }

/-- Puts the virtual half of a CPU back after an access, and arbitrates if it has to. -/
def putVirtual? (g : Controller cfg) (cpu : Nat) (w : VirtualWritten) :
    Option (Controller cfg) := do
  let virtuals ← g.virtuals.alter? cpu fun _ => some w.state
  if w.dirty then arbitrateVirtual? { g with virtuals } else return { g with virtuals }

/-- Ends the physical interrupt that backed a completed virtual one. -/
def endBacking? (g : Controller cfg) (cpu physical : Nat) : Option (Controller cfg) := do
  if numSgis ≤ physical ∧ physical < cfg.numIrqs then
    return { g with physical := ← (← g.physical.deactivate? cpu physical).arbitrate? }
  else return g

/-- The guest of a CPU completes the interrupt in the low ten bits of a word. -/
def completeVirtual? (g : Controller cfg) (cpu : Nat) (value : Word) :
    Option (Controller cfg) := do
  let irq := value.field 0 10
  if maxIrqs ≤ irq then return g
  else
    let (state, backing) ← (← g.virtuals.at? cpu).complete? irq
    let virtuals ← g.virtuals.alter? cpu fun _ => some state
    match backing with
    | none => arbitrateVirtual? { g with virtuals }
    | some physical => (← endBacking? { g with virtuals } cpu physical).arbitrateVirtual?

theorem arbitrateVirtual?_eq (g : Controller cfg) (hmax : cfg.cpus ≤ maxCpus) :
    g.arbitrateVirtual? = some g.arbitrateVirtual.value := by
  have hvirtuals : (g.virtuals.mapRows fun _ v => settle v v.decideFor) =
      g.arbitrateVirtual.value.virtuals := by
    refine Table.ext_row fun cpu hc => ?_
    rw [row_arbitrateVirtual g hc, Table.row_mapRows, if_pos hc]
    rfl
  rw [arbitrateVirtual?, Table.alterFrom?_all _ (fun _ v => settle v v.decideFor)
    fun cpu hc => if_neg (Nat.not_le.mpr (Nat.lt_of_lt_of_le hc hmax)), some_bind, hvirtuals]
  rfl

theorem putVirtual?_eq (g : Controller cfg) (hc : cpu < cfg.cpus) (hmax : cfg.cpus ≤ maxCpus)
    (w : VirtualWritten) : g.putVirtual? cpu w = some (g.putVirtual cpu w).value := by
  rw [putVirtual?, Table.alter?_some _ hc, some_bind]
  unfold putVirtual
  dsimp only
  split
  · exact arbitrateVirtual?_eq _ hmax
  · rfl

theorem endBacking?_eq (g : Controller cfg) (hc : cpu < cfg.cpus) (hmax : cfg.cpus ≤ maxCpus)
    (hn : cfg.numIrqs ≤ maxIrqs) (irq physical : Nat) :
    g.endBacking? cpu physical = some (g.endBacking cpu irq physical).value := by
  unfold endBacking? endBacking
  split
  · rename_i hin
    rw [Physical.deactivate?_eq _ (Nat.lt_of_lt_of_le hc hmax) (Nat.lt_of_lt_of_le hin.2 hn),
      some_bind, Physical.arbitrate?_eq _ hmax hn]
    rfl
  · rfl

theorem completeVirtual?_eq (g : Controller cfg) (hc : cpu < cfg.cpus)
    (hmax : cfg.cpus ≤ maxCpus) (hn : cfg.numIrqs ≤ maxIrqs) (value : Word) :
    g.completeVirtual? cpu value = some (g.completeVirtual cpu value).value := by
  unfold completeVirtual? completeVirtual
  dsimp only
  split
  · rfl
  rw [Table.at?_of_lt _ hc, some_bind, VirtualCpu.complete?_eq _ cpu, some_bind]
  simp only [Table.alter?_some _ hc, some_bind, Traced.value_bind]
  cases ((g.virtuals.row cpu).complete cpu (value.field 0 10)).value.2 with
  | none => exact arbitrateVirtual?_eq _ hmax
  | some physical =>
    simp only [endBacking?_eq _ hc hmax hn (value.field 0 10), some_bind]
    exact arbitrateVirtual?_eq _ hmax

/-! ### What can be done from outside -/

/-- Reads a register as a CPU. -/
def readWindow? (g : Controller cfg) (window : Interface) (cpu offset : Nat) (width : Width) :
    Option (Reply cfg Word) := do
  match window with
  | .distributor => return (← g.physical.readDistributor? cpu offset width, g)
  | .cpuInterface =>
    match checkWord offset width with
    | .error e => return (.error e, g)
    | .ok () =>
      let (value, physical) ← g.physical.readCpuInterface? cpu (← CpuRegister.ofOffset? offset)
      return (.ok value, { g with physical })
  | .vifControl =>
    match checkWord offset width with
    | .error e => return (.error e, g)
    | .ok () => return (.ok (← (← g.virtuals.at? cpu).readVif? (← VifRegister.ofOffset? offset)), g)
  | .vcpuInterface =>
    match checkWord offset width with
    | .error e => return (.error e, g)
    | .ok () =>
      let v ← g.virtuals.at? cpu
      let register ← CpuRegister.ofOffset? offset
      if register = .acknowledge then
        let (value, w) ← v.acknowledge?
        return (.ok value, ← g.putVirtual? cpu w)
      else return (.ok (← v.readGuest? register), g)

/-- Writes a register as a CPU. -/
def writeWindow? (g : Controller cfg) (window : Interface) (cpu offset : Nat) (value : Word)
    (width : Width) : Option (Reply cfg Unit) := do
  match window with
  | .distributor =>
    match ← g.physical.writeDistributor? cpu offset value width with
    | .error e => return (.error e, g)
    | .ok physical => return (.ok (), { g with physical })
  | .cpuInterface =>
    match checkWord offset width with
    | .error e => return (.error e, g)
    | .ok () =>
      let register ← CpuRegister.ofOffset? offset
      return (.ok (), { g with physical := ← g.physical.writeCpuInterface? cpu register value })
  | .vifControl =>
    match checkWord offset width with
    | .error e => return (.error e, g)
    | .ok () =>
      let w ← (← g.virtuals.at? cpu).writeVif? (← VifRegister.ofOffset? offset) value
      return (.ok (), ← g.putVirtual? cpu w)
  | .vcpuInterface =>
    match checkWord offset width with
    | .error e => return (.error e, g)
    | .ok () =>
      let register ← CpuRegister.ofOffset? offset
      if register = .completion then return (.ok (), ← g.completeVirtual? cpu value)
      else
        let w ← (← g.virtuals.at? cpu).writeGuest? register value
        return (.ok (), ← g.putVirtual? cpu w)

/-- Reads at an offset in a window. -/
def read? (g : Controller cfg) (window : Interface) (initiator : Initiator) (offset : Nat)
    (width : Width) : Option (Reply cfg Word) :=
  match checkWindow cfg window offset width with
  | .error e => some (.error e, g)
  | .ok () => g.readWindow? window (cpuOf cfg initiator) offset width

/-- Writes at an offset in a window. -/
def write? (g : Controller cfg) (window : Interface) (initiator : Initiator) (offset : Nat)
    (value : BitVec 64) (width : Width) : Option (Reply cfg Unit) :=
  match checkWindow cfg window offset width with
  | .error e => some (.error e, g)
  | .ok () => g.writeWindow? window (cpuOf cfg initiator) offset (value.setWidth 32) width

/-- Private input `index` of a CPU takes a level. -/
def drivePpi? (g : Controller cfg) (cpu index : Nat) (level : Bool) : Option (Controller cfg) := do
  if cpu < cfg.cpus ∧ index < numPpis then
    let own ← CpuMask.only? cpu
    let driven ← g.physical.alterIrq? (numSgis + index) fun r => some (r.drive level own own)
    return { g with physical := ← driven.arbitrate? }
  else return g

/-- Decides anew in one half. -/
def update? (g : Controller cfg) : Domain → Option (Controller cfg)
  | .physical => do
    return { g with physical := ← g.physical.arbitrate? }
  | .virtual => g.arbitrateVirtual?

/-- Returns everything to what it was at power-on, if the lines of every CPU can be lowered. -/
def reset? (_ : Controller cfg) : Option (Controller cfg) := do
  let irqs ← Store.powerOn? cfg.cpus
  if ∀ cpu < cfg.cpus, cpu < maxCpus then
    return { powerOn cfg with physical := { Physical.powerOn cfg with irqs } }
  else none

/-! ### In every reachable state -/

/-- What a CPU is shown can be presented to it. -/
theorem Reachable.presentable (hv : cfg.validate = .ok ()) {g : Controller cfg}
    (hg : Reachable g) (hc : cpu < cfg.cpus) : g.physical.Presentable cpu := by
  obtain ⟨hpos, hmax, hn⟩ := Config.bounds_of_validate hv
  have hm := Nat.lt_of_lt_of_le hc hmax
  constructor
  · intro hshown
    exact (hg.settled.competes hn hc hm hshown).connected
  · intro hsgi
    rw [Physical.lowest_of_shown hg.settled hg.shaped hn hc hm hsgi
      (hg.recorded hpos hmax hm hsgi)]
    exact Option.some_ne_none _

theorem readWindow?_eq (hv : cfg.validate = .ok ()) {g : Controller cfg} (hg : Reachable g)
    (hc : cpu < cfg.cpus) (window : Interface) (offset : Nat) (width : Width) :
    g.readWindow? window cpu offset width = some (g.readWindow window cpu offset width).value := by
  obtain ⟨-, hmax, hn⟩ := Config.bounds_of_validate hv
  cases window with
  | distributor =>
    rw [readWindow?, Physical.readDistributor?_eq _ (Nat.lt_of_lt_of_le hc hmax) hn]
    rfl
  | cpuInterface | vifControl =>
    unfold readWindow? readWindow
    dsimp only
    cases checkWord offset width with
    | error e => rfl
    | ok =>
      simp only [CpuRegister.ofOffset?_eq, VifRegister.ofOffset?_eq, Table.at?_of_lt _ hc,
        some_bind, VirtualCpu.readVif?_eq,
        Physical.readCpuInterface?_eq (hg.presentable hv hc) hc hmax hn fun n h =>
          CpuRegister.component_lt h]
      rfl
  | vcpuInterface =>
    unfold readWindow? readWindow
    dsimp only
    cases checkWord offset width with
    | error e => rfl
    | ok =>
      simp only [CpuRegister.ofOffset?_eq, Table.at?_of_lt _ hc, some_bind,
        VirtualCpu.acknowledge?_eq (hg.guestSettled hc) cpu, putVirtual?_eq g hc hmax]
      split
      · rfl
      · rw [VirtualCpu.readGuest?_eq _ fun n h => CpuRegister.component_lt h]
        rfl

theorem writeWindow?_eq (hv : cfg.validate = .ok ()) (g : Controller cfg) (hc : cpu < cfg.cpus)
    (window : Interface) (offset : Nat) (value : Word) (width : Width) :
    g.writeWindow? window cpu offset value width =
      some (g.writeWindow window cpu offset value width).value := by
  obtain ⟨-, hmax, hn⟩ := Config.bounds_of_validate hv
  cases window with
  | distributor =>
    unfold writeWindow? writeWindow
    simp only [Physical.writeDistributor?_eq _ (Nat.lt_of_lt_of_le hc hmax) hmax hn, some_bind,
      Traced.value_bind]
    cases (g.physical.writeDistributor cpu offset value width).value <;> rfl
  | cpuInterface | vifControl =>
    unfold writeWindow? writeWindow
    dsimp only
    cases checkWord offset width with
    | error e => rfl
    | ok =>
      simp only [CpuRegister.ofOffset?_eq, VifRegister.ofOffset?_eq, Table.at?_of_lt _ hc,
        some_bind, Physical.writeCpuInterface?_eq _ hc hmax hn, VirtualCpu.writeVif?_eq _ cpu,
        putVirtual?_eq g hc hmax]
      rfl
  | vcpuInterface =>
    unfold writeWindow? writeWindow
    dsimp only
    cases checkWord offset width with
    | error e => rfl
    | ok =>
      simp only [CpuRegister.ofOffset?_eq, Table.at?_of_lt _ hc, some_bind,
        completeVirtual?_eq g hc hmax hn, VirtualCpu.writeGuest?_eq _ cpu,
        putVirtual?_eq g hc hmax]
      split <;> rfl

theorem read?_eq (hv : cfg.validate = .ok ()) {g : Controller cfg} (hg : Reachable g)
    (window : Interface) (initiator : Initiator) (offset : Nat) (width : Width) :
    g.read? window initiator offset width =
      some (g.read window initiator offset width).value := by
  unfold read? read
  cases checkWindow cfg window offset width with
  | error e => rfl
  | ok => exact readWindow?_eq hv hg (cpuOf_lt (Config.bounds_of_validate hv).1 initiator) _ _ _

theorem write?_eq (hv : cfg.validate = .ok ()) (g : Controller cfg) (window : Interface)
    (initiator : Initiator) (offset : Nat) (value : BitVec 64) (width : Width) :
    g.write? window initiator offset value width =
      some (g.write window initiator offset value width).value := by
  unfold write? write
  cases checkWindow cfg window offset width with
  | error e => rfl
  | ok => exact writeWindow?_eq hv g (cpuOf_lt (Config.bounds_of_validate hv).1 initiator) _ _ _ _

theorem drivePpi?_eq (hv : cfg.validate = .ok ()) (g : Controller cfg) (cpu index : Nat)
    (level : Bool) : g.drivePpi? cpu index level = some (g.drivePpi cpu index level).value := by
  obtain ⟨-, hmax, hn⟩ := Config.bounds_of_validate hv
  unfold drivePpi? drivePpi
  split
  · rename_i hin
    have hirq : numSgis + index < maxIrqs := by
      have hindex := hin.2
      simp only [numPpis, numSgis, maxIrqs] at *
      omega
    rw [CpuMask.only?_eq (Nat.lt_of_lt_of_le hin.1 hmax), some_bind,
      Physical.alterIrq?_some _ hirq, some_bind, Physical.arbitrate?_eq _ hmax hn]
    rfl
  · rfl

theorem update?_eq (hv : cfg.validate = .ok ()) (g : Controller cfg) (domain : Domain) :
    g.update? domain = some (g.update domain).value := by
  obtain ⟨-, hmax, hn⟩ := Config.bounds_of_validate hv
  cases domain with
  | physical =>
    rw [update?, Physical.arbitrate?_eq _ hmax hn]
    rfl
  | virtual => exact arbitrateVirtual?_eq g hmax

theorem reset?_eq (hv : cfg.validate = .ok ()) (g : Controller cfg) :
    g.reset? = some g.reset.value := by
  obtain ⟨-, hmax, -⟩ := Config.bounds_of_validate hv
  rw [reset?, Store.powerOn?_eq, some_bind, if_pos fun cpu hc => Nat.lt_of_lt_of_le hc hmax,
    value_reset]
  rfl

/-- In a state, and in whatever is done in it next, nothing is out of range. -/
structure InRange (g : Controller cfg) : Prop where
  /-- At least one and at most eight CPUs are connected. -/
  connected : 1 ≤ cfg.cpus ∧ cfg.cpus ≤ 8
  /-- There are as many CPU interfaces and virtual halves. -/
  tables : g.physical.cpus.toList.length = cfg.cpus ∧ g.virtuals.toList.length = cfg.cpus
  /-- A CPU is shown no interrupt, or a connected one, which has a priority for it. -/
  shown : ∀ c < cfg.cpus, (g.physical.cpus.row c).highestPending = 1023 ∨
    ((g.physical.cpus.row c).highestPending < cfg.numIrqs ∧
      (g.physical.distributor.priority? c (g.physical.cpus.row c).highestPending).isSome)
  /-- An SGI that a CPU is shown was sent by a connected CPU. -/
  sent : ∀ c < cfg.cpus, (g.physical.cpus.row c).highestPending < numSgis →
    ∃ source < cfg.cpus, (g.physical.distributor.sources c
      (g.physical.cpus.row c).highestPending).lowest? = some source
  /-- If what a guest is shown preempts what it runs, a list register holds it. -/
  held : ∀ c < cfg.cpus, (g.virtuals.row c).highestPending ≠ 1023 →
    (g.virtuals.row c).priorityOf (g.virtuals.row c).highestPending < (g.virtuals.row c).running →
    ∃ n, (g.virtuals.row c).Takes n
  /-- An acknowledge of a guest takes a list register as a whole, or does nothing. -/
  taken : ∀ c < cfg.cpus, ∀ i, cpuOf cfg i = c →
    let read := (g.read .vcpuInterface i 0x0c .word).value
    (∃ n, (g.virtuals.row c).Takes n ∧
      read.1 = .ok (tagged (g.virtuals.row c).highestPending
        ((g.virtuals.row c).lists.row n).source) ∧
      read.2.virtuals.row c = ((g.virtuals.row c).taken n).decided) ∨
    read = (.ok 1023#32, g)
  /-- Priorities of guests are shifted by at most eight. -/
  points : ∀ c < cfg.cpus, (g.virtuals.row c).binaryPoint.toNat + 1 ≤ 8
  /-- The highest of the active priorities is looked for only if there is one. -/
  levels : ∀ active, VirtualCpu.priorityLevel? active = some (VirtualCpu.priorityLevel active)
  /-- The identification is shifted by at most 24. -/
  identification : ∀ offset n, DistributorRegister.ofOffset offset = .component n ∨
    CpuRegister.ofOffset offset = .component n → 8 * n ≤ 24
  /-- No read fails. -/
  read : ∀ window initiator offset width, g.read? window initiator offset width =
    some (g.read window initiator offset width).value
  /-- No write fails. -/
  write : ∀ window initiator offset value width, g.write? window initiator offset value width =
    some (g.write window initiator offset value width).value
  /-- No change of a private input fails. -/
  drive : ∀ cpu index level, g.drivePpi? cpu index level = some (g.drivePpi cpu index level).value
  /-- No request to decide anew fails. -/
  update : ∀ domain, g.update? domain = some (g.update domain).value
  /-- A reset does not fail. -/
  reset : g.reset? = some g.reset.value

theorem length_toList {n : Nat} {α : Type} (t : Table n α) : t.toList.length = n :=
  t.size_cells

/-- A guest's acknowledge that is refused leaves the controller as it is. -/
theorem read_of_refused {g : Controller cfg} {i : Initiator}
    (h : ((g.virtuals.row (cpuOf cfg i)).acknowledge (cpuOf cfg i)).value =
      (BitVec.ofNat 32 spurious, ⟨g.virtuals.row (cpuOf cfg i), false⟩)) :
    (g.read .vcpuInterface i 0x0c .word).value = (.ok 1023#32, g) := by
  have hanswer := read_guest_acknowledge g i
  have hstate := after_guest_acknowledge g i
  rw [h] at hanswer hstate
  have hvirtuals : (g.virtuals.alter (cpuOf cfg i) fun _ => g.virtuals.row (cpuOf cfg i)) =
      g.virtuals := by
    refine Table.ext_row fun c _ => ?_
    rw [Table.row_alter]
    split
    · rename_i hcond
      rw [hcond.1]
    · rfl
  refine Prod.ext hanswer (hstate.trans ?_)
  show { g with virtuals := _ } = g
  rw [hvirtuals]

/-- Every reachable state is in range. -/
theorem reachable_in_range (hv : cfg.validate = .ok ()) {g : Controller cfg} (hg : Reachable g) :
    InRange g := by
  obtain ⟨hpos, hmax, hn⟩ := Config.bounds_of_validate hv
  have hpresentable : ∀ c < cfg.cpus, g.physical.Presentable c := fun c hc =>
    hg.presentable hv hc
  exact
    { connected := ⟨hpos, hmax⟩
      tables := ⟨length_toList _, length_toList _⟩
      shown := fun c hc => by
        by_cases hshown : (g.physical.cpus.row c).highestPending = spurious
        · exact .inl hshown
        · have hirq := (hpresentable c hc).connected hshown
          refine .inr ⟨hirq, ?_⟩
          rw [Distributor.priority?_of_lt _ (Nat.lt_of_lt_of_le hirq hn) idle]
          rfl
      sent := fun c hc hsgi => by
        obtain ⟨source, hsource⟩ := Option.ne_none_iff_exists'.mp ((hpresentable c hc).sent hsgi)
        have hrec := hg.recorded hpos hmax (Nat.lt_of_lt_of_le hc hmax) hsgi
        exact ⟨source, (hrec.connected _ ((CpuMask.lowest?_eq_some_iff _ _).mp hsource).1).1,
          hsource⟩
      held := fun c hc hshown hpreempts => by
        obtain ⟨n, hfind⟩ :=
          Option.ne_none_iff_exists'.mp ((hg.guestSettled hc).find?_ne_none hshown)
        refine ⟨n, hshown, (VirtualCpu.find?_eq_some_iff _ _ n).mp hfind, ?_⟩
        rwa [VirtualCpu.priorityOf, hfind] at hpreempts
      taken := fun c hc i hi => by
        subst hi
        rcases (hg.guestSettled hc).takes_or_refuses (cpuOf cfg i) with ⟨n, htakes⟩ | hrefused
        · refine .inl ⟨n, htakes, ?_, row_after_acknowledge g hc rfl htakes⟩
          rw [read_guest_acknowledge, htakes.acknowledge]
        · exact .inr (read_of_refused hrefused)
      points := fun c _ => (g.virtuals.row c).binaryPoint.isLt
      levels := VirtualCpu.priorityLevel?_eq
      identification := fun offset n h => by
        have hlt : n < 4 := h.elim DistributorRegister.component_lt CpuRegister.component_lt
        omega
      read := read?_eq hv hg
      write := write?_eq hv g
      drive := drivePpi?_eq hv g
      update := update?_eq hv g
      reset := reset?_eq hv g }

/-- Two CPUs have sent SGI 3 to the second one, whose guest waits for interrupt 40. -/
theorem reachable_in_range_two_senders :
    let cfg : Config := { Config.standard with cpus := 2 }
    let g := (powerOn cfg).run
      [.write .distributor (.cpu 0) 0x000 1 .word, .write .cpuInterface (.cpu 1) 0x00 1 .word,
        .write .cpuInterface (.cpu 1) 0x04 0xf0 .word,
        .write .distributor (.cpu 1) 0xf00 0x00020003 .word,
        .write .distributor (.cpu 0) 0xf00 0x00020003 .word,
        .write .vifControl (.cpu 1) 0x000 1 .word,
        .write .vcpuInterface (.cpu 1) 0x04 0xf0 .word,
        .write .vifControl (.cpu 1) 0x100 0x18000028 .word]
    (cfg.validate = .ok () ∧ Reachable g ∧ (g.physical.cpus.row 1).highestPending = 3 ∧
      (g.virtuals.row 1).highestPending = 40) ∧ InRange g := by
  intro cfg g
  have hv : cfg.validate = .ok () := by decide
  have hg : Reachable g := reachable_run _
  have hshown : (g.physical.cpus.row 1).highestPending = 3 ∧
      (g.virtuals.row 1).highestPending = 40 := by decide +kernel
  exact ⟨⟨hv, hg, hshown⟩, reachable_in_range hv hg⟩

end Controller

end Gic
