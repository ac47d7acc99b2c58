import Gic.Proofs.GuestIsolation
import Gic.Proofs.Refusals
import Gic.Proofs.SgiRecords

/-!
# Words of the arrays of bytes

Priorities, targets and the sources of software generated interrupts can be
accessed by the word and by the byte. A word is written byte by byte, with one
arbitration at the end; four bytes that are written one after the other are
arbitrated four times. A byte may be banked or shared, may have no effect, and may
change both the distributor and the state of an interrupt. This module shows that
it makes no difference which way is taken, and in which order the bytes are written.

## The model

* `ByteRegisters` — the four arrays, with the offsets that they take up.
* `Physical.putByte` — the physical half after a byte was written, before any
  arbitration.

## What is proved

* `ByteRegisters.ofOffset_lane` — the bytes of a word are consecutive registers of
  the same array.
* `Physical.putByte_comm` — bytes of one array are written in any order.
* `Physical.putBytes_arbitrate` — deciding anew between bytes is as good as deciding
  at the end only.
* `Controller.words_are_four_bytes` — both ways of reading, and of writing, agree.
-/

namespace Gic

/-- An array of registers of the distributor of one byte each. -/
inductive ByteRegisters where
  /-- The priorities of the interrupts. -/
  | priority
  /-- The targets of the interrupts. -/
  | targets
  /-- The sources of software generated interrupts, clearing those written. -/
  | clearSources
  /-- The sources of software generated interrupts, setting those written. -/
  | setSources
  deriving DecidableEq, Repr

namespace ByteRegisters

/-- The offset at which an array starts. -/
def start : ByteRegisters → Nat
  | priority => 0x400
  | targets => 0x800
  | clearSources => 0xf10
  | setSources => 0xf20

/-- The offset at which it has ended. -/
def stop : ByteRegisters → Nat
  | priority => 0x7fc
  | targets => 0xbfc
  | clearSources => 0xf20
  | setSources => 0xf30

/-- A register of an array. -/
def register : ByteRegisters → Nat → DistributorRegister
  | priority => .priority
  | targets => .targets
  | clearSources => .clearSources
  | setSources => .setSources

theorem stop_aligned (a : ByteRegisters) : a.stop % 4 = 0 := by
  cases a <;> decide

theorem stop_le (a : ByteRegisters) : a.stop ≤ Interface.distributor.windowSize := by
  cases a <;> decide

theorem isByte_register (a : ByteRegisters) (n : Nat) : (a.register n).isByte = true := by
  cases a <;> rfl

theorem ofOffset_register (a : ByteRegisters) {o : Nat} (low : a.start ≤ o) (high : o < a.stop) :
    DistributorRegister.ofOffset o = a.register (o - a.start) := by
  have hskip : ∀ b ≤ a.start, ¬ o < b := fun b hb => Nat.not_lt.mpr (Nat.le_trans hb low)
  unfold DistributorRegister.ofOffset
  cases a with
  | priority =>
    iterate 11 rw [if_neg (hskip _ (by decide))]
    exact if_pos high
  | targets =>
    iterate 13 rw [if_neg (hskip _ (by decide))]
    exact if_pos high
  | clearSources =>
    iterate 19 rw [if_neg (hskip _ (by decide))]
    exact if_pos high
  | setSources =>
    iterate 20 rw [if_neg (hskip _ (by decide))]
    exact if_pos high

/-- The bytes of a word are consecutive registers of one array. -/
theorem ofOffset_lane (a : ByteRegisters) {o : Nat} (low : a.start ≤ o) (high : o < a.stop)
    (aligned : o % 4 = 0) {lane : Nat} (hlane : lane < 4) :
    DistributorRegister.ofOffset (o + lane) = a.register (o - a.start + lane) := by
  have hstop := a.stop_aligned
  rw [a.ofOffset_register (o := o + lane) (by omega) (by omega), Nat.sub_add_comm low]

end ByteRegisters

/-- Changes of two rows that are not the same one are made in any order. -/
theorem Table.alter_comm_of_ne {n : Nat} {α : Type} [Inhabited α] (t : Table n α) {i j : Nat}
    (h : i ≠ j) (f g : α → α) : (t.alter i f).alter j g = (t.alter j g).alter i f := by
  apply ext_row
  intro k hk
  simp only [row_alter, hk, and_true]
  by_cases hi : i = k
  · have hj : ¬ j = k := fun hj => h (hi.trans hj.symm)
    rw [if_neg hj, if_neg hj]
  · rw [if_neg hi, if_neg hi]

namespace Distributor

/-! ### Two bytes of one array -/

theorem setPriority_comm (d : Distributor) (cpu : Nat) {k l : Nat} (h : k ≠ l) (x y : Priority) :
    (d.setPriority cpu k x).setPriority cpu l y = (d.setPriority cpu l y).setPriority cpu k x := by
  unfold setPriority
  by_cases hk : k < numPrivate <;> by_cases hl : l < numPrivate <;>
    simp only [hk, hl, if_true, if_false]
  · rw [Table.alter_comm]
    intro b
    rw [Table.alter_comm_of_ne _ h]
  · rw [Table.alter_comm_of_ne _ (by omega)]

theorem setTargets_comm (d : Distributor) {k l : Nat} (hk : numPrivate ≤ k) (hl : numPrivate ≤ l)
    (h : k ≠ l) (x y : CpuMask) :
    (d.setTargets k x).setTargets l y = (d.setTargets l y).setTargets k x := by
  unfold setTargets
  dsimp only
  rw [Table.alter_comm_of_ne _ (by omega)]

theorem setSources_comm (d : Distributor) (cpu : Nat) {k l : Nat} (h : k ≠ l) (x y : CpuMask)
    (v w : Bool) :
    (d.setSources cpu k x v).setSources cpu l y w =
      (d.setSources cpu l y w).setSources cpu k x v := by
  unfold setSources
  dsimp only
  rw [Table.alter_comm]
  intro b
  unfold DistributorBank.setSources
  dsimp only
  rw [Table.alter_comm_of_ne _ h]

theorem sources_setSources_of_ne (d : Distributor) (cpu : Nat) {k l : Nat} (h : k ≠ l) (x : CpuMask)
    (v : Bool) : (d.setSources cpu k x v).sources cpu l = d.sources cpu l :=
  Table.alter_keeps (fun b => b.sources.row l)
    (fun b => by rw [DistributorBank.setSources, Table.row_alter, if_neg fun hk => h hk.1])
    d.banks cpu cpu

end Distributor

namespace Physical

variable {cfg : Config}

/-- The physical half after a byte was written, before an arbitration. -/
def putByte (p : Physical cfg) (cpu : Nat) (register : DistributorRegister) (value : BitVec 8) :
    Physical cfg :=
  (p.writeByte cpu register value).state

/-- Sources of an SGI are cleared. The interrupt stays pending as long as some source is left. -/
def clearSources (p : Physical cfg) (cpu sgi : Nat) (sources : CpuMask) : Physical cfg :=
  let distributor := p.distributor.setSources cpu sgi sources false
  { p with
    irqs := p.irqs.alter sgi fun r =>
      if distributor.sources cpu sgi = 0#8 then r.setPending false (.only cpu) else r
    distributor }

/-- Sources of an SGI are set, which makes it pending. -/
def setSources (p : Physical cfg) (cpu sgi : Nat) (sources : CpuMask) : Physical cfg :=
  { p with
    irqs := p.irqs.alter sgi fun r => (r.setPending true (.only cpu)).setSignaled false (.only cpu)
    distributor := p.distributor.setSources cpu sgi sources true }

theorem putByte_priority (p : Physical cfg) (cpu irq : Nat) (value : BitVec 8) :
    p.putByte cpu (.priority irq) value =
      if irq < cfg.numIrqs then { p with distributor := p.distributor.setPriority cpu irq value }
      else p := by
  unfold putByte writeByte
  dsimp only
  split <;> rfl

theorem putByte_targets (p : Physical cfg) (cpu irq : Nat) (value : BitVec 8) :
    p.putByte cpu (.targets irq) value =
      if numPrivate ≤ irq ∧ irq < cfg.numIrqs then
        { p with distributor := p.distributor.setTargets irq (value &&& .first cfg.cpus) }
      else p := by
  unfold putByte writeByte
  dsimp only
  split <;> rfl

theorem putByte_setSources (p : Physical cfg) (cpu sgi : Nat) (value : BitVec 8) :
    p.putByte cpu (.setSources sgi) value =
      if sgi < numSgis ∧ value &&& CpuMask.first cfg.cpus ≠ 0#8 then
        p.setSources cpu sgi (value &&& .first cfg.cpus)
      else p := by
  unfold putByte writeByte
  dsimp only
  split <;> rfl

theorem putByte_clearSources (p : Physical cfg) (cpu sgi : Nat) (value : BitVec 8) :
    p.putByte cpu (.clearSources sgi) value =
      if sgi < numSgis then p.clearSources cpu sgi value else p := by
  have hid : p.irqs.alter sgi (fun r => r) = p.irqs := by
    apply Table.ext_row
    intro i _
    rw [Table.row_alter, ite_self]
  unfold putByte writeByte clearSources
  dsimp only
  split
  · split
    · rfl
    · dsimp only
      rw [hid]
  · rfl

/-- Sources of two SGIs are cleared in any order. -/
theorem clearSources_comm (p : Physical cfg) (cpu : Nat) {k l : Nat} (h : k ≠ l) (x y : CpuMask) :
    (p.clearSources cpu k x).clearSources cpu l y =
      (p.clearSources cpu l y).clearSources cpu k x := by
  have hkl := p.distributor.setSources_comm cpu h x y false false
  -- What is left of the sources of the one does not depend on those of the other.
  have hl : ((p.distributor.setSources cpu k x false).setSources cpu l y false).sources cpu l =
      (p.distributor.setSources cpu l y false).sources cpu l := by
    rw [hkl, Distributor.sources_setSources_of_ne _ cpu h]
  have hk : ((p.distributor.setSources cpu l y false).setSources cpu k x false).sources cpu k =
      (p.distributor.setSources cpu k x false).sources cpu k := by
    rw [← hkl, Distributor.sources_setSources_of_ne _ cpu (Ne.symm h)]
  unfold clearSources
  simp only [hl, hk]
  rw [hkl, Table.alter_comm_of_ne _ h]

/-- Sources of two SGIs are set in any order. -/
theorem setSources_comm (p : Physical cfg) (cpu : Nat) {k l : Nat} (h : k ≠ l) (x y : CpuMask) :
    (p.setSources cpu k x).setSources cpu l y = (p.setSources cpu l y).setSources cpu k x := by
  unfold setSources
  dsimp only
  rw [Distributor.setSources_comm _ cpu h, Table.alter_comm_of_ne _ h]

/-- Two bytes of one array are written in any order. -/
theorem putByte_comm (p : Physical cfg) (cpu : Nat) (a : ByteRegisters) {k l : Nat} (h : k ≠ l)
    (x y : BitVec 8) :
    (p.putByte cpu (a.register k) x).putByte cpu (a.register l) y =
      (p.putByte cpu (a.register l) y).putByte cpu (a.register k) x := by
  -- Whether a byte has an effect does not depend on the state, so only effects have to commute.
  cases a with
  | priority =>
    simp only [ByteRegisters.register, putByte_priority]
    split_ifs
    · rw [Distributor.setPriority_comm _ cpu h]
    all_goals rfl
  | targets =>
    simp only [ByteRegisters.register, putByte_targets]
    split_ifs with hl hk
    · rw [Distributor.setTargets_comm _ hk.1 hl.1 h]
    all_goals rfl
  | clearSources =>
    simp only [ByteRegisters.register, putByte_clearSources]
    split_ifs
    · exact clearSources_comm p cpu h x y
    all_goals rfl
  | setSources =>
    simp only [ByteRegisters.register, putByte_setSources]
    split_ifs
    · exact setSources_comm p cpu h _ _
    all_goals rfl

/-! ### Four bytes -/

/-- Writes some of the bytes of a word, without an arbitration. -/
def putBytes (p : Physical cfg) (cpu offset : Nat) (value : Word) (lanes : List Nat) :
    Physical cfg :=
  lanes.foldl (fun p lane =>
    p.putByte cpu (.ofOffset (offset + lane)) (value.extractLsb' (8 * lane) 8)) p

theorem state_writeLanes (cpu offset : Nat) (value : Word) (lanes : List Nat) (w : Written cfg) :
    (lanes.foldl (fun w lane => writeLane w cpu offset value lane) w).state =
      w.state.putBytes cpu offset value lanes := by
  induction lanes generalizing w with
  | nil => rfl
  | cons lane rest ih => exact ih (writeLane w cpu offset value lane)

/-- A word that is written is written byte by byte, from the lowest one on. -/
theorem state_writeBytes (p : Physical cfg) (cpu offset : Nat) (value : Word) :
    (p.writeBytes cpu offset value).state = p.putBytes cpu offset value [0, 1, 2, 3] :=
  state_writeLanes cpu offset value [0, 1, 2, 3] ⟨p, false⟩

/-- The bytes of a word are written in any order. -/
theorem putBytes_perm (p : Physical cfg) (cpu : Nat) (a : ByteRegisters) {o : Nat}
    (low : a.start ≤ o) (high : o < a.stop) (aligned : o % 4 = 0) (value : Word) {order : List Nat}
    (horder : order.Perm [0, 1, 2, 3]) :
    p.putBytes cpu o value order = p.putBytes cpu o value [0, 1, 2, 3] := by
  have hlane : ∀ lane ∈ order, lane < 4 := fun lane hmem => by
    have hfour : ∀ lane ∈ [0, 1, 2, 3], lane < 4 := by decide
    exact hfour lane (horder.mem_iff.mp hmem)
  refine horder.foldl_eq' (fun k hk l hl p => ?_) p
  by_cases hkl : k = l
  · rw [hkl]
  · rw [a.ofOffset_lane low high aligned (hlane k hk),
      a.ofOffset_lane low high aligned (hlane l hl)]
    exact putByte_comm p cpu a (by omega) _ _

/-- A byte does not look at what the CPUs are shown. -/
theorem putByte_with_cpus (p : Physical cfg) (cpus : Table cfg.cpus CpuInterface) (cpu : Nat)
    (register : DistributorRegister) (value : BitVec 8) :
    { p with cpus := cpus }.putByte cpu register value =
      { p.putByte cpu register value with cpus := cpus } := by
  cases register with
  | priority | targets | clearSources | setSources =>
    simp only [putByte_priority, putByte_targets, putByte_clearSources, putByte_setSources]
    split <;> rfl
  | _ => rfl

/-- Deciding anew before a byte is written has no effect, if it is done after it. -/
theorem arbitrate_putByte (p : Physical cfg) (cpu : Nat) (register : DistributorRegister)
    (value : BitVec 8) :
    (p.arbitrate.value.putByte cpu register value).arbitrate.value =
      (p.putByte cpu register value).arbitrate.value := by
  have hput : p.arbitrate.value.putByte cpu register value =
      { p.putByte cpu register value with cpus := p.arbitrate.value.cpus } :=
    putByte_with_cpus p p.arbitrate.value.cpus cpu register value
  rw [hput]
  refine arbitrate_congr rfl rfl fun c => ?_
  rw [putByte, cpus_writeByte]
  exact undecided_arbitrate p c

/-- Deciding anew before bytes are written has no effect, if it is done after them. -/
theorem putBytes_arbitrate (p : Physical cfg) (cpu offset : Nat) (value : Word)
    (lanes : List Nat) :
    (p.arbitrate.value.putBytes cpu offset value lanes).arbitrate.value =
      (p.putBytes cpu offset value lanes).arbitrate.value := by
  induction lanes generalizing p with
  | nil => exact arbitrate_congr rfl rfl fun c => undecided_arbitrate p c
  | cons lane rest ih =>
    -- An arbitration is put behind the first byte in both runs.
    have hfirst := arbitrate_putByte p cpu (.ofOffset (offset + lane))
      (value.extractLsb' (8 * lane) 8)
    have harbitrated := ih (p.arbitrate.value.putByte cpu (.ofOffset (offset + lane))
      (value.extractLsb' (8 * lane) 8))
    rw [hfirst, ih] at harbitrated
    exact harbitrated.symm

end Physical

namespace Controller

variable {cfg : Config}

open Physical

/-! ### The whole controller -/

/-- A write of one byte of a word. -/
def byteWrite (i : Initiator) (o : Nat) (value : Word) (lane : Nat) : Action :=
  .write .distributor i (o + lane) ((value.extractLsb' (8 * lane) 8).setWidth 64) .byte

section

variable {a : ByteRegisters} {o : Nat}

theorem checkWindow_byte (high : o < a.stop) : checkWindow cfg .distributor o .byte = .ok () :=
  if_pos (Nat.le_trans (Nat.succ_le_of_lt high) a.stop_le)

theorem checkWindow_bytes (high : o < a.stop) (aligned : o % 4 = 0) :
    checkWindow cfg .distributor o .word = .ok () := by
  have hstop := a.stop_aligned
  have hword : o + 4 ≤ a.stop := by omega
  exact if_pos (Nat.le_trans hword a.stop_le)

theorem isByte_of_inside (low : a.start ≤ o) (high : o < a.stop) :
    (DistributorRegister.ofOffset o).isByte = true := by
  rw [a.ofOffset_register low high]
  exact a.isByte_register _

theorem read_byte (low : a.start ≤ o) (high : o < a.stop) (g : Controller cfg) (i : Initiator) :
    (g.read .distributor i o .byte).value =
      (.ok ((g.physical.readByte (cpuOf cfg i) (.ofOffset o)).setWidth 32), g) := by
  rw [g.read_distributor i (checkWindow_byte high)]
  exact Prod.ext (if_pos (isByte_of_inside low high)) rfl

theorem read_bytes (low : a.start ≤ o) (high : o < a.stop) (aligned : o % 4 = 0)
    (g : Controller cfg) (i : Initiator) :
    (g.read .distributor i o .word).value = (.ok (g.physical.readBytes (cpuOf cfg i) o), g) := by
  rw [g.read_distributor i (checkWindow_bytes high aligned)]
  simp only [readDistributor, aligned, isByte_of_inside low high, if_true]

/-- Writing one byte of a word, in a settled state. -/
theorem write_byte (low : a.start ≤ o) (high : o < a.stop) (g : Controller cfg) (i : Initiator)
    (byte : BitVec 8) (hg : Settled g.physical) :
    (g.write .distributor i o (byte.setWidth 64) .byte).value =
      (.ok (), { g with physical :=
        (g.physical.putByte (cpuOf cfg i) (.ofOffset o) byte).arbitrate.value }) := by
  have hbyte : ((byte.setWidth 64).setWidth 32).setWidth 8 = byte := by
    rw [BitVec.setWidth_setWidth_of_le _ (by decide), BitVec.setWidth_setWidth_of_le _ (by decide),
      BitVec.setWidth_eq]
  refine g.write_distributor i (checkWindow_byte high) ?_
  simp only [writeDistributor, isByte_of_inside low high, if_true, hbyte, Traced.value_bind,
    Traced.value_pure]
  rw [arbitrateIf_eq hg writeByte_state]
  rfl

/-- Writing a word, in a settled state. -/
theorem write_bytes (low : a.start ≤ o) (high : o < a.stop) (aligned : o % 4 = 0)
    (g : Controller cfg) (i : Initiator) (value : Word) (hg : Settled g.physical) :
    (g.write .distributor i o (value.setWidth 64) .word).value =
      (.ok (), { g with physical :=
        (g.physical.putBytes (cpuOf cfg i) o value [0, 1, 2, 3]).arbitrate.value }) := by
  refine g.write_distributor i (checkWindow_bytes high aligned) ?_
  simp only [writeDistributor, aligned, isByte_of_inside low high, if_true, setWidth_setWidth_word,
    Traced.value_bind, Traced.value_pure]
  rw [arbitrateIf_eq hg writeBytes_state, state_writeBytes]

/-- Writing bytes of a word one after the other. -/
theorem run_byteWrites (low : a.start ≤ o) (high : o < a.stop) (aligned : o % 4 = 0)
    (i : Initiator) (value : Word) {lanes : List Nat} (hlanes : ∀ lane ∈ lanes, lane < 4)
    {g : Controller cfg} (hg : Reachable g) :
    g.run (lanes.map (byteWrite i o value)) = { g with physical :=
      (g.physical.putBytes (cpuOf cfg i) o value lanes).arbitrate.value } := by
  induction lanes generalizing g with
  | nil =>
    have hsettled : (g.physical.putBytes (cpuOf cfg i) o value []).arbitrate.value = g.physical :=
      hg.settled.arbitrate_eq
    rw [hsettled]
    rfl
  | cons lane rest ih =>
    obtain ⟨hlane, hrest⟩ := List.forall_mem_cons.mp hlanes
    have hstop := a.stop_aligned
    have hfirst : g.after (byteWrite i o value lane) = { g with physical :=
        (g.physical.putByte (cpuOf cfg i) (.ofOffset (o + lane))
          (value.extractLsb' (8 * lane) 8)).arbitrate.value } :=
      congrArg Prod.snd (write_byte (a := a) (by omega) (by omega) g i _ hg.settled)
    calc g.run ((lane :: rest).map (byteWrite i o value))
        = (g.after (byteWrite i o value lane)).run (rest.map (byteWrite i o value)) := rfl
      _ = { g.after (byteWrite i o value lane) with physical :=
            ((g.after (byteWrite i o value lane)).physical.putBytes (cpuOf cfg i) o value
              rest).arbitrate.value } := ih hrest (hg.after _)
      _ = _ := by rw [hfirst, putBytes_arbitrate]; rfl

end

/-- A word of the arrays of bytes, and its four bytes. -/
structure FourBytes (g : Controller cfg) (a : ByteRegisters) (i : Initiator) (o : Nat) : Prop where
  /-- The bytes are consecutive registers of the array. -/
  registers : ∀ lane < 4,
    DistributorRegister.ofOffset (o + lane) = a.register (o - a.start + lane)
  /-- The word is read as its bytes are, the first in the lowest bits. -/
  reads : ∃ byte : Nat → BitVec 8,
    (∀ lane < 4, (g.read .distributor i (o + lane) .byte).value =
      (.ok ((byte lane).setWidth 32), g)) ∧
    (g.read .distributor i o .word).value = (.ok (byte 3 ++ byte 2 ++ byte 1 ++ byte 0), g)
  /-- The word is written as its bytes are, one after the other in any order. -/
  writes : ∀ (value : Word) (order : List Nat), order.Perm [0, 1, 2, 3] →
    g.run (order.map (byteWrite i o value)) =
      g.after (.write .distributor i o (value.setWidth 64) .word)
  /-- A word is taken. -/
  takesWord : ∀ value : Word,
    (g.write .distributor i o (value.setWidth 64) .word).value.1 = .ok ()
  /-- So is each byte. -/
  takesByte : ∀ lane < 4, ∀ byte : BitVec 8,
    (g.write .distributor i (o + lane) (byte.setWidth 64) .byte).value.1 = .ok ()

/-- In every reachable state, reading and writing a word of an array of bytes of the distributor are
reading and writing its four bytes. -/
theorem words_are_four_bytes {g : Controller cfg} (hg : Reachable g) (a : ByteRegisters)
    (i : Initiator) {o : Nat} (low : a.start ≤ o) (high : o < a.stop) (aligned : o % 4 = 0) :
    FourBytes g a i o := by
  have hstop := a.stop_aligned
  exact {
    registers := fun lane hlane => a.ofOffset_lane low high aligned hlane
    reads := ⟨fun lane => g.physical.readByte (cpuOf cfg i) (.ofOffset (o + lane)),
      fun lane hlane => read_byte (a := a) (by omega) (by omega) g i,
      read_bytes low high aligned g i⟩
    writes := fun value order horder => by
      have hfour : ∀ lane ∈ [0, 1, 2, 3], lane < 4 := by decide
      have hlanes : ∀ lane ∈ order, lane < 4 := fun lane h => hfour lane (horder.mem_iff.mp h)
      have hword : g.after (.write .distributor i o (value.setWidth 64) .word) =
          { g with physical :=
            (g.physical.putBytes (cpuOf cfg i) o value [0, 1, 2, 3]).arbitrate.value } :=
        congrArg Prod.snd (write_bytes low high aligned g i value hg.settled)
      rw [run_byteWrites low high aligned i value hlanes hg, hword,
        putBytes_perm _ _ a low high aligned value horder]
    takesWord := fun value => by rw [write_bytes low high aligned g i value hg.settled]
    takesByte := fun lane hlane byte => by
      rw [write_byte (a := a) (by omega) (by omega) g i byte hg.settled] }

/-- Two CPUs have sent SGI 5 to CPU 0, which accesses the word that clears the sources of the SGIs 4
to 7. -/
theorem words_are_four_bytes_sources :
    let cfg : Config := { Config.standard with cpus := 2 }
    let g := (powerOn cfg).run
      [.write .distributor (.cpu 0) 0xf00 0x10005 .word,
        .write .distributor (.cpu 1) 0xf00 0x10005 .word]
    (Reachable g ∧ ByteRegisters.clearSources.start ≤ 0xf14 ∧
      0xf14 < ByteRegisters.clearSources.stop ∧ 0xf14 % 4 = 0 ∧
      (g.read .distributor (.cpu 0) 0xf14 .word).value.1 = .ok 0x300#32) ∧
    FourBytes g .clearSources (.cpu 0) 0xf14 := by
  intro cfg g
  have hg : Reachable g := reachable_run _
  exact ⟨⟨hg, by decide, by decide, by decide, by decide +kernel⟩,
    words_are_four_bytes hg .clearSources (.cpu 0) (by decide) (by decide) (by decide)⟩

end Controller

end Gic
