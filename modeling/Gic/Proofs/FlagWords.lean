import Gic.Proofs.Refusals
import Gic.Proofs.StoreShape

/-!
# Words of the arrays of flags

Whether interrupts are enabled, pending and active is shown by three pairs of
registers, one that sets what is written to it and one that clears it. All of them
take words of one bit for each interrupt, but they treat software generated, private
and shared interrupts differently, and enabling one can make it pending. This
module says what each of them does, bit by bit.

## The model

* `Flag` — the three pairs, with the offsets of their registers.
* `Flag.shown` — what a register of a pair shows of an interrupt.
* `Flag.written` — what a word does with an interrupt that it selects.
* `Selected` — the connected interrupts whose bits are set in a word.
* `Controller.FlagWritten` — what a word that is written leaves of the controller.

## What is proved

* `Physical.writeWord_flag` — what writing a word does is `written`, for the selected
  interrupts only.
* `Controller.flag_words_exact` — a write changes nothing beyond that and what is
  decided anew, and both registers of a pair are read alike, bit by bit.
-/

namespace Gic

open Physical (wordView)

/-- Something that is set and cleared for interrupts by a pair of registers. -/
inductive Flag where
  /-- Whether an interrupt is enabled. -/
  | enabled
  /-- Whether it is pending. -/
  | pending
  /-- Whether it is active. -/
  | active
  deriving DecidableEq, Repr

namespace Flag

/-- The offset at which the pair starts. -/
def start : Flag → Nat
  | enabled => 0x100
  | pending => 0x200
  | active => 0x300

/-- The offset of word `n` of the register that sets the flag, or of the one that clears it. -/
def offset (flag : Flag) (value : Bool) (n : Nat) : Nat :=
  flag.start + (if value then 0 else 0x80) + 4 * n

/-- What a register of the pair shows of an interrupt for some CPUs. -/
def shown (flag : Flag) (r : IrqState) (mask : CpuMask) : Bool :=
  match flag with
  | enabled => r.enabled &&& mask != 0#8
  | pending => r.wanted mask
  | active => r.active &&& mask != 0#8

/-- What a word written by `cpu` does with an interrupt that it selects. It is meant for the CPUs in
`mask`, and the interrupt has the targets `targets`. -/
def written (flag : Flag) (value : Bool) (cpu irq : Nat) (mask targets : CpuMask) (r : IrqState) :
    IrqState :=
  match flag, value with
  | enabled, true =>
    if irq < numSgis then r
    else { r with
      enabled := r.enabled ||| mask
      pending :=
        if r.trigger = .level ∧ r.level &&& mask ≠ 0#8 then r.pending ||| mask else r.pending }
  | enabled, false =>
    if irq < numSgis then r else { r with enabled := r.enabled &&& ~~~mask }
  | pending, true =>
    if irq < numSgis then r
    else { r with pending := r.pending ||| if irq < numPrivate then .only cpu else targets }
  | pending, false =>
    if irq < numSgis then r else { r with pending := r.pending &&& ~~~mask }
  | active, true => r
  | active, false => { r with active := r.active &&& ~~~mask }

/-- The register of a pair that sets the flag, or the one that clears it. -/
def register (flag : Flag) (value : Bool) (n : Nat) : DistributorRegister :=
  match flag, value with
  | enabled, true => .setEnable n
  | enabled, false => .clearEnable n
  | pending, true => .setPending n
  | pending, false => .clearPending n
  | active, true => .setActive n
  | active, false => .clearActive n

theorem ofOffset_offset (flag : Flag) (value : Bool) {n : Nat} (hn : n < 32) :
    DistributorRegister.ofOffset (flag.offset value n) = flag.register value n := by
  revert n
  cases flag <;> cases value <;> decide

theorem isByte_register (flag : Flag) (value : Bool) (n : Nat) :
    (flag.register value n).isByte = false := by
  cases flag <;> cases value <;> rfl

theorem start_aligned (flag : Flag) : flag.start % 4 = 0 ∧ flag.start ≤ 0x300 := by
  cases flag <;> decide

theorem offset_aligned (flag : Flag) (value : Bool) (n : Nat) : flag.offset value n % 4 = 0 := by
  obtain ⟨haligned, -⟩ := flag.start_aligned
  unfold offset
  split <;> omega

theorem offset_inside (cfg : Config) (flag : Flag) (value : Bool) {n : Nat} (hn : n < 32) :
    Controller.checkWindow cfg .distributor (flag.offset value n) .word = .ok () := by
  obtain ⟨-, hle⟩ := flag.start_aligned
  refine if_pos ?_
  show flag.offset value n + 4 ≤ 0x1000
  unfold offset
  split <;> omega

end Flag

/-- The connected interrupts that a word written to word `n` of an array selects: those whose bits
are set in it. -/
def Selected (cfg : Config) (n : Nat) (value : Word) (irq : Nat) : Prop :=
  ∃ bit < 32, irq = 32 * n + bit ∧ value.getLsbD bit = true ∧ irq < cfg.numIrqs

theorem Selected.connected {cfg : Config} {n irq : Nat} {value : Word}
    (h : Selected cfg n value irq) : irq < cfg.numIrqs := by
  obtain ⟨_, -, -, -, hconnected⟩ := h
  exact hconnected

theorem selects_iff (cfg : Config) (n : Nat) (value : Word) (irq : Nat) :
    Physical.selects cfg n value irq = true ↔ Selected cfg n value irq := by
  rw [Physical.selects, Bool.and_eq_true, Bool.and_eq_true, decide_eq_true_eq, decide_eq_true_eq]
  constructor
  · rintro ⟨⟨hword, hbit⟩, hconnected⟩
    exact ⟨irq % 32, Nat.mod_lt _ (by decide), by omega, hbit, hconnected⟩
  · rintro ⟨bit, hlt, rfl, hbit, hconnected⟩
    have hword : (32 * n + bit) / 32 = n := by omega
    have hmod : (32 * n + bit) % 32 = bit := by omega
    exact ⟨⟨hword, hmod.symm ▸ hbit⟩, hconnected⟩

namespace Physical

variable {cfg : Config}

/-! ### The physical half -/

/-- An interrupt that a word selects changes. -/
theorem row_of_selected (hirqs : cfg.numIrqs ≤ maxIrqs) (p : Physical cfg) {n irq : Nat}
    {word : Word} (h : Selected cfg n word irq) (f : Nat → IrqState → IrqState) :
    (p.alterSelected n word f).irqs.row irq = f irq (p.irqs.row irq) := by
  rw [row_alterSelected p n word f (Nat.lt_of_lt_of_le h.connected hirqs),
    if_pos ((selects_iff cfg n word irq).mpr h)]

/-- One that it does not select stays as it is. -/
theorem row_of_not_selected (p : Physical cfg) {n irq : Nat} {word : Word}
    (h : ¬ Selected cfg n word irq) (f : Nat → IrqState → IrqState) :
    (p.alterSelected n word f).irqs.row irq = p.irqs.row irq := by
  by_cases hlt : irq < maxIrqs
  · rw [row_alterSelected p n word f hlt, if_neg fun hs => h ((selects_iff cfg n word irq).mp hs)]
  · have hle := Nat.not_lt.mp hlt
    rw [Table.row_of_le _ hle, Table.row_of_le _ hle]

theorem alterSelected_id (p : Physical cfg) (n : Nat) (word : Word) :
    (p.alterSelected n word fun _ r => r) = p :=
  p.alterSelected_eq_self fun _ _ _ => rfl

/-- Enabling an interrupt latches it if its level counts and is high. -/
theorem enable_eq (r : IrqState) (mask : CpuMask) :
    r.enable mask =
      { r with
        enabled := r.enabled ||| mask
        pending :=
          if r.trigger = .level ∧ r.level &&& mask ≠ 0#8 then r.pending ||| mask
          else r.pending } := by
  have hlatches : ((r.setEnabled true mask).trigger = .level &&
      (r.setEnabled true mask).isLevel mask) = true ↔
        r.trigger = .level ∧ r.level &&& mask ≠ 0#8 := by
    rw [Bool.and_eq_true, decide_eq_true_eq]
    exact and_congr_right fun _ => bne_iff_ne
  unfold IrqState.enable
  simp only [hlatches]
  split <;> rfl

/-- What a word does with the interrupts that it selects is what is written to them. -/
theorem writeWord_flag (p : Physical cfg) (cpu n : Nat) (flag : Flag) (value : Bool) (word : Word) :
    (p.writeWord cpu (flag.register value n) word).value.state =
      p.alterSelected n word fun irq r =>
        flag.written value cpu irq (wordView cpu n) (p.distributor.targets irq) r := by
  cases flag with
  | enabled =>
    cases value with
    | true =>
      simp only [Flag.register, Flag.written, writeWord, enable_eq]
      rfl
    | false => rfl
  | pending =>
    cases value with
    | true =>
      refine congrArg (p.alterSelected n word) (funext fun irq => funext fun r => ?_)
      simp only [Flag.written]
      split
      · rfl
      · split <;> rfl
    | false => rfl
  | active =>
    cases value with
    | true => exact (alterSelected_id p n word).symm
    | false => rfl

/-- Arbitration follows a word that is written, unless it has changed nothing. -/
theorem writeWord_flag_state {p : Physical cfg} {cpu n : Nat} {flag : Flag} {value : Bool}
    {word : Word} (h : (p.writeWord cpu (flag.register value n) word).value.dirty = false) :
    (p.writeWord cpu (flag.register value n) word).value.state = p := by
  cases flag with
  | enabled | pending => cases value <;> cases h
  | active =>
    cases value with
    | true => rfl
    | false => cases h

/-- Software generated interrupts are shown as enabled without a look at their flags. -/
theorem shown_enabled {p : Physical cfg} {cpu : Nat}
    (hsgis : ∀ sgi < numSgis, (p.irqs.row sgi).isEnabled (.only cpu) = true) (irq : Nat) :
    (decide (irq < numSgis) || (p.irqs.row irq).isEnabled (wordView cpu (irq / 32))) =
      Flag.enabled.shown (p.irqs.row irq) (wordView cpu (irq / 32)) := by
  by_cases hsgi : irq < numSgis
  · have hzero : irq / 32 = 0 := by
      simp only [numSgis] at hsgi
      omega
    rw [decide_eq_true hsgi, Bool.true_or, hzero]
    exact (hsgis irq hsgi).symm
  · rw [decide_eq_false hsgi, Bool.false_or]
    rfl

/-- Both registers of a pair show the flag of each interrupt. -/
theorem readWord_flag {p : Physical cfg} {cpu : Nat}
    (hsgis : ∀ sgi < numSgis, (p.irqs.row sgi).isEnabled (.only cpu) = true) (n : Nat) (flag : Flag)
    (value : Bool) :
    p.readWord cpu (flag.register value n) =
      flagWord cfg n fun irq => flag.shown (p.irqs.row irq) (wordView cpu n) := by
  cases flag with
  | enabled =>
    have hword : p.readWord cpu (Flag.enabled.register value n) = flagWord cfg n fun irq =>
        decide (irq < numSgis) || (p.irqs.row irq).isEnabled (wordView cpu n) := by
      cases value <;> rfl
    rw [hword]
    apply BitVec.eq_of_getLsbD_eq
    intro bit hbit
    have hn : (32 * n + bit) / 32 = n := by omega
    have hshown := shown_enabled hsgis (32 * n + bit)
    rw [hn] at hshown
    rw [flagWord, flagWord, Word.getLsbD_ofBits, Word.getLsbD_ofBits, hshown]
  | pending | active => cases value <;> rfl

end Physical

namespace Controller

variable {cfg : Config}

open Physical

/-! ### The whole controller -/

/-- A word was written to the registers of a flag by the CPU `cpu`. -/
structure FlagWritten (g : Controller cfg) (flag : Flag) (value : Bool) (cpu n : Nat) (word : Word)
    (h : Controller cfg) : Prop where
  /-- The interrupts that it selects change, for the CPU if they are private and for all CPUs if
  they are shared. -/
  selected : ∀ irq, Selected cfg n word irq → h.physical.irqs.row irq =
    flag.written value cpu irq (if n = 0 then .only cpu else .all)
      (g.physical.distributor.targets irq) (g.physical.irqs.row irq)
  /-- The others stay as they are. -/
  others : ∀ irq, ¬ Selected cfg n word irq → h.physical.irqs.row irq = g.physical.irqs.row irq
  /-- So do the registers of the distributor. -/
  distributor : h.physical.distributor = g.physical.distributor
  /-- So do those of the interfaces of the CPUs. -/
  interfaces : ∀ c, (h.physical.cpus.row c).undecided = (g.physical.cpus.row c).undecided
  /-- So do the virtual halves. -/
  virtuals : h.virtuals = g.virtuals
  /-- What the CPUs are shown, and their lines, are decided anew. -/
  current : ∀ c < cfg.cpus, h.physical.Current c

/-- Software generated interrupts are enabled on every connected CPU. -/
theorem sgi_enabled (hv : cfg.validate = .ok ()) {g : Controller cfg} (hg : Reachable g) {c : Nat}
    (hc : c < cfg.cpus) {sgi : Nat} (hsgi : sgi < numSgis) :
    (g.physical.irqs.row sgi).isEnabled (.only c) = true := by
  obtain ⟨-, hmax, -⟩ := Config.bounds_of_validate hv
  have hm := Nat.lt_of_lt_of_le hc hmax
  have hstored := hg.stored hv sgi (Nat.lt_trans hsgi (by decide))
  rw [IrqState.isEnabled, CpuMask.meets_only _ hm, (hstored.sgi hsgi).1, CpuMask.getLsbD_first,
    decide_eq_true hc, decide_eq_true hm]
  rfl

theorem read_flag (g : Controller cfg) (i : Initiator) (flag : Flag) (value : Bool) {n : Nat}
    (hn : n < 32) :
    (g.read .distributor i (flag.offset value n) .word).value =
      (.ok (g.physical.readWord (cpuOf cfg i) (flag.register value n)), g) := by
  rw [g.read_distributor i (flag.offset_inside cfg value hn)]
  simp only [readDistributor, flag.offset_aligned, flag.ofOffset_offset value hn,
    flag.isByte_register, if_true, Bool.false_eq_true, if_false]

theorem write_flag {g : Controller cfg} (hg : Settled g.physical) (i : Initiator) (flag : Flag)
    (value : Bool) {n : Nat} (hn : n < 32) (word : Word) :
    (g.write .distributor i (flag.offset value n) (word.setWidth 64) .word).value =
      (.ok (), { g with physical := (g.physical.alterSelected n word fun irq r =>
        flag.written value (cpuOf cfg i) irq (wordView (cpuOf cfg i) n)
          (g.physical.distributor.targets irq) r).arbitrate.value }) := by
  refine g.write_distributor i (flag.offset_inside cfg value hn) ?_
  simp only [writeDistributor, flag.offset_aligned, flag.ofOffset_offset value hn,
    flag.isByte_register, if_true, Bool.false_eq_true, if_false, setWidth_setWidth_word,
    Traced.value_bind, Traced.value_pure]
  rw [arbitrateIf_eq hg writeWord_flag_state, writeWord_flag]

/-- What a word leaves of the controller. -/
theorem flagWritten_of_reachable (hv : cfg.validate = .ok ()) {g : Controller cfg}
    (hg : Reachable g) (i : Initiator) (flag : Flag) (value : Bool) {n : Nat} (hn : n < 32)
    (word : Word) :
    FlagWritten g flag value (cpuOf cfg i) n word
      (g.after (.write .distributor i (flag.offset value n) (word.setWidth 64) .word)) := by
  obtain ⟨-, -, hirqs⟩ := Config.bounds_of_validate hv
  have hreachable := hg.after (.write .distributor i (flag.offset value n) (word.setWidth 64) .word)
  have hafter :
      g.after (.write .distributor i (flag.offset value n) (word.setWidth 64) .word) = _ :=
    congrArg Prod.snd (write_flag hg.settled i flag value hn word)
  exact {
    selected := fun irq hselected => by
      rw [hafter]
      exact row_of_selected hirqs g.physical hselected _
    others := fun irq hselected => by
      rw [hafter]
      exact row_of_not_selected g.physical hselected _
    distributor := by
      rw [hafter]
      rfl
    interfaces := fun c => by
      rw [hafter]
      exact undecided_arbitrate _ c
    virtuals := by rw [hafter]
    current := fun c hc => hreachable.current hv hc }

/-- In every reachable state, writing a word to one of the registers that set and clear a flag
changes the flag of the interrupts that it selects, and nothing else beyond what is decided anew;
the one that would make interrupts active changes nothing at all. Both registers of a pair are read
alike, and show for each connected interrupt whether its flag is set. -/
theorem flag_words_exact (hv : cfg.validate = .ok ()) {g : Controller cfg} (hg : Reachable g)
    (i : Initiator) (flag : Flag) {n : Nat} (hn : n < 32) :
    (∀ (value : Bool) (word : Word),
      let written := (g.write .distributor i (flag.offset value n) (word.setWidth 64) .word).value
      written.1 = .ok () ∧ FlagWritten g flag value (cpuOf cfg i) n word written.2 ∧
        (flag = .active → value = true → written.2 = g)) ∧
    ∃ word : Word,
      (∀ value, (g.read .distributor i (flag.offset value n) .word).value = (.ok word, g)) ∧
      ∀ bit < 32, word.getLsbD bit = true ↔ 32 * n + bit < cfg.numIrqs ∧
        flag.shown (g.physical.irqs.row (32 * n + bit))
          (if n = 0 then .only (cpuOf cfg i) else .all) = true := by
  obtain ⟨hpos, -, -⟩ := Config.bounds_of_validate hv
  have hsgis : ∀ sgi < numSgis,
      (g.physical.irqs.row sgi).isEnabled (.only (cpuOf cfg i)) = true :=
    fun _ hsgi => sgi_enabled hv hg (cpuOf_lt hpos i) hsgi
  constructor
  · intro value word written
    have hwritten : written = _ := write_flag hg.settled i flag value hn word
    refine ⟨by rw [hwritten], flagWritten_of_reachable hv hg i flag value hn word, ?_⟩
    rintro rfl rfl
    have hsame : (g.physical.alterSelected n word fun _ r => r).arbitrate.value = g.physical := by
      rw [alterSelected_id, hg.settled.arbitrate_eq]
    rw [hwritten]
    simp only [Flag.written, hsame]
  · refine ⟨flagWord cfg n fun irq =>
      flag.shown (g.physical.irqs.row irq) (wordView (cpuOf cfg i) n),
      fun value => ?_, fun bit hbit => ?_⟩
    · rw [read_flag g i flag value hn, readWord_flag hsgis]
    · rw [flagWord, Word.getLsbD_ofBits, decide_eq_true hbit, Bool.true_and, Bool.and_eq_true,
        decide_eq_true_eq]
      rfl

/-- The input of the shared interrupt 32 is high when the interrupt is enabled, which makes it
pending. -/
theorem flag_words_exact_catching_up :
    let g := (powerOn Config.standard).run [.spi 0 true]
    (Config.standard.validate = .ok () ∧ Reachable g ∧
      ((g.after (.write .distributor (.cpu 0) 0x104 1 .word)).physical.irqs.row 32).pending =
        .all) ∧
    (∀ (value : Bool) (word : Word),
      let written := (g.write .distributor (.cpu 0) (Flag.enabled.offset value 1)
        (word.setWidth 64) .word).value
      written.1 = .ok () ∧ FlagWritten g .enabled value 0 1 word written.2 ∧
        (Flag.enabled = .active → value = true → written.2 = g)) ∧
    ∃ word : Word,
      (∀ value, (g.read .distributor (.cpu 0) (Flag.enabled.offset value 1) .word).value =
        (.ok word, g)) ∧
      ∀ bit < 32, word.getLsbD bit = true ↔ 32 * 1 + bit < Config.standard.numIrqs ∧
        Flag.enabled.shown (g.physical.irqs.row (32 * 1 + bit))
          (if 1 = 0 then .only 0 else .all) = true := by
  intro g
  have hv : Config.standard.validate = .ok () := by decide
  have hg : Reachable g := reachable_run _
  exact ⟨⟨hv, hg, by decide +kernel⟩, flag_words_exact hv hg (.cpu 0) .enabled (by decide)⟩

end Controller

end Gic
