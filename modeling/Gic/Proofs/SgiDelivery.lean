import Gic.Proofs.NeverStale
import Gic.Proofs.SgiRecords

/-!
# Delivery of software generated interrupts

A CPU sends an SGI to other CPUs by a request, or has it set as waiting by the
receiver; the receiver answers it by an acknowledge, or clears it. This module
keeps a ledger with one entry for each source, SGI and target, and shows that
the distributor keeps the same one.

## The model

* `Raises`, `Clears`, `Delivers` — the accesses that make one entry wait and
  those that end it, as a programmer sees them: by offset, value and width, and
  for an acknowledge by the value that was read.
* `Waits` — the bit that the distributor has for the entry.

## What is proved

* `waits_step` — an access sets the bit if and only if it raises the entry, and
  clears it if and only if it clears or delivers it.
* `sgi_delivered_once` — so along every run from power-on a bit is set if and
  only if its entry was raised and not ended since.
-/

namespace Gic

/-! ### The ledger, and the accesses that change it -/

/-- The byte that a write puts at a place of an array of bytes, if any. -/
def writtenByte? (offset : Nat) (width : Width) (value : BitVec 64) (place : Nat) :
    Option (BitVec 8) :=
  match width with
  | .byte => if place = offset then some (value.setWidth 8) else none
  | .word =>
    if offset % 4 = 0 ∧ offset ≤ place ∧ place < offset + 4 then
      some (value.extractLsb' (8 * (place - offset)) 8)
    else none
  | .half | .double => none

theorem writtenByte_word_iff {o place s : Nat} {value : BitVec 64} (aligned : o % 4 = 0) :
    (∃ b, writtenByte? o .word value place = some b ∧ b.getLsbD s = true) ↔
      ∃ k ∈ [0, 1, 2, 3], o + k = place ∧
        ((value.setWidth 32).extractLsb' (8 * k) 8).getLsbD s = true := by
  have hbyte : ∀ k < 4, (value.setWidth 32).extractLsb' (8 * k) 8 = value.extractLsb' (8 * k) 8 :=
    fun k hk => BitVec.extractLsb'_setWidth_of_le (by omega)
  have hlanes : ∀ k, k ∈ [0, 1, 2, 3] ↔ k < 4 := fun k => by
    simp only [List.mem_cons, List.not_mem_nil, or_false]
    omega
  simp only [writtenByte?, hlanes]
  constructor
  · rintro ⟨b, hb, hbit⟩
    split at hb
    · rename_i hplace
      obtain rfl := Option.some.inj hb
      refine ⟨place - o, by omega, by omega, ?_⟩
      rw [hbyte _ (by omega)]
      exact hbit
    · cases hb
  · rintro ⟨k, hk, rfl, hbit⟩
    rw [hbyte k hk] at hbit
    refine ⟨value.extractLsb' (8 * k) 8, ?_, hbit⟩
    rw [if_pos (by omega), Nat.add_sub_cancel_left]

/-- A request of `s` means the connected CPU `t`: by its list (0), as another CPU (1) or as the
CPU that makes it (2). Filter 3 means nobody. -/
def Means (cfg : Config) (s t : Nat) (value : BitVec 64) : Prop :=
  t < cfg.cpus ∧
    ((value.extractLsb' 24 2 = 0#2 ∧ value.getLsbD (16 + t) = true) ∨
      (value.extractLsb' 24 2 = 1#2 ∧ t ≠ s) ∨ (value.extractLsb' 24 2 = 2#2 ∧ t = s))

namespace Controller

variable {cfg : Config}

/-- An action sends SGI `n` from CPU `s` to CPU `t`. -/
inductive Raises (cfg : Config) (s n t : Nat) : Action → Prop where
  /-- CPU `s` requests it for CPU `t`. -/
  | request {i : Initiator} {v : BitVec 64} (sender : cpuOf cfg i = s)
      (id : (v.extractLsb' 0 4).toNat = n) (means : Means cfg s t v) :
      Raises cfg s n t (.write .distributor i 0xf00 v .word)
  /-- CPU `t` sets its connected source `s`. -/
  | setSource {i : Initiator} {o : Nat} {v : BitVec 64} {w : Width} {b : BitVec 8}
      (receiver : cpuOf cfg i = t) (connected : s < cfg.cpus)
      (byte : writtenByte? o w v (0xf20 + n) = some b) (bit : b.getLsbD s = true) :
      Raises cfg s n t (.write .distributor i o v w)

/-- An action withdraws SGI `n` from CPU `s` to CPU `t`. -/
inductive Clears (cfg : Config) (s n t : Nat) : Action → Prop where
  /-- CPU `t` clears its source `s`. -/
  | clearSource {i : Initiator} {o : Nat} {v : BitVec 64} {w : Width} {b : BitVec 8}
      (receiver : cpuOf cfg i = t) (byte : writtenByte? o w v (0xf10 + n) = some b)
      (bit : b.getLsbD s = true) : Clears cfg s n t (.write .distributor i o v w)
  /-- Everything is reset. -/
  | reset : Clears cfg s n t .reset

/-- CPU `t` acknowledges, and the value it reads names SGI `n` and its source `s`. -/
inductive Delivers (g : Controller cfg) (s n t : Nat) : Action → Prop where
  | acknowledge {i : Initiator} (receiver : cpuOf cfg i = t)
      (answer : (g.read .cpuInterface i 0x0c .word).value.1 =
        .ok (BitVec.ofNat 32 (s <<< 10 ||| n))) :
      Delivers g s n t (.read .cpuInterface i 0x0c .word)

end Controller

namespace Physical

variable {cfg : Config}

/-- SGI `n` of CPU `s` waits for an answer by CPU `t`. -/
def Waits (p : Physical cfg) (s n t : Nat) : Prop :=
  (p.distributor.sources t n).getLsbD s = true

variable {s n t : Nat}

/-- Sources are put in. -/
theorem waits_of_set (hn : n < numSgis) (ht : t < maxCpus) {p q : Physical cfg} {cpu sgi : Nat}
    {mask : CpuMask} (hd : q.distributor = p.distributor.setSources cpu sgi mask true) :
    Waits q s n t ↔ (t = cpu ∧ n = sgi ∧ mask.getLsbD s = true) ∨ Waits p s n t := by
  unfold Waits
  rw [hd, Distributor.sources_setSources _ _ _ _ _ ht hn, ← and_assoc]
  by_cases hto : t = cpu ∧ n = sgi
  · rw [if_pos hto, CpuMask.getLsbD_assign_true, and_iff_right hto]
  · rw [if_neg hto, or_iff_right fun h => hto h.1]

/-- Sources are taken out. -/
theorem waits_of_clear (hn : n < numSgis) (ht : t < maxCpus) {p q : Physical cfg} {cpu sgi : Nat}
    {mask : CpuMask} (hd : q.distributor = p.distributor.setSources cpu sgi mask false) :
    Waits q s n t ↔ Waits p s n t ∧ ¬ (t = cpu ∧ n = sgi ∧ mask.getLsbD s = true) := by
  unfold Waits
  rw [hd, Distributor.sources_setSources _ _ _ _ _ ht hn, ← and_assoc]
  by_cases hto : t = cpu ∧ n = sgi
  · rw [if_pos hto, CpuMask.getLsbD_assign_false, and_iff_right hto]
  · rw [if_neg hto, and_iff_left fun h => hto h.1]

/-- Nothing is put in or taken out. -/
theorem waits_congr {p q : Physical cfg}
    (hd : q.distributor.sources t n = p.distributor.sources t n) :
    Waits q s n t ↔ Waits p s n t := by
  unfold Waits
  rw [hd]

theorem waits_writeByte (hs : s < maxCpus) (hn : n < numSgis) (ht : t < maxCpus)
    (p : Physical cfg) (cpu : Nat) (register : DistributorRegister) (value : BitVec 8) :
    Waits (p.writeByte cpu register value).state s n t ↔
      (t = cpu ∧ register = .setSources n ∧ value.getLsbD s = true ∧ s < cfg.cpus) ∨
        (Waits p s n t ∧ ¬ (t = cpu ∧ register = .clearSources n ∧ value.getLsbD s = true)) := by
  cases register with
  | setSources sgi =>
    have hfirst : (value &&& CpuMask.first cfg.cpus).getLsbD s = true ↔
        value.getLsbD s = true ∧ s < cfg.cpus := by
      simp only [BitVec.getLsbD_and, CpuMask.getLsbD_first, hs, decide_true, Bool.and_true,
        Bool.and_eq_true, decide_eq_true_eq]
    simp only [writeByte, DistributorRegister.setSources.injEq, reduceCtorEq, false_and, and_false,
      not_false_eq_true, and_true]
    split
    · rw [waits_of_set hn ht rfl, hfirst, eq_comm (a := n)]
    · rename_i hskip
      refine (or_iff_right ?_).symm
      rintro ⟨-, rfl, hbit⟩
      -- The bit of `s` is left in the byte, so the write was not skipped.
      exact hskip ⟨hn, (CpuMask.ne_zero_iff _).mpr ⟨s, hfirst.mpr hbit⟩⟩
  | clearSources sgi =>
    simp only [writeByte, DistributorRegister.clearSources.injEq, reduceCtorEq, false_and,
      and_false, false_or]
    split
    · rw [eq_comm (a := sgi)]
      split <;> exact waits_of_clear hn ht rfl
    · rename_i hskip
      refine (and_iff_left ?_).symm
      rintro ⟨-, rfl, -⟩
      exact hskip hn
  | priority irq | targets irq =>
    simp only [writeByte, reduceCtorEq, false_and, and_false, false_or, not_false_eq_true,
      and_true]
    split
    · exact waits_congr (by simp only [Distributor.sources_setPriority,
        Distributor.sources_setTargets])
    · exact Iff.rfl
  | _ => simp only [writeByte, reduceCtorEq, false_and, and_false, false_or, not_false_eq_true,
      and_true]

theorem waits_writeLanes (hs : s < maxCpus) (hn : n < numSgis) (ht : t < maxCpus) (cpu o : Nat)
    (value : Word) (lanes : List Nat) (hlanes : ∀ k ∈ lanes, k < 4) (w : Written cfg) :
    Waits (lanes.foldl (fun w lane => writeLane w cpu o value lane) w).state s n t ↔
      (∃ k ∈ lanes, t = cpu ∧ o + k = 0xf20 + n ∧
        (value.extractLsb' (8 * k) 8).getLsbD s = true ∧ s < cfg.cpus) ∨
      (Waits w.state s n t ∧ ¬ ∃ k ∈ lanes, t = cpu ∧ o + k = 0xf10 + n ∧
        (value.extractLsb' (8 * k) 8).getLsbD s = true) := by
  induction lanes generalizing w with
  | nil => simp
  | cons lane rest ih =>
    have hlane : lane < 4 := hlanes lane List.mem_cons_self
    have hrest : ∀ k ∈ rest, k < 4 := fun k hk => hlanes k (List.mem_cons_of_mem lane hk)
    -- The places that are set and those that are cleared are too far apart for one word.
    have hapart : o + lane = 0xf20 + n → ∀ k ∈ rest, ¬ o + k = 0xf10 + n := fun h k hk => by
      have := hrest k hk
      omega
    rw [List.foldl_cons, ih hrest]
    simp only [writeLane]
    rw [waits_writeByte hs hn ht, DistributorRegister.ofOffset_eq_setSources hn,
      DistributorRegister.ofOffset_eq_clearSources hn]
    simp only [List.mem_cons, exists_eq_or_imp]
    grind

/-- The aligned word at an offset sets and clears what its bytes do. -/
theorem waits_writeBytes (hs : s < maxCpus) (hn : n < numSgis) (ht : t < maxCpus)
    (p : Physical cfg) (cpu o : Nat) (value : BitVec 64) (aligned : o % 4 = 0) :
    Waits (p.writeBytes cpu o (value.setWidth 32)).state s n t ↔
      (t = cpu ∧ s < cfg.cpus ∧
        ∃ b, writtenByte? o .word value (0xf20 + n) = some b ∧ b.getLsbD s = true) ∨
      (Waits p s n t ∧ ¬ (t = cpu ∧
        ∃ b, writtenByte? o .word value (0xf10 + n) = some b ∧ b.getLsbD s = true)) := by
  unfold writeBytes
  rw [waits_writeLanes hs hn ht _ _ _ _ (by decide), writtenByte_word_iff aligned,
    writtenByte_word_iff aligned]
  constructor
  · rintro (⟨k, hk, hcpu, hplace, hbit, hlow⟩ | ⟨hw, hclear⟩)
    · exact .inl ⟨hcpu, hlow, k, hk, hplace, hbit⟩
    · exact .inr ⟨hw, fun ⟨hcpu, k, hk, hplace, hbit⟩ => hclear ⟨k, hk, hcpu, hplace, hbit⟩⟩
  · rintro (⟨hcpu, hlow, k, hk, hplace, hbit⟩ | ⟨hw, hclear⟩)
    · exact .inl ⟨k, hk, hcpu, hplace, hbit, hlow⟩
    · exact .inr ⟨hw, fun ⟨k, hk, hcpu, hplace, hbit⟩ => hclear ⟨hcpu, k, hk, hplace, hbit⟩⟩

/-- A byte sets and clears what it is written to. -/
theorem waits_writtenByte (hs : s < maxCpus) (hn : n < numSgis) (ht : t < maxCpus)
    (p : Physical cfg) (cpu o : Nat) (value : BitVec 64) :
    Waits (p.writeByte cpu (.ofOffset o) ((value.setWidth 32).setWidth 8)).state s n t ↔
      (t = cpu ∧ s < cfg.cpus ∧
        ∃ b, writtenByte? o .byte value (0xf20 + n) = some b ∧ b.getLsbD s = true) ∨
      (Waits p s n t ∧ ¬ (t = cpu ∧
        ∃ b, writtenByte? o .byte value (0xf10 + n) = some b ∧ b.getLsbD s = true)) := by
  have hbyte : (value.setWidth 32).setWidth 8 = value.setWidth 8 :=
    BitVec.setWidth_setWidth_of_le value (by decide)
  have hwritten : ∀ place, (∃ b, writtenByte? o .byte value place = some b ∧ b.getLsbD s = true) ↔
      o = place ∧ (value.setWidth 8).getLsbD s = true := fun place => by
    simp only [writtenByte?]
    split
    · rename_i h
      simp [h]
    · rename_i h
      simp [Ne.symm h]
  rw [waits_writeByte hs hn ht, DistributorRegister.ofOffset_eq_setSources hn,
    DistributorRegister.ofOffset_eq_clearSources hn, hwritten, hwritten, hbyte]
  grind

theorem means_iff {value : BitVec 64} (hs : s < maxCpus) (ht : t < maxCpus) :
    (∃ targets, sgiTargets cfg s (.ofWord (value.setWidth 32)) = some targets ∧
      targets.getLsbD t = true) ↔ Means cfg s t value := by
  have hfilter : (value.setWidth 32).extractLsb' 24 2 = value.extractLsb' 24 2 :=
    BitVec.extractLsb'_setWidth_of_le (by decide)
  have hlist : ((value.setWidth 32).extractLsb' 16 8).getLsbD t = value.getLsbD (16 + t) := by
    rw [BitVec.extractLsb'_setWidth_of_le (by decide), BitVec.getLsbD_extractLsb']
    simp only [decide_eq_true (show t < 8 from ht), Bool.true_and]
  have hfirst : ∀ mask : CpuMask, (mask &&& .first cfg.cpus).getLsbD t = true ↔
      t < cfg.cpus ∧ mask.getLsbD t = true := fun mask => by
    simp only [BitVec.getLsbD_and, CpuMask.getLsbD_first, ht, decide_true, Bool.and_true,
      Bool.and_eq_true, decide_eq_true_eq, and_comm]
  have hothers : (CpuMask.all ^^^ CpuMask.only s).getLsbD t = true ↔ t ≠ s := by
    rw [BitVec.getLsbD_xor, CpuMask.getLsbD_all, decide_eq_true ht, Bool.true_xor,
      Bool.not_eq_true', ← Bool.not_eq_true, CpuMask.getLsbD_only_iff hs]
  have hcases : ∀ f : BitVec 2, f = 0#2 ∨ f = 1#2 ∨ f = 2#2 ∨ f = 3#2 := by decide
  simp only [sgiTargets, SgiRequest.ofWord, hfilter, Means]
  rcases hcases (value.extractLsb' 24 2) with hf | hf | hf | hf
  · rw [hf, show TargetFilter.ofBits 0#2 = .targetList from rfl]
    simp only [Option.some.injEq, exists_eq_left', hfirst, hlist, BitVec.reduceEq, true_and,
      false_and, or_false]
  · rw [hf, show TargetFilter.ofBits 1#2 = .allButSelf from rfl]
    simp only [Option.some.injEq, exists_eq_left', hfirst, hothers, BitVec.reduceEq, true_and,
      false_and, or_false, false_or]
  · rw [hf, show TargetFilter.ofBits 2#2 = .selfOnly from rfl]
    simp only [Option.some.injEq, exists_eq_left', hfirst, CpuMask.getLsbD_only_iff hs,
      BitVec.reduceEq, true_and, false_and, false_or]
  · rw [hf, show TargetFilter.ofBits 3#2 = .reserved from rfl]
    simp only [reduceCtorEq, BitVec.reduceEq, false_and, exists_false, or_false, and_false]

theorem waits_raiseSgi (hn : n < numSgis) (ht : t < maxCpus) (p : Physical cfg) {cpu : Nat}
    (hcpu : cpu < maxCpus) (sgi : Nat) (targets : CpuMask) :
    Waits (p.raiseSgi cpu sgi targets) s n t ↔
      (cpu = s ∧ sgi = n ∧ targets.getLsbD t = true) ∨ Waits p s n t := by
  unfold Waits raiseSgi
  dsimp only
  rw [Distributor.sources_addSource _ _ _ _ ht hn, eq_comm (a := cpu), eq_comm (a := sgi)]
  by_cases hto : targets.getLsbD t = true ∧ n = sgi
  · rw [if_pos hto, CpuMask.getLsbD_assign_true, CpuMask.getLsbD_only_iff hcpu,
      and_iff_left ⟨hto.2, hto.1⟩]
  · rw [if_neg hto, or_iff_right fun h => hto ⟨h.2.2, h.2.1⟩]

theorem waits_writeWord (hs : s < maxCpus) (hn : n < numSgis) (ht : t < maxCpus)
    (p : Physical cfg) {cpu : Nat} (hcpu : cpu < maxCpus) (register : DistributorRegister)
    (value : BitVec 64) :
    Waits (p.writeWord cpu register (value.setWidth 32)).value.state s n t ↔
      (register = .sgi ∧ cpu = s ∧ (value.extractLsb' 0 4).toNat = n ∧ Means cfg s t value) ∨
        Waits p s n t := by
  cases register with
  | sgi =>
    have hid : (SgiRequest.ofWord (value.setWidth 32)).sgi = value.extractLsb' 0 4 :=
      BitVec.extractLsb'_setWidth_of_le (by decide)
    simp only [writeWord, requestSgi, hid, true_and]
    split
    · rename_i hnone
      refine (or_iff_right ?_).symm
      rintro ⟨rfl, -, hmeans⟩
      obtain ⟨targets, hsome, -⟩ := (means_iff hs ht).mpr hmeans
      rw [hnone] at hsome
      cases hsome
    · rename_i targets hsome
      have hmeans : cpu = s → (targets.getLsbD t = true ↔ Means cfg s t value) := by
        rintro rfl
        rw [← means_iff hcpu ht, hsome]
        simp only [Option.some.injEq, exists_eq_left']
      show Waits (p.raiseSgi cpu _ targets) s n t ↔ _
      rw [waits_raiseSgi hn ht p hcpu]
      by_cases hsender : cpu = s
      · rw [hmeans hsender]
      · simp only [hsender, false_and]
  | trigger k =>
    simp only [writeWord, reduceCtorEq, false_and, false_or]
    split <;> exact Iff.rfl
  | _ =>
    simp only [reduceCtorEq, false_and, false_or]
    exact Iff.rfl

/-! ### Answering an SGI -/

/-- An SGI that a CPU is shown has a source. -/
theorem lowest_of_shown {p : Physical cfg} (hp : Settled p) (hshape : Shaped p)
    (hn : cfg.numIrqs ≤ maxIrqs) {cpu : Nat} (hc : cpu < cfg.cpus) (hm : cpu < maxCpus)
    (hsgi : (p.cpus.row cpu).highestPending < numSgis)
    (hrec : Recorded p cpu (p.cpus.row cpu).highestPending) :
    (p.distributor.sources cpu (p.cpus.row cpu).highestPending).lowest? =
      some (p.firstSource cpu (p.cpus.row cpu).highestPending) := by
  have hne : (p.cpus.row cpu).highestPending ≠ spurious := by
    simp only [numSgis, spurious] at hsgi ⊢
    omega
  have hprivate : (p.cpus.row cpu).highestPending < numPrivate := Nat.lt_trans hsgi (by decide)
  have hcompetes := hp.competes hn hc hm hne
  have hpending : (p.irqs.row (p.cpus.row cpu).highestPending).pending.getLsbD cpu = true := by
    rcases hcompetes.asks with hflag | ⟨hlevel, -⟩
    · rwa [Flagged, if_pos hprivate] at hflag
    · rw [hshape.trigger _ hsgi] at hlevel
      cases hlevel
  have hsome := hrec.agree.mp hpending
  rw [firstSource]
  cases hlow : (p.distributor.sources cpu (p.cpus.row cpu).highestPending).lowest? with
  | none => exact absurd ((CpuMask.lowest?_eq_none_iff _).mp hlow) hsome
  | some s => rfl

theorem distributor_take (p : Physical cfg) (cpu irq : Nat) :
    (p.take cpu irq).distributor =
      if irq < numSgis then p.distributor.setSources cpu irq (.only (p.firstSource cpu irq)) false
      else p.distributor := by
  unfold take takeSgi
  split
  · dsimp only
    split <;> rfl
  · rfl

theorem waits_acknowledge (hn : n < numSgis) (ht : t < maxCpus) (p : Physical cfg) (cpu : Nat) :
    Waits (p.acknowledge cpu).value.2 s n t ↔
      Waits p s n t ∧ ¬ (¬ Refuses p cpu ∧ t = cpu ∧ n = (p.cpus.row cpu).highestPending ∧
        (CpuMask.only (p.firstSource cpu n)).getLsbD s = true) := by
  rw [acknowledge_value]
  split
  · rename_i h
    simp only [h, not_true_eq_false, false_and, not_false_eq_true, and_true]
  · rename_i h
    simp only [h, not_false_eq_true, true_and]
    have hd := distributor_take p cpu (p.cpus.row cpu).highestPending
    show Waits (p.take cpu (p.cpus.row cpu).highestPending) s n t ↔ _
    by_cases hsgi : (p.cpus.row cpu).highestPending < numSgis
    · rw [if_pos hsgi] at hd
      rw [waits_of_clear hn ht hd]
      by_cases hshown : n = (p.cpus.row cpu).highestPending
      · rw [← hshown]
      · simp only [hshown, false_and, and_false]
    · rw [if_neg hsgi] at hd
      refine (waits_congr (by rw [hd])).trans (and_iff_left ?_).symm
      rintro ⟨-, rfl, -⟩
      exact hsgi hn

end Physical

namespace Controller

open Physical

variable {cfg : Config} {s n t : Nat}

theorem read_acknowledge (g : Controller cfg) (i : Initiator) :
    (g.read .cpuInterface i 0x0c .word).value =
      (.ok (g.physical.acknowledge (cpuOf cfg i)).value.1,
        { g with physical := (g.physical.acknowledge (cpuOf cfg i)).value.2 }) := rfl

theorem tagged_eq (irq source : Nat) :
    tagged irq source = BitVec.ofNat 32 (source <<< 10 ||| irq) := by
  have hshift : BitVec.ofNat 32 (source <<< 10) = BitVec.ofNat 32 source <<< 10 := by
    apply BitVec.eq_of_toNat_eq
    rw [BitVec.toNat_shiftLeft, BitVec.toNat_ofNat, BitVec.toNat_ofNat, Nat.shiftLeft_eq,
      Nat.shiftLeft_eq, Nat.mod_mul_mod]
  rw [BitVec.ofNat_or, hshift, BitVec.or_comm]
  rfl

theorem toNat_answer (hs : s < maxCpus) {irq : Nat} (h : irq < 1024) :
    (BitVec.ofNat 32 (s <<< 10 ||| irq)).toNat = 1024 * s + irq := by
  rw [← Nat.shiftLeft_add_eq_or_of_lt h, Nat.shiftLeft_eq, BitVec.toNat_ofNat]
  simp only [maxCpus] at hs
  omega

/-- An acknowledge names SGI `n` and source `s` if and only if it is not refused, the CPU is shown
`n`, and `s` is the first source of it. -/
theorem answer_iff (hv : cfg.validate = .ok ()) {g : Controller cfg} (hg : Reachable g) {cpu : Nat}
    (hc : cpu < cfg.cpus) (hs : s < maxCpus) (hn : n < numSgis) :
    (g.physical.acknowledge cpu).value.1 = BitVec.ofNat 32 (s <<< 10 ||| n) ↔
      ¬ Refuses g.physical cpu ∧ n = (g.physical.cpus.row cpu).highestPending ∧
        (g.physical.distributor.sources cpu n).lowest? = some s := by
  obtain ⟨hpos, hmax, hirqs⟩ := Config.bounds_of_validate hv
  have hm : cpu < maxCpus := Nat.lt_of_lt_of_le hc hmax
  have hn' : n < 1024 := Nat.lt_trans hn (by decide)
  have hnat : ∀ w : Word, w = BitVec.ofNat 32 (s <<< 10 ||| n) ↔ w.toNat = 1024 * s + n :=
    fun w => by rw [← BitVec.toNat_inj, toNat_answer hs hn']
  rw [hnat, acknowledge_value]
  by_cases hrefused : Refuses g.physical cpu
  · rw [if_pos hrefused]
    refine iff_of_false ?_ fun h => h.1 hrefused
    simp only [BitVec.toNat_ofNat, spurious, numSgis, maxCpus] at *
    omega
  rw [if_neg hrefused]
  generalize hirq : (g.physical.cpus.row cpu).highestPending = irq
  have hne : irq ≠ spurious := fun h => hrefused (.inl (hirq.trans h))
  by_cases hsgi : irq < numSgis
  · have hlow := lowest_of_shown hg.settled hg.shaped hirqs hc hm (hirq ▸ hsgi)
      (hg.recorded hpos hmax hm (hirq ▸ hsgi))
    rw [hirq] at hlow
    have hsource := ((CpuMask.lowest?_eq_some_iff _ _).mp hlow).1
    have hconnected := ((hg.recorded hpos hmax hm hsgi).connected _ hsource).1
    simp only [if_pos hsgi, hrefused, not_false_eq_true, true_and]
    rw [tagged_eq, toNat_answer (Nat.lt_of_lt_of_le hconnected hmax)
      (Nat.lt_trans hsgi (by decide))]
    constructor
    · intro h
      simp only [numSgis] at hsgi hn
      obtain ⟨rfl, hfirst⟩ : n = irq ∧ g.physical.firstSource cpu irq = s := by omega
      exact ⟨rfl, hlow.trans (congrArg some hfirst)⟩
    · rintro ⟨rfl, h⟩
      rw [Option.some.inj (hlow.symm.trans h)]
  · have hlt := (hg.settled.competes hirqs hc hm (hirq ▸ hne)).connected
    rw [hirq] at hlt
    simp only [if_neg hsgi, BitVec.toNat_ofNat]
    simp only [numSgis, maxIrqs] at hsgi hn hirqs
    refine iff_of_false ?_ fun h => hsgi (h.2.1 ▸ hn)
    omega

/-! ### One action -/

theorem raises_write_iff {i : Initiator} {o : Nat} {v : BitVec 64} {w : Width} :
    Raises cfg s n t (.write .distributor i o v w) ↔
      (o = 0xf00 ∧ w = .word ∧ cpuOf cfg i = s ∧ (v.extractLsb' 0 4).toNat = n ∧ Means cfg s t v) ∨
        (t = cpuOf cfg i ∧ s < cfg.cpus ∧
          ∃ b, writtenByte? o w v (0xf20 + n) = some b ∧ b.getLsbD s = true) := by
  constructor
  · intro h
    cases h with
    | request sender id means => exact .inl ⟨rfl, rfl, sender, id, means⟩
    | setSource receiver connected byte bit =>
      exact .inr ⟨receiver.symm, connected, _, byte, bit⟩
  · rintro (⟨rfl, rfl, sender, id, means⟩ | ⟨receiver, connected, b, byte, bit⟩)
    · exact .request sender id means
    · exact .setSource receiver.symm connected byte bit

theorem clears_write_iff {i : Initiator} {o : Nat} {v : BitVec 64} {w : Width} :
    Clears cfg s n t (.write .distributor i o v w) ↔
      t = cpuOf cfg i ∧
        ∃ b, writtenByte? o w v (0xf10 + n) = some b ∧ b.getLsbD s = true := by
  constructor
  · intro h
    cases h with
    | clearSource receiver byte bit => exact ⟨receiver.symm, _, byte, bit⟩
  · rintro ⟨receiver, b, byte, bit⟩
    exact .clearSource receiver.symm byte bit

/-- A write that reaches the sources is one of the accesses that are allowed there. -/
theorem allowed_of_writtenByte {o : Nat} {w : Width} {v : BitVec 64} {place : Nat}
    {b : BitVec 8} (h : writtenByte? o w v place = some b) (low : 0xf10 ≤ place)
    (high : place < 0xf30) :
    checkWindow cfg .distributor o w = .ok () ∧
      (DistributorRegister.ofOffset o).isByte = true := by
  cases w with
  | byte =>
    simp only [writtenByte?] at h
    split at h
    · rename_i hplace
      subst hplace
      refine ⟨if_pos ?_, DistributorRegister.isByte_of_sources low high⟩
      simp only [Width.bytes, Interface.windowSize]
      omega
    · cases h
  | word =>
    simp only [writtenByte?] at h
    split at h
    · rename_i hplace
      refine ⟨if_pos ?_, DistributorRegister.isByte_of_sources (by omega) (by omega)⟩
      simp only [Width.bytes, Interface.windowSize]
      omega
    · cases h
  | half | double => cases h

theorem waits_arbitrateIf (w : Written cfg) :
    Waits (arbitrateIf w).value s n t ↔ Waits w.state s n t :=
  waits_congr (by rw [arbitrateIf_distributor])

/-- A word or byte of the sources themselves. -/
theorem waits_writeSources (hs : s < maxCpus) (hn : n < numSgis) (ht : t < maxCpus)
    (g : Controller cfg) (i : Initiator) {o : Nat} (v : BitVec 64) {w : Width}
    (hcheck : checkWindow cfg .distributor o w = .ok ())
    (hbyte : (DistributorRegister.ofOffset o).isByte = true) :
    Waits (g.after (.write .distributor i o v w)).physical s n t ↔
      (t = cpuOf cfg i ∧ s < cfg.cpus ∧
        ∃ b, writtenByte? o w v (0xf20 + n) = some b ∧ b.getLsbD s = true) ∨
      (Waits g.physical s n t ∧ ¬ (t = cpuOf cfg i ∧
        ∃ b, writtenByte? o w v (0xf10 + n) = some b ∧ b.getLsbD s = true)) := by
  rw [physical_after_write_distributor, hcheck]
  cases w with
  | word =>
    by_cases aligned : o % 4 = 0
    · simp only [writeDistributor, aligned, hbyte, if_true, Traced.value_bind, Traced.value_pure]
      rw [waits_arbitrateIf, waits_writeBytes hs hn ht _ _ _ _ aligned]
    · simp only [writeDistributor, writtenByte?, aligned, false_and, if_false, Traced.value_pure,
        reduceCtorEq, exists_false, and_false, not_false_eq_true, and_true, false_or]
  | byte =>
    simp only [writeDistributor, hbyte, if_true, Traced.value_bind, Traced.value_pure]
    rw [waits_arbitrateIf, waits_writtenByte hs hn ht]
  | half | double =>
    simp only [writeDistributor, writtenByte?, Traced.value_pure, reduceCtorEq, false_and,
      exists_false, and_false, not_false_eq_true, and_true, false_or]

/-- A word elsewhere can at most request an SGI. -/
theorem waits_writeElsewhere (hs : s < maxCpus) (hn : n < numSgis) (ht : t < maxCpus)
    (g : Controller cfg) {i : Initiator} (hcpu : cpuOf cfg i < maxCpus) {o : Nat} (v : BitVec 64)
    {w : Width} (hcheck : checkWindow cfg .distributor o w = .ok ())
    (hbyte : (DistributorRegister.ofOffset o).isByte = false) :
    Waits (g.after (.write .distributor i o v w)).physical s n t ↔
      (o = 0xf00 ∧ w = .word ∧ cpuOf cfg i = s ∧ (v.extractLsb' 0 4).toNat = n ∧
        Means cfg s t v) ∨ Waits g.physical s n t := by
  rw [physical_after_write_distributor, hcheck]
  cases w with
  | word =>
    by_cases aligned : o % 4 = 0
    · have hsgi : DistributorRegister.ofOffset o = .sgi ↔ o = 0xf00 := by
        constructor
        · intro h
          have := DistributorRegister.offset_of_sgi h
          omega
        · rintro rfl
          rfl
      simp only [writeDistributor, aligned, hbyte, if_true, Bool.false_eq_true, if_false,
        Traced.value_bind, Traced.value_pure, true_and]
      rw [waits_arbitrateIf, waits_writeWord hs hn ht _ hcpu, hsgi]
    · have hne : o ≠ 0xf00 := by
        rintro rfl
        exact aligned rfl
      simp only [writeDistributor, aligned, hne, if_false, Traced.value_pure, false_and, false_or]
  | byte =>
    simp only [writeDistributor, hbyte, Bool.false_eq_true, if_false, Traced.value_pure,
      reduceCtorEq, false_and, and_false, false_or]
  | half | double =>
    simp only [writeDistributor, Traced.value_pure, reduceCtorEq, false_and, and_false, false_or]

theorem waits_write_distributor (hpos : 0 < cfg.cpus) (hmax : cfg.cpus ≤ maxCpus)
    (g : Controller cfg) (hs : s < maxCpus) (hn : n < numSgis) (ht : t < maxCpus) (i : Initiator)
    (o : Nat) (v : BitVec 64) (w : Width) :
    Waits (g.after (.write .distributor i o v w)).physical s n t ↔
      Raises cfg s n t (.write .distributor i o v w) ∨
        (Waits g.physical s n t ∧ ¬ Clears cfg s n t (.write .distributor i o v w)) := by
  have hcpu : cpuOf cfg i < maxCpus := Nat.lt_of_lt_of_le (cpuOf_lt hpos i) hmax
  have hhigh : n < 0x10 := hn
  rw [raises_write_iff, clears_write_iff]
  by_cases hsources : checkWindow cfg .distributor o w = .ok () ∧
      (DistributorRegister.ofOffset o).isByte = true
  · obtain ⟨hcheck, hbyte⟩ := hsources
    have hne : o ≠ 0xf00 := by
      rintro rfl
      cases hbyte
    rw [waits_writeSources hs hn ht g i v hcheck hbyte]
    simp only [hne, false_and, false_or]
  · have hnone : ∀ place, 0xf10 ≤ place → place < 0xf30 →
        ¬ ∃ b, writtenByte? o w v place = some b ∧ b.getLsbD s = true :=
      fun place low high ⟨b, hb, _⟩ => hsources (allowed_of_writtenByte hb low high)
    rw [eq_false (hnone (0xf20 + n) (by omega) (by omega)),
      eq_false (hnone (0xf10 + n) (by omega) (by omega))]
    simp only [and_false, not_false_eq_true, and_true, or_false]
    by_cases hcheck : checkWindow cfg .distributor o w = .ok ()
    · have hbyte := fun h => hsources ⟨hcheck, h⟩
      exact waits_writeElsewhere hs hn ht g hcpu v hcheck (Bool.not_eq_true _ ▸ hbyte)
    · rw [physical_after_write_distributor]
      split
      · refine (or_iff_right ?_).symm
        rintro ⟨rfl, rfl, -⟩
        exact hcheck rfl
      · contradiction

/-- Only writes to the distributor, acknowledges and resets change the distributor. -/
theorem Moves.distributor_eq {g : Controller cfg} {a : Action} {p : Physical cfg}
    (h : Moves g a p) (hwrite : ∀ i o v w, a ≠ .write .distributor i o v w)
    (hread : ∀ i, a ≠ .read .cpuInterface i 0x0c .word) (hreset : a ≠ .reset) :
    p.distributor = g.physical.distributor := by
  cases h with
  | distributorWord | distributorBytes | distributorByte => exact absurd rfl (hwrite _ _ _ _)
  | acknowledges => exact absurd rfl (hread _)
  | powersOn => exact absurd rfl hreset
  | interfaceWrite => exact distributor_writeCpuInterface _ _ _ _
  | stays | backingEnds | ppiDriven | spiDriven | overdriven | arbitrates => rfl

theorem delivers_iff {g : Controller cfg} {i : Initiator} :
    Delivers g s n t (.read .cpuInterface i 0x0c .word) ↔
      t = cpuOf cfg i ∧
        (g.physical.acknowledge (cpuOf cfg i)).value.1 = BitVec.ofNat 32 (s <<< 10 ||| n) := by
  constructor
  · intro h
    cases h with
    | acknowledge receiver answer =>
      rw [read_acknowledge] at answer
      exact ⟨receiver.symm, Except.ok.inj answer⟩
  · rintro ⟨receiver, answer⟩
    exact .acknowledge receiver.symm (by rw [read_acknowledge, answer])

/-- An acknowledge ends the entry that it names and no other. -/
theorem waits_read_acknowledge (hv : cfg.validate = .ok ()) {g : Controller cfg}
    (hg : Reachable g) (hs : s < maxCpus) (hn : n < numSgis) (ht : t < maxCpus) (i : Initiator) :
    Waits (g.after (.read .cpuInterface i 0x0c .word)).physical s n t ↔
      Waits g.physical s n t ∧ ¬ Delivers g s n t (.read .cpuInterface i 0x0c .word) := by
  obtain ⟨hpos, hmax, hirqs⟩ := Config.bounds_of_validate hv
  have hc := cpuOf_lt hpos i
  show Waits (g.physical.acknowledge (cpuOf cfg i)).value.2 s n t ↔ _
  rw [waits_acknowledge hn ht, delivers_iff, answer_iff hv hg hc hs hn]
  -- What is taken out is the first source, and it is also what the answer names.
  have hfirst : n = (g.physical.cpus.row (cpuOf cfg i)).highestPending →
      ((CpuMask.only (g.physical.firstSource (cpuOf cfg i) n)).getLsbD s = true ↔
        (g.physical.distributor.sources (cpuOf cfg i) n).lowest? = some s) := by
    intro hshown
    have hm := Nat.lt_of_lt_of_le hc hmax
    have hrec := hg.recorded hpos hmax hm hn
    have hlow := lowest_of_shown hg.settled hg.shaped hirqs hc hm (hshown ▸ hn) (hshown ▸ hrec)
    rw [← hshown] at hlow
    have hsource := ((CpuMask.lowest?_eq_some_iff _ _).mp hlow).1
    rw [hlow, Option.some.injEq,
      CpuMask.getLsbD_only_iff (Nat.lt_of_lt_of_le (hrec.connected _ hsource).1 hmax)]
    exact eq_comm
  refine and_congr_right fun _ => not_congr ⟨?_, ?_⟩
  · rintro ⟨hallowed, rfl, hshown, hbit⟩
    exact ⟨rfl, hallowed, hshown, (hfirst hshown).mp hbit⟩
  · rintro ⟨rfl, hallowed, hshown, hlow⟩
    exact ⟨hallowed, rfl, hshown, (hfirst hshown).mpr hlow⟩

/-- An entry waits after an action if and only if the action raises it, or it waited before and
the action neither clears nor delivers it. -/
theorem waits_step (hv : cfg.validate = .ok ()) {g : Controller cfg} (hg : Reachable g)
    (hs : s < maxCpus) (hn : n < numSgis) (ht : t < maxCpus) (a : Action) :
    Waits (g.after a).physical s n t ↔
      Raises cfg s n t a ∨
        (Waits g.physical s n t ∧ ¬ (Clears cfg s n t a ∨ Delivers g s n t a)) := by
  obtain ⟨hpos, hmax, hirqs⟩ := Config.bounds_of_validate hv
  by_cases hwrite : ∃ i o v w, a = .write .distributor i o v w
  · obtain ⟨i, o, v, w, rfl⟩ := hwrite
    have hdelivers : ¬ Delivers g s n t (.write .distributor i o v w) := nofun
    rw [waits_write_distributor hpos hmax g hs hn ht, or_iff_left hdelivers]
  by_cases hread : ∃ i, a = .read .cpuInterface i 0x0c .word
  · obtain ⟨i, rfl⟩ := hread
    have hraises : ¬ Raises cfg s n t (.read .cpuInterface i 0x0c .word) := nofun
    have hclears : ¬ Clears cfg s n t (.read .cpuInterface i 0x0c .word) := nofun
    rw [waits_read_acknowledge hv hg hs hn ht, or_iff_right hraises, or_iff_right hclears]
  by_cases hreset : a = .reset
  · subst hreset
    have hraises : ¬ Raises cfg s n t .reset := nofun
    have hcleared : ¬ Waits (g.after .reset).physical s n t := by
      rw [after_reset]
      show ¬ ((Physical.powerOn cfg).distributor.sources t n).getLsbD s = true
      rw [sources_powerOn cfg t hn]
      simp
    exact iff_of_false hcleared fun h =>
      h.elim hraises fun h => h.2 (.inl .reset)
  have hraises : ¬ Raises cfg s n t a := by
    rintro (_ | _)
    · exact hwrite ⟨_, _, _, _, rfl⟩
    · exact hwrite ⟨_, _, _, _, rfl⟩
  have hends : ¬ (Clears cfg s n t a ∨ Delivers g s n t a) := by
    rintro ((_ | _) | ⟨_, _⟩)
    · exact hwrite ⟨_, _, _, _, rfl⟩
    · exact hreset rfl
    · exact hread ⟨_, rfl⟩
  have hd := (moves_after g a).distributor_eq (fun i o v w h => hwrite ⟨i, o, v, w, h⟩)
    (fun i h => hread ⟨i, h⟩) hreset
  rw [or_iff_right hraises, and_iff_left hends]
  exact waits_congr (by rw [hd])

/-! ### Runs -/

/-- A delivery finds its entry waiting, as the first one of its SGI, and ends it alone. -/
theorem Delivers.spec (hv : cfg.validate = .ok ()) {g : Controller cfg} (hg : Reachable g)
    (hs : s < maxCpus) (hn : n < numSgis) {a : Action} (h : Delivers g s n t a) :
    Waits g.physical s n t ∧ (∀ s' < s, ¬ Waits g.physical s' n t) ∧
      ∀ s' < maxCpus, ∀ n' < numSgis, ∀ t' < maxCpus,
        (Waits (g.after a).physical s' n' t' ↔
          Waits g.physical s' n' t' ∧ ¬ (s' = s ∧ n' = n ∧ t' = t)) := by
  obtain ⟨hpos, -, -⟩ := Config.bounds_of_validate hv
  cases h with
  | @acknowledge i receiver answer =>
    subst receiver
    have hc := cpuOf_lt hpos i
    have hd := delivers_iff.mp (.acknowledge rfl answer)
    obtain ⟨hallowed, hshown, hlow⟩ := (answer_iff hv hg hc hs hn).mp hd.2
    obtain ⟨hwaits, hfirst⟩ := (CpuMask.lowest?_eq_some_iff _ _).mp hlow
    refine ⟨hwaits, fun s' hs' => Bool.not_eq_true _ ▸ hfirst s' hs', ?_⟩
    intro s' hs' n' hn' t' ht'
    rw [waits_read_acknowledge hv hg hs' hn' ht', delivers_iff, answer_iff hv hg hc hs' hn']
    refine and_congr_right fun _ => not_congr ⟨?_, ?_⟩
    · rintro ⟨rfl, -, hshown', hlow'⟩
      obtain rfl : n' = n := hshown'.trans hshown.symm
      exact ⟨Option.some.inj (hlow'.symm.trans hlow), rfl, rfl⟩
    · rintro ⟨rfl, rfl, rfl⟩
      exact ⟨rfl, hallowed, hshown, hlow⟩

/-- Along every run from power-on, the distributor has the bit of source `s` of SGI `n` on CPU `t`
if and only if the entry was raised and neither delivered nor cleared since. Every delivery finds
its bit set, names the lowest source of its SGI, and clears this bit only. -/
theorem sgi_delivered_once (hv : cfg.validate = .ok ()) :
    (∀ actions : List Action, ∀ s < maxCpus, ∀ n < numSgis, ∀ t < maxCpus,
      (Waits ((powerOn cfg).run actions).physical s n t ↔
        Outstanding (fun _ a => Raises cfg s n t a)
          (fun g a => Clears cfg s n t a ∨ Delivers g s n t a) (powerOn cfg) actions)) ∧
    (∀ g : Controller cfg, Reachable g → ∀ s < maxCpus, ∀ n < numSgis, ∀ t a,
      Delivers g s n t a →
        Waits g.physical s n t ∧ (∀ s' < s, ¬ Waits g.physical s' n t) ∧
        ∀ s' < maxCpus, ∀ n' < numSgis, ∀ t' < maxCpus,
          (Waits (g.after a).physical s' n' t' ↔
            Waits g.physical s' n' t' ∧ ¬ (s' = s ∧ n' = n ∧ t' = t))) := by
  constructor
  · intro actions s hs n hn t ht
    refine iff_outstanding (P := fun g => Waits g.physical s n t) ?_ ?_ actions
    · show ¬ ((Physical.powerOn cfg).distributor.sources t n).getLsbD s = true
      rw [sources_powerOn cfg t hn]
      simp
    · exact fun g a hg => waits_step hv hg hs hn ht a
  · exact fun g hg s hs n hn t a h => h.spec hv hg hs hn

/-- Of two CPUs, the first requests SGI 3 for all others: it waits on the second. -/
theorem sgi_delivered_once_other :
    let cfg : Config := { Config.standard with cpus := 2 }
    cfg.validate = .ok () ∧
      Waits ((powerOn cfg).run [.write .distributor (.cpu 0) 0xf00 0x01000003 .word]).physical
        0 3 1 :=
  ⟨rfl, ((sgi_delivered_once rfl).1 _ 0 (by decide) 3 (by decide) 1 (by decide)).mpr
    ⟨[], _, [], rfl, .request rfl rfl (by unfold Means; decide), avoids_nil _ _⟩⟩

end Controller

end Gic
