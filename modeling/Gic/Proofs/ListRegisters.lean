import Gic.Proofs.GuestAcknowledge

/-!
# What is read of a list register

A list register keeps the word that was written to it and, beside it, the state of
the interrupt, which the guest changes as it acknowledges and completes. The two
drift apart, and a read puts them together again. This module says what is read
after any run: the last word that was taken, with the state as it is then.

## The model

* `ListEntry.Takeable` — the words that a list register takes.
* `takenWord?` — the word that an action leaves in a list register, and `lastTaken`
  — the last such word of a run.
* `ListsMove` — what an action that writes no list register leaves of those of a CPU.
* `Controller.ListLaw` — what each action does with the list registers of a CPU, and
  `Controller.ReadsLists` — what is read of them.

## What is proved

* `ListEntry.toWord_ofWord`, `ListEntry.getLsbD_toWord_with` — a word is read as it was
  written, and the state takes up two bits of it.
* `Controller.listsMove_after` — between two words that are taken, only the guest of the
  CPU changes the state, by an acknowledge or a completion.
* `Controller.written_run` — the word that is kept is the last one that was taken.
* `Controller.list_registers_read_live_state` — all of it, for every run.
-/

namespace Gic

namespace ListEntry

/-! ### Words of list registers -/

/-- A word is read as it was written. -/
theorem toWord_ofWord (word : Word) : (ofWord word).toWord = word := by
  apply BitVec.eq_of_getLsbD_eq
  intro bit hbit
  rw [getLsbD_toWord _ hbit]
  split
  · rename_i hpending
    rw [hpending]
    rfl
  · split
    · rename_i hactive
      rw [hactive]
      rfl
    · rfl

/-- The state is read in bits 28 and 29, and nowhere else. -/
theorem getLsbD_toWord_with (e : ListEntry) (pending active : Bool) {bit : Nat}
    (hbit : bit < 32) :
    (toWord { e with pending, active }).getLsbD bit =
      if bit = 28 then pending else if bit = 29 then active else e.toWord.getLsbD bit := by
  rw [getLsbD_toWord _ hbit, getLsbD_toWord _ hbit]
  split
  · rfl
  · split <;> rfl

/-- A list register takes a word: no physical interrupt backs the virtual one, or one that has an
input. -/
def Takeable (word : Word) : Prop :=
  word.getLsbD 31 = false ∨ (16 ≤ word.field 10 10 ∧ word.field 10 10 ≤ 511)

instance (word : Word) : Decidable (Takeable word) := inferInstanceAs (Decidable (_ ∨ _))

theorem accepts_ofWord (word : Word) :
    VirtualCpu.accepts (ofWord word) = true ↔ Takeable word := by
  rw [VirtualCpu.accepts, Takeable, physicalId, hardware, linkField, ofWord]
  cases word.getLsbD 31 with
  | false => exact iff_of_true rfl (.inl rfl)
  | true =>
    rw [if_pos rfl, Bool.not_true, Bool.false_or, Bool.and_eq_true, decide_eq_true_eq,
      decide_eq_true_eq, numSgis, maxIrqs]
    constructor
    · rintro ⟨hlow, hhigh⟩
      exact .inr ⟨hlow, Nat.le_of_lt_succ hhigh⟩
    · rintro (h | ⟨hlow, hhigh⟩)
      · cases h
      · exact ⟨hlow, Nat.lt_succ_of_le hhigh⟩

end ListEntry

/-- The list registers are words in the hypervisor's window. -/
theorem VifRegister.offset_of_list {o n : Nat} (aligned : o % 4 = 0)
    (h : ofOffset o = .list n) : o = 0x100 + 4 * n := by
  unfold ofOffset at h
  iterate 5 replace h := (peel h nofun).2
  obtain ⟨⟨hlow, hhigh⟩, h⟩ | ⟨-, h⟩ := chosen h
  · have h := list.inj h
    omega
  · cases h

/-! ### What runs leave in list registers -/

/-- The word that an action leaves in the list register `n` of a CPU: one that the CPU writes there
and that is taken. -/
def takenWord? (cfg : Config) (c n : Nat) : Action → Option Word
  | .write .vifControl i o v .word =>
    if Controller.cpuOf cfg i = c ∧ o = 0x100 + 4 * n ∧ ListEntry.Takeable (v.setWidth 32) then
      some (v.setWidth 32)
    else none
  | _ => none

/-- The last word that was taken after an action, given the last one before it. -/
def nextTaken (cfg : Config) (c n : Nat) (last : Word) : Action → Word
  | .reset => 0#32
  | a => (takenWord? cfg c n a).getD last

/-- The last word that the list register `n` of a CPU has taken in a run, zero if there is none
since power-on or the last reset. -/
def lastTaken (cfg : Config) (c n : Nat) (actions : List Action) : Word :=
  actions.foldl (nextTaken cfg c n) 0#32

theorem lastTaken_concat (cfg : Config) (c n : Nat) (actions : List Action) (a : Action) :
    lastTaken cfg c n (actions ++ [a]) = nextTaken cfg c n (lastTaken cfg c n actions) a :=
  List.foldl_append

theorem takenWord?_eq_some_iff {cfg : Config} {c n : Nat} {a : Action} {word : Word} :
    takenWord? cfg c n a = some word ↔
      ∃ i v, a = .write .vifControl i (0x100 + 4 * n) v .word ∧ Controller.cpuOf cfg i = c ∧
        ListEntry.Takeable (v.setWidth 32) ∧ v.setWidth 32 = word := by
  constructor
  · intro h
    unfold takenWord? at h
    split at h
    · split at h
      · rename_i i o v htaken
        obtain ⟨own, rfl, htakeable⟩ := htaken
        exact ⟨i, v, rfl, own, htakeable, Option.some.inj h⟩
      · cases h
    · cases h
  · rintro ⟨i, v, rfl, own, htakeable, rfl⟩
    exact if_pos ⟨own, rfl, htakeable⟩

/-- An action leaves a word in one list register at most. -/
theorem takenWord?_eq_none_of_ne {cfg : Config} {c m n : Nat} {a : Action} {word : Word}
    (h : takenWord? cfg c m a = some word) (hne : n ≠ m) : takenWord? cfg c n a = none := by
  obtain ⟨i, v, rfl, -⟩ := takenWord?_eq_some_iff.mp h
  exact if_neg fun ⟨_, hplace, _⟩ => hne (by omega)

theorem nextTaken_of_ne_reset {cfg : Config} {c n : Nat} {a : Action} (h : a ≠ .reset)
    (last : Word) : nextTaken cfg c n last a = (takenWord? cfg c n a).getD last := by
  cases a with
  | reset => exact absurd rfl h
  | _ => rfl

/-- What an action that writes no list register leaves of those of a CPU. -/
inductive ListsMove (cfg : Config) (c : Nat) (v w : VirtualCpu) : Action → Prop where
  /-- They stay as they are. -/
  | stay (a : Action) (same : ∀ n, w.lists.row n = v.lists.row n) : ListsMove cfg c v w a
  /-- The guest of the CPU acknowledges, and one of them becomes active and is no longer pending. -/
  | acknowledged {i : Initiator} {n : Nat} (own : Controller.cpuOf cfg i = c)
      (inRange : n < numListRegisters)
      (entry : w.lists.row n = { v.lists.row n with pending := false, active := true })
      (others : ∀ m ≠ n, w.lists.row m = v.lists.row m) :
      ListsMove cfg c v w (.read .vcpuInterface i 0x0c .word)
  /-- The guest of the CPU completes, and one of them is no longer active. -/
  | completed {i : Initiator} {value : BitVec 64} {n : Nat} (own : Controller.cpuOf cfg i = c)
      (inRange : n < numListRegisters)
      (entry : w.lists.row n = { v.lists.row n with active := false })
      (others : ∀ m ≠ n, w.lists.row m = v.lists.row m) :
      ListsMove cfg c v w (.write .vcpuInterface i 0x10 value .word)

/-- What they keep is the word that was written. -/
theorem ListsMove.written {cfg : Config} {c : Nat} {v w : VirtualCpu} {a : Action}
    (h : ListsMove cfg c v w a) (n : Nat) :
    (w.lists.row n).written = (v.lists.row n).written := by
  cases h with
  | stay _ same => rw [same n]
  | @acknowledged _ m _ _ entry others | @completed _ _ m _ _ entry others =>
    by_cases hn : n = m
    · rw [hn, entry]
    · rw [others n hn]

namespace VirtualCpu

/-! ### One virtual half -/

theorem lists_result (w : VirtualWritten) : w.result.lists = w.state.lists := by
  unfold VirtualWritten.result
  split <;> rfl

theorem row_lists_alter (v : VirtualCpu) {n : Nat} (hn : n < numListRegisters)
    (f : ListEntry → ListEntry) :
    (v.lists.alter n f).row n = f (v.lists.row n) ∧
      ∀ m ≠ n, (v.lists.alter n f).row m = v.lists.row m := by
  refine ⟨?_, fun m hm => ?_⟩
  · rw [Table.row_alter, if_pos ⟨rfl, hn⟩]
  · rw [Table.row_alter, if_neg fun h => hm h.1.symm]

theorem writeVif_list {v : VirtualCpu} (cpu : Nat) {n : Nat} (hn : n < numListRegisters)
    (value : Word) :
    (v.writeVif cpu (.list n) value).value =
      if ListEntry.Takeable value then ⟨v.alterList n fun _ => .ofWord value, true⟩
      else ⟨v, false⟩ := by
  simp only [writeVif, if_neg (Nat.not_le.mpr hn), ← ListEntry.accepts_ofWord]
  split <;> rfl

/-- A write of the hypervisor leaves the list registers alone, or is to one of them, which takes
the word. -/
theorem lists_writeVif (v : VirtualCpu) (cpu : Nat) (register : VifRegister) (value : Word) :
    (v.writeVif cpu register value).value.state.lists = v.lists ∨
      ∃ n < numListRegisters, register = .list n ∧ ListEntry.Takeable value := by
  cases register with
  | list n =>
    by_cases hn : n < numListRegisters
    · by_cases htakeable : ListEntry.Takeable value
      · exact .inr ⟨n, hn, rfl, htakeable⟩
      · rw [writeVif_list cpu hn, if_neg htakeable]
        exact .inl rfl
    · refine .inl ?_
      simp only [writeVif, if_pos (Nat.not_lt.mp hn)]
      rfl
  | _ => exact .inl rfl

theorem lists_writeGuest (v : VirtualCpu) (cpu : Nat) (register : CpuRegister) (value : Word) :
    (v.writeGuest cpu register value).value.state.lists = v.lists := by
  cases register with
  | activePriorities n => cases n <;> rfl
  | _ => rfl

/-- An acknowledge leaves the list registers alone, or takes one of them. -/
theorem lists_acknowledge (v : VirtualCpu) (cpu : Nat) :
    (v.acknowledge cpu).value.2.state.lists = v.lists ∨
      ∃ n < numListRegisters, (v.acknowledge cpu).value.2.state.lists =
        v.lists.alter n fun e => { e with pending := false, active := true } := by
  unfold acknowledge
  dsimp only
  split
  · exact .inl rfl
  · simp only [Traced.value_bind]
    split
    · exact .inl rfl
    · cases hfind : v.find? v.highestPending with
      | none => exact .inl rfl
      | some n => exact .inr ⟨n, ((find?_eq_some_iff v _ n).mp hfind).inRange, rfl⟩

/-- A completion leaves the list registers alone, or completes one of them. -/
theorem lists_complete (v : VirtualCpu) (cpu irq : Nat) :
    (v.complete cpu irq).value.1.lists = v.lists ∨
      ∃ n < numListRegisters, (v.complete cpu irq).value.1.lists =
        v.lists.alter n fun e => { e with active := false } := by
  simp only [complete, Traced.value_bind]
  cases hfind : v.find? irq with
  | none => exact .inl rfl
  | some n => exact .inr ⟨n, ((find?_eq_some_iff v _ n).mp hfind).inRange, rfl⟩

/-- A list register is free if it holds no interrupt. -/
theorem getLsbD_freeLists (v : VirtualCpu) (n : Nat) :
    v.freeLists.getLsbD n = true ↔ n < numListRegisters ∧ (v.lists.row n).pending = false ∧
      (v.lists.row n).active = false := by
  have hwidth : n < numListRegisters → n < 32 := fun hn => Nat.lt_trans hn (by decide)
  rw [freeLists, Word.getLsbD_ofBits, Bool.and_eq_true, Bool.and_eq_true, decide_eq_true_eq,
    decide_eq_true_eq, Bool.not_eq_true', ListEntry.live, Bool.or_eq_false_iff]
  exact ⟨fun h => h.2, fun h => ⟨hwidth h.1, h⟩⟩

end VirtualCpu

namespace Controller

variable {cfg : Config}

open VirtualCpu

/-! ### Writes of list registers -/

/-- A write to a list register writes it in the virtual half of the CPU. -/
theorem value_write_list (g : Controller cfg) (i : Initiator) {n : Nat}
    (hn : n < numListRegisters) (v : BitVec 64) :
    (g.write .vifControl i (0x100 + 4 * n) v .word).value =
      (.ok (), (g.putVirtual (cpuOf cfg i)
        ((g.virtuals.row (cpuOf cfg i)).writeVif (cpuOf cfg i) (.list n)
          (v.setWidth 32)).value).value) := by
  rw [numListRegisters] at hn
  obtain rfl | rfl | rfl | rfl : n = 0 ∨ n = 1 ∨ n = 2 ∨ n = 3 := by omega
  all_goals rfl

theorem value_read_list (g : Controller cfg) (i : Initiator) {n : Nat}
    (hn : n < numListRegisters) :
    (g.read .vifControl i (0x100 + 4 * n) .word).value =
      (.ok ((g.virtuals.row (cpuOf cfg i)).lists.row n).toWord, g) := by
  rw [numListRegisters] at hn
  obtain rfl | rfl | rfl | rfl : n = 0 ∨ n = 1 ∨ n = 2 ∨ n = 3 := by omega
  all_goals rfl

theorem value_read_free (g : Controller cfg) (i : Initiator) :
    (g.read .vifControl i 0x30 .word).value =
      (.ok (g.virtuals.row (cpuOf cfg i)).freeLists, g) := rfl

/-- A write to a list register whose word it does not take is answered and does nothing. -/
theorem write_list_refused (g : Controller cfg) (i : Initiator) {n : Nat}
    (hn : n < numListRegisters) {v : BitVec 64} (h : ¬ ListEntry.Takeable (v.setWidth 32)) :
    (g.write .vifControl i (0x100 + 4 * n) v .word).value = (.ok (), g) := by
  rw [value_write_list g i hn, writeVif_list _ hn, if_neg h, putVirtual_self]

/-- A word that is taken is all that changes in the list registers. -/
theorem row_after_taken (g : Controller cfg) {c : Nat} (hc : c < cfg.cpus) {i : Initiator}
    (own : cpuOf cfg i = c) {n : Nat} (hn : n < numListRegisters) {v : BitVec 64}
    (h : ListEntry.Takeable (v.setWidth 32)) :
    (g.after (.write .vifControl i (0x100 + 4 * n) v .word)).virtuals.row c =
      ((g.virtuals.row c).alterList n fun _ => .ofWord (v.setWidth 32)).decided := by
  show (g.write .vifControl i (0x100 + 4 * n) v .word).value.2.virtuals.row c = _
  rw [value_write_list g i hn, writeVif_list _ hn, if_pos h, own]
  exact (row_putVirtual g c _ hc).trans (if_pos rfl)

/-- At power-on no list register holds anything. -/
theorem lists_powerOn {c : Nat} (hc : c < cfg.cpus) {n : Nat} (hn : n < numListRegisters) :
    ((powerOn cfg).virtuals.row c).lists.row n = .empty := by
  rw [powerOn, Table.row_replicate, if_pos hc, VirtualCpu.powerOn, Table.row_replicate,
    if_pos hn]

/-! ### All other actions -/

/-- An action that is neither a reset nor leaves a word in a list register of a CPU changes those
of the CPU as the actions of its guest do, if at all. -/
theorem listsMove_after (g : Controller cfg) {c : Nat} (hc : c < cfg.cpus) {a : Action}
    (hreset : a ≠ .reset) (hnone : ∀ n < numListRegisters, takenWord? cfg c n a = none) :
    ListsMove cfg c (g.virtuals.row c) ((g.after a).virtuals.row c) a := by
  have hmoves := guestMoves_after g hc a
  generalize hw : (g.after a).virtuals.row c = w at hmoves
  cases hmoves with
  | stays => exact .stay _ fun _ => rfl
  | decides => exact .stay _ fun _ => rfl
  | powersOn => exact absurd rfl hreset
  | @hypervisorWrites i o v own =>
    by_cases aligned : o % 4 = 0
    · obtain hlists | ⟨n, hn, hregister, htakeable⟩ :=
        (g.virtuals.row c).lists_writeVif c (.ofOffset o) (v.setWidth 32)
      · refine .stay _ fun n => ?_
        rw [lists_result, hlists]
      · obtain rfl := VifRegister.offset_of_list aligned hregister
        have htaken : takenWord? cfg c n (.write .vifControl i (0x100 + 4 * n) v .word) =
            some (v.setWidth 32) := if_pos ⟨own, rfl, htakeable⟩
        cases (hnone n hn).symm.trans htaken
    · have hwindow : Interface.vifControl ≠ .distributor := by decide
      rw [after_write_unaligned g hwindow i v aligned] at hw
      rw [← hw]
      exact .stay _ fun _ => rfl
  | guestWrites own other =>
    refine .stay _ fun n => ?_
    rw [lists_result, lists_writeGuest]
  | acknowledges own =>
    obtain hlists | ⟨n, hn, hlists⟩ := (g.virtuals.row c).lists_acknowledge c
    · refine .stay _ fun n => ?_
      rw [lists_result, hlists]
    · obtain ⟨hentry, hothers⟩ := (g.virtuals.row c).row_lists_alter hn
        fun e => { e with pending := false, active := true }
      refine .acknowledged own hn ?_ fun m hm => ?_
      · rw [lists_result, hlists, hentry]
      · rw [lists_result, hlists, hothers m hm]
  | @completes i v own valid =>
    obtain hlists | ⟨n, hn, hlists⟩ :=
      (g.virtuals.row c).lists_complete c (Word.field (v.setWidth 32) 0 10)
    · refine .stay _ fun n => ?_
      rw [VirtualCpu.decided, settle, hlists]
    · obtain ⟨hentry, hothers⟩ := (g.virtuals.row c).row_lists_alter hn
        fun e => { e with active := false }
      refine .completed own hn ?_ fun m hm => ?_
      · rw [VirtualCpu.decided, settle, hlists, hentry]
      · rw [VirtualCpu.decided, settle, hlists, hothers m hm]

/-- What an action does with the list registers of a CPU, and what it does not. -/
structure ListLaw (g : Controller cfg) (c : Nat) : Prop where
  /-- A word that is taken is all that a list register holds then. The others stay as they are. -/
  taken : ∀ a, ∀ n < numListRegisters, ∀ word, takenWord? cfg c n a = some word →
    ((g.after a).virtuals.row c).lists.row n = .ofWord word ∧
      ∀ m ≠ n, ((g.after a).virtuals.row c).lists.row m = (g.virtuals.row c).lists.row m
  /-- A word that is not taken does nothing at all. -/
  refused : ∀ i n v, n < numListRegisters → ¬ ListEntry.Takeable (v.setWidth 32) →
    (g.write .vifControl i (0x100 + 4 * n) v .word).value = (.ok (), g) ∧
      (g.write .vifControl i (0x100 + 4 * n) v .word).changes = []
  /-- After a reset no list register holds anything. -/
  reset : ∀ n < numListRegisters, ((g.after .reset).virtuals.row c).lists.row n = .empty
  /-- All other actions change them as those of the guest do. -/
  other : ∀ a, a ≠ .reset → (∀ n < numListRegisters, takenWord? cfg c n a = none) →
    ListsMove cfg c (g.virtuals.row c) ((g.after a).virtuals.row c) a

theorem listLaw (g : Controller cfg) {c : Nat} (hc : c < cfg.cpus) : g.ListLaw c where
  taken a n hn word htaken := by
    obtain ⟨i, v, rfl, own, htakeable, rfl⟩ := takenWord?_eq_some_iff.mp htaken
    rw [row_after_taken g hc own hn htakeable]
    exact (g.virtuals.row c).row_lists_alter hn fun _ => .ofWord (v.setWidth 32)
  refused i n v hn hrefused := by
    have hvalue := write_list_refused g i hn hrefused
    let a : Action := .write .vifControl i (0x100 + 4 * n) v .word
    have hafter : g.after a = g := congrArg Prod.snd hvalue
    have hreset : a ≠ .reset := nofun
    refine ⟨hvalue, ?_⟩
    rw [← changes_step_write, changes_step_of_ne_reset g hreset, hafter, lineChanges_self]
  reset _ hn := by rw [after_reset, lists_powerOn hc hn]
  other a hreset hnone := listsMove_after g hc hreset hnone

/-! ### Runs -/

/-- A list register keeps the last word that was taken. -/
theorem written_after (g : Controller cfg) {c : Nat} (hc : c < cfg.cpus) (a : Action) {n : Nat}
    (hn : n < numListRegisters) :
    (((g.after a).virtuals.row c).lists.row n).written =
      nextTaken cfg c n ((g.virtuals.row c).lists.row n).written a := by
  have hlaw := g.listLaw hc
  by_cases hreset : a = .reset
  · rw [hreset, hlaw.reset n hn]
    rfl
  rw [nextTaken_of_ne_reset hreset]
  by_cases hnone : ∀ m < numListRegisters, takenWord? cfg c m a = none
  · rw [(hlaw.other a hreset hnone).written n, hnone n hn, Option.getD_none]
  · -- One of the list registers takes a word, this one or another.
    obtain ⟨m, hm, word, htaken⟩ : ∃ m < numListRegisters, ∃ word,
        takenWord? cfg c m a = some word := by
      simpa only [not_forall, ← Option.ne_none_iff_exists', exists_prop] using hnone
    obtain ⟨hentry, hothers⟩ := hlaw.taken a m hm word htaken
    by_cases hmn : n = m
    · rw [hmn, hentry, htaken]
      rfl
    · rw [hothers n hmn, takenWord?_eq_none_of_ne htaken hmn, Option.getD_none]

/-- After every run a list register keeps the last word that it has taken. -/
theorem written_run {c : Nat} (hc : c < cfg.cpus) {n : Nat} (hn : n < numListRegisters)
    (actions : List Action) :
    ((((powerOn cfg).run actions).virtuals.row c).lists.row n).written =
      lastTaken cfg c n actions := by
  induction actions using List.reverseRecOn with
  | nil =>
    show (((powerOn cfg).virtuals.row c).lists.row n).written = 0#32
    rw [lists_powerOn hc hn]
    rfl
  | append_singleton actions a ih =>
    rw [run_concat, lastTaken_concat, written_after _ hc a hn, ih]

/-- What is read of the list registers of a CPU, given the last words that they have taken. -/
structure ReadsLists (g : Controller cfg) (c : Nat) (last : Nat → Word) : Prop where
  /-- The last word is read, with the state as it is now in bits 28 and 29. -/
  read : ∀ i n, cpuOf cfg i = c → n < numListRegisters →
    ∃ word, (g.read .vifControl i (0x100 + 4 * n) .word).value = (.ok word, g) ∧
      ∀ bit < 32, word.getLsbD bit =
        if bit = 28 then ((g.virtuals.row c).lists.row n).pending
        else if bit = 29 then ((g.virtuals.row c).lists.row n).active
        else (last n).getLsbD bit
  /-- A list register is free if and only if both bits are clear in what is read of it. -/
  free : ∀ i, cpuOf cfg i = c →
    ∃ word, (g.read .vifControl i 0x30 .word).value = (.ok word, g) ∧
      ∀ n, word.getLsbD n = true ↔ n < numListRegisters ∧
        ∃ entry, (g.read .vifControl i (0x100 + 4 * n) .word).value.1 = .ok entry ∧
          entry.getLsbD 28 = false ∧ entry.getLsbD 29 = false

theorem readsLists_run {c : Nat} (hc : c < cfg.cpus) (actions : List Action) :
    ((powerOn cfg).run actions).ReadsLists c fun n => lastTaken cfg c n actions where
  read i n own hn := by
    refine ⟨_, value_read_list _ i hn, fun bit hbit => ?_⟩
    rw [own, ListEntry.getLsbD_toWord _ hbit, written_run hc hn]
  free i own := by
    refine ⟨_, value_read_free _ i, fun n => ?_⟩
    rw [own, getLsbD_freeLists]
    constructor
    · rintro ⟨hn, hpending, hactive⟩
      refine ⟨hn, _, congrArg Prod.fst (value_read_list _ i hn), ?_⟩
      rw [own, ListEntry.getLsbD_toWord _ (by decide), ListEntry.getLsbD_toWord _ (by decide)]
      exact ⟨hpending, hactive⟩
    · rintro ⟨hn, entry, hentry, hpending, hactive⟩
      rw [value_read_list _ i hn, own] at hentry
      obtain rfl := Except.ok.inj hentry
      rw [ListEntry.getLsbD_toWord _ (by decide)] at hpending hactive
      exact ⟨hn, hpending, hactive⟩

/-- After every run from power-on a list register of a connected CPU is read as the last word that
it has taken, with the live state in bits 28 and 29, and the register of the free ones tells for
which both are clear. A word is taken unless it names a physical interrupt that has no input, and
then nothing happens. Between two words that are taken the state is changed by a guest that
acknowledges or completes, in one list register at most. -/
theorem list_registers_read_live_state {c : Nat} (hc : c < cfg.cpus) (actions : List Action) :
    (∀ word, (ListEntry.ofWord word).toWord = word) ∧
      (∀ (e : ListEntry) pending active, ∀ bit < 32,
        (ListEntry.toWord { e with pending, active }).getLsbD bit =
          if bit = 28 then pending else if bit = 29 then active else e.toWord.getLsbD bit) ∧
      ((powerOn cfg).run actions).ReadsLists c (fun n => lastTaken cfg c n actions) ∧
      (∀ n < numListRegisters, ((powerOn cfg).virtuals.row c).lists.row n = .empty) ∧
      ((powerOn cfg).run actions).ListLaw c :=
  ⟨ListEntry.toWord_ofWord, fun e _ _ _ hbit => e.getLsbD_toWord_with _ _ hbit,
    readsLists_run hc actions, fun _ hn => lists_powerOn hc hn, listLaw _ hc⟩

/-- A guest has acknowledged interrupt 40 of the first list register. The second one has refused a
word that names the physical interrupt 3. -/
theorem list_registers_read_live_state_acknowledged :
    let actions : List Action :=
      [.write .vifControl (.cpu 0) 0x000 1 .word, .write .vcpuInterface (.cpu 0) 0x04 0xf0 .word,
        .write .vifControl (.cpu 0) 0x100 0x18000028 .word,
        .write .vifControl (.cpu 0) 0x104 0x90000c29 .word,
        .read .vcpuInterface (.cpu 0) 0x0c .word]
    let g := (powerOn Config.standard).run actions
    (0 < Config.standard.cpus ∧ lastTaken Config.standard 0 0 actions = 0x18000028#32 ∧
      lastTaken Config.standard 0 1 actions = 0#32 ∧
      (g.read .vifControl (.cpu 0) 0x100 .word).value.1 = .ok 0x28000028#32 ∧
      (g.read .vifControl (.cpu 0) 0x104 .word).value.1 = .ok 0#32 ∧
      (g.read .vifControl (.cpu 0) 0x030 .word).value.1 = .ok 0xe#32) ∧
    (∀ word, (ListEntry.ofWord word).toWord = word) ∧
    (∀ (e : ListEntry) pending active, ∀ bit < 32,
      (ListEntry.toWord { e with pending, active }).getLsbD bit =
        if bit = 28 then pending else if bit = 29 then active else e.toWord.getLsbD bit) ∧
    g.ReadsLists 0 (fun n => lastTaken Config.standard 0 n actions) ∧
    (∀ n < numListRegisters,
      ((powerOn Config.standard).virtuals.row 0).lists.row n = .empty) ∧ g.ListLaw 0 := by
  intro actions g
  refine ⟨?_, list_registers_read_live_state (by decide) actions⟩
  decide +kernel

end Controller

end Gic
