import Gic.Physical.DistributorAccess
import Gic.Register.CpuRegister
import Gic.Register.VifRegister
import Gic.Proofs.Offsets

/-!
# Operations that can fail

The operations on tables, numbers and words that the controller is made of are
total: past the end of a table every row is the default one, a difference below
zero is zero, a shift by too much clears the word. Wherever the controller uses
them beyond their proper range, that would go unnoticed. The operations of this
module fail instead.

## The model

* `Table.at?`, `Table.alter?`, `Table.alterFrom?` — a row of a table, the table with
  that row changed, and the table with some of its rows changed one after the other,
  if the table has such rows.
* `minus?`, `shiftLeft?`, `shiftRight?` — a difference, if it is a number, and a
  word shifted by less than its width.
* `Word.gather?` — a word that is put together bit by bit.
* `CpuMask.only?`, `CpuMask.first?`, `CpuMask.has?` — sets of CPUs by shifted bits.
* `ofOffset?` of each kind of register — the register at an offset, with the
  distance from the start of its array as a difference.

## What is proved

* In range each of them yields what the total operation yields (`at?_of_lt`,
  `alter?_of_lt`, `minus?_of_le`, `shiftLeft?_of_lt`, `gather?_eq`).
* `alterFrom?_eq` — a loop over rows does not fail if no step does.
* `ofOffset?_eq` — registers are found without going below the start of an array.
-/

namespace Gic

/-- A step that yields something. -/
theorem some_bind {α β : Type} (a : α) (f : α → Option β) : (some a >>= f) = f a := rfl

/-- A choice between two that yield something yields what is chosen. -/
theorem ite_eq_some {α : Type} {c : Prop} [Decidable c] {a b : Option α} {x y : α}
    (ha : c → a = some x) (hb : ¬ c → b = some y) :
    (if c then a else b) = some (if c then x else y) := by
  split
  · rename_i h
    exact ha h
  · rename_i h
    exact hb h

/-! ### Tables -/

/-- A loop over the numbers below `n`, if what it has made before each step is known and no step
fails on that. -/
theorem foldlM_range {α : Type} (step : α → Nat → Option α) (made : Nat → α) {n : Nat}
    (h : ∀ i < n, step (made i) i = some (made (i + 1))) :
    (List.range n).foldlM step (made 0) = some (made n) := by
  induction n with
  | zero => rfl
  | succ n ih =>
    rw [List.range_succ, List.foldlM_append, ih fun i hi => h i (by omega)]
    simp only [List.foldlM_cons, List.foldlM_nil, Option.bind_eq_bind, Option.bind_some,
      h n (by omega), Option.pure_def]

namespace Table

variable {n : Nat} {α : Type}

/-- Row `i`, if there is one. -/
def at? (t : Table n α) (i : Nat) : Option α := t.cells[i]?

/-- Replaces row `i` by what is made of it, if there is such a row and it can be made. -/
def alter? (t : Table n α) (i : Nat) (f : α → Option α) : Option (Table n α) := do
  let a ← f (← t.at? i)
  return t.alter i fun _ => a

theorem at?_of_lt [Inhabited α] (t : Table n α) {i : Nat} (h : i < n) :
    t.at? i = some (t.row i) := by
  have h : i < t.cells.size := by rw [t.size_cells]; exact h
  rw [row_eq, at?, Array.getElem?_eq_getElem h]
  rfl

/-- A row that is looked up with the default one for a row that is not there. -/
theorem getD_at? [Inhabited α] (t : Table n α) (i : Nat) :
    (t.at? i).getD default = t.row i := (row_eq t i).symm

theorem alter?_of_lt [Inhabited α] (t : Table n α) {i : Nat} (h : i < n) {f? : α → Option α}
    {f : α → α} (hf : f? (t.row i) = some (f (t.row i))) : t.alter? i f? = some (t.alter i f) := by
  simp only [alter?, at?_of_lt t h, hf, Option.bind_eq_bind, Option.bind_some, Option.pure_def]
  refine congrArg some (ext_row fun j _ => ?_)
  rw [row_alter, row_alter]
  split
  · rename_i hij
    rw [hij.1]
  · rfl

/-- A change that cannot fail. -/
theorem alter?_some [Inhabited α] (t : Table n α) {i : Nat} (h : i < n) (f : α → α) :
    (t.alter? i fun a => some (f a)) = some (t.alter i f) :=
  alter?_of_lt t h rfl

/-- Replaces row `i`, if it is chosen. -/
def alterIf? (t : Table n α) (i : Nat) (chosen? : Option Bool) (f : α → Option α) :
    Option (Table n α) := do
  if ← chosen? then t.alter? i f else return t

/-- Goes over `count` rows from row `first` on, and replaces those that are chosen. The row at
distance `k` is row `first + k`. -/
def alterFrom? (t : Table n α) (first count : Nat) (chosen? : Nat → Option Bool)
    (f? : Nat → α → Option α) : Option (Table n α) :=
  (List.range count).foldlM (fun t k => t.alterIf? (first + k) (chosen? k) (f? k)) t

/-- A step of such a loop: if those that are done were replaced, so are the next ones. -/
theorem alterIf?_mapRows [Inhabited α] (t : Table n α) {done next : Nat → Prop}
    [DecidablePred done] [DecidablePred next] {i : Nat} {chosen : Bool} {f? : α → Option α}
    {f : Nat → α → α}
    (hpick : chosen = true → i < n ∧ ¬ done i ∧ f? (t.row i) = some (f i (t.row i)))
    (hnext : ∀ j, next j ↔ done j ∨ (j = i ∧ chosen = true)) :
    (t.mapRows fun j a => if done j then f j a else a).alterIf? i (some chosen) f? =
      some (t.mapRows fun j a => if next j then f j a else a) := by
  rw [alterIf?, Option.bind_eq_bind, Option.bind_some]
  by_cases hchosen : chosen = true
  · obtain ⟨hi, hnot, hmade⟩ := hpick hchosen
    have hrow : (t.mapRows fun j a => if done j then f j a else a).row i = t.row i := by
      rw [row_mapRows, if_pos hi, if_neg hnot]
    rw [if_pos hchosen, alter?_of_lt (f := f i) _ hi (by rw [hrow, hmade])]
    refine congrArg some (ext_row fun j hj => ?_)
    rw [row_alter, row_mapRows, row_mapRows, if_pos hj, if_pos hj]
    by_cases hij : i = j
    · subst hij
      rw [if_pos ⟨rfl, hi⟩, if_neg hnot, if_pos ((hnext i).mpr (.inr ⟨rfl, hchosen⟩))]
    · rw [if_neg fun h => hij h.1]
      refine ite_congr (propext ?_) (fun _ => rfl) fun _ => rfl
      rw [hnext j, or_iff_left fun h => hij h.1.symm]
  · rw [if_neg hchosen, Option.pure_def]
    refine congrArg some (ext_row fun j hj => ?_)
    rw [row_mapRows, row_mapRows, if_pos hj, if_pos hj]
    refine ite_congr (propext ?_) (fun _ => rfl) fun _ => rfl
    rw [hnext j, or_iff_left fun h => hchosen h.2]

/-- Such a loop does not fail if the chosen rows are there and each of them can be replaced. -/
theorem alterFrom?_eq [Inhabited α] (t : Table n α) {first count : Nat} (chosen : Nat → Bool)
    (f : Nat → α → α) {chosen? : Nat → Option Bool} {f? : Nat → α → Option α}
    (hchosen : ∀ k < count, chosen? k = some (chosen k))
    (hf : ∀ k < count, chosen k = true → first + k < n ∧
      f? k (t.row (first + k)) = some (f (first + k) (t.row (first + k)))) :
    t.alterFrom? first count chosen? f? = some (t.mapRows fun i a =>
      if first ≤ i ∧ i < first + count ∧ chosen (i - first) = true then f i a else a) := by
  -- The chosen rows at a distance below `k` are done.
  have hloop := foldlM_range (fun t k => t.alterIf? (first + k) (chosen? k) (f? k))
    (fun k => t.mapRows fun i a =>
      if first ≤ i ∧ i < first + k ∧ chosen (i - first) = true then f i a else a) fun k hk => by
    rw [hchosen k hk]
    refine alterIf?_mapRows t (fun hpick => ?_) fun i => ?_
    · obtain ⟨hin, hmade⟩ := hf k hk hpick
      exact ⟨hin, fun h => Nat.lt_irrefl _ h.2.1, hmade⟩
    · constructor
      · rintro ⟨hle, hlt, hpick⟩
        by_cases hi : i = first + k
        · exact .inr ⟨hi, by rw [← hpick, hi, Nat.add_sub_cancel_left]⟩
        · exact .inl ⟨hle, by omega, hpick⟩
      · rintro (⟨hle, hlt, hpick⟩ | ⟨rfl, hpick⟩)
        · exact ⟨hle, by omega, hpick⟩
        · exact ⟨by omega, by omega, by rw [Nat.add_sub_cancel_left, hpick]⟩
  have hstart : (t.mapRows fun i a =>
      if first ≤ i ∧ i < first + 0 ∧ chosen (i - first) = true then f i a else a) = t := by
    refine ext_row fun i hi => ?_
    rw [row_mapRows, if_pos hi, if_neg fun h => absurd h.2.1 (Nat.not_lt.mpr h.1)]
  rw [hstart] at hloop
  exact hloop

/-- If all rows are chosen and each can be replaced, all are. -/
theorem alterFrom?_all [Inhabited α] (t : Table n α) (f : Nat → α → α)
    {f? : Nat → α → Option α} (hf : ∀ i < n, f? i (t.row i) = some (f i (t.row i))) :
    t.alterFrom? 0 n (fun _ => some true) f? = some (t.mapRows f) := by
  rw [alterFrom?_eq t (fun _ => true) f (fun _ _ => rfl) fun k hk _ => by
    rw [Nat.zero_add]
    exact ⟨hk, hf k hk⟩]
  refine congrArg some (ext_row fun i hi => ?_)
  rw [row_mapRows, row_mapRows, if_pos hi, if_pos hi,
    if_pos ⟨Nat.zero_le i, (Nat.zero_add n).symm ▸ hi, rfl⟩]

end Table

/-! ### Numbers and words -/

/-- The difference of two numbers, if it is one. -/
def minus? (a b : Nat) : Option Nat := if b ≤ a then some (a - b) else none

theorem minus?_of_le {a b : Nat} (h : b ≤ a) : minus? a b = some (a - b) := if_pos h

example : minus? 31 32 = none := by decide

/-- A word shifted to the left by less than its width. -/
def shiftLeft? {w : Nat} (x : BitVec w) (amount : Nat) : Option (BitVec w) :=
  if amount < w then some (x <<< amount) else none

theorem shiftLeft?_of_lt {w : Nat} (x : BitVec w) {amount : Nat} (h : amount < w) :
    shiftLeft? x amount = some (x <<< amount) := if_pos h

example : shiftLeft? 1#32 32 = none := by decide

/-- A word shifted to the right by less than its width. -/
def shiftRight? {w : Nat} (x : BitVec w) (amount : Nat) : Option (BitVec w) :=
  if amount < w then some (x >>> amount) else none

theorem shiftRight?_of_lt {w : Nat} (x : BitVec w) {amount : Nat} (h : amount < w) :
    shiftRight? x amount = some (x >>> amount) := if_pos h

/-- The word of which only the bit `n` is set. -/
theorem shiftLeft?_one {w n : Nat} (h : n < w) :
    shiftLeft? 1#w n = some (BitVec.twoPow w n) := by
  rw [shiftLeft?_of_lt _ h, BitVec.twoPow_eq]

/-- Whether a bit of a word is set, by a mask of one bit. -/
theorem mask_bne_zero {w : Nat} (x : BitVec w) {n : Nat} (h : n < w) :
    (x &&& BitVec.twoPow w n != 0#w) = x.getLsbD n := by
  have hne : BitVec.twoPow w n ≠ 0#w := by
    intro hzero
    have hbit := congrArg (BitVec.getLsbD · n) hzero
    simp [h] at hbit
  rw [BitVec.and_twoPow]
  cases x.getLsbD n <;> simp [hne]

/-- Four bytes in a word, each shifted to its place. -/
theorem append_bytes (a b c d : BitVec 8) :
    a ++ b ++ c ++ d =
      d.setWidth 32 ||| c.setWidth 32 <<< 8 ||| b.setWidth 32 <<< 16 ||| a.setWidth 32 <<< 24 := by
  apply BitVec.eq_of_getLsbD_eq
  intro i hi
  have hi : i < 32 := hi
  have hout : ∀ (x : BitVec 8) {j : Nat}, 8 ≤ j → x.getLsbD j = false := BitVec.getLsbD_of_ge
  simp only [BitVec.getLsbD_append, BitVec.getLsbD_or, BitVec.getLsbD_shiftLeft,
    BitVec.getLsbD_setWidth, hi, decide_true, Bool.true_and, Nat.sub_sub]
  -- The bit lies in one of the four bytes.
  rcases Nat.lt_or_ge i 8 with h | h
  · grind
  rcases Nat.lt_or_ge i 16 with h | h
  · grind
  rcases Nat.lt_or_ge i 24 with h | h
  · grind
  · grind

/-- A byte of a word, shifted down. -/
theorem setWidth_ushiftRight (x : Word) (n : Nat) :
    (x >>> n).setWidth 8 = x.extractLsb' n 8 := by
  apply BitVec.eq_of_getLsbD_eq
  intro i _
  rw [BitVec.getLsbD_setWidth, BitVec.getLsbD_ushiftRight, BitVec.getLsbD_extractLsb']

/-- The word whose bits below `n` are given by `bit`, none of which may fail. -/
def Word.gather? (bit : Nat → Option Bool) : Nat → Option Word
  | 0 => some 0#32
  | n + 1 => do
    let below ← gather? bit n
    if ← bit n then return below ||| (← shiftLeft? 1#32 n) else return below

theorem Word.gather?_eq {bit? : Nat → Option Bool} {bit : Nat → Bool} {n : Nat} (hn : n ≤ 32)
    (h : ∀ i < n, bit? i = some (bit i)) : gather? bit? n = some (gather bit n) := by
  induction n with
  | zero => rfl
  | succ n ih =>
    have hbelow := ih (by omega) fun i hi => h i (by omega)
    have hone : shiftLeft? 1#32 n = some (BitVec.twoPow 32 n) := shiftLeft?_one (by omega)
    simp only [gather?, gather, hbelow, h n (by omega), hone, Option.bind_eq_bind,
      Option.bind_some, Option.pure_def]
    split <;> rfl

namespace CpuMask

/-- The set of a CPU alone, if the controller can serve it. -/
def only? (cpu : Nat) : Option CpuMask := shiftLeft? 1#8 cpu

/-- The first `count` CPUs. -/
def first? (count : Nat) : Option CpuMask :=
  if count < maxCpus then do
    let above ← shiftLeft? 1#8 count
    (minus? above.toNat 1).map (BitVec.ofNat 8)
  else some all

/-- Whether a CPU is in a set. -/
def has? (mask : CpuMask) (cpu : Nat) : Option Bool :=
  if cpu < maxCpus then (shiftLeft? 1#8 cpu).map fun own => mask &&& own != 0#8 else some false

theorem only?_eq {cpu : Nat} (h : cpu < maxCpus) : only? cpu = some (only cpu) := by
  have hbit : shiftLeft? 1#8 cpu = some (BitVec.twoPow 8 cpu) := shiftLeft?_one h
  rw [only?, hbit, only, if_pos h]

theorem first?_eq (count : Nat) : first? count = some (first count) := by
  refine ite_eq_some (fun h => ?_) fun _ => rfl
  have hcount : count < 8 := h
  have habove : (1#8 <<< count).toNat = 1 <<< count := by
    have hlt : 1 <<< count < 256 := by
      rw [Nat.one_shiftLeft]
      exact Nat.pow_lt_pow_right (by decide) hcount
    rw [BitVec.toNat_shiftLeft]
    exact Nat.mod_eq_of_lt hlt
  have hpos : 1 ≤ 1 <<< count := by
    rw [Nat.one_shiftLeft]
    exact Nat.one_le_two_pow
  rw [shiftLeft?_of_lt _ hcount, some_bind, habove, minus?_of_le hpos]
  rfl

theorem has?_eq (mask : CpuMask) (cpu : Nat) : mask.has? cpu = some (mask.has cpu) := by
  unfold has? has
  by_cases h : cpu < maxCpus
  · have hbit : shiftLeft? 1#8 cpu = some (BitVec.twoPow 8 cpu) := shiftLeft?_one h
    rw [if_pos h, hbit, Option.map_some, mask_bne_zero mask h, decide_eq_true h, Bool.true_and]
  · rw [if_neg h, decide_eq_false h, Bool.false_and]

end CpuMask

/-! ### Registers -/

/-- The register of the distributor at an offset. -/
def DistributorRegister.ofOffset? (offset : Nat) : Option DistributorRegister :=
  if offset < 0x004 then some control
  else if offset < 0x008 then some controllerType
  else if offset < 0x00c then some implementer
  else if offset < 0x080 then some reserved
  else if offset < 0x100 then (minus? offset 0x080).map fun o => group (o / 4)
  else if offset < 0x180 then (minus? offset 0x100).map fun o => setEnable (o / 4)
  else if offset < 0x200 then (minus? offset 0x180).map fun o => clearEnable (o / 4)
  else if offset < 0x280 then (minus? offset 0x200).map fun o => setPending (o / 4)
  else if offset < 0x300 then (minus? offset 0x280).map fun o => clearPending (o / 4)
  else if offset < 0x380 then (minus? offset 0x300).map fun o => setActive (o / 4)
  else if offset < 0x400 then (minus? offset 0x380).map fun o => clearActive (o / 4)
  else if offset < 0x7fc then (minus? offset 0x400).map priority
  else if offset < 0x800 then some reserved
  else if offset < 0xbfc then (minus? offset 0x800).map targets
  else if offset < 0xc00 then some reserved
  else if offset < 0xd00 then (minus? offset 0xc00).map fun o => trigger (o / 4)
  else if offset < 0xf00 then some reserved
  else if offset < 0xf04 then some sgi
  else if offset < 0xf10 then some reserved
  else if offset < 0xf20 then (minus? offset 0xf10).map clearSources
  else if offset < 0xf30 then (minus? offset 0xf20).map setSources
  else if offset < 0xff0 then some reserved
  else if offset < 0x1000 then (minus? offset 0xff0).map fun o => component (o / 4)
  else some reserved

/-- The register of a CPU interface at an offset. -/
def CpuRegister.ofOffset? (offset : Nat) : Option CpuRegister :=
  if offset = 0x00 then some control
  else if offset = 0x04 then some priorityMask
  else if offset = 0x08 then some binaryPoint
  else if offset = 0x0c then some acknowledge
  else if offset = 0x10 then some completion
  else if offset = 0x14 then some runningPriority
  else if offset = 0x18 then some highestPending
  else if offset = 0x1c then some aliasPoint
  else if 0xd0 ≤ offset ∧ offset < 0xe0 then
    (minus? offset 0xd0).map fun o => activePriorities (o / 4)
  else if offset = 0xfc then some identification
  else if 0xff0 ≤ offset ∧ offset < 0x1000 then
    (minus? offset 0xff0).map fun o => component (o / 4)
  else if offset = 0x1000 then some deactivation
  else some reserved

/-- The register of the hypervisor's window at an offset. -/
def VifRegister.ofOffset? (offset : Nat) : Option VifRegister :=
  if offset = 0x00 then some control
  else if offset = 0x04 then some vifType
  else if offset = 0x08 then some machineControl
  else if offset = 0x30 then some freeLists
  else if offset = 0xf0 then some activePriorities
  else if 0x100 ≤ offset ∧ offset < 0x200 then (minus? offset 0x100).map fun o => list (o / 4)
  else some reserved

theorem DistributorRegister.ofOffset?_eq (offset : Nat) :
    ofOffset? offset = some (ofOffset offset) := by
  unfold ofOffset? ofOffset
  -- Each array starts where the choices before it have ended.
  repeat' refine ite_eq_some (fun _ => ?_) fun _ => ?_
  all_goals first
    | rfl
    | rw [minus?_of_le (by omega)]; rfl

theorem CpuRegister.ofOffset?_eq (offset : Nat) : ofOffset? offset = some (ofOffset offset) := by
  unfold ofOffset? ofOffset
  repeat' refine ite_eq_some (fun _ => ?_) fun _ => ?_
  all_goals first
    | rfl
    | rw [minus?_of_le (by omega)]; rfl

theorem VifRegister.ofOffset?_eq (offset : Nat) : ofOffset? offset = some (ofOffset offset) := by
  unfold ofOffset? ofOffset
  repeat' refine ite_eq_some (fun _ => ?_) fun _ => ?_
  all_goals first
    | rfl
    | rw [minus?_of_le (by omega)]; rfl

/-- The component identification has four bytes, at the distributor. -/
theorem DistributorRegister.component_lt {offset n : Nat} (h : ofOffset offset = .component n) :
    n < 4 := by
  unfold ofOffset at h
  iterate 22 replace h := (peel h nofun).2
  rcases chosen h with ⟨hrange, hplace⟩ | ⟨-, h⟩
  · rw [component.injEq] at hplace
    omega
  · cases h

/-- And at a CPU interface. -/
theorem CpuRegister.component_lt {offset n : Nat} (h : ofOffset offset = .component n) :
    n < 4 := by
  unfold ofOffset at h
  iterate 10 replace h := (peel h nofun).2
  rcases chosen h with ⟨hrange, hplace⟩ | ⟨-, h⟩
  · rw [component.injEq] at hplace
    omega
  · replace h := (peel h nofun).2
    cases h

/-- The byte `n` of the component identification. -/
def componentIdByte? (n : Nat) : Option Word :=
  (shiftRight? componentId (8 * n)).map (· &&& 0xff#32)

theorem componentIdByte?_eq {n : Nat} (h : n < 4) :
    componentIdByte? n = some (componentIdByte n) := by
  rw [componentIdByte?, shiftRight?_of_lt _ (by omega)]
  rfl

end Gic
