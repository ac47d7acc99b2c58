import Gic.Text.Shown

/-!
# Sets of processors

The controller serves up to eight CPUs. A set of them is an eight-bit mask: bit
`c` is CPU `c`. Interrupt state, target lists and sources of software generated
interrupts are all kept as such masks. What an operation does to a mask is said
bit by bit (`getLsbD_assign` and its kin).
-/

namespace Gic

/-- The number of CPUs the controller can serve. -/
def maxCpus : Nat := 8

/-- A set of CPUs. -/
abbrev CpuMask := BitVec 8

namespace CpuMask

/-- Every CPU. -/
def all : CpuMask := BitVec.allOnes 8

/-- The set of `cpu` alone, empty if the controller cannot serve it. -/
def only (cpu : Nat) : CpuMask := if cpu < maxCpus then BitVec.twoPow 8 cpu else 0#8

/-- The first `count` CPUs. -/
def first (count : Nat) : CpuMask :=
  if count < maxCpus then BitVec.ofNat 8 (1 <<< count - 1) else all

/-- Whether `cpu` is in the set. -/
def has (mask : CpuMask) (cpu : Nat) : Bool := decide (cpu < maxCpus) && mask.getLsbD cpu

/-- The members, in ascending order. -/
def members (mask : CpuMask) : List Nat := (List.range maxCpus).filter mask.has

/-- The lowest member. -/
def lowest? (mask : CpuMask) : Option Nat := (List.range maxCpus).find? mask.has

/-- Whether two sets share a member. -/
def meets (a b : CpuMask) : Bool := a &&& b != 0#8

/-- Whether every member of `b` is in `a`. -/
def includes (a b : CpuMask) : Bool := a &&& b == b

/-- Takes the members of `chosen` in or out. -/
def assign (mask chosen : CpuMask) (value : Bool) : CpuMask :=
  if value then mask ||| chosen else mask &&& ~~~chosen

/-- The names of the members. -/
def shown (mask : CpuMask) : String :=
  Text.shownFlags "CpuMask" (mask.members.map fun cpu => "CPU" ++ toString cpu)

theorem getLsbD_of_le (mask : CpuMask) {cpu : Nat} (h : maxCpus ≤ cpu) : mask.getLsbD cpu = false :=
  BitVec.getLsbD_of_ge mask cpu h

theorem has_eq (mask : CpuMask) (cpu : Nat) : mask.has cpu = mask.getLsbD cpu := by
  by_cases h : cpu < maxCpus
  · simp [has, h]
  · simp [has, h, getLsbD_of_le mask (Nat.le_of_not_lt h)]

theorem getLsbD_only (cpu i : Nat) :
    (only cpu).getLsbD i = (decide (cpu < maxCpus) && decide (cpu = i)) := by
  unfold only
  split
  · rename_i h
    have h' : cpu < 8 := h
    rw [BitVec.getLsbD_twoPow]
    simp [h, h']
  · rename_i h
    simp [h]

theorem getLsbD_only_iff {cpu : Nat} (h : cpu < maxCpus) (i : Nat) :
    (only cpu).getLsbD i = true ↔ i = cpu := by
  rw [getLsbD_only, decide_eq_true h, Bool.true_and, decide_eq_true_eq]
  exact eq_comm

theorem getLsbD_all (i : Nat) : all.getLsbD i = decide (i < maxCpus) :=
  BitVec.getLsbD_allOnes

theorem getLsbD_first (count i : Nat) :
    (first count).getLsbD i = (decide (i < count) && decide (i < maxCpus)) := by
  unfold first
  split
  · rw [BitVec.getLsbD_ofNat, Nat.one_shiftLeft, Nat.testBit_two_pow_sub_one, Bool.and_comm]
    rfl
  · rw [getLsbD_all]
    have : i < maxCpus → i < count := by omega
    by_cases hi : i < maxCpus <;> simp [hi, this]

theorem getLsbD_assign (mask chosen : CpuMask) (value : Bool) (i : Nat) :
    (mask.assign chosen value).getLsbD i = if chosen.getLsbD i then value else mask.getLsbD i := by
  by_cases hi : i < 8
  · cases value
    · simp only [assign, Bool.false_eq_true, if_false, BitVec.getLsbD_and, BitVec.getLsbD_not, hi]
      cases chosen.getLsbD i <;> simp
    · simp only [assign, if_true, BitVec.getLsbD_or]
      cases chosen.getLsbD i <;> simp
  · have hi : maxCpus ≤ i := Nat.le_of_not_lt hi
    simp only [getLsbD_of_le _ hi, Bool.false_eq_true, if_false]

theorem getLsbD_assign_true (mask chosen : CpuMask) (i : Nat) :
    (mask.assign chosen true).getLsbD i = true ↔
      chosen.getLsbD i = true ∨ mask.getLsbD i = true := by
  rw [getLsbD_assign]
  cases chosen.getLsbD i <;> simp

theorem getLsbD_assign_false (mask chosen : CpuMask) (i : Nat) :
    (mask.assign chosen false).getLsbD i = true ↔
      mask.getLsbD i = true ∧ ¬ chosen.getLsbD i = true := by
  rw [getLsbD_assign]
  cases chosen.getLsbD i <;> simp

theorem assign_zero (mask : CpuMask) (value : Bool) : mask.assign 0#8 value = mask := by
  cases value with
  | false => rw [assign, if_neg Bool.false_ne_true, BitVec.not_zero, BitVec.and_allOnes]
  | true => rw [assign, if_pos rfl, BitVec.or_zero]

theorem assign_all_true (mask : CpuMask) : mask.assign all true = all := by
  rw [assign, all, if_pos rfl, BitVec.or_allOnes]

theorem assign_all_false (mask : CpuMask) : mask.assign all false = 0#8 := by
  rw [assign, all, if_neg Bool.false_ne_true, BitVec.not_allOnes, BitVec.and_zero]

theorem eq_zero_iff (mask : CpuMask) : mask = 0#8 ↔ ∀ i, mask.getLsbD i = false := by
  constructor
  · rintro rfl
    simp
  · intro h
    apply BitVec.eq_of_getLsbD_eq
    simp [h]

theorem ne_zero_iff (mask : CpuMask) : mask ≠ 0#8 ↔ ∃ i, mask.getLsbD i = true := by
  rw [ne_eq, eq_zero_iff]
  simp

theorem meets_only (mask : CpuMask) {cpu : Nat} (h : cpu < maxCpus) :
    mask.meets (only cpu) = mask.getLsbD cpu := by
  rw [Bool.eq_iff_iff, meets, bne_iff_ne, ne_zero_iff]
  simp only [BitVec.getLsbD_and, getLsbD_only, h, decide_true, Bool.true_and, Bool.and_eq_true,
    decide_eq_true_eq]
  constructor
  · rintro ⟨i, hi, rfl⟩
    exact hi
  · intro hi
    exact ⟨cpu, hi, rfl⟩

theorem meets_all (mask : CpuMask) : mask.meets all = (mask != 0#8) := by
  rw [meets, all, BitVec.and_allOnes]

theorem zero_meets (mask : CpuMask) : meets 0#8 mask = false := by
  rw [meets, BitVec.zero_and]
  rfl

theorem lowest?_eq_some_iff (mask : CpuMask) (cpu : Nat) :
    mask.lowest? = some cpu ↔ mask.getLsbD cpu = true ∧ ∀ i < cpu, mask.getLsbD i = false := by
  rw [lowest?, List.find?_range_eq_some]
  simp only [has_eq, List.mem_range, Bool.not_eq_true']
  constructor
  · rintro ⟨h, -, hlow⟩
    exact ⟨h, hlow⟩
  · rintro ⟨h, hlow⟩
    refine ⟨h, ?_, hlow⟩
    apply Decidable.byContradiction
    intro hcpu
    rw [getLsbD_of_le mask (Nat.le_of_not_lt hcpu)] at h
    cases h

theorem lowest?_eq_none_iff (mask : CpuMask) : mask.lowest? = none ↔ mask = 0#8 := by
  rw [lowest?, List.find?_eq_none, eq_zero_iff]
  simp only [has_eq, List.mem_range, Bool.not_eq_true]
  constructor
  · intro h i
    by_cases hi : i < maxCpus
    · exact h i hi
    · exact getLsbD_of_le mask (Nat.le_of_not_lt hi)
  · intro h i _
    exact h i

end CpuMask

end Gic
