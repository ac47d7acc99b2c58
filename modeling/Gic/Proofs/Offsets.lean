import Gic.Register.CpuRegister
import Gic.Register.DistributorRegister
import Gic.Config

/-!
# Which offsets select which registers

An offset is turned into a register by a long chain of choices. The proofs about
accesses need it the other way round, for the few registers that act: which
offsets select them.
-/

namespace Gic

/-- If the first of the remaining choices is not what was chosen, it is one of the others. -/
theorem peel {α : Type} {c : Prop} [Decidable c] {a b r : α} (h : (if c then a else b) = r)
    (ha : a ≠ r) : ¬ c ∧ b = r := by
  split at h
  · exact absurd h ha
  · rename_i hc
    exact ⟨hc, h⟩

/-- What was chosen is the first, or one of the others. -/
theorem chosen {α : Type} {c : Prop} [Decidable c] {a b r : α} (h : (if c then a else b) = r) :
    (c ∧ a = r) ∨ (¬ c ∧ b = r) := by
  split at h
  · rename_i hc
    exact .inl ⟨hc, h⟩
  · rename_i hc
    exact .inr ⟨hc, h⟩

namespace CpuRegister

theorem offset_of_acknowledge {o : Nat} (h : ofOffset o = .acknowledge) : o = 0x0c := by
  unfold ofOffset at h
  iterate 3 replace h := (peel h nofun).2
  by_cases ho : o = 0x0c
  · exact ho
  · rw [if_neg ho] at h
    iterate 8 replace h := (peel h nofun).2
    cases h

theorem offset_of_completion {o : Nat} (h : ofOffset o = .completion) : o = 0x10 := by
  unfold ofOffset at h
  iterate 4 replace h := (peel h nofun).2
  by_cases ho : o = 0x10
  · exact ho
  · rw [if_neg ho] at h
    iterate 7 replace h := (peel h nofun).2
    cases h

end CpuRegister

namespace DistributorRegister

theorem offset_of_clearActive {o n : Nat} (h : ofOffset o = .clearActive n) :
    0x380 ≤ o ∧ o < 0x400 := by
  unfold ofOffset at h
  iterate 9 replace h := (peel h nofun).2
  obtain ⟨hlow, h⟩ := peel h nofun
  by_cases high : o < 0x400
  · exact ⟨Nat.not_lt.mp hlow, high⟩
  · rw [if_neg high] at h
    iterate 12 replace h := (peel h nofun).2
    cases h

theorem offset_of_sgi {o : Nat} (h : ofOffset o = .sgi) : 0xf00 ≤ o ∧ o < 0xf04 := by
  unfold ofOffset at h
  iterate 16 replace h := (peel h nofun).2
  obtain ⟨hlow, h⟩ := peel h nofun
  by_cases high : o < 0xf04
  · exact ⟨Nat.not_lt.mp hlow, high⟩
  · rw [if_neg high] at h
    iterate 5 replace h := (peel h nofun).2
    cases h

theorem offset_of_clearSources {o n : Nat} (h : ofOffset o = .clearSources n) :
    o = 0xf10 + n := by
  unfold ofOffset at h
  iterate 18 replace h := (peel h nofun).2
  obtain ⟨hlow, h⟩ := peel h nofun
  by_cases high : o < 0xf20
  · rw [if_pos high] at h
    have h := clearSources.inj h
    omega
  · rw [if_neg high] at h
    iterate 3 replace h := (peel h nofun).2
    cases h

theorem offset_of_setSources {o n : Nat} (h : ofOffset o = .setSources n) : o = 0xf20 + n := by
  unfold ofOffset at h
  iterate 19 replace h := (peel h nofun).2
  obtain ⟨hlow, h⟩ := peel h nofun
  by_cases high : o < 0xf30
  · rw [if_pos high] at h
    have h := setSources.inj h
    omega
  · rw [if_neg high] at h
    iterate 2 replace h := (peel h nofun).2
    cases h

theorem ofOffset_eq_clearSources {o n : Nat} (hn : n < numSgis) :
    ofOffset o = .clearSources n ↔ o = 0xf10 + n := by
  constructor
  · exact offset_of_clearSources
  · rintro rfl
    revert n
    decide

theorem ofOffset_eq_setSources {o n : Nat} (hn : n < numSgis) :
    ofOffset o = .setSources n ↔ o = 0xf20 + n := by
  constructor
  · exact offset_of_setSources
  · rintro rfl
    revert n
    decide

/-- The bytes of the arrays of bytes: priorities, targets, and sources of software generated
interrupts. -/
theorem isByte_iff (o : Nat) :
    (ofOffset o).isByte = true ↔
      (0x400 ≤ o ∧ o < 0x7fc) ∨ (0x800 ≤ o ∧ o < 0xbfc) ∨ (0xf10 ≤ o ∧ o < 0xf30) := by
  generalize h : ofOffset o = r
  unfold ofOffset at h
  iterate 23
    obtain ⟨hlow, rfl⟩ | ⟨hlow, h⟩ := chosen h
    · simp only [isByte, Bool.false_eq_true, false_iff, true_iff]
      omega
  subst h
  simp only [isByte, Bool.false_eq_true, false_iff]
  omega

theorem isByte_of_sources {o : Nat} (low : 0xf10 ≤ o) (high : o < 0xf30) :
    (ofOffset o).isByte = true :=
  (isByte_iff o).mpr (.inr (.inr ⟨low, high⟩))

/-- Where the word lies, if the register is in one of the arrays of words that change interrupts. -/
def place? : DistributorRegister → Option Nat
  | setEnable n => some (0x100 + 4 * n)
  | clearEnable n => some (0x180 + 4 * n)
  | setPending n => some (0x200 + 4 * n)
  | clearPending n => some (0x280 + 4 * n)
  | clearActive n => some (0x380 + 4 * n)
  | trigger n => some (0xc00 + 4 * n)
  | _ => none

theorem offset_of_place? {o place : Nat} {r : DistributorRegister} (aligned : o % 4 = 0)
    (h : ofOffset o = r) (hr : r.place? = some place) : o = place := by
  unfold ofOffset at h
  iterate 23
    obtain ⟨hlow, rfl⟩ | ⟨hlow, h⟩ := chosen h
    · first
        | have hplace := Option.some.inj hr
          omega
        | cases hr
  subst h
  cases hr

/-- The words of those arrays. -/
theorem ofOffset_words {n : Nat} (hn : n < 32) :
    ofOffset (0x100 + 4 * n) = .setEnable n ∧ ofOffset (0x180 + 4 * n) = .clearEnable n ∧
      ofOffset (0x200 + 4 * n) = .setPending n ∧ ofOffset (0x280 + 4 * n) = .clearPending n ∧
      ofOffset (0x380 + 4 * n) = .clearActive n ∧ ofOffset (0xc00 + 4 * n) = .trigger n := by
  revert n
  decide

/-- The set-pending and clear-pending registers. -/
theorem pending_of_offset {o : Nat} (low : 0x200 ≤ o) (high : o < 0x300) :
    ∃ n, ofOffset o = .setPending n ∨ ofOffset o = .clearPending n := by
  have hskip : ∀ b, b ≤ 0x200 → ¬ o < b := fun b hb => Nat.not_lt.mpr (Nat.le_trans hb low)
  unfold ofOffset
  rw [if_neg (hskip _ (by decide)), if_neg (hskip _ (by decide)), if_neg (hskip _ (by decide)),
    if_neg (hskip _ (by decide)), if_neg (hskip _ (by decide)), if_neg (hskip _ (by decide)),
    if_neg (hskip _ (by decide))]
  by_cases hset : o < 0x280
  · rw [if_pos hset]
    exact ⟨_, .inl rfl⟩
  · rw [if_neg hset, if_pos high]
    exact ⟨_, .inr rfl⟩

end DistributorRegister

end Gic
