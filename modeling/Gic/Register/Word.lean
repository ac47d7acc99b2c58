/-!
# Register words

Registers are words of 32 bits. A word is built from its bits by `ofBits`, and
read bit by bit; `getLsbD_ofBits` says that the one undoes the other.
-/

namespace Gic

/-- A register of 32 bits. -/
abbrev Word := BitVec 32

namespace Word

/-- The word whose bits below `n` are given by `bit`, the others being clear. -/
def gather (bit : Nat → Bool) : Nat → Word
  | 0 => 0#32
  | n + 1 => if bit n then gather bit n ||| BitVec.twoPow 32 n else gather bit n

/-- The word whose bits are given by `bit`. -/
def ofBits (bit : Nat → Bool) : Word := gather bit 32

/-- The number in the `width` bits from bit `low` on. -/
def field (w : Word) (low width : Nat) : Nat := (w.extractLsb' low width).toNat

theorem getLsbD_gather (bit : Nat → Bool) {n : Nat} (h : n ≤ 32) (i : Nat) :
    (gather bit n).getLsbD i = (decide (i < n) && bit i) := by
  induction n with
  | zero => simp [gather]
  | succ n ih =>
    have ih := ih (by omega)
    have hn : n < 32 := by omega
    by_cases hb : bit n = true <;> by_cases hi : i = n
    · subst hi; simp [gather, hb, hn]
    · have : (i < n + 1) ↔ i < n := by omega
      simp [gather, hb, ih, this, Ne.symm hi]
    · subst hi; simp [gather, hb, ih]
    · have : (i < n + 1) ↔ i < n := by omega
      simp [gather, hb, ih, this]

theorem getLsbD_ofBits (bit : Nat → Bool) (i : Nat) :
    (ofBits bit).getLsbD i = (decide (i < 32) && bit i) :=
  getLsbD_gather bit (Nat.le_refl 32) i

end Word

end Gic
