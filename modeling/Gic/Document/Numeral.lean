import Gic.Document.Tree
import Gic.Text.Radix

/-!
# Numbers in a document

A number is an optional minus sign, digits without a needless zero in front,
and then, both optional, a point with digits and an exponent.

## The model

A number without point and exponent is an integer if it fits into 64 bits and
is not minus zero. All others are kept as floating-point numbers would be, so a
number is refused if it is too large for that: it is read as a significand
below `2^64`, further digits being left out, times a power of ten, both are
rounded to 53 bits, and the product must round to a finite number.
-/

namespace Gic.Document

/-- A number, in the parts it is written in. -/
structure Numeral where
  /-- Whether there is a minus sign. -/
  negative : Bool
  /-- The digits before the point. -/
  whole : List Nat
  /-- The digits after the point. -/
  fraction : List Nat
  /-- The exponent, zero if there is none. -/
  exponent : Int
  /-- Whether there is neither point nor exponent. -/
  bare : Bool
  deriving DecidableEq, Repr

namespace Numeral

/-- The digits at the front of a text, and the rest. -/
def digits : List Char → List Nat × List Char
  | [] => ([], [])
  | c :: rest =>
    match Text.digit? 10 c with
    | none => ([], c :: rest)
    | some d => (d :: (digits rest).1, (digits rest).2)

/-- The number that digits denote. -/
def value (ds : List Nat) : Nat := ds.foldl (fun n d => 10 * n + d) 0

/-- Reads the digits before the point: at least one, and no needless zero in front. -/
def readWhole (text : List Char) : Option (List Nat × List Char) :=
  match digits text with
  | ([], _) => none
  | (0 :: _ :: _, _) => none
  | found => some found

/-- Reads digits, at least one. -/
def readDigits (text : List Char) : Option (List Nat × List Char) :=
  match digits text with
  | ([], _) => none
  | found => some found

/-- Reads a point and the digits after it, if there is a point. -/
def readFraction : List Char → Option (Option (List Nat) × List Char)
  | '.' :: rest => (readDigits rest).map fun found => (some found.1, found.2)
  | rest => some (none, rest)

/-- Reads the number of an exponent, with an optional sign. -/
def readSigned : List Char → Option (Int × List Char)
  | '+' :: rest => (readDigits rest).map fun found => (Int.ofNat (value found.1), found.2)
  | '-' :: rest => (readDigits rest).map fun found => (-Int.ofNat (value found.1), found.2)
  | rest => (readDigits rest).map fun found => (Int.ofNat (value found.1), found.2)

/-- Reads an exponent, if there is one. -/
def readExponent : List Char → Option (Option Int × List Char)
  | 'e' :: rest => (readSigned rest).map fun found => (some found.1, found.2)
  | 'E' :: rest => (readSigned rest).map fun found => (some found.1, found.2)
  | rest => some (none, rest)

/-- Reads a number without its sign. -/
def readUnsigned (negative : Bool) (text : List Char) : Option (Numeral × List Char) := do
  let (whole, text) ← readWhole text
  let (fraction, text) ← readFraction text
  let (exponent, text) ← readExponent text
  return ({
    negative, whole
    fraction := fraction.getD []
    exponent := exponent.getD 0
    bare := fraction.isNone && exponent.isNone }, text)

/-- Reads the number at the front of a text. -/
def read : List Char → Option (Numeral × List Char)
  | '-' :: rest => readUnsigned true rest
  | rest => readUnsigned false rest

theorem length_digits (s : List Char) : (digits s).1.length + (digits s).2.length = s.length := by
  induction s with
  | nil => rfl
  | cons c s ih =>
    unfold digits
    split
    · simp
    · simp only [List.length_cons]
      omega

theorem length_of_readDigits {s r : List Char} {ds : List Nat} (h : readDigits s = some (ds, r)) :
    r.length < s.length := by
  have hs := length_digits s
  unfold readDigits at h
  split at h
  · cases h
  next found =>
    rw [Option.some.inj h] at hs
    match ds, found with
    | [], found => exact absurd (Option.some.inj h) (found r)
    | _ :: _, _ =>
      simp only [List.length_cons] at hs
      omega

theorem length_of_readWhole {s r : List Char} {ds : List Nat} (h : readWhole s = some (ds, r)) :
    r.length < s.length := by
  refine @length_of_readDigits s r ds ?_
  unfold readWhole at h
  unfold readDigits
  split at h
  · cases h
  · cases h
  next found _ =>
    split
    · exact absurd ‹digits s = _› (found _)
    · exact h

theorem length_of_readFraction {s r : List Char} {f : Option (List Nat)}
    (h : readFraction s = some (f, r)) : r.length ≤ s.length := by
  unfold readFraction at h
  split at h
  · obtain ⟨⟨_, rest⟩, hd, h⟩ := Option.map_eq_some_iff.1 h
    obtain ⟨_, rfl⟩ := Prod.mk.inj h
    have := length_of_readDigits hd
    simp only [List.length_cons]
    omega
  · obtain ⟨_, rfl⟩ := Prod.mk.inj (Option.some.inj h)
    exact Nat.le_refl _

theorem length_of_readSigned {s r : List Char} {e : Int} (h : readSigned s = some (e, r)) :
    r.length < s.length := by
  unfold readSigned at h
  split at h
  all_goals
    obtain ⟨⟨_, rest⟩, hd, h⟩ := Option.map_eq_some_iff.1 h
    obtain ⟨_, rfl⟩ := Prod.mk.inj h
    have := length_of_readDigits hd
    simp only [List.length_cons]
    omega

theorem length_of_readExponent {s r : List Char} {e : Option Int}
    (h : readExponent s = some (e, r)) : r.length ≤ s.length := by
  unfold readExponent at h
  split at h
  case h_3 =>
    obtain ⟨_, rfl⟩ := Prod.mk.inj (Option.some.inj h)
    exact Nat.le_refl _
  all_goals
    obtain ⟨⟨_, rest⟩, hd, h⟩ := Option.map_eq_some_iff.1 h
    obtain ⟨_, rfl⟩ := Prod.mk.inj h
    have := length_of_readSigned hd
    simp only [List.length_cons]
    omega

theorem length_of_readUnsigned {negative : Bool} {s r : List Char} {n : Numeral}
    (h : readUnsigned negative s = some (n, r)) : r.length < s.length := by
  obtain ⟨⟨_, r₁⟩, h₁, h⟩ := Option.bind_eq_some_iff.1 h
  obtain ⟨⟨_, r₂⟩, h₂, h⟩ := Option.bind_eq_some_iff.1 h
  obtain ⟨⟨_, r₃⟩, h₃, h⟩ := Option.bind_eq_some_iff.1 h
  obtain ⟨_, rfl⟩ := Prod.mk.inj (Option.some.inj h)
  have := length_of_readWhole h₁
  have := length_of_readFraction h₂
  have := length_of_readExponent h₃
  dsimp only at *
  omega

theorem length_of_read {s r : List Char} {n : Numeral} (h : read s = some (n, r)) :
    r.length < s.length := by
  unfold read at h
  split at h
  · have := length_of_readUnsigned h
    simp only [List.length_cons]
    omega
  · exact length_of_readUnsigned h

/-- Takes digits into a significand as long as it stays below `2^64`; gives the significand and
how many digits were left out. -/
def significand (taken : Nat) : List Nat → Nat × Nat
  | [] => (taken, 0)
  | d :: rest =>
    if 10 * taken + d < 1 <<< 64 then significand (10 * taken + d) rest
    else (taken, rest.length + 1)

/-- The nearest number of 53 significant bits, the even one of two. -/
def nearest (n : Nat) : Nat :=
  let unit := 1 <<< (n.log2 - 52)
  let low := n % unit
  let high := n / unit
  if unit < 2 * low ∨ (2 * low = unit ∧ high % 2 = 1) then (high + 1) * unit else high * unit

/-- Whether a significand times a power of ten is a finite floating-point number. -/
def isFinite (significand : Nat) (power : Int) : Bool :=
  if significand = 0 ∨ power < 0 then true
  else if 308 < power then false
  else decide (nearest significand * nearest (Nat.pow 10 power.toNat) < 1 <<< 1024 - 1 <<< 970)

/-- Whether the number is not too large. -/
def fits (n : Numeral) : Bool :=
  let (whole, leftOut) := significand 0 n.whole
  let (all, unused) := significand whole n.fraction
  isFinite all (n.exponent + leftOut - (n.fraction.length - unused : Nat))

/-- The document that the number is, unless it is too large. -/
def toDocument? (n : Numeral) : Option Document :=
  let v := value n.whole
  if n.bare ∧ !n.negative ∧ v < 1 <<< 64 then some (.integer v)
  else if n.bare ∧ n.negative ∧ 0 < v ∧ v ≤ 1 <<< 63 then some (.integer (-v))
  else if n.fits then some .real
  else none

end Numeral

end Gic.Document
