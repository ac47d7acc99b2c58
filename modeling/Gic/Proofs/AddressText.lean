import Gic.Text.Radix
import Mathlib.Data.List.Forall2
import Mathlib.Data.Nat.Digits.Defs

/-!
# Addresses are read as they are written

Addresses are read digit by digit, with a bound at every digit. This module
shows that what is accepted is a grammar with one bound on the whole number, and
that every form in which an address is written lies in it.

## The model

* `IsDigit` — a character is the digit of a base for a value.
* `Spells` — a text is one or more digits, and they denote a number.
* `SpellsAddress` — a text is an address: a decimal number, or a hexadecimal one
  after its mark, each with an optional sign.

## What is proved

* `digit?_eq_some_iff` — the values of digits are those that a number is written
  with, letters of either case.
* `readDigits_eq_ok_iff` — the bound at every digit is the bound on the number.
* `spells_toDigits` — a number is spelled by the digits it is written with.
* `addresses_read_exactly` — reading accepts the addresses of 64 bits in this
  grammar and nothing else; what is written in hexadecimal or decimal reads back.
-/

namespace Gic.Text

variable {base : Nat}

/-! ### Digits -/

/-- A character is the digit of a base for a value; a letter may be of either case. -/
def IsDigit (base : Nat) (c : Char) (d : Nat) : Prop :=
  d < base ∧ (c = d.digitChar ∨ c = d.digitChar.toUpper)

theorem toNat_digitChar {d : Nat} (h : d < 16) :
    d.digitChar.toNat = if d < 10 then d + 48 else d + 87 := by
  revert d
  decide

theorem toNat_toUpper_digitChar {d : Nat} (h : d < 16) :
    d.digitChar.toUpper.toNat = if d < 10 then d + 48 else d + 55 := by
  revert d
  decide

/-- The digits of a base are the characters with a value in it. -/
theorem digit?_eq_some_iff (hbase : base ≤ 16) {c : Char} {d : Nat} :
    digit? base c = some d ↔ IsDigit base c d := by
  have hle : ∀ a b : Char, a ≤ b ↔ a.toNat ≤ b.toNat := fun _ _ => Iff.rfl
  by_cases hd : d < base
  · rw [IsDigit, ← Char.toNat_inj, ← Char.toNat_inj, toNat_digitChar (by omega),
      toNat_toUpper_digitChar (by omega)]
    simp only [digit?, hle, Char.reduceToNat, Option.ite_none_right_eq_some, Option.some.injEq]
    split_ifs <;> omega
  · simp only [digit?, IsDigit, Option.ite_none_right_eq_some, Option.some.injEq]
    constructor
    · rintro ⟨hlt, rfl⟩
      exact absurd hlt hd
    · exact fun h => absurd h.1 hd

/-! ### Numbers -/

/-- The number that digits denote, after a number to which they are appended. -/
def extended (base : Nat) (acc : Nat) (ds : List Nat) : Nat :=
  ds.foldl (fun n d => n * base + d) acc

theorem extended_zero (base : Nat) (ds : List Nat) :
    extended base 0 ds = Nat.ofDigits base ds.reverse := by
  rw [Nat.ofDigits_eq_foldr, List.foldr_reverse, extended]
  refine congrArg (fun f => ds.foldl f 0) ?_
  funext n d
  rw [Nat.cast_id, Nat.mul_comm, Nat.add_comm]

/-- More digits never make a number less. -/
theorem le_extended (hbase : 0 < base) (acc : Nat) (ds : List Nat) : acc ≤ extended base acc ds := by
  induction ds generalizing acc with
  | nil => exact Nat.le_refl acc
  | cons d ds ih =>
    calc acc ≤ acc * base := Nat.le_mul_of_pos_right acc hbase
      _ ≤ acc * base + d := Nat.le_add_right _ d
      _ ≤ extended base acc (d :: ds) := ih _

/-- Digits are read if and only if the number that they denote fits. -/
theorem readDigits_eq_ok_iff (hpos : 0 < base) (hbase : base ≤ 16) {acc : Nat}
    (hacc : acc < 2 ^ 64) {text : List Char} {n : Nat} :
    readDigits base acc text = .ok n ↔
      (∃ ds, List.Forall₂ (IsDigit base) text ds ∧ extended base acc ds = n) ∧ n < 2 ^ 64 := by
  induction text generalizing acc with
  | nil =>
    simp only [readDigits, List.forall₂_nil_left_iff, exists_eq_left, Except.ok.injEq]
    constructor
    · rintro rfl
      exact ⟨rfl, hacc⟩
    · exact fun h => h.1
  | cons c text ih =>
    rw [readDigits]
    cases hc : digit? base c with
    | none =>
      refine iff_of_false (fun h => nomatch h) ?_
      rintro ⟨⟨ds, hds, -⟩, -⟩
      obtain ⟨d, -, hd, -⟩ := List.forall₂_cons_left_iff.mp hds
      rw [(digit?_eq_some_iff hbase).mpr hd] at hc
      cases hc
    | some d =>
      have hd := (digit?_eq_some_iff hbase).mp hc
      -- The first digit is `d`, whatever digits the text is said to consist of.
      have hfirst : (∃ ds, List.Forall₂ (IsDigit base) (c :: text) ds ∧ extended base acc ds = n) ↔
          ∃ ds, List.Forall₂ (IsDigit base) text ds ∧ extended base (acc * base + d) ds = n := by
        constructor
        · rintro ⟨_, hall, hn⟩
          obtain ⟨e, ds, he, hds, rfl⟩ := List.forall₂_cons_left_iff.mp hall
          rw [(digit?_eq_some_iff hbase).mpr he, Option.some.injEq] at hc
          exact ⟨ds, hds, hc ▸ hn⟩
        · rintro ⟨ds, hds, hn⟩
          exact ⟨d :: ds, .cons hd hds, hn⟩
      dsimp only
      rw [hfirst]
      split
      next hfits => exact ih hfits
      next hlarge =>
        refine iff_of_false (fun h => nomatch h) ?_
        rintro ⟨⟨ds, -, rfl⟩, hfits⟩
        exact hlarge (Nat.lt_of_le_of_lt (le_extended hpos _ ds) hfits)

/-- A text is one or more digits of a base, the most significant one first, that denote a
number. -/
def Spells (base : Nat) (text : List Char) (n : Nat) : Prop :=
  text ≠ [] ∧ ∃ ds, List.Forall₂ (IsDigit base) text ds ∧ Nat.ofDigits base ds.reverse = n

/-- A text spells a number, perhaps after a sign. -/
inductive SpellsSigned (base : Nat) : List Char → Nat → Prop where
  /-- There is no sign. -/
  | bare {digits : List Char} {n : Nat} (h : Spells base digits n) : SpellsSigned base digits n
  /-- There is a sign. -/
  | signed {digits : List Char} {n : Nat} (h : Spells base digits n) :
      SpellsSigned base ('+' :: digits) n

/-- A sign is no digit. -/
theorem not_spells_sign (hbase : base ≤ 16) {rest : List Char} {n : Nat} :
    ¬ Spells base ('+' :: rest) n := by
  rintro ⟨-, ds, hds, -⟩
  obtain ⟨d, -, ⟨hd, hchar⟩, -⟩ := List.forall₂_cons_left_iff.mp hds
  rw [← Char.toNat_inj, ← Char.toNat_inj, toNat_digitChar (by omega),
    toNat_toUpper_digitChar (by omega)] at hchar
  simp only [Char.reduceToNat] at hchar
  split_ifs at hchar <;> omega

/-- One or more digits are read if and only if the number that they denote fits. -/
theorem readDigits_eq_ok_iff_spells (hpos : 0 < base) (hbase : base ≤ 16) {text : List Char}
    (htext : text ≠ []) {n : Nat} :
    readDigits base 0 text = .ok n ↔ Spells base text n ∧ n < 2 ^ 64 := by
  rw [readDigits_eq_ok_iff hpos hbase (by decide)]
  simp only [Spells, extended_zero, ne_eq, htext, not_false_eq_true, true_and]

/-- A number is read if and only if it is spelled, perhaps after a sign, and fits. -/
theorem readNumber_eq_ok_iff (hpos : 0 < base) (hbase : base ≤ 16) {text : List Char} {n : Nat} :
    readNumber base text = .ok n ↔ SpellsSigned base text n ∧ n < 2 ^ 64 := by
  unfold readNumber
  split
  next =>
    refine iff_of_false (fun h => nomatch h) ?_
    rintro ⟨⟨hne, -⟩, -⟩
    exact hne rfl
  next =>
    refine iff_of_false (fun h => nomatch h) ?_
    rintro ⟨h | ⟨hne, -⟩, -⟩
    · exact not_spells_sign hbase h
    · exact hne rfl
  next rest hrest =>
    have hne : rest ≠ [] := fun h => hrest (h ▸ rfl)
    rw [readDigits_eq_ok_iff_spells hpos hbase hne]
    refine and_congr_left fun _ => ⟨.signed, ?_⟩
    rintro (h | h)
    · exact absurd h (not_spells_sign hbase)
    · exact h
  next hempty _ hbare =>
    rw [readDigits_eq_ok_iff_spells hpos hbase hempty]
    refine and_congr_left fun _ => ⟨.bare, ?_⟩
    rintro (h | h)
    · exact h
    · exact absurd rfl (hbare _)

/-! ### Addresses -/

/-- A text is an address: a decimal number, or a hexadecimal one after its mark. -/
inductive SpellsAddress : List Char → Nat → Prop where
  /-- A decimal number. -/
  | decimal {text : List Char} {n : Nat} (h : SpellsSigned 10 text n) : SpellsAddress text n
  /-- A hexadecimal number. -/
  | hexadecimal {mark : Char} {text : List Char} {n : Nat} (hmark : mark = 'x' ∨ mark = 'X')
      (h : SpellsSigned 16 text n) : SpellsAddress ('0' :: mark :: text) n

/-- A mark is no decimal digit. -/
theorem not_spellsSigned_mark {mark : Char} (hmark : mark = 'x' ∨ mark = 'X') {rest : List Char}
    {n : Nat} : ¬ SpellsSigned 10 ('0' :: mark :: rest) n := by
  intro h
  cases h with
  | bare h =>
    obtain ⟨-, _, _ | ⟨-, _ | ⟨hd, -⟩⟩, -⟩ := h
    rw [← digit?_eq_some_iff (by decide)] at hd
    rcases hmark with rfl | rfl <;> cases hd

/-- An address is read if and only if it is spelled and fits into 64 bits. -/
theorem readAddress_eq_ok_iff {text : String} {n : Nat} :
    readAddress text = .ok n ↔ SpellsAddress text.toList n ∧ n < 2 ^ 64 := by
  have hmarked : ∀ {mark : Char}, mark = 'x' ∨ mark = 'X' → ∀ rest : List Char,
      SpellsAddress ('0' :: mark :: rest) n ↔ SpellsSigned 16 rest n := by
    intro mark hmark rest
    refine ⟨?_, .hexadecimal hmark⟩
    rintro (h | ⟨-, h⟩)
    · exact absurd h (not_spellsSigned_mark hmark)
    · exact h
  rw [readAddress]
  generalize text.toList = chars
  split
  next rest => rw [readNumber_eq_ok_iff (by decide) (by decide), hmarked (.inl rfl)]
  next rest => rw [readNumber_eq_ok_iff (by decide) (by decide), hmarked (.inr rfl)]
  next hlower hupper =>
    rw [readNumber_eq_ok_iff (by decide) (by decide)]
    refine and_congr_left fun _ => ⟨.decimal, ?_⟩
    rintro (h | ⟨rfl | rfl, -⟩)
    · exact h
    · exact absurd rfl (hlower _)
    · exact absurd rfl (hupper _)

/-! ### What is written -/

/-- A number is spelled by the digits it is written with, in whatever form the digits come. -/
theorem spells_toDigits (form : Char → Char)
    (hform : ∀ d < base, IsDigit base (form d.digitChar) d) (hbase : 1 < base) (n : Nat) :
    Spells base ((Nat.toDigits base n).map form) n := by
  induction n using Nat.strongRecOn with
  | ind n ih =>
    rw [Nat.toDigits_eq_if hbase]
    split
    next hlt =>
      refine ⟨nofun, [n], .cons (hform n hlt) .nil, ?_⟩
      rw [List.reverse_singleton, Nat.ofDigits_singleton]
    next hge =>
      obtain ⟨-, ds, hds, hvalue⟩ := ih (n / base) (Nat.div_lt_self (by omega) hbase)
      have hlast := hform (n % base) (Nat.mod_lt n (by omega))
      rw [List.map_append]
      refine ⟨by simp, ds ++ [n % base], List.rel_append hds (.cons hlast .nil), ?_⟩
      rw [List.reverse_concat, Nat.ofDigits_cons, hvalue]
      exact Nat.mod_add_div n base

theorem isDigit_digitChar (d : Nat) (h : d < base) : IsDigit base d.digitChar d := ⟨h, .inl rfl⟩

theorem isDigit_toUpper (d : Nat) (h : d < base) : IsDigit base d.digitChar.toUpper d :=
  ⟨h, .inr rfl⟩

/-- After a mark, hexadecimal digits are an address. -/
theorem readAddress_marked {mark : String} (hmark : mark = "0x" ∨ mark = "0X") {digits : String}
    {n : Nat} (hdigits : Spells 16 digits.toList n) (hn : n < 2 ^ 64) :
    readAddress (mark ++ digits) = .ok n := by
  rw [readAddress_eq_ok_iff, String.toList_append]
  refine ⟨?_, hn⟩
  rcases hmark with rfl | rfl
  · exact .hexadecimal (.inl rfl) (.bare hdigits)
  · exact .hexadecimal (.inr rfl) (.bare hdigits)

theorem spells_hexDigits (n : Nat) : Spells 16 (hexDigits n).toList n := by
  have h := spells_toDigits id isDigit_digitChar (by decide : 1 < 16) n
  rwa [List.map_id, ← String.toList_ofList (l := Nat.toDigits 16 n)] at h

theorem spells_toUpper_hexDigits (n : Nat) : Spells 16 (hexDigits n).toUpper.toList n := by
  have h := spells_toDigits Char.toUpper isDigit_toUpper (by decide : 1 < 16) n
  rwa [← String.toList_ofList (l := Nat.toDigits 16 n), ← String.toList_map] at h

theorem spells_toString (n : Nat) : Spells 10 (toString n).toList n := by
  have h := spells_toDigits id isDigit_digitChar (by decide : 1 < 10) n
  rwa [List.map_id, ← Nat.toList_repr] at h

/-- Exactly the addresses of 64 bits are read, and whatever an address is written as reads back:
hexadecimal with letters of either case and either mark, and decimal. -/
theorem addresses_read_exactly :
    (∀ text n, readAddress text = .ok n ↔ SpellsAddress text.toList n ∧ n < 2 ^ 64) ∧
    ∀ address : BitVec 64,
      readAddress (hex address.toNat) = .ok address.toNat ∧
      readAddress ("0x" ++ (hexDigits address.toNat).toUpper) = .ok address.toNat ∧
      readAddress ("0X" ++ (hexDigits address.toNat).toUpper) = .ok address.toNat ∧
      readAddress (toString address.toNat) = .ok address.toNat := by
  refine ⟨fun text n => readAddress_eq_ok_iff, fun address => ⟨?_, ?_, ?_, ?_⟩⟩
  · exact readAddress_marked (.inl rfl) (spells_hexDigits _) address.isLt
  · exact readAddress_marked (.inl rfl) (spells_toUpper_hexDigits _) address.isLt
  · exact readAddress_marked (.inr rfl) (spells_toUpper_hexDigits _) address.isLt
  · exact readAddress_eq_ok_iff.mpr ⟨.decimal (.bare (spells_toString _)), address.isLt⟩

end Gic.Text
