import Gic.Text.Radix

/-!
# Texts in a document

A text stands between quotes. A backslash introduces an escape: a letter for a
few characters, or `u` with four hexadecimal digits for a unit of UTF-16; a
character beyond the first 65536 is escaped as two units. Control characters
stand for themselves nowhere.
-/

namespace Gic.Document.Quoted

/-- Reads a unit of UTF-16 from four hexadecimal digits. -/
def unit : List Char → Option (Nat × List Char)
  | a :: b :: c :: d :: rest => do
    let a ← Text.digit? 16 a
    let b ← Text.digit? 16 b
    let c ← Text.digit? 16 c
    let d ← Text.digit? 16 d
    return (((a * 16 + b) * 16 + c) * 16 + d, rest)
  | _ => none

/-- The unit is the first of two. -/
def isHigh (n : Nat) : Bool := decide (0xd800 ≤ n) && decide (n < 0xdc00)

/-- The unit is the second of two. -/
def isLow (n : Nat) : Bool := decide (0xdc00 ≤ n) && decide (n < 0xe000)

/-- The character of two units. -/
def joined (high low : Nat) : Char :=
  Char.ofNat (0x10000 + (high - 0xd800) * 0x400 + (low - 0xdc00))

/-- Reads the second unit of a character. -/
def second (high : Nat) : List Char → Option (Char × List Char)
  | '\\' :: 'u' :: rest => do
    let (low, rest) ← unit rest
    if isLow low then some (joined high low, rest) else none
  | _ => none

/-- Reads the units of a character. -/
def units (text : List Char) : Option (Char × List Char) := do
  let (n, rest) ← unit text
  if isHigh n then second n rest
  else if isLow n then none
  else some (Char.ofNat n, rest)

/-- Reads what follows the backslash of an escape. -/
def escaped : List Char → Option (Char × List Char)
  | '"' :: rest => some ('"', rest)
  | '\\' :: rest => some ('\\', rest)
  | '/' :: rest => some ('/', rest)
  | 'b' :: rest => some ('\x08', rest)
  | 'f' :: rest => some ('\x0c', rest)
  | 'n' :: rest => some ('\n', rest)
  | 'r' :: rest => some ('\r', rest)
  | 't' :: rest => some ('\t', rest)
  | 'u' :: rest => units rest
  | _ => none

theorem length_of_unit {s r : List Char} {n : Nat} (h : unit s = some (n, r)) :
    r.length < s.length := by
  match s, h with
  | a :: b :: c :: d :: rest, h =>
    simp only [unit, Option.bind_eq_bind, Option.bind_eq_some_iff, Option.pure_def,
      Option.some.injEq, Prod.mk.injEq] at h
    obtain ⟨_, _, _, _, _, _, _, _, _, rfl⟩ := h
    simp only [List.length_cons]
    omega

theorem length_of_second {s r : List Char} {high : Nat} {c : Char}
    (h : second high s = some (c, r)) : r.length < s.length := by
  unfold second at h
  split at h
  · obtain ⟨⟨low, rest⟩, hu, h⟩ := Option.bind_eq_some_iff.1 h
    have := length_of_unit hu
    dsimp only at h
    split at h
    · obtain ⟨_, rfl⟩ := Prod.mk.inj (Option.some.inj h)
      simp only [List.length_cons]
      omega
    · cases h
  · cases h

theorem length_of_units {s r : List Char} {c : Char} (h : units s = some (c, r)) :
    r.length < s.length := by
  obtain ⟨⟨n, rest⟩, hu, h⟩ := Option.bind_eq_some_iff.1 h
  have hn := length_of_unit hu
  dsimp only at h
  split at h
  · have := length_of_second h
    omega
  · split at h
    · cases h
    · obtain ⟨_, rfl⟩ := Prod.mk.inj (Option.some.inj h)
      exact hn

theorem length_of_escaped {s r : List Char} {c : Char} (h : escaped s = some (c, r)) :
    r.length < s.length := by
  unfold escaped at h
  split at h
  case h_9 rest =>
    have := length_of_units h
    simp only [List.length_cons]
    omega
  all_goals
    cases h
    try simp

/-- Reads the rest of a text whose first characters, last one first, have been read. -/
def readFrom (done : List Char) : List Char → Option (String × List Char)
  | [] => none
  | '"' :: rest => some (String.ofList done.reverse, rest)
  | '\\' :: rest =>
    match _found : escaped rest with
    | none => none
    | some (c, rest) => readFrom (c :: done) rest
  | c :: rest => if c < ' ' then none else readFrom (c :: done) rest
termination_by text => text.length
decreasing_by
  · have := length_of_escaped _found
    simp only [List.length_cons]
    omega
  · simp

theorem length_of_readFrom {done s r : List Char} {value : String}
    (h : readFrom done s = some (value, r)) : r.length < s.length := by
  fun_induction readFrom done s with
  | case1 => cases h
  | case2 done rest =>
    obtain ⟨_, rfl⟩ := Prod.mk.inj (Option.some.inj h)
    simp
  | case3 => cases h
  | case4 done rest c left found ih =>
    have := length_of_escaped found
    have := ih h
    simp only [List.length_cons]
    omega
  | case5 => cases h
  | case6 done c rest _ _ _ ih =>
    have := ih h
    simp only [List.length_cons]
    omega

/-- Reads a text after its opening quote. -/
def read (text : List Char) : Option (String × List Char) := readFrom [] text

theorem length_of_read {s r : List Char} {value : String} (h : read s = some (value, r)) :
    r.length < s.length := length_of_readFrom h

end Gic.Document.Quoted
