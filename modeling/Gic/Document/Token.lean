import Gic.Document.Numeral
import Gic.Document.Quoted

/-!
# The tokens of a document

The text of a document is a sequence of tokens: brackets, commas, colons,
texts, numbers and the words `null`, `true` and `false`, with blanks between
them where one likes.
-/

namespace Gic.Document

/-- A token. -/
inductive Token where
  /-- `[` -/
  | beginArray
  /-- `]` -/
  | endArray
  /-- An opening brace. -/
  | beginObject
  /-- A closing brace. -/
  | endObject
  /-- `,` -/
  | comma
  /-- `:` -/
  | colon
  /-- A text. -/
  | text (value : String)
  /-- A number or a word. -/
  | plain (value : Document)

namespace Token

/-- Whether the character may stand between tokens. -/
def isBlank (c : Char) : Bool := c == ' ' || c == '\t' || c == '\n' || c == '\r'

/-- Reads a number. -/
def readNumber (input : List Char) : Option (Token × List Char) := do
  let (n, rest) ← Numeral.read input
  let value ← n.toDocument?
  return (.plain value, rest)

/-- Reads a text after its opening quote. -/
def readText (input : List Char) : Option (Token × List Char) :=
  (Quoted.read input).map fun found => (.text found.1, found.2)

/-- Reads the token at the front of a text. -/
def read : List Char → Option (Token × List Char)
  | '[' :: rest => some (.beginArray, rest)
  | ']' :: rest => some (.endArray, rest)
  | '\x7b' :: rest => some (.beginObject, rest)
  | '\x7d' :: rest => some (.endObject, rest)
  | ',' :: rest => some (.comma, rest)
  | ':' :: rest => some (.colon, rest)
  | '"' :: rest => readText rest
  | 'n' :: 'u' :: 'l' :: 'l' :: rest => some (.plain .null, rest)
  | 't' :: 'r' :: 'u' :: 'e' :: rest => some (.plain (.bool true), rest)
  | 'f' :: 'a' :: 'l' :: 's' :: 'e' :: rest => some (.plain (.bool false), rest)
  | input => readNumber input

theorem length_of_readNumber {s r : List Char} {t : Token} (h : readNumber s = some (t, r)) :
    r.length < s.length := by
  obtain ⟨⟨n, rest⟩, hn, h⟩ := Option.bind_eq_some_iff.1 h
  obtain ⟨_, _, h⟩ := Option.bind_eq_some_iff.1 h
  obtain ⟨_, rfl⟩ := Prod.mk.inj (Option.some.inj h)
  exact Numeral.length_of_read hn

theorem length_of_readText {s r : List Char} {t : Token} (h : readText s = some (t, r)) :
    r.length < s.length := by
  obtain ⟨⟨_, rest⟩, hn, h⟩ := Option.map_eq_some_iff.1 h
  obtain ⟨_, rfl⟩ := Prod.mk.inj h
  exact Quoted.length_of_read hn

theorem length_of_read {s r : List Char} {t : Token} (h : read s = some (t, r)) :
    r.length < s.length := by
  unfold read at h
  split at h
  case h_7 rest =>
    have := length_of_readText h
    simp only [List.length_cons]
    omega
  case h_11 => exact length_of_readNumber h
  all_goals
    obtain ⟨_, rfl⟩ := Prod.mk.inj (Option.some.inj h)
    simp only [List.length_cons]
    omega

/-- The tokens of a text from which some, the last one first, have been read. -/
def readAllFrom (done : List Token) : List Char → Option (List Token)
  | [] => some done.reverse
  | c :: rest =>
    if isBlank c then readAllFrom done rest
    else
      match _found : read (c :: rest) with
      | none => none
      | some (t, rest) => readAllFrom (t :: done) rest
termination_by input => input.length
decreasing_by
  · simp
  · exact length_of_read _found

/-- The tokens of a text. -/
def readAll (input : List Char) : Option (List Token) := readAllFrom [] input

end Token

end Gic.Document
