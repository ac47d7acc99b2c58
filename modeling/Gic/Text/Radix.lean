/-!
# Numbers in text

Numbers are written in decimal, in hexadecimal (`0x` and lower-case digits) and
in binary (`0b`), always with the fewest digits. They are read back from a
command line in decimal or hexadecimal.

## The model

Reading goes digit by digit from the left and stops at the first fault: a
character that is no digit, or the digit at which the number reaches `2^64`.
A number too large is therefore reported as such even when a later character
is no digit.
-/

namespace Gic.Text

/-- `n` in hexadecimal, without a mark. -/
def hexDigits (n : Nat) : String := String.ofList (Nat.toDigits 16 n)

/-- `n` in hexadecimal. -/
def hex (n : Nat) : String := "0x" ++ hexDigits n

/-- `n` in binary. -/
def binary (n : Nat) : String := "0b" ++ String.ofList (Nat.toDigits 2 n)

/-- `n` in hexadecimal, then in binary between parentheses. -/
def hexAndBinary (n : Nat) : String := hex n ++ " (" ++ binary n ++ ")"

/-- Why a text is no 64-bit number. -/
inductive NumeralError where
  /-- There is nothing to read. -/
  | empty
  /-- A character is no digit of the base. -/
  | invalidDigit
  /-- The number is not below `2^64`. -/
  | tooLarge
  deriving DecidableEq, Repr

/-- The sentence that reports the error. -/
def NumeralError.message : NumeralError → String
  | .empty => "cannot parse integer from empty string"
  | .invalidDigit => "invalid digit found in string"
  | .tooLarge => "number too large to fit in target type"

/-- The value of `c` as a digit of `base`, letters of either case counting from ten. -/
def digit? (base : Nat) (c : Char) : Option Nat :=
  let d :=
    if '0' ≤ c ∧ c ≤ '9' then c.toNat - '0'.toNat
    else if 'a' ≤ c ∧ c ≤ 'z' then c.toNat - 'a'.toNat + 10
    else if 'A' ≤ c ∧ c ≤ 'Z' then c.toNat - 'A'.toNat + 10
    else base
  if d < base then some d else none

/-- Reads the digits of a number of which `acc` has been read. -/
def readDigits (base : Nat) (acc : Nat) : List Char → Except NumeralError Nat
  | [] => .ok acc
  | c :: rest =>
    match digit? base c with
    | none => .error .invalidDigit
    | some d =>
      if acc * base + d < 1 <<< 64 then readDigits base (acc * base + d) rest else .error .tooLarge

/-- Reads one or more digits after an optional plus sign. -/
def readNumber (base : Nat) : List Char → Except NumeralError Nat
  | [] => .error .empty
  | ['+'] => .error .invalidDigit
  | '+' :: rest => readDigits base 0 rest
  | text => readDigits base 0 text

/-- Reads a decimal number. -/
def readDecimal (text : String) : Except NumeralError Nat := readNumber 10 text.toList

/-- Reads an address: hexadecimal after `0x` or `0X`, decimal otherwise. -/
def readAddress (text : String) : Except NumeralError Nat :=
  match text.toList with
  | '0' :: 'x' :: rest => readNumber 16 rest
  | '0' :: 'X' :: rest => readNumber 16 rest
  | digits => readNumber 10 digits

end Gic.Text
