import Gic.Document.Draft
import Gic.Scenario.Step

/-!
# Scripts

A script is a scenario written as a document: an array with one element for
each step. A step is an object that names its kind as `op` and its values by
their names, in any order; other names are ignored. It may also be an array of
the kind and the values, in the order of `StepKind.fields`, of which the last
ones may be missing where an object need not hold them.

## The model

A name that means something must not be given twice, and the value of each has
one type and one range. A script that breaks a rule anywhere has no steps at
all: `ofDocument?` gives all of them or none.
-/

namespace Gic

/-- The kinds of steps. -/
inductive StepKind where
  /-- A register is written. -/
  | write
  /-- A register is read. -/
  | read
  /-- A private input takes a level. -/
  | ppi
  /-- A shared input takes a level. -/
  | spi
  /-- An interrupt line is looked at. -/
  | expectIrq
  /-- A virtual interrupt line is looked at. -/
  | expectVirq
  deriving DecidableEq, Repr

namespace StepKind

/-- All kinds. -/
def all : List StepKind := [write, read, ppi, spi, expectIrq, expectVirq]

/-- The name of the kind. -/
def name : StepKind → String
  | write => "write"
  | read => "read"
  | ppi => "ppi"
  | spi => "spi"
  | expectIrq => "expect_irq"
  | expectVirq => "expect_virq"

/-- The kind of that name. -/
def ofName? (text : String) : Option StepKind := all.find? fun kind => kind.name == text

/-- The names of the values of a step, in order. -/
def fields : StepKind → List String
  | write => ["interface", "cpu", "offset", "value", "width"]
  | read => ["interface", "cpu", "offset", "expect", "width"]
  | ppi => ["cpu", "index", "level"]
  | spi => ["index", "level"]
  | expectIrq => ["cpu", "level"]
  | expectVirq => ["cpu", "level"]

end StepKind

namespace Document

/-- A number below a bound. -/
def natural? (bound : Nat) : Document → Option Nat
  | .integer n => if 0 ≤ n ∧ n < bound then some n.toNat else none
  | _ => none

/-- A number below a bound, or null. -/
def optionalNatural? (bound : Nat) : Document → Option (Option Nat)
  | .null => some none
  | d => (d.natural? bound).map some

/-- A truth value. -/
def truth? : Document → Option Bool
  | .bool b => some b
  | _ => none

/-- The kind of a step, by its name. -/
def kind? : Document → Option StepKind
  | .text name => StepKind.ofName? name
  | _ => none

/-- A window, by its name: a text, or the only name in an object that says nothing of it. -/
def window? : Document → Option Interface
  | .text name => Interface.ofName? name
  | .object [(name, .null)] => Interface.ofName? name
  | .object [(name, .object [])] => Interface.ofName? name
  | _ => none

/-- All values that are given for a name. -/
def values (fields : List (String × Document)) (name : String) : List Document :=
  (fields.filter fun f => f.1 == name).map Prod.snd

/-- The value of a name that must be given, once. -/
def required {α : Type} (fields : List (String × Document)) (name : String)
    (read : Document → Option α) : Option α :=
  match values fields name with
  | [d] => read d
  | _ => none

/-- The value of a name that may be given, once. -/
def optional {α : Type} (fields : List (String × Document)) (name : String) (missing : α)
    (read : Document → Option α) : Option α :=
  match values fields name with
  | [] => some missing
  | [d] => read d
  | _ => none

end Document

open Document in
/-- The step of a kind with named values. -/
def Step.ofFields? (fields : List (String × Document)) : StepKind → Option Step
  | .write => do
    let window ← required fields "interface" window?
    let cpu ← required fields "cpu" (natural? (1 <<< 64))
    let offset ← required fields "offset" (natural? (1 <<< 64))
    let value ← required fields "value" (natural? (1 <<< 64))
    let width ← optional fields "width" 32 (natural? (1 <<< 8))
    return .write window cpu offset value width
  | .read => do
    let window ← required fields "interface" window?
    let cpu ← required fields "cpu" (natural? (1 <<< 64))
    let offset ← required fields "offset" (natural? (1 <<< 64))
    let expect ← optional fields "expect" none (optionalNatural? (1 <<< 64))
    let width ← optional fields "width" 32 (natural? (1 <<< 8))
    return .read window cpu offset expect width
  | .ppi => do
    let cpu ← required fields "cpu" (natural? (1 <<< 8))
    let index ← required fields "index" (natural? (1 <<< 16))
    let level ← required fields "level" truth?
    return .ppi cpu (.ofNat 16 index) level
  | .spi => do
    let index ← required fields "index" (natural? (1 <<< 16))
    let level ← required fields "level" truth?
    return .spi (.ofNat 16 index) level
  | .expectIrq => do
    let cpu ← required fields "cpu" (natural? (1 <<< 64))
    let level ← required fields "level" truth?
    return .expectIrq cpu level
  | .expectVirq => do
    let cpu ← required fields "cpu" (natural? (1 <<< 64))
    let level ← required fields "level" truth?
    return .expectVirq cpu level

/-- The step that a document is. -/
def Step.ofDocument? : Document → Option Step
  | .object fields => (Document.required fields "op" Document.kind?).bind (Step.ofFields? fields)
  | .array (.text name :: values) => do
    let kind ← StepKind.ofName? name
    if values.length ≤ kind.fields.length then Step.ofFields? (kind.fields.zip values) kind
    else none
  | _ => none

/-- A script: its steps in order. -/
abbrev Script := List Step

/-- Why a file cannot be used. -/
inductive FileError where
  /-- There is no such file, or no directory for it. -/
  | notFound
  /-- It does not hold a text. -/
  | notText
  deriving DecidableEq, Repr

/-- The sentence that reports the error. -/
def FileError.message : FileError → String
  | notFound => "No such file or directory (os error 2)"
  | notText => "stream did not contain valid UTF-8"

/-- Why there is no script. -/
inductive ScriptError where
  /-- Its file cannot be read. -/
  | file (error : FileError)
  /-- Its text is not that of a script. -/
  | malformed
  deriving DecidableEq, Repr

namespace ScriptError

/-- The sentence that reports the error. -/
def message : ScriptError → String
  | file error => "could not read script: " ++ error.message
  | malformed => "could not parse script"

/-- The name of the error. -/
def shown : ScriptError → String
  | file _ => "Io"
  | malformed => "Parse"

end ScriptError

namespace Script

/-- The script that a document is. -/
def ofDocument? : Document → Option Script
  | .array steps => steps.mapM Step.ofDocument?
  | _ => none

/-- The script that a text is. -/
def ofText (input : String) : Except ScriptError Script :=
  match (Document.ofText? input).bind ofDocument? with
  | none => .error .malformed
  | some script => .ok script

/-- The script that the bytes of a file are. -/
def ofBytes (bytes : ByteArray) : Except ScriptError Script :=
  match String.fromUTF8? bytes with
  | none => .error (.file .notText)
  | some input => ofText input

end Script

end Gic
