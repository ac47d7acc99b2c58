import Gic.Trace.Note

/-!
# Which notes are logged

A filter lets through the notes that are severe enough. Subsystems can be asked
for by name; their notes are let through whatever their severity.

## The model

There is at most one log. It is installed once with a filter that can be
changed later; installing it again is refused.
-/

namespace Gic

/-- Which notes are let through. -/
structure Filter where
  /-- The least severe notes that are let through, `none` for no notes at all. -/
  level : Option Level
  /-- The subsystems whose notes are all let through. -/
  items : List Item
  deriving DecidableEq, Repr

namespace Filter

/-- Nothing is let through. -/
def off : Filter := ⟨none, []⟩

/-- The name of the filter's level. -/
def levelName (f : Filter) : String :=
  match f.level with
  | none => "off"
  | some level => level.name

/-- Whether notes of a subsystem, if any, and of a severity are let through. -/
def admits (f : Filter) (item : Option Item) (level : Level) : Bool :=
  let wanted := match item with
    | none => false
    | some i => f.items.contains i
  let limit := match f.level with
    | none => 0
    | some least => least.rank
  wanted || decide (level.rank ≤ limit)

/-- Whether a note is let through. -/
def lets (f : Filter) (note : Note) : Bool := f.admits note.item note.level

end Filter

/-- The log: the filter it is installed with, if it is installed. -/
abbrev Log := Option Filter

namespace Log

/-- Installs the log; `none` if there is one already. -/
def install : Log → Filter → Option Log
  | none, f => some (some f)
  | some _, _ => none

/-- Changes the level of the log. -/
def setLevel (log : Log) (level : Option Level) : Log := log.map fun f => { f with level }

/-- Changes the subsystems that are asked for by name. -/
def setItems (log : Log) (items : List Item) : Log := log.map fun f => { f with items }

end Log

/-- The value of a field in a log line: texts are put between quotes. -/
def FieldValue.line : FieldValue → String
  | text t => Text.shownText t
  | shown t => t

/-- The value of a field as it is. -/
def FieldValue.raw : FieldValue → String
  | text t => t
  | shown t => t

/-- The line that the log has for a note: severity, subsystem, sentence, fields. -/
def Note.line (note : Note) : String :=
  let subject := match note.item with
    | none => ""
    | some item => item.name ++ ": "
  let sentence := if note.message = "" then [] else [note.message]
  let fields := note.fields.map fun f => f.1 ++ "=" ++ f.2.line
  note.level.label ++ " " ++ subject ++ " ".intercalate (sentence ++ fields)

end Gic
