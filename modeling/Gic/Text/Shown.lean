/-!
# Values shown on one line

Log records and error reports show a structured value on one line: a record as
its name and its fields between braces, an optional value as `Some(…)` or
`None`, a set of flags as the names of its members, a list between brackets.
-/

namespace Gic.Text

/-- A value that may be missing. -/
def shownOption : Option String → String
  | none => "None"
  | some text => "Some(" ++ text ++ ")"

/-- A truth value. -/
def shownBool : Bool → String
  | true => "true"
  | false => "false"

/-- A record: its name, then each field with its value. -/
def shownRecord (name : String) (fields : List (String × String)) : String :=
  name ++ " \x7b " ++ ", ".intercalate (fields.map fun f => f.1 ++ ": " ++ f.2) ++ " \x7d"

/-- A list. -/
def shownList (items : List String) : String := "[" ++ ", ".intercalate items ++ "]"

/-- A set of flags: the names of those that are set, `0x0` if there are none. -/
def shownFlags (name : String) (members : List String) : String :=
  name ++ "(" ++ (if members.isEmpty then "0x0" else " | ".intercalate members) ++ ")"

/-- A text between quotes. -/
def shownText (text : String) : String := "\"" ++ text ++ "\""

end Gic.Text
