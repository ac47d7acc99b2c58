import Gic.DeviceTree.Blob

/-!
# Writing device trees

The flattened format has rules: names are short and consist of letters, digits
and a few other characters, sizes fit into a cell, and nodes are nested to a
limited depth. A tree that breaks one of them is not written.

## The model

Nodes are checked before what is inside them, properties before children, and
the size of the whole comes last.
-/

namespace Gic.DeviceTree

/-- Why a tree cannot be written. -/
inductive WriteError where
  /-- A node is nested too deep. -/
  | nodeDepth
  /-- A node has a name that no node can have. -/
  | nodeName
  /-- A property has a name that no property can have. -/
  | propertyName
  /-- The size of a value does not fit into a cell. -/
  | valueSize
  /-- The size of the whole does not fit into a cell. -/
  | totalSize
  deriving DecidableEq, Repr

/-- The error as a value on one line. -/
def WriteError.shown : WriteError → String
  | nodeDepth => "NodeDepthTooLarge"
  | nodeName => "InvalidNodeName"
  | propertyName => "InvalidPropertyName"
  | valueSize => "PropertyValueTooLarge"
  | totalSize => "TotalSizeTooLarge"

/-- The number of characters in a name, at most. -/
def maxNameLength : Nat := 31

/-- The number of nodes nested in each other, at most. -/
def maxDepth : Nat := 64

/-- Whether a character may stand in the name of a node. -/
def isNodeChar (c : Char) : Bool :=
  c.isAlphanum || c == ',' || c == '.' || c == '_' || c == '+' || c == '-'

/-- Whether a character may stand in the name of a property. -/
def isPropertyChar (c : Char) : Bool := isNodeChar c || c == '?' || c == '#'

/-- Whether characters are a name: not too many of them, all of the allowed ones. -/
def isName (allowed : Char → Bool) (name : List Char) : Bool :=
  name != [] && decide (name.length ≤ maxNameLength) && name.all allowed

/-- Whether a node can have that name: none at all, as the root has, or a name that may be
followed by an address after `@`. -/
def isNodeName (name : String) : Bool :=
  name.isEmpty
    || isName isNodeChar (name.toList.takeWhile (· != '@'))
      && (name.toList.dropWhile (· != '@')).tail.all isNodeChar

/-- Checks a property. -/
def Property.check (p : Property) : Except WriteError Unit :=
  if ¬ isName isPropertyChar p.name.toList then .error .propertyName
  else if 1 <<< 32 ≤ p.value.length then .error .valueSize
  else .ok ()

mutual

/-- Checks a node that is inside `depth` others. -/
def Node.check (depth : Nat) : Node → Except WriteError Unit
  | .node name properties children =>
    if maxDepth ≤ depth then .error .nodeDepth
    else if ¬ isNodeName name then .error .nodeName
    else do
      properties.forM Property.check
      checkAll (depth + 1) children

/-- Checks several nodes that are inside `depth` others. -/
def checkAll (depth : Nat) : List Node → Except WriteError Unit
  | [] => .ok ()
  | n :: rest => do
    n.check depth
    checkAll depth rest

end

/-- Writes a tree. -/
def write (root : Node) : Except WriteError Bytes := do
  root.check 0
  if 1 <<< 32 ≤ totalSize root then .error .totalSize else .ok (flatten root)

end Gic.DeviceTree
