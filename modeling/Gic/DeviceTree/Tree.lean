/-!
# Device trees

A device tree tells an operating system what hardware there is. Its nodes have
properties, whose values are bytes, and further nodes inside. Numbers are kept
as big-endian cells of four bytes, texts end in a zero byte.
-/

namespace Gic.DeviceTree

/-- Bytes, first to last. -/
abbrev Bytes := List UInt8

/-- The cell of a number: its four lowest bytes, highest first. -/
def cell (n : Nat) : Bytes :=
  [UInt8.ofNat (n >>> 24), UInt8.ofNat (n >>> 16), UInt8.ofNat (n >>> 8), UInt8.ofNat n]

/-- The two cells of a number of 64 bits. -/
def cellPair (n : Nat) : Bytes := cell (n >>> 32) ++ cell n

/-- A text and the zero byte after it. -/
def terminated (text : String) : Bytes := text.toUTF8.data.toList ++ [0]

@[simp] theorem length_cell (n : Nat) : (cell n).length = 4 := rfl

@[simp] theorem length_cellPair (n : Nat) : (cellPair n).length = 8 := rfl

/-- A property of a node. -/
structure Property where
  /-- Its name. -/
  name : String
  /-- Its value. -/
  value : Bytes
  deriving DecidableEq

namespace Property

/-- A property that says something by being there. -/
def flag (name : String) : Property := ⟨name, []⟩

/-- A property whose value is a text. -/
def text (name value : String) : Property := ⟨name, terminated value⟩

/-- A property whose value is a list of cells. -/
def cells (name : String) (values : List Nat) : Property := ⟨name, values.flatMap cell⟩

/-- A property whose value is a list of numbers of 64 bits. -/
def cellPairs (name : String) (values : List Nat) : Property := ⟨name, values.flatMap cellPair⟩

end Property

/-- A node. -/
inductive Node where
  /-- A node of that name with its properties and the nodes inside. -/
  | node (name : String) (properties : List Property) (children : List Node)

namespace Node

/-- The name of a node. -/
def name : Node → String
  | node name _ _ => name

/-- The properties of a node. -/
def properties : Node → List Property
  | node _ properties _ => properties

/-- The nodes inside a node. -/
def children : Node → List Node
  | node _ _ children => children

end Node

end Gic.DeviceTree
