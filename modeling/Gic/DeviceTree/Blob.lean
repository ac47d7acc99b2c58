import Gic.DeviceTree.Tree

/-!
# Flattened device trees

A device tree is handed over as one block of bytes, in version 17 of the
flattened format: a header of ten cells, a list of reserved memory, which is
empty here, the structure of the tree and the names of its properties.

## The model

The structure is a sequence of parts that begin with a cell saying what they
are and fill up whole cells. A property refers to its name by the place of the
name among the names, where each name stands once, in the order of first use.
-/

namespace Gic.DeviceTree

/-- Zero bytes that fill up the last cell after `n` bytes. -/
def filling (n : Nat) : Bytes := List.replicate ((4 - n % 4) % 4) 0

/-- Bytes, filled up to whole cells. -/
def filled (bytes : Bytes) : Bytes := bytes ++ filling bytes.length

theorem length_filled (bytes : Bytes) : (filled bytes).length % 4 = 0 := by
  simp only [filled, filling, List.length_append, List.length_replicate]
  omega

/-- The cell that begins a node. -/
def beginNode : Nat := 1

/-- The cell that ends a node. -/
def endNode : Nat := 2

/-- The cell that begins a property. -/
def beginProperty : Nat := 3

/-- The cell that ends the structure. -/
def endStructure : Nat := 9

mutual

/-- The names of the properties in a node, in the order of their use. -/
def Node.uses : Node → List String
  | .node _ properties children => properties.map Property.name ++ usesOfAll children

/-- The names of the properties in several nodes, in the order of their use. -/
def usesOfAll : List Node → List String
  | [] => []
  | n :: rest => n.uses ++ usesOfAll rest

end

/-- The place of a name among names that stand one after the other. -/
def offsetOf (name : String) : List String → Nat
  | [] => 0
  | n :: rest => if n = name then 0 else (terminated n).length + offsetOf name rest

/-- A property in the structure. -/
def Property.flatten (names : List String) (p : Property) : Bytes :=
  cell beginProperty ++ cell p.value.length ++ cell (offsetOf p.name names) ++ filled p.value

mutual

/-- A node in the structure. -/
def Node.flatten (names : List String) : Node → Bytes
  | .node name properties children =>
    cell beginNode ++ filled (terminated name)
      ++ properties.flatMap (Property.flatten names)
      ++ flattenAll names children
      ++ cell endNode

/-- Several nodes in the structure. -/
def flattenAll (names : List String) : List Node → Bytes
  | [] => []
  | n :: rest => n.flatten names ++ flattenAll names rest

end

/-- The names of the properties, each once. -/
def Node.names (root : Node) : List String := root.uses.eraseDups

/-- The structure of a tree. -/
def structureBlock (root : Node) : Bytes := root.flatten root.names ++ cell endStructure

/-- The names of the properties of a tree. -/
def namesBlock (root : Node) : Bytes := root.names.flatMap terminated

/-- The list of reserved memory: nothing but its end. -/
def reservedBlock : Bytes := List.replicate 16 0

/-- The size of the header. -/
def headerSize : Nat := 40

/-- Where the list of reserved memory begins. -/
def reservedOffset : Nat := headerSize

/-- Where the structure begins. -/
def structureOffset : Nat := reservedOffset + 16

/-- Where the names begin. -/
def namesOffset (root : Node) : Nat := structureOffset + (structureBlock root).length

/-- The number of bytes altogether. -/
def totalSize (root : Node) : Nat := namesOffset root + (namesBlock root).length

/-- What the header consists of, in order: the mark of the format, the size, where the blocks
are, the version and the last compatible one, the number of the boot CPU, and the sizes of
names and structure. -/
def headerCells (root : Node) : List Nat :=
  [0xd00dfeed, totalSize root, structureOffset, namesOffset root, reservedOffset, 17, 16, 0,
    (namesBlock root).length, (structureBlock root).length]

/-- The flattened tree. -/
def flatten (root : Node) : Bytes :=
  (headerCells root).flatMap cell ++ reservedBlock ++ structureBlock root ++ namesBlock root

end Gic.DeviceTree
