/-!
# Documents

A document is a JSON value: a tree of arrays and objects over texts, numbers,
truth values and nulls. Objects keep their fields in the order in which they
are written, with every name that is written twice.

## The model

Of the numbers only the integers of 64 bits are told apart, signed or not; any
other number is just a number.
-/

namespace Gic

/-- A document. -/
inductive Document where
  /-- Nothing. -/
  | null
  /-- A truth value. -/
  | bool (value : Bool)
  /-- An integer of at most 64 bits. -/
  | integer (value : Int)
  /-- Any other number. -/
  | real
  /-- A text. -/
  | text (value : String)
  /-- A list of documents. -/
  | array (items : List Document)
  /-- Named documents. -/
  | object (fields : List (String × Document))

instance : Inhabited Document := ⟨.null⟩

end Gic
