import Gic.Document.Token

/-!
# Reading a document

A document is read token by token. What has been read of it so far is a draft:
the arrays and objects that are still open, and what may come next.

## The model

`Draft.take` says how a draft grows by a token, and `none` says that the token
cannot stand there. A document must not be nested deeper than `maxNesting`.
Reading succeeds if the draft is complete when the tokens end.
-/

namespace Gic.Document

/-- An array or object in which a value is awaited, with what it holds, last one first. -/
inductive Frame where
  /-- An array. -/
  | array (items : List Document)
  /-- An object; the value is that of `key`. -/
  | object (fields : List (String × Document)) (key : String)

/-- What may come next in the innermost place of a draft; what is already there stands last one
first. -/
inductive Awaited where
  /-- A value. -/
  | value
  /-- The first value of an array, or its end. -/
  | firstItem
  /-- The first key of an object, or its end. -/
  | firstKey
  /-- A further key of an object. -/
  | key (fields : List (String × Document))
  /-- The colon after a key. -/
  | colon (fields : List (String × Document)) (key : String)
  /-- A comma in an array, or its end. -/
  | afterItem (items : List Document)
  /-- A comma in an object, or its end. -/
  | afterField (fields : List (String × Document))
  /-- Nothing: the document is complete. -/
  | nothing (whole : Document)

/-- A document that has been read in part. -/
structure Draft where
  /-- Where values are awaited, innermost first. -/
  frames : List Frame
  /-- What may come next. -/
  awaited : Awaited

/-- How many arrays and objects may be open at once. -/
def maxNesting : Nat := 127

namespace Draft

/-- Nothing has been read. -/
def start : Draft := ⟨[], .value⟩

/-- Puts a value where one is awaited. -/
def put (value : Document) : List Frame → Draft
  | [] => ⟨[], .nothing value⟩
  | .array items :: rest => ⟨rest, .afterItem (value :: items)⟩
  | .object fields key :: rest => ⟨rest, .afterField ((key, value) :: fields)⟩

/-- Opens an array or object where a value is awaited. -/
def enter (frames : List Frame) (awaited : Awaited) : Option Draft :=
  if frames.length < maxNesting then some ⟨frames, awaited⟩ else none

/-- Takes a token where a value is awaited. -/
def takeValue (frames : List Frame) : Token → Option Draft
  | .plain value => some (put value frames)
  | .text value => some (put (.text value) frames)
  | .beginArray => enter frames .firstItem
  | .beginObject => enter frames .firstKey
  | _ => none

/-- Takes a token. -/
def take (d : Draft) (token : Token) : Option Draft :=
  match d.awaited, token with
  | .value, t => takeValue d.frames t
  | .firstItem, .endArray => some (put (.array []) d.frames)
  | .firstItem, t => takeValue (.array [] :: d.frames) t
  | .firstKey, .endObject => some (put (.object []) d.frames)
  | .firstKey, .text key => some ⟨d.frames, .colon [] key⟩
  | .key fields, .text key => some ⟨d.frames, .colon fields key⟩
  | .colon fields key, .colon => some ⟨.object fields key :: d.frames, .value⟩
  | .afterItem items, .comma => some ⟨.array items :: d.frames, .value⟩
  | .afterItem items, .endArray => some (put (.array items.reverse) d.frames)
  | .afterField fields, .comma => some ⟨d.frames, .key fields⟩
  | .afterField fields, .endObject => some (put (.object fields.reverse) d.frames)
  | _, _ => none

/-- The document, if the draft is complete. -/
def whole? (d : Draft) : Option Document :=
  match d.awaited with
  | .nothing whole => some whole
  | _ => none

end Draft

/-- The document that tokens make up. -/
def ofTokens? (tokens : List Token) : Option Document :=
  (tokens.foldlM Draft.take Draft.start).bind Draft.whole?

/-- The document that a text is. -/
def ofText? (input : String) : Option Document :=
  (Token.readAll input.toList).bind ofTokens?

end Gic.Document
