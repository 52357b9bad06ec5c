import ImagePull.Text.Utf8

/-!
# YAML documents

A document is a tree of scalars, sequences and mappings. A scalar keeps how it
was written, since only plain ones can mean more than their text. Aliases have
been replaced by what they stand for.
-/

namespace ImagePull.Yaml

/-- How a scalar is written. -/
inductive Style where
  | plain
  | quoted
  | literal
  | folded
deriving DecidableEq, Repr

/-- A tag, by its bytes, which need not be a text. -/
structure Tag where
  bytes : List UInt8
deriving DecidableEq, Repr

namespace Tag

/-- The byte of an exclamation mark. -/
def mark : UInt8 := 0x21

/-- The tag of a core type. -/
def core (name : String) : Tag :=
  ⟨Text.Utf8.bytes ("tag:yaml.org,2002:" ++ name)⟩

/-- Whether a tag is of a document's own making: it begins with an exclamation mark. -/
def isLocal (t : Tag) : Bool :=
  t.bytes.head? = some mark

/-- The name in a tag of a document's own making: what follows the exclamation mark, or
that mark if nothing does. It has to be a text. -/
def name? (t : Tag) : Option String :=
  match t.bytes with
  | [] => none
  | b :: rest =>
    if b ≠ mark then none
    else if rest = [] then some "!"
    else Text.Utf8.text? rest

end Tag

/-- A node of a document, with its tag if it has one. -/
inductive Node where
  | scalar (tag : Option Tag) (style : Style) (text : String)
  | sequence (tag : Option Tag) (items : List Node)
  | mapping (tag : Option Tag) (pairs : List (Node × Node))

namespace Node

/-- The node that stands where nothing is written. -/
def empty : Node := .scalar none .plain ""

end Node

end ImagePull.Yaml
