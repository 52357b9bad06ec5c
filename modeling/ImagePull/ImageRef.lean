import ImagePull.Text.Blank

/-!
# Image references

An image is named by a repository, an optional registry in front of it, and a
tag, a digest or both behind it: `registry/name:tag@digest`. A first component
is a registry only if it holds a dot or a colon or is `localhost`, and a colon
belongs to the tag only if no slash follows it. A reference without tag and
digest means the tag `latest`.
-/

namespace ImagePull

/-- Why a text is no image reference. -/
inductive ImageRefError where
  | empty
  | invalidChar (c : Char)
  | invalidFormat (text : String)
deriving DecidableEq, Repr

/-- The wording of an error. -/
def ImageRefError.message : ImageRefError → String
  | .empty => "image reference cannot be empty"
  | .invalidChar c => "invalid character in image reference: " ++ String.singleton c
  | .invalidFormat text => "invalid image reference format: " ++ text

/-- A reference to an image. -/
structure ImageRef where
  registry : Option String
  name : String
  tag : Option String
  digest : Option String
deriving DecidableEq, Repr

namespace ImageRef

/-- The registry of a reference that names none. -/
def defaultDomain : String := "docker.io"

/-- A character that may stand in a reference. -/
def isAllowed (c : Char) : Bool :=
  c.isAlphanum || c == '/' || c == ':' || c == '.' || c == '-' || c == '_' || c == '@'

/-- Whether a first component names a registry. -/
def isRegistry (component : List Char) : Bool :=
  component.contains '.' || component.contains ':' || component == "localhost".toList

/-- The registry and the name in what stands before tag and digest. -/
def splitRegistry (text : List Char) : Except ImageRefError (Option (List Char) × List Char) :=
  match Text.cutFirst? '/' text with
  | none => .ok (none, text)
  | some (first, rest) =>
    if rest = [] then .error (.invalidFormat (String.ofList (first ++ ['/'])))
    else if isRegistry first then .ok (some first, rest)
    else .ok (none, text)

/-- The part before a digest, and the digest. -/
def splitDigest (text : List Char) : Except ImageRefError (List Char × Option (List Char)) :=
  match Text.cutFirst? '@' text with
  | none => .ok (text, none)
  | some (before, after) =>
    if after = [] then .error (.invalidFormat (String.ofList text)) else .ok (before, some after)

/-- The part before a tag, and the tag. -/
def splitTag (text : List Char) : List Char × Option (List Char) :=
  match Text.cutLast? ':' text with
  | none => (text, none)
  | some (before, after) => if after.contains '/' then (text, none) else (before, some after)

/-- Reads a reference without blanks around it. -/
def ofChars (text : List Char) : Except ImageRefError ImageRef :=
  if text = [] then .error .empty
  else match text.find? (fun c => !isAllowed c) with
    | some c => .error (.invalidChar c)
    | none => do
      let (rest, digest) ← splitDigest text
      let (rest, tag) := splitTag rest
      if rest = [] ∨ tag = some [] then .error (.invalidFormat (String.ofList text))
      else
        let (registry, name) ← splitRegistry rest
        let tag := if tag = none ∧ digest = none then some "latest".toList else tag
        .ok ⟨registry.map String.ofList, String.ofList name, tag.map String.ofList,
          digest.map String.ofList⟩

/-- Reads a reference that may have blanks around it. -/
def parse (s : String) : Except ImageRefError ImageRef :=
  ofChars (Text.trim Text.isBlank s.toList)

/-- The registry whose credentials a pull needs. -/
def domain (r : ImageRef) : String :=
  r.registry.getD defaultDomain

/-- Registry and name, without tag and digest. -/
def repository (r : ImageRef) : String :=
  match r.registry with
  | some registry => registry ++ "/" ++ r.name
  | none => r.name

/-- What a pull asks for: the digest if there is one, else the tag. -/
def pullTag (r : ImageRef) : Option String :=
  r.digest <|> r.tag

/-- The reference as it is written. -/
def text (r : ImageRef) : String :=
  r.repository ++
    (match r.tag with | some tag => ":" ++ tag | none => "") ++
    (match r.digest with | some digest => "@" ++ digest | none => "")

end ImageRef

end ImagePull
