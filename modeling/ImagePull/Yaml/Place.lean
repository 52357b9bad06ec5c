import ImagePull.Text.Digits

/-!
# Places in YAML text

Text is read by lines and columns, both counted from zero, and by the bytes of a line
before a place. Every way of ending a line but the two Unicode separators is read as a
line feed.
-/

namespace ImagePull.Yaml

/-- A space or a tab. -/
def isSpace (c : Char) : Bool :=
  c = ' ' || c = '\t'

/-- A character that ends a line. -/
def isBreak (c : Char) : Bool :=
  c = '\n' || c = '\u2028' || c = '\u2029'

/-- Whether a word ends before this character, or with the text. -/
def endsWord : Option Char → Bool
  | none => true
  | some c => isSpace c || isBreak c

/-- A character of a name. -/
def isNameChar (c : Char) : Bool :=
  c.isAlphanum || c = '-' || c = '_'

/-- A character that may stand in a document. -/
def isAllowed (c : Char) : Bool :=
  let n := c.toNat
  n = 0x09 || n = 0x0A || n = 0x0D || (0x20 ≤ n && n ≤ 0x7E) || n = 0x85 ||
    (0xA0 ≤ n && n ≤ 0xFFFD) || 0x10000 ≤ n

/-- The text with a line feed for each carriage return, pair of carriage return
and line feed, and next-line character. -/
def plainBreaks : List Char → List Char
  | [] => []
  | '\r' :: '\n' :: rest => '\n' :: plainBreaks rest
  | c :: rest => (if c = '\r' || c = '\x85' then '\n' else c) :: plainBreaks rest

/-- A place in a text. -/
structure Place where
  line : Nat := 0
  column : Nat := 0
  /-- The length of the line before the place, in UTF-8. -/
  bytes : Nat := 0
deriving DecidableEq, Repr

/-- The place after a character. -/
def Place.after (p : Place) (c : Char) : Place :=
  if isBreak c then { line := p.line + 1 }
  else { p with column := p.column + 1, bytes := p.bytes + c.utf8Size }

/-- What is left of a text, and where it begins. -/
structure Cursor where
  rest : List Char
  place : Place := {}
deriving DecidableEq, Repr

/-- The cursor after a number of characters. -/
def Cursor.advance (c : Cursor) (n : Nat) : Cursor :=
  ⟨c.rest.drop n, (c.rest.take n).foldl Place.after c.place⟩

/-- Whether a line begins with three of a character and the word ends there. -/
def isMark (c : Char) : List Char → Bool
  | x :: y :: z :: rest => x = c && y = c && z = c && endsWord rest.head?
  | _ => false

/-- Whether a line begins with a mark of the start or end of a document. -/
def isDocumentMark (line : List Char) : Bool :=
  isMark '-' line || isMark '.' line

end ImagePull.Yaml
