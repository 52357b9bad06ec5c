import ImagePull.Yaml.Basic
import ImagePull.Yaml.Flow
import ImagePull.Yaml.Block
import ImagePull.Text.Utf8

/-!
# YAML tokens

The text of a document is cut into tokens from left to right. Outside flow
collections indentation opens and closes collections: the columns of the open
ones are kept, and a token further to the left closes those it is left of. A
mapping key is known only by the colon behind it, so the place of every token
that may begin a key is kept until the line ends or 1024 bytes have passed;
when the colon comes, the key token is put in there.
-/

namespace ImagePull.Yaml

/-- A token. -/
inductive Token where
  | version (major minor : Nat)
  | tagHandle (handle : String) (start : List UInt8)
  | documentStart
  | documentEnd
  | sequenceStart
  | mappingStart
  | blockEnd
  | flowSequenceStart
  | flowSequenceEnd
  | flowMappingStart
  | flowMappingEnd
  | entry
  | flowEntry
  | key
  | value
  | reference (name : String)
  | anchor (name : String)
  | tag (handle : String) (rest : List UInt8)
  | scalar (style : Style) (text : String)
deriving DecidableEq, Repr

/-- A token that may begin a key: how many tokens stand before it, and where it
begins. Where a key is required, no other token may take its place. -/
structure PossibleKey where
  position : Nat
  place : Place
  required : Bool
deriving DecidableEq, Repr

/-- The longest distance in bytes from the beginning of a key to its colon. -/
def keyLimit : Nat := 1024

/-- Whether a key that began here can still get its colon at `now`. -/
def PossibleKey.isAlive (k : PossibleKey) (now : Place) : Bool :=
  now.line ≤ k.place.line && now.bytes ≤ k.place.bytes + keyLimit

/-- The tokens read so far, last first, and all that decides on the next ones. -/
structure Scan where
  rest : List Char
  place : Place := {}
  tokens : List Token := []
  count : Nat := 0
  /-- The possible key of the innermost collection. -/
  possible : Option PossibleKey := none
  /-- The possible keys around each open flow collection, innermost first. -/
  outer : List (Option PossibleKey) := []
  /-- The columns of the open block collections, innermost first. -/
  indents : List Nat := []
  /-- Whether a key may begin here. -/
  keyAllowed : Bool := true
deriving DecidableEq, Repr

namespace Scan

/-- Whether a flow collection is open. -/
def inFlow (s : Scan) : Bool :=
  !s.outer.isEmpty

/-- The least column for what belongs to the innermost block collection. -/
def leastColumn (s : Scan) : Nat :=
  match s.indents with
  | [] => 0
  | column :: _ => column + 1

/-- The cursor. -/
def cursor (s : Scan) : Cursor :=
  ⟨s.rest, s.place⟩

/-- The scan at another place. -/
def moveTo (s : Scan) (c : Cursor) : Scan :=
  { s with rest := c.rest, place := c.place }

/-- The scan after a number of characters of the line. -/
def skip (s : Scan) (n : Nat) : Scan :=
  s.moveTo (s.cursor.advance n)

/-- The scan with one more token. -/
def emit (s : Scan) (t : Token) : Scan :=
  { s with tokens := t :: s.tokens, count := s.count + 1 }

/-- The scan with tokens put in after the first `position` ones. -/
def insert (s : Scan) (position : Nat) (ts : List Token) : Scan :=
  let later := s.count - position
  { s with
    tokens := s.tokens.take later ++ (ts.reverse ++ s.tokens.drop later)
    count := s.count + ts.length }

/-- Whether keys may begin from here on. -/
def allowKey (s : Scan) (allowed : Bool) : Scan :=
  { s with keyAllowed := allowed }

/-- Gives up the possible key, which must not be required. -/
def dropKey (s : Scan) : Option Scan :=
  if s.possible.any PossibleKey.required then none else some { s with possible := none }

/-- Notes that the next token may begin a key. -/
def noteKey (s : Scan) : Option Scan :=
  if s.keyAllowed then do
    let required := !s.inFlow && s.indents.head? = some s.place.column
    let s ← s.dropKey
    some { s with possible := some ⟨s.count, s.place, required⟩ }
  else some s

/-- The possible key unless it is too late for its colon; a required one must not be
too late. -/
def aged (now : Place) (key : Option PossibleKey) : Option (Option PossibleKey) :=
  match key with
  | none => some none
  | some k => if k.isAlive now then some key else if k.required then none else some none

/-- Gives up the possible keys for whose colon it is too late. -/
def ageKeys (s : Scan) : Option Scan := do
  let possible ← aged s.place s.possible
  let outer ← s.outer.mapM (aged s.place)
  some { s with possible, outer }

/-- Closes the block collections right of a column. -/
def unroll (s : Scan) (column : Nat) : Scan :=
  if s.inFlow then s
  else
    let closed := (s.indents.takeWhile (column < ·)).length
    { s with
      tokens := List.replicate closed .blockEnd ++ s.tokens
      count := s.count + closed
      indents := s.indents.drop closed }

/-- Closes all block collections. -/
def unrollAll (s : Scan) : Scan :=
  if s.inFlow then s
  else
    { s with
      tokens := List.replicate s.indents.length .blockEnd ++ s.tokens
      count := s.count + s.indents.length
      indents := [] }

/-- Opens a block collection at a column if none is open there or to the right of
it; its token comes after the first `position` ones. -/
def roll (s : Scan) (column position : Nat) (t : Token) : Scan :=
  if s.inFlow || s.indents.head?.any (column ≤ ·) then s
  else { s.insert position [t] with indents := column :: s.indents }

/-! ## Blanks and comments -/

/-- What marks the order of bytes; at the beginning of a line it counts for nothing. -/
def byteOrderMark : Char := '\uFEFF'

/-- The rest of a text without the blanks, line ends and comments at its beginning,
and whether a key may begin there. A tab is a blank only where no key may begin. -/
def skipBlanks (inFlow keyAllowed comment : Bool) (place : Place) :
    List Char → Cursor × Bool
  | [] => (⟨[], place⟩, keyAllowed)
  | c :: rest =>
    let next := place.after c
    if isBreak c then skipBlanks inFlow (keyAllowed || !inFlow) false next rest
    else if comment || c = ' ' || (c = '\t' && (inFlow || !keyAllowed)) ||
        (place.column = 0 && c = byteOrderMark) then
      skipBlanks inFlow keyAllowed comment next rest
    else if c = '#' then skipBlanks inFlow keyAllowed true next rest
    else (⟨c :: rest, place⟩, keyAllowed)

/-- The scan at its next token. -/
def toToken (s : Scan) : Option Scan := do
  let (c, keyAllowed) := skipBlanks s.inFlow s.keyAllowed false s.place s.rest
  let s ← ((s.moveTo c).allowKey keyAllowed).ageKeys
  some (s.unroll s.place.column)

/-! ## Directives, anchors and tags -/

/-- The characters of an address that need no escape. -/
def addressChars : List Char := ";/?:@&=+$.!~*'()".toList

/-- How many bytes belong to a character that begins with this one. Which of them begin
none is told by the high bits alone. -/
def width? (b : UInt8) : Option Nat :=
  if b < 0x80 then some 1
  else if b < 0xC0 then none
  else if b < 0xE0 then some 2
  else if b < 0xF0 then some 3
  else if b < 0xF8 then some 4
  else none

/-- Reads an address, last byte first; `%` and two digits stand for a byte. Where `left`
bytes of a character are still to come, they are written in this way too. -/
def addressFrom (more : List Char) (left : Nat) (read : List UInt8) :
    List Char → Option (List UInt8 × List Char)
  | '%' :: a :: b :: rest => do
    let byte := UInt8.ofNat (← Text.valueIn? 16 [a, b])
    match left with
    | 0 => addressFrom more ((← width? byte) - 1) (byte :: read) rest
    | left + 1 =>
      if 0x80 ≤ byte ∧ byte < 0xC0 then addressFrom more left (byte :: read) rest else none
  | c :: rest =>
    if 0 < left ∨ c = '%' then none
    else if isNameChar c || addressChars.contains c || more.contains c then
      addressFrom more 0 (UInt8.ofNat c.toNat :: read) rest
    else some (read, c :: rest)
  | [] => if 0 < left then none else some (read, [])

/-- Reads an address that continues `head`; the whole must not be empty. What stands
behind a zero byte is lost. -/
def address? (more head : List Char) (cs : List Char) : Option (List UInt8 × List Char) := do
  let (read, rest) ← addressFrom more 0 [] cs
  if head = [] ∧ read = [] then none
  else
    let bytes := Text.Utf8.encode (head.drop 1) ++ read.reverse
    some (bytes.takeWhile (· ≠ 0), rest)

/-- Reads a tag handle: `!`, `!!` or `!name!`; outside directives also `!name`,
which is a handle and the beginning of an address. -/
def handle? : List Char → Option (List Char × List Char)
  | '!' :: cs =>
    let name := cs.takeWhile isNameChar
    match cs.drop name.length with
    | '!' :: rest => some ('!' :: (name ++ ['!']), rest)
    | rest => some ('!' :: name, rest)
  | _ => none

/-- A tag, with the characters after it. -/
def tag? (cs : List Char) : Option (Token × List Char) :=
  match cs with
  | '!' :: '<' :: rest => do
    let (bytes, rest) ← address? [',', '[', ']'] [] rest
    match rest with
    | '>' :: rest => some (.tag "" bytes, rest)
    | _ => none
  | _ => do
    let (handle, rest) ← handle? cs
    if 1 < handle.length ∧ handle.getLast? = some '!' then
      let (bytes, rest) ← address? [] [] rest
      some (.tag (String.ofList handle) bytes, rest)
    else
      let (bytes, rest) ← address? [] handle rest
      if bytes = [] then some (.tag "" [Tag.mark], rest) else some (.tag "!" bytes, rest)

/-- A version: two numbers of at most nine digits with a point between them. -/
def version? (cs : List Char) : Option (Token × List Char) := do
  let major := cs.takeWhile Char.isDigit
  match cs.drop major.length with
  | '.' :: rest =>
    let minor := rest.takeWhile Char.isDigit
    if 9 < major.length ∨ 9 < minor.length then none
    else some (.version (← Text.value? major) (← Text.value? minor), rest.drop minor.length)
  | _ => none

/-- A tag handle and the beginning that it stands for. -/
def tagHandle? (cs : List Char) : Option (Token × List Char) := do
  let (handle, rest) ← handle? cs
  if handle ≠ ['!'] ∧ handle.getLast? ≠ some '!' then none
  else if !rest.head?.any isSpace then none
  else
    let (bytes, rest) ← address? [',', '[', ']'] [] (rest.dropWhile isSpace)
    if endsWord rest.head? then some (.tagHandle (String.ofList handle) bytes, rest) else none

/-- The directive in a line after its `%`. -/
def directive? (line : List Char) : Option Token := do
  let name := line.takeWhile isNameChar
  let rest := line.drop name.length
  if !endsWord rest.head? then none
  else
    let rest := rest.dropWhile isSpace
    let (t, rest) ←
      if name = "YAML".toList then version? rest
      else if name = "TAG".toList then tagHandle? rest
      else none
    match rest.dropWhile isSpace with
    | [] => some t
    | c :: _ => if c = '#' then some t else none

/-- What may follow the name of an anchor or an alias at once. -/
def afterName (c : Option Char) : Bool :=
  endsWord c || c.any ("?:,]\x7d%@`".toList.contains ·)

/-! ## One token -/

/-- Begins a collection of the flow form. -/
def openFlow (s : Scan) (t : Token) : Option Scan := do
  let s ← s.noteKey
  some (((({ s with outer := s.possible :: s.outer, possible := none } : Scan).allowKey true).skip
    1).emit t)

/-- Ends a collection of the flow form. -/
def closeFlow (s : Scan) (t : Token) : Option Scan := do
  let s ← s.dropKey
  let s := match s.outer with
    | [] => s
    | key :: outer => { s with possible := key, outer }
  some (((s.allowKey false).skip 1).emit t)

/-- Separates two entries of a flow collection. -/
def separate (s : Scan) : Option Scan := do
  let s ← s.dropKey
  some (((s.allowKey true).skip 1).emit .flowEntry)

/-- Begins an entry of a block sequence. -/
def beginEntry (s : Scan) : Option Scan := do
  if !s.inFlow && !s.keyAllowed then none
  else
    let s ← (s.roll s.place.column s.count .sequenceStart).dropKey
    some (((s.allowKey true).skip 1).emit .entry)

/-- Begins a key that is marked as one. -/
def beginKey (s : Scan) : Option Scan := do
  if !s.inFlow && !s.keyAllowed then none
  else
    let s ← (s.roll s.place.column s.count .mappingStart).dropKey
    some (((s.allowKey (!s.inFlow)).skip 1).emit .key)

/-- Begins a value; what the possible key began with is now known to be a key. -/
def beginValue (s : Scan) : Option Scan :=
  match s.possible with
  | some k =>
    let s := (s.insert k.position [.key]).roll k.place.column k.position .mappingStart
    some (((({ s with possible := none } : Scan).allowKey false).skip 1).emit .value)
  | none =>
    if !s.inFlow && !s.keyAllowed then none
    else
      let s := s.roll s.place.column s.count .mappingStart
      some (((s.allowKey (!s.inFlow)).skip 1).emit .value)

/-- Reads an anchor or an alias. -/
def name (s : Scan) (make : String → Token) : Option Scan := do
  let s ← s.noteKey
  let name := s.rest.tail.takeWhile isNameChar
  let s := (s.allowKey false).skip (name.length + 1)
  if name = [] ∨ !afterName s.rest.head? then none
  else some (s.emit (make (String.ofList name)))

/-- Reads a tag. -/
def tag (s : Scan) : Option Scan := do
  let s ← s.noteKey
  let (t, rest) ← tag? s.rest
  let s := (s.allowKey false).skip (s.rest.length - rest.length)
  if endsWord rest.head? || (s.inFlow && rest.head? = some ',') then some (s.emit t) else none

/-- Reads a scalar of the block form. -/
def blockScalar (s : Scan) (style : Style) : Option Scan := do
  let s ← s.dropKey
  let (text, after) ←
    block? (style = .folded) (s.indents.headD 0) s.leastColumn (s.cursor.advance 1)
  some (((s.allowKey true).moveTo after).emit (.scalar style (String.ofList text)))

/-- Reads a scalar between quotes. -/
def quotedScalar (s : Scan) (double : Bool) : Option Scan := do
  let s ← s.noteKey
  let (text, after) ← quoted? double (s.cursor.advance 1)
  some (((s.allowKey false).moveTo after).emit (.scalar .quoted (String.ofList text)))

/-- Reads a scalar without quotes. -/
def plainScalar (s : Scan) : Option Scan := do
  let s ← s.noteKey
  let p ← plain? s.inFlow s.leastColumn s.cursor
  some (((s.allowKey p.lineEnded).moveTo p.after).emit (.scalar .plain (String.ofList p.text)))

/-- Reads a mark of the start or end of a document. -/
def documentMark (s : Scan) (t : Token) : Option Scan := do
  let s ← s.unrollAll.dropKey
  some (((s.allowKey false).skip 3).emit t)

/-- Reads a directive. -/
def directive (s : Scan) : Option Scan := do
  let s ← s.unrollAll.dropKey
  let line := s.rest.takeWhile (!isBreak ·)
  let t ← directive? line.tail
  some (((s.allowKey false).skip line.length).emit t)

/-- The characters that no plain scalar begins with. -/
def indicators : List Char := "-?:,[]\x7b\x7d#&*!|>'\"%@`".toList

/-- Whether a plain scalar begins with this character before that one. -/
def beginsPlain (inFlow : Bool) (c : Char) (next : Option Char) : Bool :=
  !indicators.contains c || (c = '-' && !next.any isSpace) ||
    (!inFlow && (c = '?' || c = ':') && !endsWord next)

/-- Reads the token at which the scan stands. -/
def token (s : Scan) : Option Scan :=
  match s.rest with
  | [] => some s
  | c :: rest =>
    let next := rest.head?
    let atStart : Bool := s.place.column = 0
    if atStart && c = '%' then s.directive
    else if atStart && isMark '-' s.rest then s.documentMark .documentStart
    else if atStart && isMark '.' s.rest then s.documentMark .documentEnd
    else if c = '[' then s.openFlow .flowSequenceStart
    else if c = '{' then s.openFlow .flowMappingStart
    else if c = ']' then s.closeFlow .flowSequenceEnd
    else if c = '}' then s.closeFlow .flowMappingEnd
    else if c = ',' then s.separate
    else if c = '-' && endsWord next then s.beginEntry
    else if c = '?' && (s.inFlow || endsWord next) then s.beginKey
    else if c = ':' && (s.inFlow || endsWord next) then s.beginValue
    else if c = '*' then s.name .reference
    else if c = '&' then s.name .anchor
    else if c = '!' then s.tag
    else if c = '|' && !s.inFlow then s.blockScalar .literal
    else if c = '>' && !s.inFlow then s.blockScalar .folded
    else if c = '\'' then s.quotedScalar false
    else if c = '"' then s.quotedScalar true
    else if !isSpace c && beginsPlain s.inFlow c next then s.plainScalar
    else none

/-- Reads tokens to the end of the text; every token takes a character at least. -/
def toEnd : Nat → Scan → Option Scan
  | 0, _ => none
  | steps + 1, s => do
    let s ← s.toToken
    if s.rest = [] then s.unrollAll.dropKey else toEnd steps (← s.token)

end Scan

/-- The tokens of a text, if it can be cut into tokens. -/
def Token.ofChars? (cs : List Char) : Option (List Token) :=
  if cs.all isAllowed then do
    let cs := plainBreaks cs
    let s ← Scan.toEnd (cs.length + 1) { rest := cs }
    some s.tokens.reverse
  else none

end ImagePull.Yaml
