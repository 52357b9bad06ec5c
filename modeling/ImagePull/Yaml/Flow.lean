import ImagePull.Yaml.Place

/-!
# Scalars that run over lines

Quoted and plain scalars may go on over several lines. The blanks between two
words stand for themselves if they hold no line break; else they are folded: one
break is a space, and of several all but the first are kept.
-/

namespace ImagePull.Yaml

/-- The blanks since the last word; spaces and breaks are held last first. An
escaped break is none itself, but those after it are all kept. -/
inductive Gap where
  | none
  | spaces (read : List Char)
  | breaks (escaped : Bool) (read : List Char)
deriving DecidableEq, Repr

namespace Gap

/-- The gap with one more blank; spaces beside a break count for nothing. -/
def add (g : Gap) (c : Char) : Gap :=
  if isBreak c then
    match g with
    | .breaks escaped read => .breaks escaped (c :: read)
    | _ => .breaks false [c]
  else
    match g with
    | .none => .spaces [c]
    | .spaces read => .spaces (c :: read)
    | .breaks escaped read => .breaks escaped read

/-- What a gap stands for when a word follows it. -/
def text : Gap → List Char
  | .none => []
  | .spaces read => read.reverse
  | .breaks true read => read.reverse
  | .breaks false read => match read.reverse with
    | '\n' :: [] => [' ']
    | '\n' :: more => more
    | read => read

/-- Whether a gap holds a break. -/
def isBroken : Gap → Bool
  | .breaks _ _ => true
  | _ => false

end Gap

/-! ## Quoted scalars -/

/-- Where in a quoted scalar the reader is. -/
inductive QuotePart where
  | text
  /-- After a quote that may be one of two that stand for one. -/
  | quote
  /-- After a backslash. -/
  | escape
  /-- In a character number: the digits to come, and the value so far. -/
  | number (left value : Nat)
deriving DecidableEq, Repr

/-- The character that stands for another after a backslash, with it. -/
def shortEscapes : List (Char × Char) :=
  [('0', '\x00'), ('a', '\x07'), ('b', '\x08'), ('t', '\t'), ('\t', '\t'), ('n', '\n'),
   ('v', '\x0B'), ('f', '\x0C'), ('r', '\r'), ('e', '\x1B'), (' ', ' '), ('"', '"'),
   ('/', '/'), ('\\', '\\'), ('N', '\x85'), ('_', '\xA0'), ('L', '\u2028'), ('P', '\u2029')]

/-- The number of hexadecimal digits after a letter that announces them. -/
def escapeDigits : List (Char × Nat) :=
  [('x', 2), ('u', 4), ('U', 8)]

/-- Reads a scalar between quotes, after the first of them. What has been read is
held last character first. -/
def quotedFrom (double : Bool) (read : List Char) (gap : Gap) (part : QuotePart)
    (place : Place) : List Char → Option (List Char × Cursor)
  | [] => if part = .quote then some (read.reverse, ⟨[], place⟩) else none
  | c :: rest =>
    let next := place.after c
    match part with
    | .quote =>
      if c = '\'' then quotedFrom double (c :: read) .none .text next rest
      else some (read.reverse, ⟨c :: rest, place⟩)
    | .escape =>
      if isBreak c then quotedFrom double read (.breaks true []) .text next rest
      else match shortEscapes.lookup c with
        | some e => quotedFrom double (e :: read) .none .text next rest
        | none => match escapeDigits.lookup c with
          | some n => quotedFrom double read .none (.number n 0) next rest
          | none => none
    | .number left value =>
      match Text.digitIn? 16 c with
      | none => none
      | some digit =>
        let value := value * 16 + digit
        if 1 < left then quotedFrom double read .none (.number (left - 1) value) next rest
        else if value.isValidChar then
          quotedFrom double (Char.ofNat value :: read) .none .text next rest
        else none
    | .text =>
      if place.column = 0 && isDocumentMark (c :: rest) then none
      else if isSpace c || isBreak c then
        quotedFrom double read (gap.add c) .text next rest
      else
        let read := gap.text.reverse ++ read
        if double && c = '"' then some (read.reverse, ⟨rest, next⟩)
        else if double && c = '\\' then quotedFrom double read .none .escape next rest
        else if !double && c = '\'' then quotedFrom double read .none .quote next rest
        else quotedFrom double (c :: read) .none .text next rest

/-- Reads a scalar between quotes, after the first of them. -/
def quoted? (double : Bool) (start : Cursor) : Option (List Char × Cursor) :=
  quotedFrom double [] .none .text start.place start.rest

/-! ## Plain scalars -/

/-- A scalar as it was read: its text, whether a line ended behind it, and where it
ended. -/
structure PlainScalar where
  text : List Char
  lineEnded : Bool
  after : Cursor
deriving DecidableEq, Repr

/-- The characters that end a plain scalar in a flow collection. -/
def flowEnds : List Char := [',', '[', ']', '{', '}']

/-- Reads a scalar without quotes, whose further lines stand at `indent` or to the
right of it. Within a flow collection a colon must not touch a character of the
collection. -/
def plainFrom (inFlow : Bool) (indent : Nat) (read : List Char) (gap : Gap)
    (place : Place) : List Char → Option PlainScalar
  | [] => some ⟨read.reverse, gap.isBroken, ⟨[], place⟩⟩
  | c :: rest =>
    let outside := place.column < indent
    if isSpace c || isBreak c then
      if gap.isBroken && outside && c = '\t' then none
      else plainFrom inFlow indent read (gap.add c) (place.after c) rest
    else if (gap.isBroken && !inFlow && outside) ||
        (place.column = 0 && isDocumentMark (c :: rest)) ||
        (gap != .none && c = '#') then
      some ⟨read.reverse, gap.isBroken, ⟨c :: rest, place⟩⟩
    else if inFlow && c = ':' && rest.head?.any (fun d => d = '?' || flowEnds.contains d) then
      none
    else if (c = ':' && endsWord rest.head?) || (inFlow && flowEnds.contains c) then
      some ⟨read.reverse, gap.isBroken, ⟨c :: rest, place⟩⟩
    else
      plainFrom inFlow indent (c :: (gap.text.reverse ++ read)) .none (place.after c) rest

/-- Reads a scalar without quotes. -/
def plain? (inFlow : Bool) (indent : Nat) (start : Cursor) : Option PlainScalar :=
  plainFrom inFlow indent [] .none start.place start.rest

end ImagePull.Yaml
