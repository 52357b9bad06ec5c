import ImagePull.Yaml.Place

/-!
# Block scalars

A scalar may be written as indented lines under a header. In a literal one the
line breaks are kept; in a folded one a break between two lines that begin with
no space is a space. The header says what becomes of the last breaks, and may
give the indentation, which is else that of the first line with text.
-/

namespace ImagePull.Yaml

/-- What becomes of the line breaks at the end: all go, one stays, or all stay. -/
inductive Chomping where
  | strip
  | clip
  | keep
deriving DecidableEq, Repr

/-- The header of a block scalar. -/
structure BlockHeader where
  chomping : Chomping := .clip
  increment : Option Nat := none
deriving DecidableEq, Repr

/-- The chomping that a sign stands for. -/
def Chomping.ofSign? (c : Char) : Option Chomping :=
  if c = '+' then some .keep else if c = '-' then some .strip else none

/-- The indentation that a digit stands for. -/
def incrementOf? (c : Char) : Option Nat :=
  if c.isDigit && c != '0' then some (c.toNat - 48) else none

/-- The header at the beginning of a line, and the rest of the line. -/
def BlockHeader.split : List Char → BlockHeader × List Char
  | [] => ({}, [])
  | c :: rest =>
    match Chomping.ofSign? c, incrementOf? c with
    | some chomping, _ => match rest with
      | d :: more => match incrementOf? d with
        | some n => (⟨chomping, some n⟩, more)
        | none => (⟨chomping, none⟩, rest)
      | [] => (⟨chomping, none⟩, [])
    | none, some n => match rest with
      | d :: more => match Chomping.ofSign? d with
        | some chomping => (⟨chomping, some n⟩, more)
        | none => (⟨.clip, some n⟩, rest)
      | [] => (⟨.clip, some n⟩, [])
    | none, none => ({}, c :: rest)

/-- The header in a line, behind which only blanks and a comment may stand. -/
def BlockHeader.ofLine? (line : List Char) : Option BlockHeader :=
  let (header, rest) := split line
  match rest.dropWhile isSpace with
  | [] => some header
  | c :: _ => if c = '#' then some header else none

/-- A line and the break that ends it; the last line of a text has none. -/
structure Line where
  text : List Char
  ending : Option Char
deriving DecidableEq, Repr

/-- The lines of a text. -/
def linesOf : List Char → List Line
  | [] => [⟨[], none⟩]
  | c :: rest =>
    if isBreak c then ⟨[], some c⟩ :: linesOf rest
    else match linesOf rest with
      | [] => [⟨[c], none⟩]
      | line :: more => { line with text := c :: line.text } :: more

/-- The number of spaces that a line begins with. -/
def Line.indent (l : Line) : Nat :=
  (l.text.takeWhile (· = ' ')).length

/-- The indentation of the first line with text, but at least `least` and at least
that of the blank lines before it. A tab must not stand where it begins. -/
def indentOf? (least : Nat) : List Line → Option Nat
  | [] => some least
  | line :: rest =>
    let n := line.indent
    match line.text.drop n, line.ending with
    | [], some _ => indentOf? (max least n) rest
    | c :: _, _ => if c = '\t' then none else some (max least n)
    | [], none => some (max least n)

/-- What a scalar with a given indentation makes of a line. -/
inductive BlockLine where
  | blank (ending : Char)
  | text (chars : List Char) (ending : Option Char)
  /-- The scalar ended before this line. -/
  | outside
deriving DecidableEq, Repr

/-- Reads one line; a tab must not stand before the indentation. -/
def BlockLine.ofLine? (indent : Nat) (l : Line) : Option BlockLine :=
  let n := min indent l.indent
  match l.text.drop n, l.ending with
  | [], some ending => some (.blank ending)
  | [], none => some .outside
  | c :: rest, ending =>
    if indent ≤ n then some (.text (c :: rest) ending)
    else if c = '\t' then none
    else some .outside

/-- The text of a block scalar while it is read: what is finished, last character
first, the last break, the breaks of blank lines after it, and whether the last
line began with a space. -/
structure BlockText where
  read : List Char := []
  lastBreak : List Char := []
  blanks : List Char := []
  spaced : Bool := false
deriving DecidableEq, Repr

namespace BlockText

/-- The text with one more line. -/
def addLine (t : BlockText) (folded : Bool) (chars : List Char) (ending : Option Char) :
    BlockText :=
  let spaced := chars.head?.any isSpace
  let joint :=
    if folded && t.lastBreak = ['\n'] && !t.spaced && !spaced then
      (if t.blanks = [] then [' '] else []) ++ t.blanks
    else t.lastBreak ++ t.blanks
  { read := chars.reverse ++ (joint.reverse ++ t.read)
    lastBreak := ending.toList
    blanks := []
    spaced }

/-- The finished text. -/
def finish (t : BlockText) (chomping : Chomping) : List Char :=
  t.read.reverse ++ match chomping with
    | .strip => []
    | .clip => t.lastBreak
    | .keep => t.lastBreak ++ t.blanks

end BlockText

/-- Reads the lines of a scalar; also gives the number of characters and lines
read. -/
def blockFrom (folded : Bool) (indent : Nat) (t : BlockText) (chars lines : Nat) :
    List Line → Option (BlockText × Nat × Nat)
  | [] => some (t, chars, lines)
  | l :: rest =>
    match BlockLine.ofLine? indent l with
    | none => none
    | some .outside => some (t, chars, lines)
    | some (.blank ending) =>
      blockFrom folded indent { t with blanks := t.blanks ++ [ending] }
        (chars + l.text.length + 1) (lines + 1) rest
    | some (.text cs ending) =>
      blockFrom folded indent (t.addLine folded cs ending)
        (chars + l.text.length + ending.toList.length) (lines + ending.toList.length) rest

/-- Reads a block scalar after its sign, under a node whose content has to stand at
column `least` or to the right of it; the column of an indentation that the header
gives counts from `base`. -/
def block? (folded : Bool) (base least : Nat) (start : Cursor) :
    Option (List Char × Cursor) := do
  let line := start.rest.takeWhile (!isBreak ·)
  let header ← BlockHeader.ofLine? line
  let after := start.rest.drop line.length
  let body := after.drop 1
  let lines := linesOf body
  let indent ← match header.increment with
    | some n => some (base + n)
    | none => indentOf? (max least 1) lines
  let (t, chars, count) ← blockFrom folded indent {} 0 0 lines
  let place : Place :=
    if after = [] then line.foldl Place.after start.place
    else { line := start.place.line + 1 + count }
  some (t.finish header.chomping, ⟨body.drop chars, place⟩)

end ImagePull.Yaml
