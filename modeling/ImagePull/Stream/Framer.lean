import ImagePull.Text.Trim

/-!
# Lines out of chunks

A transport delivers bytes in chunks that do not line up with records. The
framer keeps the bytes that no line has been made of and gives out complete
lines, without the blanks around them; lines that hold nothing else are passed
over. Bytes inside a line are left as they are.
-/

namespace ImagePull.Stream

/-- A byte that ends a line. -/
def newline : UInt8 := 0x0A

/-- The blanks at the ends of a line: space, tab, line feed, form feed and
carriage return. -/
def isLineBlank (b : UInt8) : Bool :=
  b == 0x20 || b == 0x09 || b == 0x0A || b == 0x0C || b == 0x0D

/-- A line without blanks around it, unless nothing is left. -/
def trimmedLine? (line : List UInt8) : Option (List UInt8) :=
  match Text.trim isLineBlank line with
  | [] => none
  | trimmed => some trimmed

/-- The bytes of which no line has been made yet. -/
structure Framer where
  buffer : List UInt8 := []
deriving DecidableEq, Repr

namespace Framer

/-- Takes in a chunk. -/
def push (f : Framer) (chunk : List UInt8) : Framer :=
  ⟨f.buffer ++ chunk⟩

/-- Looks for a complete line; `begun` holds the line so far, last byte first. -/
def scan (begun : List UInt8) : List UInt8 → Option (List UInt8) × Framer
  | [] => (none, ⟨begun.reverse⟩)
  | b :: rest =>
    if b = newline then
      match trimmedLine? begun.reverse with
      | some line => (some line, ⟨rest⟩)
      | none => scan [] rest
    else scan (b :: begun) rest

/-- The next complete line, and the framer after it. -/
def next (f : Framer) : Option (List UInt8) × Framer :=
  scan [] f.buffer

/-- The line that the end of the input completes, if there is one; afterwards
the framer is empty. -/
def finish (f : Framer) : Option (List UInt8) × Framer :=
  (trimmedLine? f.buffer, {})

/-- All complete lines, and the framer after them; `room` bounds their number. -/
def drain (f : Framer) : Nat → List (List UInt8) × Framer
  | 0 => ([], f)
  | room + 1 =>
    match f.next with
    | (none, f) => ([], f)
    | (some line, f) =>
      let (lines, f) := f.drain room
      (line :: lines, f)

/-- All complete lines, and the framer after them. -/
def lines (f : Framer) : List (List UInt8) × Framer :=
  f.drain f.buffer.length

end Framer

end ImagePull.Stream
