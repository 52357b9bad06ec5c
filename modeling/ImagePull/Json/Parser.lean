import ImagePull.Json.Basic

/-!
# Reading JSON text

A document is read from bytes by recursive descent. Each reader takes the bytes
that are left and gives back what it read together with the bytes after it. The
readers of nested values carry a bound on their depth of recursion; every two
steps of it use up a byte, so `Json.parse?` starts with twice the length of its
input and the bound is never met.
-/

namespace ImagePull.Json

/-- Blank bytes between tokens. -/
def isBlankByte (b : UInt8) : Bool :=
  b == 0x20 || b == 0x0A || b == 0x0D || b == 0x09

/-- The bytes without the blanks in front. -/
def skipBlanks (bs : List UInt8) : List UInt8 :=
  bs.dropWhile isBlankByte

/-- Reads a string body up to its closing quote; `read` holds the bytes so far,
last first. Escapes are checked for their form only. -/
def readBody (read : List UInt8) : List UInt8 → Option (List UInt8 × List UInt8)
  | [] => none
  | 0x22 :: rest => some (read.reverse, rest)
  | 0x5C :: 0x75 :: a :: b :: c :: d :: rest =>
    if (hexUnit? a b c d).isSome then
      readBody (d :: c :: b :: a :: 0x75 :: 0x5C :: read) rest
    else none
  | 0x5C :: e :: rest =>
    if (shortEscape? e).isSome then readBody (e :: 0x5C :: read) rest else none
  | b :: rest => if b.toNat < 0x20 then none else readBody (b :: read) rest

/-- Whether the byte is a decimal digit. -/
def isDigitByte (b : UInt8) : Bool :=
  48 ≤ b.toNat && b.toNat ≤ 57

/-- Reads one digit or more. -/
def readDigits? (bs : List UInt8) : Option (List UInt8 × List UInt8) :=
  match bs.takeWhile isDigitByte with
  | [] => none
  | digits => some (digits, bs.dropWhile isDigitByte)

/-- Reads the digits of a whole part: a zero stands alone. -/
def readWhole? : List UInt8 → Option (List UInt8 × List UInt8)
  | 0x30 :: rest => some ([0x30], rest)
  | bs => readDigits? bs

/-- Reads a point and digits, if there is a point. -/
def readFraction? : List UInt8 → Option (List UInt8 × List UInt8)
  | 0x2E :: rest => (readDigits? rest).map fun r => (0x2E :: r.1, r.2)
  | bs => some ([], bs)

/-- Reads the sign of an exponent, if there is one. -/
def readSign : List UInt8 → List UInt8 × List UInt8
  | 0x2B :: rest => ([0x2B], rest)
  | 0x2D :: rest => ([0x2D], rest)
  | bs => ([], bs)

/-- Reads an exponent, if there is one. -/
def readExponent? : List UInt8 → Option (List UInt8 × List UInt8)
  | e :: rest =>
    if e = 0x65 ∨ e = 0x45 then
      let sign := readSign rest
      (readDigits? sign.2).map fun r => (e :: (sign.1 ++ r.1), r.2)
    else some ([], e :: rest)
  | [] => some ([], [])

/-- Reads a number without its sign. -/
def readUnsigned? (bs : List UInt8) : Option (List UInt8 × List UInt8) := do
  let (whole, bs) ← readWhole? bs
  let (fraction, bs) ← readFraction? bs
  let (exponent, bs) ← readExponent? bs
  some (whole ++ fraction ++ exponent, bs)

/-- Reads a number. -/
def readNumber? : List UInt8 → Option (List UInt8 × List UInt8)
  | 0x2D :: rest => (readUnsigned? rest).map fun r => (0x2D :: r.1, r.2)
  | bs => readUnsigned? bs

mutual

/-- Reads a value that may have blanks in front. -/
def readValue? (depth : Nat) (bs : List UInt8) : Option (Json × List UInt8) :=
  match depth with
  | 0 => none
  | depth + 1 =>
    match skipBlanks bs with
    | 0x6E :: 0x75 :: 0x6C :: 0x6C :: rest => some (.null, rest)
    | 0x74 :: 0x72 :: 0x75 :: 0x65 :: rest => some (.bool true, rest)
    | 0x66 :: 0x61 :: 0x6C :: 0x73 :: 0x65 :: rest => some (.bool false, rest)
    | 0x22 :: rest => (readBody [] rest).map fun r => (.string r.1, r.2)
    | 0x5B :: rest =>
      match skipBlanks rest with
      | 0x5D :: rest => some (.array [], rest)
      | rest => (readItems? depth rest).map fun r => (.array r.1, r.2)
    | 0x7B :: rest =>
      match skipBlanks rest with
      | 0x7D :: rest => some (.object [], rest)
      | rest => (readMembers? depth rest).map fun r => (.object r.1, r.2)
    | bs => (readNumber? bs).map fun r => (.number r.1, r.2)

/-- Reads one element or more, and the end of their array. -/
def readItems? (depth : Nat) (bs : List UInt8) : Option (List Json × List UInt8) :=
  match depth with
  | 0 => none
  | depth + 1 =>
    match readValue? depth bs with
    | none => none
    | some (item, rest) =>
      match skipBlanks rest with
      | 0x5D :: rest => some ([item], rest)
      | 0x2C :: rest => (readItems? depth rest).map fun r => (item :: r.1, r.2)
      | _ => none

/-- Reads one member or more, and the end of their object. -/
def readMembers? (depth : Nat) (bs : List UInt8) :
    Option (List (List UInt8 × Json) × List UInt8) :=
  match depth with
  | 0 => none
  | depth + 1 =>
    match skipBlanks bs with
    | 0x22 :: rest =>
      match readBody [] rest with
      | none => none
      | some (key, rest) =>
        match skipBlanks rest with
        | 0x3A :: rest =>
          match readValue? depth rest with
          | none => none
          | some (value, rest) =>
            match skipBlanks rest with
            | 0x7D :: rest => some ([(key, value)], rest)
            | 0x2C :: rest => (readMembers? depth rest).map fun r => ((key, value) :: r.1, r.2)
            | _ => none
        | _ => none
    | _ => none

end

/-- The document that the bytes hold, with nothing but blanks around it. -/
def parse? (bs : List UInt8) : Option Json :=
  match readValue? (2 * bs.length + 2) bs with
  | some (value, rest) => if (skipBlanks rest).isEmpty then some value else none
  | none => none

end ImagePull.Json
