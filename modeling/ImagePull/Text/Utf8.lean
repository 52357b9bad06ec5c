/-!
# UTF-8

Characters as bytes and back. A byte sequence is read by a machine whose state
says which continuation bytes it still awaits; overlong forms, surrogates and
values above U+10FFFF are kept out by the range of the first continuation byte.
What cannot be read is reported with its place (`Fault`), or replaced by U+FFFD
(`decodeLossy`), one replacement for each longest beginning of a character.
-/

namespace ImagePull.Text.Utf8

/-- The bytes of one character. -/
def encodeChar (c : Char) : List UInt8 :=
  let n := c.toNat
  if n < 0x80 then [UInt8.ofNat n]
  else if n < 0x800 then [UInt8.ofNat (0xC0 + n / 0x40), UInt8.ofNat (0x80 + n % 0x40)]
  else if n < 0x10000 then
    [UInt8.ofNat (0xE0 + n / 0x1000), UInt8.ofNat (0x80 + n / 0x40 % 0x40),
     UInt8.ofNat (0x80 + n % 0x40)]
  else
    [UInt8.ofNat (0xF0 + n / 0x40000), UInt8.ofNat (0x80 + n / 0x1000 % 0x40),
     UInt8.ofNat (0x80 + n / 0x40 % 0x40), UInt8.ofNat (0x80 + n % 0x40)]

/-- The bytes of a sequence of characters. -/
def encode (cs : List Char) : List UInt8 :=
  cs.flatMap encodeChar

/-- The bytes of a text. -/
def bytes (s : String) : List UInt8 :=
  encode s.toList

/-- A character that has been begun: how many bytes it has so far and still
lacks, the range the next byte has to lie in, and the bits read. -/
structure Begun where
  seen : Nat
  lacking : Nat
  low : Nat
  high : Nat
  bits : Nat
deriving DecidableEq, Repr

/-- What one byte leads to. -/
inductive Step where
  | whole (c : Char)
  | begun (state : Begun)
  | wrong

/-- Reads the first byte of a character. -/
def first (b : UInt8) : Step :=
  let n := b.toNat
  if n < 0x80 then .whole (Char.ofNat n)
  else if n < 0xC2 then .wrong
  else if n < 0xE0 then .begun ⟨1, 1, 0x80, 0xBF, n - 0xC0⟩
  else if n = 0xE0 then .begun ⟨1, 2, 0xA0, 0xBF, 0⟩
  else if n = 0xED then .begun ⟨1, 2, 0x80, 0x9F, 0xD⟩
  else if n < 0xF0 then .begun ⟨1, 2, 0x80, 0xBF, n - 0xE0⟩
  else if n = 0xF0 then .begun ⟨1, 3, 0x90, 0xBF, 0⟩
  else if n < 0xF4 then .begun ⟨1, 3, 0x80, 0xBF, n - 0xF0⟩
  else if n = 0xF4 then .begun ⟨1, 3, 0x80, 0x8F, 4⟩
  else .wrong

/-- Reads a further byte of a character that has been begun. -/
def next (s : Begun) (b : UInt8) : Step :=
  let n := b.toNat
  if n < s.low || s.high < n then .wrong
  else
    let bits := 0x40 * s.bits + (n - 0x80)
    if s.lacking ≤ 1 then .whole (Char.ofNat bits)
    else .begun ⟨s.seen + 1, s.lacking - 1, 0x80, 0xBF, bits⟩

/-- Why a byte sequence is no text: `length` bytes from `start` on begin no
character, or the sequence ends inside the character at `start`. -/
inductive Fault where
  | invalid (length start : Nat)
  | incomplete (start : Nat)
deriving DecidableEq, Repr

/-- The wording of a fault. -/
def Fault.message : Fault → String
  | .invalid length start =>
    "invalid utf-8 sequence of " ++ toString length ++ " bytes from index " ++ toString start
  | .incomplete start => "incomplete utf-8 byte sequence from index " ++ toString start

/-- Reads from a position on; `read` holds the characters so far, last first. -/
def decodeFrom (read : List Char) (position : Nat) (state : Option Begun) :
    List UInt8 → Except Fault (List Char)
  | [] => match state with
    | none => .ok read.reverse
    | some s => .error (.incomplete (position - s.seen))
  | b :: rest =>
    match state with
    | none => match first b with
      | .whole c => decodeFrom (c :: read) (position + 1) none rest
      | .begun s => decodeFrom read (position + 1) (some s) rest
      | .wrong => .error (.invalid 1 position)
    | some s => match next s b with
      | .whole c => decodeFrom (c :: read) (position + 1) none rest
      | .begun s => decodeFrom read (position + 1) (some s) rest
      | .wrong => .error (.invalid s.seen (position - s.seen))

/-- The characters of a byte sequence, or the first fault in it. -/
def decode (bs : List UInt8) : Except Fault (List Char) :=
  decodeFrom [] 0 none bs

/-- The text of a byte sequence, if it is valid. -/
def text? (bs : List UInt8) : Option String :=
  match decode bs with
  | .ok cs => some (String.ofList cs)
  | .error _ => none

/-- The replacement for bytes that are no character. -/
def replacement : Char := '\uFFFD'

/-- Reads from a position on, replacing what is wrong. A byte that breaks off a
character is read again as the first byte of the next. -/
def decodeLossyFrom (read : List Char) (state : Option Begun) : List UInt8 → List Char
  | [] => match state with
    | none => read.reverse
    | some _ => (replacement :: read).reverse
  | b :: rest =>
    let afresh (read : List Char) : List Char × Option Begun := match first b with
      | .whole c => (c :: read, none)
      | .begun s => (read, some s)
      | .wrong => (replacement :: read, none)
    let moved : List Char × Option Begun := match state with
      | none => afresh read
      | some s => match next s b with
        | .whole c => (c :: read, none)
        | .begun s => (read, some s)
        | .wrong => afresh (replacement :: read)
    decodeLossyFrom moved.1 moved.2 rest

/-- The text of a byte sequence, with U+FFFD for what is wrong in it. -/
def decodeLossy (bs : List UInt8) : String :=
  String.ofList (decodeLossyFrom [] none bs)

end ImagePull.Text.Utf8
