import ImagePull.Text.Utf8
import ImagePull.Text.Digits

/-!
# JSON documents

A document keeps its scalars as they are written: a number is its lexeme, a
string the bytes between its quotes with the escapes still in them. Reading a
scalar (`Json.text?`, `Json.word?`, `Json.flag?`) is a step of its own, so what
nobody asks for is checked for its form only and never decoded. Documents are
also built here for printing; `Json.ofString` escapes exactly the quote, the
backslash and the control characters below U+0020.
-/

namespace ImagePull

/-- A JSON value with its scalars as written. -/
inductive Json where
  | null
  | bool (value : Bool)
  | number (lexeme : List UInt8)
  | string (body : List UInt8)
  | array (items : List Json)
  | object (members : List (List UInt8 × Json))

namespace Json

/-! ## Escapes -/

/-- The byte of a hexadecimal digit in lower case. -/
def hexByte (n : Nat) : UInt8 :=
  if n < 10 then UInt8.ofNat (48 + n) else UInt8.ofNat (87 + n)

/-- The value of a hexadecimal digit in either case. -/
def hexValue? (b : UInt8) : Option Nat :=
  let n := b.toNat
  if 48 ≤ n ∧ n ≤ 57 then some (n - 48)
  else if 65 ≤ n ∧ n ≤ 70 then some (n - 55)
  else if 97 ≤ n ∧ n ≤ 102 then some (n - 87)
  else none

/-- The character as it stands inside a string. -/
def escapeChar (c : Char) : List UInt8 :=
  if c = '"' then [0x5C, 0x22]
  else if c = '\\' then [0x5C, 0x5C]
  else if c = '\x08' then [0x5C, 0x62]
  else if c = '\x09' then [0x5C, 0x74]
  else if c = '\x0A' then [0x5C, 0x6E]
  else if c = '\x0C' then [0x5C, 0x66]
  else if c = '\x0D' then [0x5C, 0x72]
  else if c.toNat < 0x20 then
    [0x5C, 0x75, 0x30, 0x30, hexByte (c.toNat / 16), hexByte (c.toNat % 16)]
  else Text.Utf8.encodeChar c

/-- The text as it stands between quotes. -/
def escape (cs : List Char) : List UInt8 :=
  cs.flatMap escapeChar

/-- The byte that a one-letter escape stands for. -/
def shortEscape? (b : UInt8) : Option UInt8 :=
  match b.toNat with
  | 0x22 => some 0x22
  | 0x5C => some 0x5C
  | 0x2F => some 0x2F
  | 0x62 => some 0x08
  | 0x66 => some 0x0C
  | 0x6E => some 0x0A
  | 0x72 => some 0x0D
  | 0x74 => some 0x09
  | _ => none

/-- The value of four hexadecimal digits. -/
def hexUnit? (a b c d : UInt8) : Option Nat := do
  let w ← hexValue? a
  let x ← hexValue? b
  let y ← hexValue? c
  let z ← hexValue? d
  some (((w * 16 + x) * 16 + y) * 16 + z)

/-- Whether a unit is the first, or the second, half of a surrogate pair. -/
def isHighHalf (n : Nat) : Bool := 0xD800 ≤ n && n < 0xDC00

@[inherit_doc isHighHalf]
def isLowHalf (n : Nat) : Bool := 0xDC00 ≤ n && n < 0xE000

/-- Undoes the escapes of a string body. `half` is a first half of a surrogate
pair that still awaits its second; a half that stands alone makes the body
unreadable. The result is in reverse. -/
def unescapeFrom (read : List UInt8) (half : Option Nat) :
    List UInt8 → Option (List UInt8)
  | [] => if half.isSome then none else some read
  | 0x5C :: 0x75 :: a :: b :: c :: d :: rest =>
    match hexUnit? a b c d with
    | none => none
    | some n =>
      match half with
      | some high =>
        if isLowHalf n then
          let c := Char.ofNat (0x10000 + (high - 0xD800) * 0x400 + (n - 0xDC00))
          unescapeFrom ((Text.Utf8.encodeChar c).reverse ++ read) none rest
        else none
      | none =>
        if isHighHalf n then unescapeFrom read (some n) rest
        else if isLowHalf n then none
        else unescapeFrom ((Text.Utf8.encodeChar (Char.ofNat n)).reverse ++ read) none rest
  | 0x5C :: e :: rest =>
    if half.isSome then none
    else match shortEscape? e with
      | none => none
      | some b => unescapeFrom (b :: read) none rest
  | b :: rest =>
    if half.isSome then none else unescapeFrom (b :: read) none rest

/-- The bytes that a string body stands for. -/
def unescape? (body : List UInt8) : Option (List UInt8) :=
  (unescapeFrom [] none body).map List.reverse

/-- The text that a string body stands for: its escapes are undone and the
result has to be UTF-8. -/
def bodyText? (body : List UInt8) : Option String :=
  (unescape? body).bind Text.Utf8.text?

/-! ## Building documents -/

/-- A string. -/
def ofString (s : String) : Json :=
  .string (escape s.toList)

/-- A whole number. -/
def ofNat (n : Nat) : Json :=
  .number (Text.Utf8.encode (Text.numeralChars n))

/-- A count. -/
def ofWord (n : UInt64) : Json :=
  ofNat n.toNat

/-- An object whose members have the given names. -/
def ofMembers (members : List (String × Json)) : Json :=
  .object (members.map fun m => (escape m.1.toList, m.2))

/-- A member that is left out when there is no value. -/
def member? (name : String) (value : Option Json) : List (String × Json) :=
  match value with
  | none => []
  | some v => [(name, v)]

/-! ## Reading scalars -/

/-- The text of a string. -/
def text? : Json → Option String
  | .string body => bodyText? body
  | _ => none

/-- The value of a number that is written with digits only and fits 64 bits. -/
def word? : Json → Option UInt64
  | .number lexeme =>
    if lexeme.all fun b => 48 ≤ b.toNat && b.toNat ≤ 57 then
      let n := Text.digitsFrom 0 (lexeme.map fun b => Char.ofNat b.toNat)
      if n < UInt64.size then some (UInt64.ofNat n) else none
    else none
  | _ => none

/-- The value of a truth value. -/
def flag? : Json → Option Bool
  | .bool b => some b
  | _ => none

/-- The elements of an array, each read by `read?`. -/
def list? {α : Type} (read? : Json → Option α) : Json → Option (List α)
  | .array items => items.mapM read?
  | _ => none

/-! ## Reading records -/

/-- The members that a record knows, with their names. A record stands either as
an object, where every key has to be a text, a known key stands at most once and
unknown members are passed over, or as an array of its fields in order, of which
the last may be missing. -/
def fields? (names : List String) : Json → Option (List (String × Json))
  | .object members => do
    let named ← members.mapM fun m => (bodyText? m.1).map (·, m.2)
    let known := named.filter fun m => names.contains m.1
    if (known.map Prod.fst).Nodup then some known else none
  | .array items => if items.length ≤ names.length then some (names.zip items) else none
  | _ => none

/-- A field that may be missing. -/
def field? {α : Type} (fields : List (String × Json)) (name : String) (missing : α)
    (read? : Json → Option α) : Option α :=
  match fields.lookup name with
  | none => some missing
  | some value => read? value

/-- A value that may be null. -/
def nullable? {α : Type} (read? : Json → Option α) : Json → Option (Option α)
  | .null => some none
  | value => (read? value).map some

end Json

end ImagePull
