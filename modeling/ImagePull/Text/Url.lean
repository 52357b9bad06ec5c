import ImagePull.Text.Trim
import ImagePull.Text.Utf8

/-!
# Paths and queries

The path of an address is sent without its dot segments (`Path.withoutDots`): a lone dot stands for
nothing, and two dots take back the segment before them. Nothing can be taken back at the root, nor
can the name of a drive, which is a letter and a colon.

A text inside a query is written byte by byte (`Percent.encode`): letters, digits and `-_.~` stand
for themselves, every other byte is `%` and its two hexadecimal digits in upper case. The result
holds no character that separates parts of a query.
-/

namespace ImagePull.Text

namespace Path

/-- Whether a segment names a drive. -/
def isDrive : List Char → Bool
  | [letter, ':'] => letter.isAlpha
  | _ => false

/-- The segments, last first, when the last is taken back unless it names a drive. -/
def takeBack : List (List Char) → List (List Char)
  | [] => []
  | segment :: before => if isDrive segment then segment :: before else before

/-- The segments that are left of `segments` after those in `before`, which are held
last first. -/
def resolve (before : List (List Char)) : (segments : List (List Char)) → List (List Char)
  | [] => before.reverse
  | segment :: rest =>
    if segment = ['.'] then resolve before rest
    else if segment = ['.', '.'] then resolve (takeBack before) rest
    else resolve (segment :: before) rest

/-- The path below the root that is left of a path below the root. -/
def withoutDots (path : String) : String :=
  String.intercalate "/" ((resolve [] (pieces '/' path.toList)).map String.ofList)

end Path

namespace Percent

/-- Whether a character stands for itself. -/
def isUnreserved (c : Char) : Bool :=
  c.isAlphanum || c == '-' || c == '_' || c == '.' || c == '~'

/-- The hexadecimal digit for a value below 16, in upper case. -/
def hexDigit (n : Nat) : Char :=
  if n < 10 then Char.ofNat (48 + n) else Char.ofNat (55 + n)

/-- The written form of one byte. -/
def encodeByte (b : UInt8) : List Char :=
  let c := Char.ofNat b.toNat
  if isUnreserved c then [c] else ['%', hexDigit (b.toNat / 16), hexDigit (b.toNat % 16)]

/-- The written form of a text. -/
def encode (s : String) : String :=
  String.ofList ((Utf8.bytes s).flatMap encodeByte)

end Percent

end ImagePull.Text
