/-!
# Base64

Three bytes are written as four symbols of an alphabet of sixty-four, and a
last group of one or two bytes is filled up with `=`. Reading is strict: the
filling has to be there, and the bits that it leaves over have to be zero, so a
byte sequence has exactly one written form.
-/

namespace ImagePull.Text.Base64

/-- The two alphabets, which differ in the last two symbols. -/
inductive Alphabet where
  | standard
  | urlSafe
deriving DecidableEq, Repr

/-- The symbols for 62 and 63. -/
def Alphabet.lastTwo : Alphabet → Char × Char
  | .standard => ('+', '/')
  | .urlSafe => ('-', '_')

/-- The symbol for a value below 64. -/
def Alphabet.symbol (a : Alphabet) (n : Nat) : Char :=
  if n < 26 then Char.ofNat (65 + n)
  else if n < 52 then Char.ofNat (97 + (n - 26))
  else if n < 62 then Char.ofNat (48 + (n - 52))
  else if n = 62 then a.lastTwo.1
  else a.lastTwo.2

/-- The value of a symbol, if it belongs to the alphabet. -/
def Alphabet.value? (a : Alphabet) (c : Char) : Option Nat :=
  if c.isUpper then some (c.toNat - 65)
  else if c.isLower then some (c.toNat - 97 + 26)
  else if c.isDigit then some (c.toNat - 48 + 52)
  else if c = a.lastTwo.1 then some 62
  else if c = a.lastTwo.2 then some 63
  else none

/-- The filler of a last group. -/
def filler : Char := '='

/-- The written form of a byte sequence. -/
def encode (a : Alphabet) : List UInt8 → List Char
  | [] => []
  | [x] =>
    let n := x.toNat
    [a.symbol (n / 4), a.symbol (n % 4 * 16), filler, filler]
  | [x, y] =>
    let n := x.toNat * 256 + y.toNat
    [a.symbol (n / 1024), a.symbol (n / 16 % 64), a.symbol (n % 16 * 4), filler]
  | x :: y :: z :: rest =>
    let n := (x.toNat * 256 + y.toNat) * 256 + z.toNat
    a.symbol (n / 262144) :: a.symbol (n / 4096 % 64) :: a.symbol (n / 64 % 64) ::
      a.symbol (n % 64) :: encode a rest

/-- Three bytes from four values below 64. -/
def triple (p q r s : Nat) : List UInt8 :=
  let n := ((p * 64 + q) * 64 + r) * 64 + s
  [UInt8.ofNat (n / 65536), UInt8.ofNat (n / 256 % 256), UInt8.ofNat (n % 256)]

/-- The bytes of a last group of four symbols. -/
def lastGroup? (a : Alphabet) (w x y z : Char) : Option (List UInt8) := do
  let p ← a.value? w
  let q ← a.value? x
  if y = filler ∧ z = filler then
    if q % 16 = 0 then some ((triple p q 0 0).take 1) else none
  else
    let r ← a.value? y
    if z = filler then
      if r % 4 = 0 then some ((triple p q r 0).take 2) else none
    else
      let s ← a.value? z
      some (triple p q r s)

/-- The bytes of a written form, if it is one. -/
def decode? (a : Alphabet) : List Char → Option (List UInt8)
  | [] => some []
  | [w, x, y, z] => lastGroup? a w x y z
  | w :: x :: y :: z :: rest => do
    let p ← a.value? w
    let q ← a.value? x
    let r ← a.value? y
    let s ← a.value? z
    let bytes ← decode? a rest
    some (triple p q r s ++ bytes)
  | _ => none

end ImagePull.Text.Base64
