import ImagePull.Text.Digits

/-!
# Decimal literals

A number is written with digits, with or without a point among them, and may end
in a power of ten. Its value is a whole number times a power of ten. `isFinite`
tells whether the nearest binary floating point number with 53 significant bits
is finite, which holds of the values below half a step above the largest one.
-/

namespace ImagePull.Number

/-- The value `digits · 10 ^ exponent`. -/
structure Decimal where
  digits : Nat
  exponent : Int
deriving DecidableEq, Repr

namespace Decimal

/-- A whole number with a sign. -/
def signed? : List Char → Option Int
  | '-' :: digits => (Text.value? digits).map fun n => -n
  | '+' :: digits => (Text.value? digits).map Int.ofNat
  | digits => (Text.value? digits).map Int.ofNat

/-- The power of ten in what follows the digits. -/
def power? : List Char → Option Int
  | [] => some 0
  | c :: rest => if c = 'e' ∨ c = 'E' then signed? rest else none

/-- The value of a literal without a sign; on one side of the point the digits
may be missing. -/
def ofUnsigned? (literal : List Char) : Option Decimal :=
  let whole := literal.takeWhile Char.isDigit
  let (fraction, rest) := match literal.dropWhile Char.isDigit with
    | '.' :: rest => (rest.takeWhile Char.isDigit, rest.dropWhile Char.isDigit)
    | rest => ([], rest)
  do
    let digits ← Text.value? (whole ++ fraction)
    let power ← power? rest
    some ⟨digits, power - fraction.length⟩

/-- The least whole number whose nearest binary floating point number is
infinite. -/
def overflowBound : Nat := Nat.pow 2 1024 - Nat.pow 2 970

/-- Whether the nearest binary floating point number is finite. Values that are
far off are told by the number of their digits alone. -/
def isFinite (x : Decimal) : Bool :=
  let magnitude : Int := (Text.numeralChars x.digits).length + x.exponent
  if x.digits = 0 ∨ magnitude ≤ 308 then true
  else if 309 < magnitude then false
  else if 0 ≤ x.exponent then x.digits * Nat.pow 10 x.exponent.toNat < overflowBound
  else x.digits < overflowBound * Nat.pow 10 (-x.exponent).toNat

end Decimal

end ImagePull.Number
