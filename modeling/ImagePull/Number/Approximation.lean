import ImagePull.Number.Binary64
import ImagePull.Number.Decimal

/-!
# Approximate values of decimal literals

A literal can be read without exact arithmetic. As many of its digits are taken as 64
bits hold, and their value is multiplied with a power of ten in binary floating point:
both factors are rounded, and so is the product. `exceeds` tells whether that product
is infinite, which is not quite the same as whether the literal itself is too large.
-/

namespace ImagePull.Number.Decimal

/-- A number with digits put behind it while it fits 64 bits, and the digits left. -/
def extend (n : Nat) : List Char → Nat × List Char
  | [] => (n, [])
  | c :: rest =>
    match Text.digit? c with
    | some d =>
      if 10 * n + d < UInt64.size then extend (10 * n + d) rest else (n, c :: rest)
    | none => (n, c :: rest)

/-- The value of a literal without a sign of which only the digits count that 64 bits
hold. Digits before the point that do not count are as good as zeros. -/
def ofLeading? (literal : List Char) : Option Decimal :=
  let (digits, dropped) := extend 0 (literal.takeWhile Char.isDigit)
  let (fraction, rest) := match literal.dropWhile Char.isDigit with
    | '.' :: rest => (rest.takeWhile Char.isDigit, rest.dropWhile Char.isDigit)
    | rest => ([], rest)
  let (digits, left) := extend digits fraction
  (power? rest).map fun power =>
    ⟨digits, power + dropped.length - (fraction.length - left.length : Nat)⟩

/-- The largest power of ten that binary floating point holds. -/
def largestPower : Nat := 308

/-- Whether the product of the digits and the power of ten is infinite. -/
def exceeds (x : Decimal) : Bool :=
  if x.digits = 0 ∨ x.exponent ≤ 0 then false
  else if largestPower < x.exponent then true
  else
    let p := (Binary64.ofNat x.digits).fraction
    let q := (Binary64.ofNat (Nat.pow 10 x.exponent.toNat)).fraction
    overflowBound * (p.2 * q.2) ≤ p.1 * q.1

end ImagePull.Number.Decimal
