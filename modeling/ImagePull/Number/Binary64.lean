/-!
# Binary floating point with 53 significant bits

A value is `significand · 2 ^ exponent`. `nearest` takes a quotient of whole
numbers to the value nearest to it, a tie to the even significand, and `bits` is
the interchange format of a value. Only values far from the ends of the exponent
range occur here, so neither subnormals nor infinities are represented.
-/

namespace ImagePull.Number

/-- The quotient rounded to the nearest whole number, a half to the even one. -/
def roundDiv (numerator denominator : Nat) : Nat :=
  let q := numerator / denominator
  let twice := 2 * (numerator % denominator)
  if twice < denominator then q
  else if denominator < twice then q + 1
  else q + q % 2

/-- A non-negative value with a binary point. -/
structure Binary64 where
  significand : Nat
  exponent : Int
deriving DecidableEq, Repr

namespace Binary64

/-- The value as a quotient of whole numbers. -/
def fraction (x : Binary64) : Nat × Nat :=
  if 0 ≤ x.exponent then (x.significand * Nat.pow 2 x.exponent.toNat, 1)
  else (x.significand, Nat.pow 2 (-x.exponent).toNat)

/-- The quotient over `2 ^ exponent`, as a quotient of whole numbers. -/
def scaled (numerator denominator : Nat) (exponent : Int) : Nat × Nat :=
  if 0 ≤ exponent then (numerator, denominator * Nat.pow 2 exponent.toNat)
  else (numerator * Nat.pow 2 (-exponent).toNat, denominator)

/-- The least whole number with 53 binary digits. -/
def leastSignificand : Nat := 4503599627370496

/-- The exponent at which the quotient has 53 digits before the point. -/
def exponentFor (numerator denominator : Nat) : Int :=
  let guess : Int := (numerator.log2 : Int) - denominator.log2 - 52
  let s := scaled numerator denominator guess
  if s.1 / s.2 < leastSignificand then guess - 1 else guess

/-- The value nearest to a quotient; the denominator is not zero. -/
def nearest (numerator denominator : Nat) : Binary64 :=
  if numerator = 0 then ⟨0, 0⟩
  else
    let exponent := exponentFor numerator denominator
    let s := scaled numerator denominator exponent
    let m := roundDiv s.1 s.2
    if m = 2 * leastSignificand then ⟨leastSignificand, exponent + 1⟩ else ⟨m, exponent⟩

/-- The value nearest to a whole number. -/
def ofNat (n : Nat) : Binary64 :=
  nearest n 1

/-- The value nearest to the quotient of two values. -/
def div (x y : Binary64) : Binary64 :=
  let p := x.fraction
  let q := y.fraction
  nearest (p.1 * q.2) (p.2 * q.1)

/-- Whether a value is at least a whole number. -/
def atLeast (x : Binary64) (n : Nat) : Bool :=
  n * x.fraction.2 ≤ x.fraction.1

/-- The interchange format: eleven bits of exponent over 52 of significand. -/
def bits (x : Binary64) : Nat :=
  if x.significand = 0 then 0
  else (x.exponent + 1075).toNat * leastSignificand + (x.significand - leastSignificand)

end Binary64

end ImagePull.Number
