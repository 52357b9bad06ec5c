/-!
# Decimal numerals

Whole numbers are written in decimal without sign or leading zeros. Reading
takes any non-empty sequence of digits.
-/

namespace ImagePull.Text

/-- The digit a character stands for, if it is one of `0` to `9`. -/
def digit? (c : Char) : Option Nat :=
  if c.isDigit then some (c.toNat - 48) else none

/-- The number in decimal, as characters. -/
def numeralChars (n : Nat) : List Char :=
  Nat.toDigits 10 n

/-- The number in decimal. -/
def numeral (n : Nat) : String :=
  String.ofList (numeralChars n)

/-- The number that a sequence of digits continues from `start`. -/
def digitsFrom (start : Nat) (digits : List Char) : Nat :=
  digits.foldl (fun n c => 10 * n + (c.toNat - 48)) start

/-- The number written by a non-empty sequence of digits. -/
def value? (digits : List Char) : Option Nat :=
  if digits.isEmpty || !digits.all Char.isDigit then none else some (digitsFrom 0 digits)

/-- The value of a digit in a base up to sixteen, in either case. -/
def digitIn? (base : Nat) (c : Char) : Option Nat :=
  let n :=
    if c.isDigit then c.toNat - 48
    else if 'a' ≤ c ∧ c ≤ 'f' then c.toNat - 87
    else if 'A' ≤ c ∧ c ≤ 'F' then c.toNat - 55
    else base
  if n < base then some n else none

/-- The number written by a non-empty sequence of digits in a base. -/
def valueIn? (base : Nat) (digits : List Char) : Option Nat :=
  if digits.isEmpty then none
  else digits.foldlM (fun n c => (digitIn? base c).map (base * n + ·)) 0

end ImagePull.Text
