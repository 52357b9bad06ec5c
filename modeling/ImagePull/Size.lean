import ImagePull.Number.Binary64
import ImagePull.Text.Digits
import ImagePull.Text.Trim

/-!
# Sizes for people

A byte count is shown with a decimal unit and at most four significant digits.
The count is taken to binary floating point and divided by a thousand until it
is below one, so the digits shown are those of the rounded quotient; trailing
zeros after the point are left out.
-/

namespace ImagePull.Size

open Number (Binary64 roundDiv)

/-- The units above the byte, each a thousand times the one before. -/
def units : List String := ["kB", "MB", "GB", "TB", "PB", "EB", "ZB", "YB"]

/-- The value below a thousand and its unit. -/
def scale (value : Binary64) (unit : String) : List String → Binary64 × String
  | [] => (value, unit)
  | larger :: rest =>
    if value.atLeast 1000 then scale (value.div (Binary64.ofNat 1000)) larger rest
    else (value, unit)

/-- The value with `places` digits after the point, a half rounded to even. -/
def fixed (value : Binary64) (places : Nat) : List Char × List Char :=
  let shifted := roundDiv (value.fraction.1 * Nat.pow 10 places) value.fraction.2
  let after := Text.numeralChars (shifted % Nat.pow 10 places)
  (Text.numeralChars (shifted / Nat.pow 10 places),
   if places = 0 then [] else List.replicate (places - after.length) '0' ++ after)

/-- How many digits stand before the point. -/
def wholeDigits (value : Binary64) : Nat :=
  (Text.numeralChars (value.fraction.1 / value.fraction.2)).length

/-- The size of `count` bytes, such as `12.5MB`. -/
def text (count : UInt64) : String :=
  let scaled := scale (Binary64.ofNat count.toNat) "B" units
  let parts := fixed scaled.1 (4 - wholeDigits scaled.1)
  let after := Text.trimEnd (· == '0') parts.2
  String.ofList (parts.1 ++ if after.isEmpty then [] else '.' :: after) ++ scaled.2

end ImagePull.Size
