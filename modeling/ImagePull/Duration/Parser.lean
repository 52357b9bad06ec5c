import ImagePull.Duration.Basic
import ImagePull.Duration.Unit
import ImagePull.Text.Blank

/-!
# Reading durations

A duration is written as spans, each a number and a unit, such as `2m 30s` or
`1.5h`; `0` alone is no time at all. Blanks may stand between digits, before the
unit and after it. Counts are kept in 64 bits: a span that leaves them, or whose
fraction is not exact, is refused rather than rounded.
-/

namespace ImagePull

/-- Why a text is no duration. Places are byte offsets. -/
inductive DurationError where
  | empty
  | numberExpected (offset : Nat)
  | invalidCharacter (offset : Nat)
  | unknownUnit (unit : String) (count : Nat)
  | overflow
deriving DecidableEq, Repr

/-- The wording of an error. -/
def DurationError.message : DurationError → String
  | .empty => "value was empty"
  | .numberExpected offset => "expected number at " ++ Text.numeral offset
  | .invalidCharacter offset => "invalid character at " ++ Text.numeral offset
  | .unknownUnit unit count =>
    if unit = "" then
      "time unit needed, for example " ++ Text.numeral count ++ "sec or " ++
        Text.numeral count ++ "ms"
    else
      "unknown time unit \"" ++ unit ++ "\", supported units: ns, us/µs, ms, sec, min, " ++
        "hours, days, weeks, months, years (and few variations)"
  | .overflow =>
    "number is too large or cannot be represented without a lack of precision " ++
      "(values below 1ns are not supported)"

namespace Duration

/-- A fraction in decimal: its digits and a power of ten. -/
structure Fraction where
  numerator : Nat
  denominator : Nat
deriving DecidableEq, Repr

/-- Where in a span the reader is. -/
inductive Place where
  /-- Before a number; `begun` when a span has been read. A number is expected from
  the offset `mark` on, which an error names. -/
  | before (begun : Bool) (mark : Nat)
  /-- In the whole part of a number. -/
  | whole (count : Nat)
  /-- In the fraction of a number; `mark` is the offset that an error names. -/
  | fraction (count : Nat) (so : Fraction) (mark : Nat)
  /-- In a unit, whose letters are held last first. -/
  | unit (count : Nat) (so : Option Fraction) (letters : List Char)
deriving DecidableEq, Repr

/-- The number, if it fits 64 bits. -/
def fit (n : Nat) : Except DurationError Nat :=
  if n < UInt64.size then .ok n else .error .overflow

/-- Adds whole seconds and nanoseconds to a total, both of 64 bits. -/
def add (total : Duration) (seconds nanoseconds : Nat) : Except DurationError Duration := do
  let _ ← fit (total.subsecond + nanoseconds)
  match ofNanoseconds? (total.nanoseconds + seconds * 1000000000 + nanoseconds) with
  | some d => .ok d
  | none => .error .overflow

/-- Adds a whole number of units to a total. -/
def addUnits (total : Duration) (count : Nat) (u : TimeUnit) : Except DurationError Duration := do
  let n ← fit (count * u.length)
  if u.isSubsecond then total.add 0 n else total.add n 0

/-- Adds a fraction of a unit to a total. -/
def addFraction (total : Duration) (part : Fraction) (u : TimeUnit) :
    Except DurationError Duration :=
  match u.fractionLength? with
  | none => .error .overflow
  | some (length, scale) => do
    let n ← fit (part.numerator * length)
    if n % part.denominator ≠ 0 then .error .overflow
    else if scale = 1 then total.add 0 (n / part.denominator)
    else total.add (n / part.denominator) 0

/-- Adds a span to a total. -/
def addSpan (total : Duration) (count : Nat) (part : Option Fraction) (name : String) :
    Except DurationError Duration :=
  match TimeUnit.ofName? name with
  | none => .error (.unknownUnit name count)
  | some u => do
    let total ← total.addUnits count u
    match part with
    | none => .ok total
    | some part => total.addFraction part u

/-- Whether a character may stand in the name of a unit. -/
def isUnitLetter (c : Char) : Bool :=
  c.isAlpha || c == 'µ'

/-- The next place after a character at an offset, and the total so far. -/
def step (total : Duration) (offset : Nat) (c : Char) :
    Place → Except DurationError (Duration × Place)
  | .before begun mark =>
    match Text.digit? c with
    | some d => .ok (total, .whole d)
    | none =>
      if Text.isBlank c then .ok (total, .before begun mark) else .error (.numberExpected mark)
  | .whole count =>
    match Text.digit? c with
    | some d => do
      let count ← fit (10 * count + d)
      .ok (total, .whole count)
    | none =>
      if Text.isBlank c then .ok (total, .whole count)
      else if isUnitLetter c then .ok (total, .unit count none [c])
      else if c = '.' then .ok (total, .fraction count ⟨0, 1⟩ offset)
      else .error (.invalidCharacter offset)
  | .fraction count so mark =>
    match Text.digit? c with
    | some d => do
      let denominator ← fit (10 * so.denominator)
      let numerator ← fit (10 * so.numerator + d)
      .ok (total, .fraction count ⟨numerator, denominator⟩ (offset + c.utf8Size))
    | none =>
      if Text.isBlank c then .ok (total, .fraction count so (offset + c.utf8Size))
      else if isUnitLetter c && so.denominator != 1 then
        .ok (total, .unit count (some so) [c])
      else .error (.invalidCharacter mark)
  | .unit count so letters =>
    match Text.digit? c with
    | some d => do
      let total ← total.addSpan count so (String.ofList letters.reverse)
      .ok (total, .whole d)
    | none =>
      if Text.isBlank c then do
        let total ← total.addSpan count so (String.ofList letters.reverse)
        .ok (total, .before true (offset + c.utf8Size))
      else if isUnitLetter c then .ok (total, .unit count so (c :: letters))
      else .error (.invalidCharacter offset)

/-- The duration when the text ends at a place. -/
def finish (total : Duration) : Place → Except DurationError Duration
  | .before true _ => .ok total
  | .before false _ => .error .empty
  | .whole count => total.addSpan count none ""
  | .fraction count so mark =>
    if so.denominator = 1 then .error (.invalidCharacter mark)
    else total.addSpan count (some so) ""
  | .unit count so letters => total.addSpan count so (String.ofList letters.reverse)

/-- Reads the spans that are left. -/
def readSpans (total : Duration) (offset : Nat) (place : Place) :
    List Char → Except DurationError Duration
  | [] => total.finish place
  | c :: rest =>
    match total.step offset c place with
    | .ok (total, place) => readSpans total (offset + c.utf8Size) place rest
    | .error e => .error e

/-- Reads a duration. -/
def parse (s : String) : Except DurationError Duration :=
  if s = "0" then .ok zero else readSpans zero 0 (.before false 0) s.toList

end Duration

end ImagePull
