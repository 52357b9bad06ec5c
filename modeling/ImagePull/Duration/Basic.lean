import ImagePull.Text.Digits

/-!
# Spans of time

A duration is a number of nanoseconds whose whole seconds fit 64 bits. It is
printed as its parts from years down to nanoseconds; a year has 365.25 days and a
month a twelfth of 365.28 days, so both are whole numbers of seconds. Parts that
are zero are left out.
-/

namespace ImagePull

/-- A span of time. -/
structure Duration where
  nanoseconds : Nat
  bounded : nanoseconds < UInt64.size * 1000000000
deriving DecidableEq, Repr

namespace Duration

/-- No time at all. -/
def zero : Duration := ⟨0, by decide⟩

/-- The duration of so many nanoseconds, unless its seconds exceed 64 bits. -/
def ofNanoseconds? (n : Nat) : Option Duration :=
  if h : n < UInt64.size * 1000000000 then some ⟨n, h⟩ else none

/-- The whole seconds. -/
def seconds (d : Duration) : Nat := d.nanoseconds / 1000000000

/-- The nanoseconds beyond the whole seconds. -/
def subsecond (d : Duration) : Nat := d.nanoseconds % 1000000000

/-- Seconds in a year, a month and a day. -/
def secondsPerYear : Nat := 31557600

@[inherit_doc secondsPerYear]
def secondsPerMonth : Nat := 2630016

@[inherit_doc secondsPerYear]
def secondsPerDay : Nat := 86400

/-- One part of the text: nothing for zero, and a plural ending if asked for. -/
def part (count : Nat) (unit : String) (plural : Bool) : List String :=
  if count = 0 then []
  else [Text.numeral count ++ unit ++ if plural && 1 < count then "s" else ""]

/-- The parts of the text, from years down. -/
def parts (d : Duration) : List String :=
  let inYear := d.seconds % secondsPerYear
  let inMonth := inYear % secondsPerMonth
  let inDay := inMonth % secondsPerDay
  part (d.seconds / secondsPerYear) "year" true ++
  part (inYear / secondsPerMonth) "month" true ++
  part (inMonth / secondsPerDay) "day" true ++
  part (inDay / 3600) "h" false ++
  part (inDay % 3600 / 60) "m" false ++
  part (inDay % 60) "s" false ++
  part (d.subsecond / 1000000) "ms" false ++
  part (d.subsecond / 1000 % 1000) "us" false ++
  part (d.subsecond % 1000) "ns" false

/-- The duration for people, such as `2m 30s`. -/
def text (d : Duration) : String :=
  if d.nanoseconds = 0 then "0s" else String.intercalate " " d.parts

/-! ## Laws -/

theorem ofNanoseconds?_eq_some {n : Nat} {d : Duration} :
    ofNanoseconds? n = some d ↔ d.nanoseconds = n := by
  unfold ofNanoseconds?
  split
  · next h =>
    constructor
    · rintro ⟨⟩; rfl
    · rintro rfl; rfl
  · next h =>
    constructor
    · intro h'; cases h'
    · rintro rfl; exact absurd d.bounded h

theorem subsecond_lt (d : Duration) : d.subsecond < 1000000000 :=
  Nat.mod_lt _ (by decide)

theorem nanoseconds_eq (d : Duration) :
    d.nanoseconds = 1000000000 * d.seconds + d.subsecond :=
  (Nat.div_add_mod _ _).symm

end Duration

end ImagePull
