/-!
# Units of time

The units that durations are written with and the names each of them goes by.
A unit below the second is counted in nanoseconds, the others in seconds.
-/

namespace ImagePull.Duration

/-- A unit of time. -/
inductive TimeUnit where
  | nanosecond
  | microsecond
  | millisecond
  | second
  | minute
  | hour
  | day
  | week
  | month
  | year
deriving DecidableEq, Repr

namespace TimeUnit

/-- The names of a unit. -/
def names : TimeUnit → List String
  | .nanosecond => ["nanos", "nsec", "ns"]
  | .microsecond => ["usec", "us", "µs"]
  | .millisecond => ["millis", "msec", "ms"]
  | .second => ["seconds", "second", "secs", "sec", "s"]
  | .minute => ["minutes", "minute", "min", "mins", "m"]
  | .hour => ["hours", "hour", "hr", "hrs", "h"]
  | .day => ["days", "day", "d"]
  | .week => ["weeks", "week", "wk", "wks", "w"]
  | .month => ["months", "month", "M"]
  | .year => ["years", "year", "yr", "yrs", "y"]

/-- Every unit, the shortest first. -/
def all : List TimeUnit :=
  [.nanosecond, .microsecond, .millisecond, .second, .minute, .hour, .day, .week, .month, .year]

/-- The unit that goes by a name. -/
def ofName? (name : String) : Option TimeUnit :=
  all.find? fun u => u.names.contains name

/-- Whether the unit is shorter than a second. -/
def isSubsecond : TimeUnit → Bool
  | .nanosecond | .microsecond | .millisecond => true
  | _ => false

/-- The length of a unit: in nanoseconds below the second, else in seconds. -/
def length : TimeUnit → Nat
  | .nanosecond => 1
  | .microsecond => 1000
  | .millisecond => 1000000
  | .second => 1
  | .minute => 60
  | .hour => 3600
  | .day => 86400
  | .week => 604800
  | .month => 2630016
  | .year => 31557600

/-- The length of a unit in nanoseconds. -/
def nanoseconds (u : TimeUnit) : Nat :=
  if u.isSubsecond then u.length else u.length * 1000000000

/-- What a fraction of the unit has to be a whole number of: nanoseconds below
the hour, seconds from the hour up. A fraction of a nanosecond is nothing. -/
def fractionLength? : TimeUnit → Option (Nat × Nat)
  | .nanosecond => none
  | .microsecond => some (1000, 1)
  | .millisecond => some (1000000, 1)
  | .second => some (1000000000, 1)
  | .minute => some (60000000000, 1)
  | u => some (u.length, 1000000000)

end TimeUnit

end ImagePull.Duration
