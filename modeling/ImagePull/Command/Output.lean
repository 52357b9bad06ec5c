import ImagePull.Command.Error
import ImagePull.Pull.View
import ImagePull.Pull.Warning

/-!
# What a command prints

A run is shown in one of three modes: as lines for each change, as nothing but its
result, or as one JSON object for each event. Some lines hold the time of day or the
time since the run began, which are put in when the line is printed.
-/

namespace ImagePull.Command

/-- The times that lines hold: the time of day, and the seconds since the run began
with one decimal place and in full. -/
structure Clock where
  timeOfDay : String
  tenths : String
  seconds : String
deriving DecidableEq, Repr

/-- The clock when so many nanoseconds have passed since the run began. -/
def Clock.ofNanoseconds (timeOfDay : String) (elapsed : Nat) : Clock :=
  let rounded := (elapsed + 50000000) / 100000000
  let fraction := Text.numeralChars (elapsed % 1000000000)
  let places := List.replicate (9 - fraction.length) '0' ++ fraction
  { timeOfDay
    tenths := Text.numeral (rounded / 10) ++ "." ++ Text.numeral (rounded % 10)
    seconds := Text.numeral (elapsed / 1000000000) ++ "." ++ String.ofList places }

/-- A line to print. -/
inductive OutputLine where
  | plain (text : String)
  /-- A text with the time since the run began. -/
  | timed (text : String)
  /-- An event with a message; the time since the run began stands in it if the run
  had begun. -/
  | event (name message : String)
  | snapshot (view : Json)

namespace OutputLine

/-- The text of a line. -/
def text (clock : Clock) : OutputLine → String
  | .plain text => text
  | .timed text => text ++ " (" ++ clock.tenths ++ "s)"
  | .event name message =>
    (Json.ofMembers
      [("event", .ofString name), ("timestamp", .ofString clock.timeOfDay),
       ("message", .ofString message),
       ("duration_secs", .number (Text.Utf8.bytes clock.seconds))]).text
  | .snapshot view =>
    (Json.ofMembers
      [("event", .ofString "snapshot"), ("timestamp", .ofString clock.timeOfDay),
       ("pull", view)]).text

end OutputLine

/-- What a run prints, and whether it failed. The log that the program writes between its
complaints is left out. Unless more is asked for, its lines tell of each warning at the time it is
recorded, of a stream that fails or ends early, and of a daemon that does not answer. -/
structure Report where
  output : List OutputLine := []
  complaints : List OutputLine := []
  result : Except Failure Unit := .ok ()

namespace Report

/-- What is shown of the start of a run. -/
def opening (mode : OutputMode) (text : String) : List OutputLine :=
  if mode = .normal then [.plain text] else []

/-- What is shown of a snapshot after another. -/
def ofSnapshot (mode : OutputMode) (previous : Option Pull) (p : Pull) : List OutputLine :=
  match mode with
  | .normal => (Pull.changes previous p).map .plain
  | .quiet => []
  | .json => [.snapshot p.toJson]

/-- What is shown of a run of snapshots. -/
def ofSnapshots (mode : OutputMode) (previous : Option Pull) : List Pull → List OutputLine
  | [] => []
  | p :: rest => ofSnapshot mode previous p ++ ofSnapshots mode (some p) rest

/-- What is shown of a warning. -/
def ofWarning (mode : OutputMode) (w : Warning) : List OutputLine :=
  match mode with
  | .normal => [.plain ("Warning: " ++ w.message)]
  | .quiet => []
  | .json => [.event "warning" w.message]

/-- What is shown of a success. -/
def ofSuccess (mode : OutputMode) (message : String) : List OutputLine :=
  match mode with
  | .normal => [.timed message]
  | .quiet => [.plain message]
  | .json => [.event "success" message]

/-- The snapshots of a run before its first error, and the error. -/
def split : List StreamItem → List Pull × Option StreamError
  | [] => ([], none)
  | .error e :: _ => ([], some e)
  | .ok p :: rest =>
    let (pulls, error) := split rest
    (p :: pulls, error)

/-- The warnings of a run that ended without an error. -/
def warnings (pulls : List Pull) : List Warning :=
  Pull.runWarnings none pulls ++ match pulls.getLast? with
    | some p => p.endWarnings
    | none => []

/-- What becomes of the last snapshot of a run: the message of a success, or why the
run failed. -/
def conclude (reference : String) (last : Option Pull) : Except Failure String :=
  match last with
  | none => .error (.pullFailed reference "no progress received")
  | some p => match p.status with
    | .complete digest newer =>
      let verb := if newer then "Downloaded newer image" else "Image is up to date"
      .ok (verb ++ " for " ++ reference ++ " (" ++ digest.text ++ ")")
    | .errored message => .error (.pullFailed reference message)
    | .inProgress => .error (.pullFailed reference "stream ended before the pull finished")

/-- Shows a run of snapshots to its end. An error in the stream ends it before any
warning; a run that was cut short by its time limit fails for that. -/
def follow (mode : OutputMode) (reference : String) (cut : Option String)
    (items : List StreamItem) : Report :=
  let (pulls, error) := split items
  let output := ofSnapshots mode none pulls
  match error with
  | some e => { output, result := .error (.stream e) }
  | none =>
    let complaints := (warnings pulls).flatMap (ofWarning mode)
    let last := pulls.getLast?
    match cut with
    | some limit =>
      if last.any Pull.isTerminal then
        concluded output complaints (conclude reference last)
      else { output, complaints, result := .error (.timedOut limit) }
    | none => concluded output complaints (conclude reference last)
where
  /-- The report of a run with its conclusion. -/
  concluded (output complaints : List OutputLine) : Except Failure String → Report
    | .ok message => { output := output ++ ofSuccess mode message, complaints }
    | .error e => { output, complaints, result := .error e }

end Report

end ImagePull.Command
