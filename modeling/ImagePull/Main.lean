import ImagePull.Command.Run
import Std.Time.Format

/-!
# The program

Reads what a run may look at, runs it, and prints what it yields. Files are read
before the run, which looks at them as they were then. A local socket cannot be
opened from here, so that no daemon answers.
-/

namespace ImagePull.Program

/-- What stands at a path. -/
def readEntry (path : String) : IO Entry := do
  match ← (IO.FS.readBinFile path).toBaseIO with
  | .ok content => return .file content.toList
  | .error (.inappropriateType _ code _) => return if code = 21 then .directory else .blocked
  | .error (.noSuchThing _ _ _) => return .socket
  | .error (.permissionDenied _ _ _) => return .denied
  | .error (.invalidArgument _ 36 _) => return .nameTooLong
  | .error _ => return .missing

/-- What stands at the paths. -/
def readEntries (paths : List String) : IO (List (String × Entry)) :=
  paths.mapM fun path => return (path, ← readEntry path)

/-- The surroundings that know only of some paths. -/
def surroundings (directory : String) (environment : List (String × String))
    (entries : List (String × Entry)) : Surroundings where
  directory := directory
  environment := environment
  entry path := (entries.lookup path).getD .missing

/-- The environment variables, but for those whose name or value is not Unicode, which count as
not set. -/
def readVariables : IO (List (String × String)) := do
  match ← readEntry "/proc/self/environ" with
  | .file content => return (content.splitOn 0).filterMap fun entry => do
      let text ← Text.Utf8.text? entry
      let (name, value) ← Text.cutFirst? '=' text.toList
      return (String.ofList name, String.ofList value)
  | _ => return []

/-- The daemon behind a local socket. -/
def localDaemon (_socket : String) : Daemon where
  answer _ := .error "local sockets cannot be opened"

/-- What the words can be run in. -/
def readWorld (words : List String) : IO Command.World := do
  let directory := (← IO.currentDir).toString
  let environment ← readVariables
  let unread := surroundings directory environment []
  match Command.Invocation.ofWords words with
  | .error _ => return { surroundings := unread, daemon := localDaemon }
  | .ok invocation =>
    let entries ← readEntries (invocation.paths unread)
    let sockets ← readEntries
      (Command.Invocation.sockets (surroundings directory environment entries))
    let input ← if invocation.action.paths.any Command.isInput then
        readEntry "/dev/stdin"
      else pure .missing
    return {
      surroundings := surroundings directory environment (entries ++ sockets)
      input := input.bytes.toOption.getD []
      daemon := localDaemon }

/-- The clock of a run that began at a time. -/
def readClock (began : Nat) : IO Command.Clock := do
  let now := Std.Time.DateTime.ofTimestamp (← Std.Time.Timestamp.now)
    Std.Time.TimeZone.ZoneRules.UTC
  let timeOfDay := now.format "uuuu-MM-dd" ++ "T" ++ now.format "HH:mm:ss.SSSSSSSSS" ++ "Z"
  return .ofNanoseconds timeOfDay ((← IO.monoNanosNow) - began)

/-- Runs the command that the words ask for. -/
def run (words : List String) : IO UInt32 := do
  let began ← IO.monoNanosNow
  let outcome := Command.run (← readWorld words) words
  match outcome.written with
  | some (path, text) => IO.FS.writeFile path text
  | none => pure ()
  for line in outcome.output do
    IO.println (line.text (← readClock began))
  for line in outcome.complaints do
    IO.eprintln (line.text (← readClock began))
  return outcome.code

end ImagePull.Program

/-- The program. -/
def main (words : List String) : IO UInt32 :=
  ImagePull.Program.run words
