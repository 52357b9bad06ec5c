import ImagePull.Pull.Basic
import ImagePull.Event.Classify
import ImagePull.Text.Utf8

/-!
# Folding lines into snapshots

A tracker takes the lines of a progress stream one by one. Each line is
classified and folded into the pull, and gives a snapshot; only the line that
opens the pull by announcing it gives none. The first line that cannot be folded
ends the stream with an error that names its number. At the end of the input a
completion may be inferred.
-/

namespace ImagePull

/-- What ends a stream before its time. Lines are counted from one. -/
inductive StreamError where
  | classification (line : Nat) (cause : ClassifyError)
  | transition (line : Nat) (cause : TransitionError)
  | read (reason : String)
deriving DecidableEq, Repr

namespace StreamError

/-- The wording of an error. -/
def message : StreamError → String
  | .classification line cause => "line " ++ Text.numeral line ++ ": " ++ cause.message
  | .transition line cause => "line " ++ Text.numeral line ++ ": " ++ cause.message
  | .read reason => "failed to read progress stream: " ++ reason

/-- The line that caused the error, if one did. -/
def line? : StreamError → Option Nat
  | .classification line _ => some line
  | .transition line _ => some line
  | .read _ => none

end StreamError

/-- What a stream gives: a snapshot, or the error that ends it. -/
abbrev StreamItem := Except StreamError Pull

instance : DecidableEq StreamItem
  | .ok p, .ok q => decidable_of_iff (p = q) (by simp)
  | .error e, .error f => decidable_of_iff (e = f) (by simp)
  | .ok _, .error _ => isFalse nofun
  | .error _, .ok _ => isFalse nofun

/-- The state of the fold: the snapshot so far, once there is one, and the number
of lines taken. -/
structure Tracker where
  context : Context
  current : Option Pull := none
  line : Nat := 0
deriving DecidableEq

namespace Tracker

/-- The snapshot that an event leads to, and whether it is given out. -/
def fold (t : Tracker) (event : PullEvent) : Except TransitionError (Pull × Bool) :=
  match t.current with
  | none => (Pull.start t.context event).map (·, event != .started)
  | some pull => (pull.advance event).map (·, true)

/-- Takes one line; nothing is given out for the opening announcement. -/
def consume (t : Tracker) (line : List UInt8) : Except StreamError (Tracker × Option Pull) :=
  let number := t.line + 1
  match PullEvent.ofLine line with
  | .error cause => .error (.classification number cause)
  | .ok event =>
    match t.fold event with
    | .error cause => .error (.transition number cause)
    | .ok (pull, shown) =>
      .ok ({ t with current := some pull, line := number }, if shown then some pull else none)

/-- The completion that the end of the input allows. -/
def complete? (t : Tracker) : Option Pull :=
  t.current.bind Pull.finalize?

/-- Takes lines until one ends the pull or the lines end. -/
def replayLines (t : Tracker) : List (List UInt8) → Except StreamError (List Pull)
  | [] => .ok t.complete?.toList
  | line :: rest =>
    match t.consume line with
    | .error e => .error e
    | .ok (t, none) => t.replayLines rest
    | .ok (t, some pull) =>
      if pull.isTerminal then .ok [pull] else (t.replayLines rest).map (pull :: ·)

end Tracker

/-- Every snapshot of a recorded stream, given as its lines. Blanks around a
line do not count, and neither do blank lines. -/
def replay (context : Context) (lines : List String) : Except StreamError (List Pull) :=
  let trimmed := (lines.map Text.trimmed).filter (· ≠ "")
  Tracker.replayLines { context } (trimmed.map Text.Utf8.bytes)

end ImagePull
