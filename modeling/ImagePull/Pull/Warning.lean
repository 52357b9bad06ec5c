import ImagePull.Pull.Basic
import ImagePull.Text.Blank

/-!
# Warnings

Some incidents do not end a pull but should be told: a layer fails, a completion
is inferred, a stream ends too early. Each is reported when it is first seen.
-/

namespace ImagePull

/-- The kinds of warnings. -/
inductive WarningKind where
  | layerFailed
  | synthesizedCompletion
  | incompleteStream
deriving DecidableEq, Repr

/-- A warning. -/
structure Warning where
  kind : WarningKind
  message : String
deriving DecidableEq, Repr

namespace Pull

/-- Whether a layer had not failed in an earlier snapshot. -/
def isNewlyFailed (previous : Option Pull) (l : Layer) : Bool :=
  match previous.bind fun p => p.layers.get? l.id with
  | some before => !before.state.isErrored
  | none => true

/-- The warnings for what happened since the snapshot before. -/
def warnings (previous : Option Pull) (current : Pull) : List Warning :=
  ((current.erroredLayers.filter (isNewlyFailed previous)).map fun l =>
    ⟨.layerFailed, "layer " ++ l.id ++ " failed: " ++ l.state.text⟩) ++
  if current.synthesized then
    [⟨.synthesizedCompletion, current.context.reference.text ++
      " sent no final status; completion inferred from its layers"⟩]
  else []

/-- The warnings for a run of snapshots, each compared with the one before. -/
def runWarnings (previous : Option Pull) : List Pull → List Warning
  | [] => []
  | p :: rest => warnings previous p ++ runWarnings (some p) rest

/-- The warning for a stream that ended after this snapshot. -/
def endWarnings (last : Pull) : List Warning :=
  if last.isTerminal then []
  else [⟨.incompleteStream, "progress for " ++ last.context.reference.text ++ " ended while " ++
    Text.lowered last.text⟩]

end Pull

end ImagePull
