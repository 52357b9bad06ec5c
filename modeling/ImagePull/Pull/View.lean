import ImagePull.Pull.Basic
import ImagePull.Json.Printer

/-!
# Showing snapshots

A snapshot is shown in two ways: as lines that say what changed since the
snapshot before, and as one JSON object that tells the whole state.
-/

namespace ImagePull

namespace PullStatus

/-- The status as members of a JSON object. -/
def toMembers : PullStatus → List (String × Json)
  | .inProgress => [("status", .ofString "in_progress")]
  | .complete digest downloadedNewer =>
    [("status", .ofString "complete"), ("digest", .ofString digest.text),
     ("downloaded_newer", .bool downloadedNewer)]
  | .errored message => [("status", .ofString "errored"), ("message", .ofString message)]

end PullStatus

namespace Pull

/-- The tracked layers that the manifest describes, in manifest order. -/
def describedLayers (p : Pull) : List (Descriptor × Layer) :=
  p.context.manifest.correlate p.layers

/-- The tracked layers in manifest order. -/
def orderedLayers (p : Pull) : List Layer :=
  p.context.manifest.orderedLayers p.layers

/-- The layers to show: in manifest order if the manifest lists any, else in
order of their ids. -/
def shownLayers (p : Pull) : List Layer :=
  if p.context.manifest.layers.isEmpty then p.layers.layers else p.orderedLayers

/-- The snapshot as a JSON object. -/
def toJson (p : Pull) : Json :=
  .ofMembers
    ([("reference", .ofString p.context.reference.text),
      ("flavor", .ofString p.context.flavor.name)] ++
     p.status.toMembers ++
     Json.member? "daemon_digest" (p.digest.map fun d => .ofString d.text) ++
     [("layers", .array (p.shownLayers.map Layer.toJson)),
      ("progress", p.byteProgress.toJson)])

/-- The size that the manifest gives for a layer; a size of zero is not known.
The last description of a layer counts. -/
def describedSize? (p : Pull) (id : String) : Option UInt64 :=
  ((p.describedLayers.filter fun d => d.1.size > 0 ∧ d.2.id = id).getLast?).map fun d => d.1.size

/-- The line for a layer. -/
def layerLine (p : Pull) (l : Layer) : String :=
  l.id ++ ": " ++ l.state.text ++
    match p.describedSize? l.id with
    | some size => " [" ++ Size.text size ++ "]"
    | none => ""

/-- Whether a layer is new or differs from the one in an earlier snapshot. -/
def isChanged (previous : Option Pull) (l : Layer) : Bool :=
  (previous.bind fun p => p.layers.get? l.id) != some l

/-- The lines for what changed since the snapshot before: a line for each layer
that did, and the status if it did and there is something to say. -/
def changes (previous : Option Pull) (current : Pull) : List String :=
  let layers := (current.layers.layers.filter (isChanged previous)).map current.layerLine
  let statusChanged := previous.map Pull.text != some current.text
  layers ++ if statusChanged && (current.isTerminal || current.digest.isSome) then [current.text]
    else []

end Pull

end ImagePull
