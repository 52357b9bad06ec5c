import ImagePull.ImageRef
import ImagePull.Layer.Table
import ImagePull.Manifest

/-!
# Pulls

A progress stream names layers by the beginning of their digest, and runtimes
differ in how much of it they give. A manifest layer is matched with the tracked
layer under the shortest non-empty beginning of its encoded digest.

A pull is known before its stream starts by a context: the reference, the
manifest, the flavor of the runtime and perhaps the digest of the image. From
there it advances event by event, and each event gives a new snapshot. Layer
events change one layer, a digest event the digest; an error ends the pull, and a
final status completes it if the digest is known. A stream that ends without a
final status may still be completed from its layers (`Pull.finalize?`).
-/

namespace ImagePull

/-! ## Matching manifest layers with tracked layers -/

/-- The tracked layer that a digest stands for. -/
def LayerTable.findTracked? (t : LayerTable) (digest : Digest) : Option Layer :=
  (List.range digest.encoded.length).findSome? fun n => t.get? (digest.short (n + 1))

namespace Manifest

/-- The manifest layers that are tracked, with their layers, in manifest order. -/
def correlate (m : Manifest) (t : LayerTable) : List (Descriptor × Layer) :=
  m.layers.filterMap fun d => (t.findTracked? d.digest).map (d, ·)

/-- The tracked layers in manifest order. -/
def orderedLayers (m : Manifest) (t : LayerTable) : List Layer :=
  (m.correlate t).map Prod.snd

end Manifest

/-! ## Snapshots -/

/-- What is known of a pull before its stream starts. -/
structure Context where
  reference : ImageRef
  manifest : Manifest
  flavor : Flavor
  resolved : Option Digest
deriving DecidableEq

/-- The outcome of a pull so far. -/
inductive PullStatus where
  | inProgress
  | complete (digest : Digest) (downloadedNewer : Bool)
  | errored (message : String)
deriving DecidableEq

namespace PullStatus

/-- The name of a status, apart from its payload. -/
def name : PullStatus → String
  | .inProgress => "in-progress"
  | .complete _ _ => "complete"
  | .errored _ => "errored"

/-- Whether no event can follow. -/
def isTerminal : PullStatus → Bool
  | .inProgress => false
  | _ => true

end PullStatus

/-- A snapshot of a pull. -/
structure Pull where
  context : Context
  digest : Option Digest
  layers : LayerTable
  status : PullStatus
  synthesized : Bool
deriving DecidableEq

namespace Pull

/-- The pull before any event. -/
def new (context : Context) : Pull :=
  { context, digest := none, layers := .empty, status := .inProgress, synthesized := false }

/-- The layer that an event gives: a new one, or the next state of a tracked one. -/
def route (p : Pull) (id : String) (event : LayerEvent) : Except TransitionError Layer :=
  match p.layers.get? id with
  | some layer => layer.advance event
  | none => Layer.start id event

/-- The snapshot after an event. -/
def advance (p : Pull) (event : PullEvent) : Except TransitionError Pull :=
  if p.status.isTerminal then .error (.pullTerminated p.status.name event.name)
  else match event with
    | .started => .ok p
    | .layer id layerEvent =>
      match p.route id layerEvent with
      | .ok layer => .ok { p with layers := p.layers.insert id layer }
      | .error e => .error e
    | .digest d => .ok { p with digest := some d }
    | .error message => .ok { p with status := .errored message }
    | .final status =>
      match p.digest with
      | some d => .ok { p with status := .complete d status.downloadedNewer }
      | none => .error .missingDigest

/-- The first snapshot. A stream opens with the start of the pull or with its
failure; a stream of Podman may also open with a layer. -/
def start (context : Context) (event : PullEvent) : Except TransitionError Pull :=
  match context.flavor, event with
  | _, .started => .ok (new context)
  | _, .error _ | .podman, .layer _ _ => (new context).advance event
  | flavor, event => .error (.invalidInitialEvent event.name flavor)

/-- Whether a layer in this state is present, and if so whether it was fetched. -/
def fetched? : LayerState → Option Bool
  | .pullComplete => some true
  | .alreadyExists | .alreadyDownloaded => some false
  | _ => none

/-- For each manifest layer whether it was fetched, if all of them are present. -/
def fetchedLayers? (p : Pull) : Option (List Bool) :=
  p.context.manifest.layers.mapM fun d =>
    (p.layers.findTracked? d.digest).bind fun l => fetched? l.state

/-- The completion of a pull whose stream ended without a final status. It needs
a digest given beforehand and a manifest whose layers are all present. -/
def finalize? (p : Pull) : Option Pull :=
  if p.status.isTerminal || p.context.manifest.layers.isEmpty then none
  else do
    let resolved ← p.context.resolved
    let fetched ← p.fetchedLayers?
    some { p with
      digest := p.digest <|> some resolved
      status := .complete resolved (fetched.any id)
      synthesized := true }

/-- Whether no event can follow. -/
def isTerminal (p : Pull) : Bool := p.status.isTerminal

/-- The layers that have failed, in order of their ids. -/
def erroredLayers (p : Pull) : List Layer :=
  p.layers.layers.filter fun l => l.state.isErrored

/-- The bytes of a manifest layer that a state accounts for. -/
def accounted (size : UInt64) : LayerState → UInt64
  | .pullingFsLayer | .waiting | .errored _ => 0
  | .downloading progress => min progress.current size
  | _ => size

/-- The bytes of a manifest layer that its tracked layer accounts for. -/
def accountedFor (p : Pull) (d : Descriptor) : UInt64 :=
  match p.layers.findTracked? d.digest with
  | some layer => accounted d.size layer.state
  | none => 0

/-- The bytes accounted for across the manifest, out of the sizes it lists. -/
def byteProgress (p : Pull) : Progress where
  current := p.context.manifest.layers.foldr (fun d total => p.accountedFor d + total) 0
  total := p.context.manifest.totalSize
  hide := false

/-- The status for people. -/
def text (p : Pull) : String :=
  match p.status with
  | .inProgress => if p.digest.isNone then "Pulling" else "Finishing"
  | .complete digest _ => "Complete (Digest: " ++ digest.text ++ ")"
  | .errored message => "Error: " ++ message

end Pull

end ImagePull
