import ImagePull.Event.Basic
import ImagePull.Flavor

/-!
# Layers

A layer passes through states as events arrive. Three events open a layer, three
states end it, and in between each event is allowed only in some states; what is
not allowed is an error and leaves the layer as it was. A layer that is reported
as existing after it had been announced may still be extracted, so only the
second such report ends it.
-/

namespace ImagePull

/-- Where a layer is. -/
inductive LayerState where
  | pullingFsLayer
  | waiting
  | downloading (progress : Progress)
  | verifyingChecksum
  | downloadComplete
  | alreadyDownloaded
  | alreadyExists
  | extracting (detail : Extraction)
  | pullComplete
  | errored (message : String)
deriving DecidableEq, Repr

namespace LayerState

/-- The name of a state, apart from its payload. -/
def name : LayerState → String
  | .pullingFsLayer => "pulling-fs-layer"
  | .waiting => "waiting"
  | .downloading _ => "downloading"
  | .verifyingChecksum => "verifying-checksum"
  | .downloadComplete => "download-complete"
  | .alreadyDownloaded => "already-downloaded"
  | .alreadyExists => "already-exists"
  | .extracting _ => "extracting"
  | .pullComplete => "pull-complete"
  | .errored _ => "errored"

/-- Whether no event can follow. -/
def isTerminal : LayerState → Bool
  | .alreadyExists | .pullComplete | .errored _ => true
  | _ => false

/-- Whether the layer has ended well. -/
def isDone : LayerState → Bool
  | .alreadyExists | .pullComplete => true
  | _ => false

/-- Whether the layer has failed. -/
def isErrored : LayerState → Bool
  | .errored _ => true
  | _ => false

/-- The state for people. -/
def text : LayerState → String
  | .pullingFsLayer => "Pulling fs layer"
  | .waiting => "Waiting"
  | .downloading progress => "Downloading (" ++ progress.text ++ ")"
  | .verifyingChecksum => "Verifying Checksum"
  | .downloadComplete => "Download complete"
  | .alreadyDownloaded => "Already downloaded"
  | .alreadyExists => "Already exists"
  | .extracting detail => "Extracting (" ++ detail.text ++ ")"
  | .pullComplete => "Pull complete"
  | .errored message => "Error: " ++ message

/-- The byte counts of a state that has them. -/
def progress? : LayerState → Option Progress
  | .downloading progress => some progress
  | .extracting (.bytes progress) => some progress
  | _ => none

/-- The state as members of a JSON object. -/
def toMembers : LayerState → List (String × Json)
  | .downloading progress => [("state", .ofString "downloading"), ("progress", progress.toJson)]
  | .extracting detail => [("state", .ofString "extracting"), ("detail", detail.toJson)]
  | .errored message => [("state", .ofString "errored"), ("message", .ofString message)]
  | state => [("state", .ofString (state.name.map fun c => if c = '-' then '_' else c))]

/-- The state in which an event opens a layer. -/
def opened? : LayerEvent → Option LayerState
  | .pullingFsLayer => some .pullingFsLayer
  | .alreadyExists => some .alreadyExists
  | .error message => some (.errored message)
  | _ => none

/-- The state after an event, if the event is allowed. -/
def next? : LayerState → LayerEvent → Option LayerState
  | .alreadyExists, _ | .pullComplete, _ | .errored _, _ => none
  | _, .error message => some (.errored message)
  | .pullingFsLayer, .waiting => some .waiting
  | .pullingFsLayer, .alreadyExists | .waiting, .alreadyExists => some .alreadyDownloaded
  | .pullingFsLayer, .downloading progress | .waiting, .downloading progress
  | .downloading _, .downloading progress => some (.downloading progress)
  | .pullingFsLayer, .downloadComplete | .waiting, .downloadComplete
  | .downloading _, .downloadComplete | .verifyingChecksum, .downloadComplete =>
    some .downloadComplete
  | .downloading _, .verifyingChecksum => some .verifyingChecksum
  | .downloading _, .extracting detail | .verifyingChecksum, .extracting detail
  | .downloadComplete, .extracting detail | .alreadyDownloaded, .extracting detail
  | .extracting _, .extracting detail => some (.extracting detail)
  | .downloadComplete, .pullComplete | .alreadyDownloaded, .pullComplete
  | .extracting _, .pullComplete => some .pullComplete
  | .alreadyDownloaded, .alreadyExists => some .alreadyExists
  | _, _ => none

end LayerState

/-- An event that a layer or a pull cannot take. States and events are given by
their names; a layer that does not exist yet is in state `new`. -/
inductive TransitionError where
  | invalidLayerTransition (layer state event : String)
  | layerTerminated (layer state event : String)
  | invalidInitialEvent (event : String) (flavor : Flavor)
  | pullTerminated (state event : String)
  | missingDigest
deriving DecidableEq, Repr

/-- The wording of an error. -/
def TransitionError.message : TransitionError → String
  | .invalidLayerTransition layer state event =>
    "invalid transition on layer " ++ layer ++ " (" ++ state ++ " + " ++ event ++ ")"
  | .layerTerminated layer state event =>
    "layer " ++ layer ++ " already finished (" ++ state ++ "), tried " ++ event
  | .invalidInitialEvent event flavor =>
    "invalid initial event for a " ++ flavor.name ++ " pull: " ++ event
  | .pullTerminated state event => "pull already finished (" ++ state ++ "), tried " ++ event
  | .missingDigest => "cannot complete pull: no digest event received"

/-- A tracked layer. -/
structure Layer where
  id : String
  state : LayerState
deriving DecidableEq, Repr

namespace Layer

/-- The layer that an event opens. -/
def start (id : String) (event : LayerEvent) : Except TransitionError Layer :=
  match LayerState.opened? event with
  | some state => .ok ⟨id, state⟩
  | none => .error (.invalidLayerTransition id "new" event.name)

/-- The layer after an event. -/
def advance (l : Layer) (event : LayerEvent) : Except TransitionError Layer :=
  if l.state.isTerminal then .error (.layerTerminated l.id l.state.name event.name)
  else match l.state.next? event with
    | some state => .ok { l with state }
    | none => .error (.invalidLayerTransition l.id l.state.name event.name)

/-- The layer as a JSON object. -/
def toJson (l : Layer) : Json :=
  .ofMembers (("id", .ofString l.id) :: l.state.toMembers)

end Layer

end ImagePull
