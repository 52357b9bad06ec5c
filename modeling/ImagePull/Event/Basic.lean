import ImagePull.Digest
import ImagePull.Progress

/-!
# Events of a pull

A record stands for one event: the pull starts, something happens to a layer,
the digest of the image is known, the pull fails, or it ends with a final status.
Every event has a stable name, used in messages, and a text for people.
-/

namespace ImagePull

/-- What happens to a layer. -/
inductive LayerEvent where
  | pullingFsLayer
  | waiting
  | downloading (progress : Progress)
  | verifyingChecksum
  | downloadComplete
  | alreadyExists
  | extracting (detail : Extraction)
  | pullComplete
  | error (message : String)
deriving DecidableEq, Repr

/-- How a pull ended. -/
inductive FinalStatus where
  | downloadedNewerImage (message : String)
  | upToDate (message : String)
  | other (message : String)
deriving DecidableEq, Repr

/-- One event of a pull. -/
inductive PullEvent where
  | started
  | layer (id : String) (event : LayerEvent)
  | digest (digest : Digest)
  | error (message : String)
  | final (status : FinalStatus)
deriving DecidableEq

namespace LayerEvent

/-- The name of an event, apart from its payload. -/
def name : LayerEvent → String
  | .pullingFsLayer => "pulling-fs-layer"
  | .waiting => "waiting"
  | .downloading _ => "downloading"
  | .verifyingChecksum => "verifying-checksum"
  | .downloadComplete => "download-complete"
  | .alreadyExists => "already-exists"
  | .extracting _ => "extracting"
  | .pullComplete => "pull-complete"
  | .error _ => "layer-error"

/-- The event for people, apart from its layer. -/
def text : LayerEvent → String
  | .downloading progress => "downloading " ++ progress.text
  | .extracting detail => "extracting " ++ detail.text
  | .error message => "error: " ++ message
  | event => event.name.map fun c => if c = '-' then ' ' else c

end LayerEvent

namespace FinalStatus

/-- The message of the daemon. -/
def message : FinalStatus → String
  | .downloadedNewerImage message | .upToDate message | .other message => message

/-- Whether something was fetched. -/
def downloadedNewer : FinalStatus → Bool
  | .downloadedNewerImage _ => true
  | _ => false

end FinalStatus

namespace PullEvent

/-- The name of an event, apart from its payload. -/
def name : PullEvent → String
  | .started => "pull-started"
  | .layer _ event => event.name
  | .digest _ => "digest"
  | .error _ => "pull-error"
  | .final (.downloadedNewerImage _) => "downloaded-newer-image"
  | .final (.upToDate _) => "up-to-date"
  | .final (.other _) => "final"

/-- The event for people. -/
def text : PullEvent → String
  | .started => "Pulling"
  | .layer id event => "[" ++ id ++ "] " ++ event.text
  | .digest d => "Digest: " ++ d.text
  | .error message => "Error: " ++ message
  | .final status => "Status: " ++ status.message

end PullEvent

end ImagePull
