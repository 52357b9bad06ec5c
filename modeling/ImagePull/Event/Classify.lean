import ImagePull.Event.Basic
import ImagePull.Record
import ImagePull.Duration.Parser

/-!
# From records to events

Every record stands for exactly one event or is refused. An error text decides
first; then the fixed vocabulary of layer statuses; then the beginnings
`Pulling from`, `Digest:` and `Status:`. The time of an extraction is read before
the layer id is asked for, so of two faults in one record the time is reported.
-/

namespace ImagePull

/-- Why a line stands for no event. What the JSON reader says of a line that holds no record is a
function of the line and not modelled, so the line that it refused stands for it. -/
inductive ClassifyError where
  | malformedRecord (refused : List UInt8)
  | unknownStatus (status : String)
  | missingLayerId (status : String)
  | invalidDigest (status : String) (cause : DigestError)
  | invalidDuration (value : String) (cause : DurationError)
deriving DecidableEq, Repr

/-- The wording of an error, up to what the JSON reader says. -/
def ClassifyError.message : ClassifyError → String
  | .malformedRecord _ => "malformed progress record"
  | .unknownStatus status => "unknown pull status: " ++ status
  | .missingLayerId status => "layer status '" ++ status ++ "' has no layer id"
  | .invalidDigest status cause => "invalid digest in '" ++ status ++ "': " ++ cause.message
  | .invalidDuration value cause =>
    "invalid extraction duration '" ++ value ++ "': " ++ cause.message

namespace ProgressRecord

/-- The byte counts of a record. -/
def progress (r : ProgressRecord) : Progress :=
  ⟨r.progressDetail.current, r.progressDetail.total, r.progressDetail.hideCounts⟩

/-- What a record says of an extraction: time if it has a unit, else bytes. -/
def extraction (r : ProgressRecord) : Except ClassifyError Extraction :=
  match r.progressDetail.units.filter (· ≠ "") with
  | none => .ok (.bytes r.progress)
  | some units =>
    let value := Text.numeral r.progressDetail.current.toNat ++ units
    match Duration.parse value with
    | .ok time => .ok (.elapsed time)
    | .error cause => .error (.invalidDuration value cause)

/-- The layer event of a status in the vocabulary. -/
def layerEvent? (r : ProgressRecord) : Except ClassifyError (Option LayerEvent) :=
  match r.status with
  | "Pulling fs layer" => .ok (some .pullingFsLayer)
  | "Waiting" => .ok (some .waiting)
  | "Downloading" => .ok (some (.downloading r.progress))
  | "Verifying Checksum" => .ok (some .verifyingChecksum)
  | "Download complete" => .ok (some .downloadComplete)
  | "Already exists" => .ok (some .alreadyExists)
  | "Extracting" => r.extraction.map fun detail => some (.extracting detail)
  | "Pull complete" => .ok (some .pullComplete)
  | _ => .ok none

end ProgressRecord

namespace FinalStatus

/-- The final status with a message, told by how the message begins. -/
def ofMessage (message : String) : FinalStatus :=
  if Text.startsWith message "Downloaded newer image" then .downloadedNewerImage message
  else if Text.startsWith message "Image is up to date" then .upToDate message
  else .other message

end FinalStatus

namespace PullEvent

/-- The event of a status that is not about a layer. -/
def ofStatus (status : String) : Except ClassifyError PullEvent :=
  if Text.startsWith status "Pulling from" then .ok .started
  else match Text.after? status "Digest:" with
    | some rest =>
      match Digest.parse rest with
      | .ok d => .ok (.digest d)
      | .error cause => .error (.invalidDigest status cause)
    | none =>
      match Text.after? status "Status:" with
      | some rest => .ok (.final (.ofMessage (Text.trimmedStart rest)))
      | none => .error (.unknownStatus status)

/-- The event that a record stands for. -/
def classify (r : ProgressRecord) : Except ClassifyError PullEvent :=
  match r.errorMessage with
  | some message =>
    .ok (match r.layerId with
      | some id => .layer id (.error message)
      | none => .error message)
  | none => do
    match ← r.layerEvent? with
    | some event =>
      match r.layerId with
      | some id => .ok (.layer id event)
      | none => .error (.missingLayerId r.status)
    | none => ofStatus r.status

/-- The event that a line stands for. -/
def ofLine (line : List UInt8) : Except ClassifyError PullEvent :=
  match ProgressRecord.ofLine? line with
  | some r => classify r
  | none => .error (.malformedRecord line)

end PullEvent

end ImagePull
