import ImagePull.Credentials.Store
import ImagePull.Daemon.Query
import ImagePull.Stream.Channel

/-!
# Pulling through a daemon

A pull asks for the flavor, then for the platform unless one is wanted, then for the
manifest unless it is given, and then begins. What the daemon sends from there on is
followed as snapshots. A platform that the daemon does not tell does no harm.
-/

namespace ImagePull

/-- Where the manifest of an image comes from: a daemon, which only knows the digest,
or somewhere else, where it may be missing. -/
inductive ManifestSource where
  | daemon
  | given (result : Except ManifestError ResolvedManifest)

/-- Why a pull did not begin or did not end well. -/
inductive SessionError where
  | daemon (cause : DaemonError)
  | manifest (cause : ManifestError)
  | image (cause : ImageError)
  | stream (cause : StreamError)
  | failed (reference message : String)
  | incomplete (reference : String)
deriving DecidableEq, Repr

namespace SessionError

/-- The wording of an error. -/
def message : SessionError → String
  | .daemon cause => cause.message
  | .manifest cause => cause.message
  | .image cause => cause.message
  | .stream cause => cause.message
  | .failed reference message => "pull of " ++ reference ++ " failed: " ++ message
  | .incomplete reference => "pull of " ++ reference ++ " ended before completing"

/-- What the user can do about it, if anything. -/
def hint? : SessionError → Option String
  | .daemon cause => cause.trouble.hint?
  | _ => none

end SessionError

/-- The manifest in the file at a path, with the digest of its image. -/
def Manifest.load (s : Surroundings) (path : String) (given : Option Digest) :
    Except ManifestError ResolvedManifest :=
  match (s.entry path).text with
  | .error reason => .error (.read path reason)
  | .ok text => match ofText? (Text.Utf8.bytes text) with
    | none => .error (.invalid text)
    | some m => m.resolve given

/-- What to pull. -/
structure PullRequest where
  image : ImageRef
  platform : Option Platform := none

/-- A pull that has begun: the manifest, what its snapshots start from, and what the
daemon sends. -/
structure BegunPull where
  resolved : ResolvedManifest
  context : Context
  reply : Reply

namespace Daemon

/-- Computes with a daemon under a wider kind of error. -/
def under {ε δ α : Type} (widen : ε → δ) (x : ExceptT ε Exchange α) :
    ExceptT δ Exchange α :=
  ExceptT.adapt widen x

/-- Gets the manifest of an image. -/
def manifest (d : Daemon) (source : ManifestSource) (credentials : Credentials)
    (image : ImageRef) : ExceptT ManifestError Exchange ResolvedManifest :=
  match source with
  | .given result => MonadExcept.ofExcept result
  | .daemon => do
    let digest ← under (fun e => .resolve image.text e.message)
      (d.resolveDigest image (credentials.find? image.domain))
    return { manifest := {}, digest }

/-- Begins a pull. -/
def begin (d : Daemon) (source : ManifestSource) (credentials : Credentials)
    (request : PullRequest) : ExceptT SessionError Exchange BegunPull := do
  let image := request.image
  let flavor ← under .daemon d.flavor
  if request.platform.isNone then
    let _ ← (d.defaultPlatform.run : Exchange (Except DaemonError Platform))
  let resolved ← under .manifest (d.manifest source credentials image)
  let reply ← under .image
    (d.pull image request.platform (credentials.find? image.domain))
  return {
    resolved
    context :=
      { reference := image, manifest := resolved.manifest, flavor
        resolved := some resolved.digest }
    reply }

end Daemon

namespace BegunPull

/-- The snapshots of a pull that is followed to its end. -/
def items (b : BegunPull) (capacity : Nat) : List StreamItem :=
  Stream.track b.context capacity b.reply.deliveries

end BegunPull

/-- The digest of the image that a finished pull brought. -/
def PullRequest.conclude (request : PullRequest) (items : List StreamItem) :
    Except SessionError Digest :=
  let reference := request.image.text
  match Stream.lastSnapshot items with
  | .error e => .error (.stream e)
  | .ok none => .error (.incomplete reference)
  | .ok (some pull) => match pull.status with
    | .complete digest _ => .ok digest
    | .errored message => .error (.failed reference message)
    | .inProgress => .error (.incomplete reference)

end ImagePull
