import ImagePull.Credentials.Basic
import ImagePull.Manifest
import ImagePull.Platform
import ImagePull.ImageRef
import ImagePull.Daemon.Error
import ImagePull.Daemon.Exchange
import ImagePull.Daemon.Report
import ImagePull.Text.Url

/-!
# What a daemon is asked

A daemon tells that it is there, which flavor it is, on what platform it runs, and
which digest a reference has in its registry. It is asked to pull an image by a
request whose parameters are the repository, the tag or digest, and the platform if
one is wanted.
-/

namespace ImagePull

/-- The credential as a query for a digest carries it: every field that there is,
null where it is not set. -/
def Credential.toQueryJson (c : Credential) : Json :=
  let orNull (value : Option String) : Json := (value.map Json.ofString).getD .null
  .ofMembers
    [("username", .ofString c.username), ("password", .ofString c.password),
     ("auth", .null), ("email", .null), ("serveraddress", orNull c.server),
     ("identitytoken", orNull c.identityToken), ("registrytoken", .null)]

/-- The path and the parameters of a request to pull. -/
def ImageRef.pullTarget (r : ImageRef) (platform : Option Platform) : String :=
  let parameter (name : String) (value : Option String) : String :=
    match value with
    | some value => "&" ++ name ++ "=" ++ Text.Percent.encode value
    | none => ""
  "/images/create?fromImage=" ++ Text.Percent.encode r.repository ++
    parameter "tag" r.pullTag ++ parameter "platform" (platform.map Platform.text)

/-- The path of a query for the digest of an image. -/
def ImageRef.distributionTarget (r : ImageRef) : String :=
  "/" ++ Text.Path.withoutDots ("distribution/" ++ r.text ++ "/json")

/-! ## Replies -/

namespace Reply

/-- The content of a reply to a query; a refusal is an error. -/
def granted (r : Reply) : Except DaemonError (List UInt8) :=
  if r.contentEnding ≠ .complete then .error (.connectionFailed brokenOff)
  else if r.grantsQuery then .ok r.content
  else
    .error (.connectionFailed ("Docker responded with status code " ++
      Text.numeral r.status ++ ": " ++ r.complaint))

/-- The JSON value of a known form in a reply to a query. -/
def value {α : Type} (read? : Json → Option α) (r : Reply) : Except DaemonError α :=
  match r.granted with
  | .error e => .error e
  | .ok content => match (Json.parse? content).bind read? with
    | some v => .ok v
    | none => .error (.connectionFailed "Failed to deserialize JSON")

/-- The digest of an image in a reply to the query for it. -/
def digestOf (image : ImageRef) (r : Reply) : Except DaemonError Digest :=
  if r.contentEnding = .complete ∧ [401, 403, 404].contains r.status then
    .error (.operationFailed ("cannot resolve " ++ image.text ++ ": " ++ r.complaint))
  else match r.value Digest.ofDistributionJson? with
    | .error e => .error e
    | .ok none => .error (.operationFailed ("registry returned no digest for " ++ image.text))
    | .ok (some text) => (Digest.parse text).mapError fun e =>
        .operationFailed ("invalid digest for " ++ image.text ++ ": " ++ e.message)

/-- The reply to a request to pull, unless it is a refusal. -/
def pulling (image : ImageRef) (r : Reply) : Except ImageError Reply :=
  if r.isSuccess then .ok r
  else if r.contentEnding = .broken then
    .error (.pullFailed ("failed to read error response: " ++ brokenOff))
  else
    let told := image.text ++ ": " ++ r.refusal
    if r.status = 404 then .error (.notFound told)
    else if r.status = 401 ∨ r.status = 403 then .error (.authenticationFailed told)
    else .error (.pullFailed (told ++ " (" ++ statusText r.status ++ ")"))

end Reply

/-! ## Queries -/

namespace Daemon

/-- Makes a request and reads the reply. -/
def query {ε α : Type} (d : Daemon) (r : Request) (unreachable : String → ε)
    (read : Reply → Except ε α) : ExceptT ε Exchange α := do
  match ← d.ask r with
  | .ok reply => MonadExcept.ofExcept (read reply)
  | .error reason => throw (unreachable reason)

/-- Asks whether the daemon is there. -/
def ping (d : Daemon) : ExceptT DaemonError Exchange Unit := do
  let _ ← d.query { target := "/_ping" } .connectionFailed Reply.granted

/-- Asks for the flavor. -/
def flavor (d : Daemon) : ExceptT DaemonError Exchange Flavor :=
  d.query { target := "/version" } .connectionFailed (Reply.value Flavor.ofVersionJson?)

/-- Asks about the machine. -/
def info (d : Daemon) : ExceptT DaemonError Exchange DaemonInfo :=
  d.query { target := "/info" } .connectionFailed (Reply.value DaemonInfo.ofJson?)

/-- Asks for the platform that the daemon pulls for unless it is told. -/
def defaultPlatform (d : Daemon) : ExceptT DaemonError Exchange Platform := do
  match (← d.info).platform? with
  | some platform => return platform
  | none => throw (.operationFailed "daemon did not report its os and architecture")

/-- Asks for the digest of an image in its registry. -/
def resolveDigest (d : Daemon) (r : ImageRef) (credential : Option Credential) :
    ExceptT DaemonError Exchange Digest :=
  d.query
    { target := r.distributionTarget
      credential := credential.map Credential.toQueryJson }
    .connectionFailed
    (Reply.digestOf r)

/-- Asks to pull an image; the content of the reply is its progress. -/
def pull (d : Daemon) (r : ImageRef) (platform : Option Platform)
    (credential : Option Credential) : ExceptT ImageError Exchange Reply :=
  d.query
    { method := .post
      target := r.pullTarget platform
      credential := credential.map Credential.toJson }
    (fun reason => .unreachable ("failed to connect to socket: " ++ reason))
    (Reply.pulling r)

end Daemon

end ImagePull
