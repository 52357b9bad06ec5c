import ImagePull.Files
import ImagePull.Flavor

/-!
# Finding the runtime

A container runtime listens on a socket. Which one to use is settled by the
configuration, else by the variable `DOCKER_HOST`, else by the first of the usual
sockets that exists. Where only the socket is known, its path tells the flavor.
-/

namespace ImagePull

/-- A socket, and the flavor of the runtime that is expected behind it. -/
structure Endpoint where
  flavor : Flavor
  socket : String
deriving DecidableEq, Repr

/-- Why no runtime was found. -/
inductive DetectionError where
  | noRuntimeFound
  | unsupportedHost (host : String)
deriving DecidableEq, Repr

/-- The wording of an error. -/
def DetectionError.message : DetectionError → String
  | .noRuntimeFound => "no container runtime found (checked Podman and Docker sockets)"
  | .unsupportedHost host =>
    "unsupported DOCKER_HOST '" ++ host ++ "' (only unix:// sockets are supported)"

namespace Endpoint

/-- The scheme of a socket. -/
def scheme : String := "unix://"

/-- The socket of a runtime that serves the whole machine. -/
def defaultSocket : Flavor → String
  | .docker => "/var/run/docker.sock"
  | .podman => "/run/podman/podman.sock"

/-- The socket of a runtime that serves one user. -/
def userSocket (user : String) : String :=
  "/run/user/" ++ user ++ "/podman/podman.sock"

/-- Whether the text holds another as a part. -/
def holds (part : List Char) : List Char → Bool
  | [] => part.isEmpty
  | c :: rest => (Text.afterStart? part (c :: rest)).isSome || holds part rest

/-- The endpoint of a socket, with the flavor that its path tells. -/
def ofSocket (socket : String) : Endpoint :=
  ⟨if holds "podman".toList socket.toList then .podman else .docker, socket⟩

/-- The path of a socket that may be written with its scheme. -/
def socketPath (socket : String) : String :=
  (Text.after? socket scheme).getD socket

/-- The path at which an endpoint is asked: its socket without the first scheme that
stands anywhere in it. -/
def queryPath (e : Endpoint) : String :=
  String.ofList (Text.withoutFirst scheme.toList e.socket.toList)

/-- Where the system tells about the process. -/
def processStatus : String := "/proc/self/status"

/-- The number of the user: a variable, or the second word of its line in the status
of the process. -/
def user? (s : Surroundings) : Option String :=
  s.valueOf? "UID" <|> do
    let status ← (s.entry processStatus).text.toOption
    let lines := Text.pieces '\n' status.toList
    let line ← lines.find? fun line => (Text.afterStart? "Uid:".toList line).isSome
    let words := (line.splitBy fun a b => Text.isBlank a == Text.isBlank b).filter
      fun word => !word.all Text.isBlank
    (words[1]?).map String.ofList

/-- The first of the usual sockets that exists: that of the user, and those of the
machine. -/
def local? (s : Surroundings) : Option Endpoint :=
  let found (flavor : Flavor) (socket : String) : Option Endpoint :=
    if (s.entry socket).exists? then some ⟨flavor, socket⟩ else none
  (user? s).bind (fun user => found .podman (userSocket user)) <|>
    found .podman (defaultSocket .podman) <|>
    found .docker (defaultSocket .docker)

/-- The endpoint to use where nothing is configured. -/
def ofHost (s : Surroundings) : Except DetectionError Endpoint :=
  match s.valueOf? "DOCKER_HOST" with
  | some host =>
    if host = "" then (local? s).elim (.error .noRuntimeFound) .ok
    else match Text.after? host scheme with
      | some socket => .ok (ofSocket socket)
      | none => .error (.unsupportedHost host)
  | none => (local? s).elim (.error .noRuntimeFound) .ok

/-- The endpoint to use, with the runtime and the socket that are configured. -/
def detect (s : Surroundings) (flavor : Option Flavor) (socket : Option String) :
    Except DetectionError Endpoint :=
  match flavor, socket with
  | some flavor, some socket => .ok ⟨flavor, socketPath socket⟩
  | some flavor, none => .ok ⟨flavor, defaultSocket flavor⟩
  | none, some socket => .ok (ofSocket (socketPath socket))
  | none, none => ofHost s

end Endpoint

end ImagePull
