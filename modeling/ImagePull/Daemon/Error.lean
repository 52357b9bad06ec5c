import ImagePull.Daemon.Endpoint

/-!
# Trouble with the runtime

A runtime may not be found, may not answer, or may answer that it cannot do what
it was asked. For some troubles there is something that the user can do.
-/

namespace ImagePull

/-- Why a runtime gave no answer that can be used. -/
inductive DaemonError where
  | connectionFailed (reason : String)
  | operationFailed (reason : String)
deriving DecidableEq, Repr

/-- The wording of an error. -/
def DaemonError.message : DaemonError → String
  | .connectionFailed reason => "connection failed: " ++ reason
  | .operationFailed reason => "runtime error: " ++ reason

/-- Why a pull did not start. -/
inductive ImageError where
  | notFound (reason : String)
  | authenticationFailed (reason : String)
  | pullFailed (reason : String)
  | unreachable (reason : String)
deriving DecidableEq, Repr

/-- The wording of an error. -/
def ImageError.message : ImageError → String
  | .notFound reason => "image not found: " ++ reason
  | .authenticationFailed reason => "authentication failed for registry: " ++ reason
  | .pullFailed reason => "pull failed: " ++ reason
  | .unreachable reason => "runtime error: " ++ reason

/-- Why no runtime can be used. -/
inductive RuntimeError where
  | detection (cause : DetectionError)
  | connection (cause : DaemonError)
deriving DecidableEq, Repr

/-- The wording of an error. -/
def RuntimeError.message : RuntimeError → String
  | .detection cause => "runtime detection failed: " ++ cause.message
  | .connection cause => "runtime connection failed: " ++ cause.message

/-- The kinds of trouble with a runtime. -/
inductive Trouble where
  | noRuntimeFound
  | unsupportedHost
  | connectionFailed
  | operationFailed
deriving DecidableEq, Repr

/-- What the user can do about it, if anything. -/
def Trouble.hint? : Trouble → Option String
  | .noRuntimeFound => some "start Docker or Podman, or set `runtime`/`socket` in pullscope.yml"
  | .unsupportedHost => some "point DOCKER_HOST at a unix:// socket, or unset it"
  | .connectionFailed => some "check that the daemon is running and its socket is readable"
  | .operationFailed => none

/-- The trouble behind an error. -/
def DaemonError.trouble : DaemonError → Trouble
  | .connectionFailed _ => .connectionFailed
  | .operationFailed _ => .operationFailed

@[inherit_doc DaemonError.trouble]
def RuntimeError.trouble : RuntimeError → Trouble
  | .detection .noRuntimeFound => .noRuntimeFound
  | .detection (.unsupportedHost _) => .unsupportedHost
  | .connection cause => cause.trouble

end ImagePull
