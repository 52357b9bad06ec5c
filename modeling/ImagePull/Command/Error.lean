import ImagePull.Config.Basic
import ImagePull.Session

/-!
# Why a command failed

Every error of the library may end a command. Where the runtime could not be found
or reached, there is also a hint for the user.
-/

namespace ImagePull.Command

/-- Why a command failed. -/
inductive Failure where
  | config (cause : ConfigError)
  | invalidArgument (reason : String)
  | runtime (cause : RuntimeError)
  | manifest (cause : ManifestError)
  | session (cause : SessionError)
  | stream (cause : StreamError)
  | pullFailed (reference message : String)
  | timedOut (limit : String)
deriving DecidableEq, Repr

namespace Failure

/-- The wording of an error. -/
def message : Failure → String
  | .config cause => cause.message
  | .invalidArgument reason => "invalid argument: " ++ reason
  | .runtime cause => cause.message
  | .manifest cause => cause.message
  | .session cause => cause.message
  | .stream cause => cause.message
  | .pullFailed reference message => "pull of " ++ reference ++ " failed: " ++ message
  | .timedOut limit => "timed out after " ++ limit

/-- What the user can do about it, if anything. -/
def hint? : Failure → Option String
  | .runtime cause => cause.trouble.hint?
  | .session cause => cause.hint?
  | _ => none

end Failure

end ImagePull.Command
