import ImagePull.Credentials.DockerConfig
import ImagePull.Duration.Basic
import ImagePull.Files
import ImagePull.Flavor
import ImagePull.Platform

/-!
# Configuration

What a user can settle once for all pulls: the runtime and its socket, the
platform, how many snapshots may wait, how long a pull may take, how it is shown,
and the credentials of registries. A credential may be written down, or be the
value of an environment variable.
-/

namespace ImagePull

/-- How a pull is shown. -/
inductive OutputMode where
  | normal
  | quiet
  | json
deriving DecidableEq, Repr

namespace OutputMode

/-- The name of a mode. -/
def name : OutputMode → String
  | .normal => "normal"
  | .quiet => "quiet"
  | .json => "json"

/-- The mode with exactly this name. -/
def ofName? (name : String) : Option OutputMode :=
  [normal, quiet, json].find? fun mode => mode.name = name

end OutputMode

/-- Why there is no configuration, or none that can be used. What the YAML reader says of a text
is a function of the text, which stands for it. -/
inductive ConfigError where
  | alreadyExists (path : String)
  | notFound (directory : String)
  | missingVariable (name : String)
  | noSecret (registry : String)
  | io (reason : String)
  | yaml (refused : String)
  | logins (cause : LoginsError)
deriving DecidableEq, Repr

/-- The wording of an error, up to what the YAML reader says. -/
def ConfigError.message : ConfigError → String
  | .alreadyExists path => "file already exists: " ++ path
  | .notFound directory => "configuration file not found in " ++ directory
  | .missingVariable name => "missing required environment variable: " ++ name
  | .noSecret registry =>
    "invalid configuration: registry " ++ registry ++ " needs a password or identity_token"
  | .io reason => "I/O error: " ++ reason
  | .yaml _ => "YAML parse error"
  | .logins cause => cause.message

/-- A configured value: written down, or that of an environment variable with a
value to take if it is not set. A variable whose value is not Unicode counts as not set. -/
inductive Setting where
  | literal (value : String)
  | variable (name : String) (missing : Option String)
deriving DecidableEq, Repr

/-- The value of a setting. -/
def Setting.resolve (valueOf? : String → Option String) : Setting → Except ConfigError String
  | .literal value => .ok value
  | .variable name missing => match valueOf? name <|> missing with
    | some value => .ok value
    | none => .error (.missingVariable name)

/-- The configured credential of a registry. -/
structure RegistrySettings where
  username : Option Setting := none
  password : Option Setting := none
  identityToken : Option Setting := none
deriving DecidableEq, Repr

/-- The credential that is configured for a registry. It needs a password or an
identity token. -/
def RegistrySettings.credential (valueOf? : String → Option String) (registry : String)
    (s : RegistrySettings) : Except ConfigError Credential :=
  if s.password.isNone ∧ s.identityToken.isNone then .error (.noSecret registry)
  else do
    let orEmpty (setting : Option Setting) : Except ConfigError String :=
      match setting with
      | some setting => setting.resolve valueOf?
      | none => .ok ""
    let username ← orEmpty s.username
    let password ← orEmpty s.password
    let identityToken ← s.identityToken.mapM (Setting.resolve valueOf?)
    .ok { username, password, server := some registry, identityToken }

/-- A configuration. The registries are in the order of their names. -/
structure Config where
  runtime : Option Flavor := none
  socket : Option String := none
  platform : Option Platform := none
  queueCapacity : UInt64 := 1
  timeout : Option Duration := none
  output : Option OutputMode := none
  useDockerConfig : Bool := true
  registries : List (String × RegistrySettings) := []
deriving DecidableEq

namespace Config

/-- The credentials that are configured, as overrides in the order of the names. -/
def overrides (valueOf? : String → Option String)
    (registries : List (String × RegistrySettings)) : Except ConfigError CredentialStore :=
  registries.foldlM
    (fun store (registry, settings) => do
      return store.insert registry (← settings.credential valueOf? registry))
    {}

end Config

/-! ## Stored logins -/

/-- Where the file of stored logins is. -/
def CredentialStore.dockerConfigPath? (valueOf? : String → Option String) : Option String :=
  match valueOf? "DOCKER_CONFIG" with
  | some directory => some (Surroundings.join directory "config.json")
  | none => (valueOf? "HOME").map fun home =>
    Surroundings.join (Surroundings.join home ".docker") "config.json"

/-- The logins in the file at a path. -/
def CredentialStore.load (s : Surroundings) (path : String) :
    Except LoginsError CredentialStore :=
  match (s.entry path).text with
  | .error reason => .error (.read path reason)
  | .ok text => ofDockerConfig (Text.Utf8.bytes text)

/-- The stored logins; without a file there are none. -/
def CredentialStore.loadDefault (s : Surroundings) : Except LoginsError CredentialStore :=
  match dockerConfigPath? s.valueOf? with
  | none => .ok {}
  | some path => if (s.entry path).exists? then load s path else .ok {}

/-- The credentials to pull with: the configured ones before the stored ones. -/
def Config.credentials (c : Config) (s : Surroundings) : Except ConfigError Credentials := do
  let configured ← overrides s.valueOf? c.registries
  let stored ← if c.useDockerConfig then
      (CredentialStore.loadDefault s).mapError .logins
    else .ok {}
  .ok { configured, stored }

end ImagePull
