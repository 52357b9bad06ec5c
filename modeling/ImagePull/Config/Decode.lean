import ImagePull.Config.Basic
import ImagePull.Duration.Parser
import ImagePull.Yaml.Value

/-!
# Reading configurations

A configuration is a YAML mapping from the names of its settings. A setting that
may be absent may also be null; what is missing has its default.
-/

namespace ImagePull

open Yaml (Node Value)

namespace Setting

/-- The text that a scalar decides to be. -/
def ownText? : Node → Option String
  | .scalar tag style s => match Value.ofScalar? tag style s with
    | some (.text t) => some t
    | _ => none
  | _ => none

/-- The keys of a reference to a variable, by place. -/
def keys : List String := ["env", "default"]

/-- The key that a scalar names, by its text or its place; a key that is neither
text nor count is refused. -/
def keyOf? : Node → Option (Option String)
  | .scalar tag style s => match Value.ofScalar? tag style s with
    | some (.text t) => some (keys.find? (· = t))
    | some (.word n) => some keys[n.toNat]?
    | _ => none
  | _ => none

/-- A reference to a variable: the pairs of its mapping, of which others than the
two known ones are passed over. -/
def ofPairs? (pairs : List (Node × Node)) : Option Setting := do
  let named ← pairs.mapM fun p => (keyOf? p.1).map (·, p.2)
  let fields := named.filterMap fun p => p.1.map (·, p.2)
  if (fields.map Prod.fst).Nodup then
    let name ← (fields.lookup "env").bind ownText?
    let missing ← match fields.lookup "default" with
      | none => some none
      | some (.scalar tag style s) => match Value.ofScalar? tag style s with
        | some .null => some none
        | some (.text t) => some (some t)
        | _ => none
      | some _ => none
    some (.variable name missing)
  else none

/-- The setting that a node holds: a text, or a reference to a variable. -/
def ofNode? (n : Node) : Option Setting :=
  if n.hasValues then
    match n with
    | .mapping _ pairs => ofPairs? pairs
    | _ => (ownText? n).map .literal
  else none

end Setting

/-- The credential settings that a node holds. -/
def RegistrySettings.ofNode? (n : Node) : Option RegistrySettings := do
  let fields ← n.fields? ["username", "password", "identity_token"]
  let setting? (name : String) :=
    Node.field? fields name none (Node.nullable? Setting.ofNode?)
  let username ← setting? "username"
  let password ← setting? "password"
  let identityToken ← setting? "identity_token"
  some { username, password, identityToken }

namespace Config

/-- The registries that a node holds, in the order of their names. Of two settings
under one name the later counts. -/
def registriesOf? (n : Node) : Option (List (String × RegistrySettings)) := do
  let pairs ← n.pairs?
  let entries ← pairs.mapM fun p => do
    let registry ← p.1.text?
    let settings ← RegistrySettings.ofNode? p.2
    some (registry, settings)
  some (entries.foldl (fun sorted e => place e sorted) [])
where
  /-- The list with an entry in its place by name. -/
  place (e : String × RegistrySettings) :
      List (String × RegistrySettings) → List (String × RegistrySettings)
    | [] => [e]
    | x :: rest =>
      if e.1 < x.1 then e :: x :: rest
      else if e.1 = x.1 then e :: rest
      else x :: place e rest

/-- The positive count that a node holds. It is not compared with `Stream.Channel.maxCapacity`. -/
def capacityOf? (n : Node) : Option UInt64 :=
  n.word?.bind fun n => if n = 0 then none else some n

/-- The configuration that a document holds. -/
def ofNode? (n : Node) : Option Config := do
  let fields ← n.fields? ["runtime", "socket", "platform", "queue_capacity", "timeout",
    "output", "use_docker_config", "registries"]
  let maybe {α : Type} (name : String) (read? : Node → Option α) :=
    Node.field? fields name none (Node.nullable? read?)
  let runtime ← maybe "runtime" fun n => n.choice?.bind Flavor.ofName?
  let socket ← maybe "socket" Node.text?
  let platform ← maybe "platform" fun n => n.text?.bind fun s => (Platform.parse s).toOption
  let queueCapacity ← Node.field? fields "queue_capacity" 1 capacityOf?
  let timeout ← maybe "timeout" fun n => n.text?.bind fun s => (Duration.parse s).toOption
  let output ← maybe "output" fun n => n.choice?.bind OutputMode.ofName?
  let useDockerConfig ← Node.field? fields "use_docker_config" true Node.flag?
  let registries ← Node.field? fields "registries" [] registriesOf?
  some
    { runtime := runtime, socket := socket, platform := platform
      queueCapacity := queueCapacity, timeout := timeout, output := output
      useDockerConfig := useDockerConfig, registries := registries }

/-- The configuration in the text of a file. An empty text is the default one. -/
def ofYaml (text : String) : Except ConfigError Config :=
  match Yaml.document? text with
  | none => .error (.yaml text)
  | some none => .ok {}
  | some (some root) =>
    match ofNode? root with
    | some c => .ok c
    | none => .error (.yaml text)

end Config

end ImagePull
