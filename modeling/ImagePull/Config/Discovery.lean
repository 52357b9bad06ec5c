import ImagePull.Config.Decode

/-!
# Finding and creating configurations

A directory may hold its configuration under one of three names, of which the
first that exists counts. A new one is written with the default settings and
comments on the others.
-/

namespace ImagePull.Config

/-- The configuration in the file at a path. -/
def load (s : Surroundings) (path : String) : Except ConfigError Config :=
  match (s.entry path).text with
  | .error reason => .error (.io reason)
  | .ok text => ofYaml text

/-- The name of a new configuration. -/
def fileName : String := "pullscope.yml"

/-- The names of configurations, those that count first in front. -/
def fileNames : List String := [fileName, "pullscope.yaml", ".pullscope/config.yml"]

/-- The configuration of the directory, if it has one. -/
def discover (s : Surroundings) : Except ConfigError Config :=
  let paths := fileNames.map (Surroundings.join s.directory)
  match paths.find? fun path => (s.entry path).exists? with
  | some path => load s path
  | none => .error (.notFound s.directory)

/-- The configuration of the directory, or the default one. -/
def discoverOrDefault (s : Surroundings) : Except ConfigError Config :=
  match discover s with
  | .error (.notFound _) => .ok {}
  | result => result

/-- The text of a new configuration. -/
def template : String :=
  "# Runtime flavor (docker or podman); detected from local sockets when unset\n" ++
  "# runtime: podman\n" ++
  "# socket: /run/user/1000/podman/podman.sock\n" ++
  "\n" ++
  "# Platform to pull; the daemon default when unset\n" ++
  "# platform: linux/amd64\n" ++
  "\n" ++
  "# Snapshots buffered ahead of the display\n" ++
  "queue_capacity: 1\n" ++
  "\n" ++
  "# Abort a pull that takes longer than this\n" ++
  "# timeout: 10m\n" ++
  "\n" ++
  "# Output mode: normal, quiet or json\n" ++
  "# output: normal\n" ++
  "\n" ++
  "# Read credentials stored by `docker login`\n" ++
  "use_docker_config: true\n" ++
  "\n" ++
  "# Per-registry credentials, checked before docker config\n" ++
  "# registries:\n" ++
  "#   ghcr.io:\n" ++
  "#     username: my-user\n" ++
  "#     password:\n" ++
  "#       env: GHCR_TOKEN\n"

/-- The path of a new configuration, unless there is one and it is not to be
replaced. -/
def initPath (s : Surroundings) (replace : Bool) : Except ConfigError String :=
  let path := Surroundings.join s.directory fileName
  let found := s.entry path
  if found.exists? && !replace then .error (.alreadyExists path)
  else if found = .directory then .error (.io "Is a directory (os error 21)")
  else .ok path

end ImagePull.Config
