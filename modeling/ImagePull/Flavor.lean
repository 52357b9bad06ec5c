import ImagePull.Text.Blank

/-!
# Runtime flavors

Two container runtimes serve pulls, and their progress streams differ in how
they open.
-/

namespace ImagePull

/-- The runtime that produces a progress stream. -/
inductive Flavor where
  | docker
  | podman
deriving DecidableEq, Repr

namespace Flavor

/-- The name of a flavor. -/
def name : Flavor → String
  | .docker => "docker"
  | .podman => "podman"

/-- The flavor with exactly this name. -/
def ofName? (name : String) : Option Flavor :=
  if name = "docker" then some .docker
  else if name = "podman" then some .podman
  else none

/-- Reads a flavor in any case and with blanks around it; the error is the text
that was looked up. -/
def parse (s : String) : Except String Flavor :=
  let name := Text.lowered (Text.trimmed s)
  match ofName? name with
  | some flavor => .ok flavor
  | none => .error name

/-- The wording of the error for a name that is no flavor. -/
def unknownMessage (name : String) : String :=
  "unknown runtime '" ++ name ++ "' (expected docker or podman)"

end Flavor

end ImagePull
