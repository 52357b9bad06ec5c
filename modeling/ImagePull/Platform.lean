import ImagePull.Text.Blank

/-!
# Target platforms

An image is built for an operating system and an architecture, with a variant
if need be: `os/arch[/variant]`. Two names that machines give their architecture
are replaced by those that registries use.
-/

namespace ImagePull

/-- Why a text is no platform. -/
inductive PlatformError where
  | empty
  | invalidFormat (text : String)
deriving DecidableEq, Repr

/-- The wording of an error. -/
def PlatformError.message : PlatformError → String
  | .empty => "platform cannot be empty"
  | .invalidFormat text => "invalid platform format (expected os/arch[/variant]): " ++ text

/-- A target platform. -/
structure Platform where
  os : String
  architecture : String
  variant : Option String
deriving DecidableEq, Repr

namespace Platform

/-- The name that registries use for an architecture. -/
def registryName (architecture : String) : String :=
  if architecture = "x86_64" ∨ architecture = "x86-64" then "amd64"
  else if architecture = "aarch64" then "arm64"
  else architecture

/-- The platform of an operating system and an architecture. -/
def of (os architecture : String) (variant : Option String) : Platform :=
  ⟨os, registryName architecture, variant⟩

/-- Reads a platform that may have blanks around it. -/
def parse (s : String) : Except PlatformError Platform :=
  let text := Text.trim Text.isBlank s.toList
  if text = [] then .error .empty
  else
    let parts := Text.pieces '/' text
    if parts.contains [] then .error (.invalidFormat (String.ofList text))
    else match parts with
      | [os, arch] => .ok (of (String.ofList os) (String.ofList arch) none)
      | [os, arch, variant] =>
        .ok (of (String.ofList os) (String.ofList arch) (some (String.ofList variant)))
      | _ => .error (.invalidFormat (String.ofList text))

/-- The platform as it is written. -/
def text (p : Platform) : String :=
  p.os ++ "/" ++ p.architecture ++
    (match p.variant with | some variant => "/" ++ variant | none => "")

end Platform

end ImagePull
