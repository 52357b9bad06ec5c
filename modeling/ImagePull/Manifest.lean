import ImagePull.Digest
import ImagePull.Json.Parser
import ImagePull.Json.Printer

/-!
# Image manifests

A manifest lists the layers of an image in order, each with the digest of its
content and its size, and may name the configuration of the image. The image is
identified by a digest of its own, which is given with the manifest or is the
digest of the configuration.
-/

namespace ImagePull

/-- The content that a manifest refers to. -/
structure Descriptor where
  digest : Digest
  size : UInt64
  mediaType : Option String
deriving DecidableEq

/-- An image manifest. -/
structure Manifest where
  mediaType : Option String := none
  config : Option Descriptor := none
  layers : List Descriptor := []
deriving DecidableEq

/-- A manifest and the digest that identifies its image. -/
structure ResolvedManifest where
  manifest : Manifest
  digest : Digest
deriving DecidableEq

/-- Why there is no resolved manifest. What the JSON reader says of a text is a function of the
text, which stands for it. -/
inductive ManifestError where
  | read (path reason : String)
  | invalid (refused : String)
  | missingDigest
  | resolve (reference message : String)
deriving DecidableEq, Repr

/-- The wording of an error, up to what the JSON reader says. -/
def ManifestError.message : ManifestError → String
  | .read path reason => "failed to read manifest " ++ path ++ ": " ++ reason
  | .invalid _ => "invalid manifest"
  | .missingDigest => "manifest has no config digest to identify the image"
  | .resolve reference message => "failed to resolve " ++ reference ++ ": " ++ message

/-- The digest that a JSON string holds. -/
def Digest.ofJson? (j : Json) : Option Digest := do
  let s ← j.text?
  match Digest.parse s with
  | .ok d => some d
  | .error _ => none

namespace Descriptor

/-- The descriptor that a JSON value holds; its digest has to be there. -/
def ofJson? (j : Json) : Option Descriptor := do
  let fields ← j.fields? ["digest", "size", "mediaType"]
  let digest ← (fields.lookup "digest").bind Digest.ofJson?
  let size ← Json.field? fields "size" 0 Json.word?
  let mediaType ← Json.field? fields "mediaType" none (Json.nullable? Json.text?)
  some { digest, size, mediaType }

/-- The descriptor as a JSON object. -/
def toJson (d : Descriptor) : Json :=
  .ofMembers
    ([("digest", .ofString d.digest.text), ("size", .ofWord d.size)] ++
      Json.member? "mediaType" (d.mediaType.map .ofString))

end Descriptor

namespace Manifest

/-- The manifest that a JSON value holds. -/
def ofJson? (j : Json) : Option Manifest := do
  let fields ← j.fields? ["mediaType", "config", "layers"]
  let mediaType ← Json.field? fields "mediaType" none (Json.nullable? Json.text?)
  let config ← Json.field? fields "config" none (Json.nullable? Descriptor.ofJson?)
  let layers ← Json.field? fields "layers" [] (Json.list? Descriptor.ofJson?)
  some { mediaType, config, layers }

/-- The manifest as a JSON object; what is absent is left out. -/
def toJson (m : Manifest) : Json :=
  .ofMembers
    (Json.member? "mediaType" (m.mediaType.map .ofString) ++
     Json.member? "config" (m.config.map Descriptor.toJson) ++
     [("layers", .array (m.layers.map Descriptor.toJson))])

/-- The manifest that JSON text holds. -/
def ofText? (bytes : List UInt8) : Option Manifest :=
  (Json.parse? bytes).bind ofJson?

/-- The sum of the sizes of all layers. -/
def totalSize (m : Manifest) : UInt64 :=
  m.layers.foldr (fun d total => d.size + total) 0

/-- The manifest with the digest of its image: the one given, else that of the
configuration. -/
def resolve (m : Manifest) (given : Option Digest) : Except ManifestError ResolvedManifest :=
  match given <|> m.config.map Descriptor.digest with
  | some digest => .ok { manifest := m, digest }
  | none => .error .missingDigest

end Manifest

end ImagePull
