import ImagePull.Proofs.Digest
import ImagePull.Proofs.Json.Built
import ImagePull.Session

/-!
# Manifests and their texts

Which objects hold a manifest (`Manifest.IsHeldBy`), and that each of them is read as the manifest.
The object that is written for a manifest is one of them, so a manifest is loaded from a file with
its text, together with the digest given or else that of the configuration
(`Manifest.load_of_written`).
-/

namespace ImagePull

open Json (Field IsText IsWord IsOptional IsList Carries Fill present)

variable {j : Json}

/-! ## Digests -/

/-- The string holds the digest. -/
def Digest.IsHeldBy (d : Digest) (j : Json) : Prop :=
  IsText d.text j

theorem Digest.IsHeldBy.ofJson? {d : Digest} (h : d.IsHeldBy j) : Digest.ofJson? j = some d := by
  have htext : j.text? = some d.text := IsText.text? h
  simp only [Digest.ofJson?, htext, d.parse_written, Option.bind_eq_bind, Option.bind_some]

/-! ## Descriptors -/

namespace Descriptor

variable {d : Descriptor}

/-- The fields of a descriptor. -/
def fields (d : Descriptor) : List Field :=
  [.required "digest" Digest.IsHeldBy d.digest, .of "size" IsWord d.size 0,
    .of "mediaType" (IsOptional IsText) d.mediaType none]

/-- The object holds the descriptor. -/
def IsHeldBy (d : Descriptor) (j : Json) : Prop :=
  Carries d.fields j

theorem IsHeldBy.ofJson? (h : d.IsHeldBy j) : ofJson? j = some d := by
  obtain ⟨found, hfields, hfound⟩ := h.exists_found
  have hnames : j.fields? ["digest", "size", "mediaType"] = some found := hfields
  have hdigest : (found.lookup "digest").bind Digest.ofJson? = some d.digest :=
    hfound.bind_of_required Digest.IsHeldBy (by simp [fields]) fun _ hvalue => hvalue.ofJson?
  have hsize : Json.field? found "size" 0 Json.word? = some d.size :=
    hfound.field?_of IsWord (by simp [fields]) fun _ hvalue => hvalue ▸ Json.word?_ofWord _
  have hmediaType : Json.field? found "mediaType" none (Json.nullable? Json.text?)
      = some d.mediaType :=
    hfound.field?_of (IsOptional IsText) (by simp [fields])
      fun _ hvalue => hvalue.nullable?_text?
  simp only [Descriptor.ofJson?, hnames, hdigest, hsize, hmediaType, Option.bind_eq_bind,
    Option.bind_some]

/-- What is written of a descriptor. -/
def slots (d : Descriptor) : List (String × Option Json) :=
  [("digest", some (.ofString d.digest.text)), ("size", some (.ofWord d.size)),
    ("mediaType", d.mediaType.map .ofString)]

theorem toJson_eq_present (d : Descriptor) : d.toJson = .ofMembers (present d.slots) := by
  simp [toJson, present, slots, Json.member?]

theorem built_toJson (d : Descriptor) : d.toJson.Built := by
  rw [toJson_eq_present]
  refine Json.built_present ?_ ?_
  · simp [slots]
  · simp [slots, Json.Built.ofString, Json.Built.ofWord]

theorem isHeldBy_toJson (d : Descriptor) : d.IsHeldBy d.toJson := by
  have hfill : Fill d.slots d.fields :=
    .cons ⟨rfl, Json.isText_ofString _⟩ (.cons ⟨rfl, rfl⟩
      (.cons ⟨rfl, Json.allows_map Json.isText_ofString _⟩ .nil))
  rw [toJson_eq_present]
  exact Json.carries_present hfill (by simp [slots])

end Descriptor

/-! ## Manifests -/

namespace Manifest

open Text.Utf8 (bytes)

variable {m : Manifest}

/-- The fields of a manifest. -/
def fields (m : Manifest) : List Field :=
  [.of "mediaType" (IsOptional IsText) m.mediaType none,
    .of "config" (IsOptional Descriptor.IsHeldBy) m.config none,
    .of "layers" (IsList Descriptor.IsHeldBy) m.layers []]

/-- The object holds the manifest. -/
def IsHeldBy (m : Manifest) (j : Json) : Prop :=
  Carries m.fields j

/-- **Every object that holds a manifest is read as that manifest.** -/
theorem IsHeldBy.ofJson? (h : m.IsHeldBy j) : ofJson? j = some m := by
  obtain ⟨found, hfields, hfound⟩ := h.exists_found
  have hnames : j.fields? ["mediaType", "config", "layers"] = some found := hfields
  have hmediaType : Json.field? found "mediaType" none (Json.nullable? Json.text?)
      = some m.mediaType :=
    hfound.field?_of (IsOptional IsText) (by simp [fields])
      fun _ hvalue => hvalue.nullable?_text?
  have hconfig : Json.field? found "config" none (Json.nullable? Descriptor.ofJson?)
      = some m.config :=
    hfound.field?_of (IsOptional Descriptor.IsHeldBy) (by simp [fields])
      fun _ hvalue => hvalue.nullable? nofun fun _ _ => Descriptor.IsHeldBy.ofJson?
  have hlayers : Json.field? found "layers" [] (Json.list? Descriptor.ofJson?) = some m.layers :=
    hfound.field?_of (IsList Descriptor.IsHeldBy) (by simp [fields])
      fun _ hvalue => hvalue.list? fun _ _ => Descriptor.IsHeldBy.ofJson?
  simp only [Manifest.ofJson?, hnames, hmediaType, hconfig, hlayers, Option.bind_eq_bind,
    Option.bind_some]

/-- What is written of a manifest. -/
def slots (m : Manifest) : List (String × Option Json) :=
  [("mediaType", m.mediaType.map .ofString), ("config", m.config.map Descriptor.toJson),
    ("layers", some (.array (m.layers.map Descriptor.toJson)))]

theorem toJson_eq_present (m : Manifest) : m.toJson = .ofMembers (present m.slots) := by
  simp [toJson, present, slots, Json.member?]

theorem built_toJson (m : Manifest) : m.toJson.Built := by
  have hlayers : (Json.array (m.layers.map Descriptor.toJson)).Built := by
    refine .array fun item hitem => ?_
    obtain ⟨d, -, rfl⟩ := List.mem_map.mp hitem
    exact d.built_toJson
  rw [toJson_eq_present]
  refine Json.built_present ?_ ?_
  · simp [slots]
  · simp [slots, Json.Built.ofString, Descriptor.built_toJson, hlayers]

theorem isHeldBy_toJson (m : Manifest) : m.IsHeldBy m.toJson := by
  have hfill : Fill m.slots m.fields :=
    .cons ⟨rfl, Json.allows_map Json.isText_ofString _⟩
      (.cons ⟨rfl, Json.allows_map Descriptor.isHeldBy_toJson _⟩
        (.cons ⟨rfl, Json.isList_map Descriptor.isHeldBy_toJson _⟩ .nil))
  rw [toJson_eq_present]
  exact Json.carries_present hfill (by simp [slots])

/-- **A manifest is read back from its text.** -/
theorem ofText?_text (m : Manifest) : ofText? (bytes m.toJson.text) = some m := by
  rw [ofText?, m.built_toJson.parse?_text]
  exact m.isHeldBy_toJson.ofJson?

/-! ## Files -/

theorem load_of_text {s : Surroundings} {path text : String}
    (hfile : s.entry path = .file (bytes text)) (hread : ofText? (bytes text) = some m)
    (given : Option Digest) : load s path given = m.resolve given := by
  have htext : (s.entry path).text = .ok text := by
    simp only [hfile, Entry.text, Entry.bytes, Except.bind, Text.Utf8.text?_bytes]
  simp only [load, htext, hread]

/-- **Manifests survive writing.** A manifest is read back from its text, layer by layer in their
order. From a file with that text it is loaded together with the digest given, or else with that of
the configuration; no digest is missing unless there is neither. -/
theorem load_of_written (m : Manifest) (given : Option Digest) {s : Surroundings} {path : String}
    (hfile : s.entry path = .file (bytes m.toJson.text)) :
    ofText? (bytes m.toJson.text) = some m
      ∧ (∀ d, given = some d → load s path given = .ok ⟨m, d⟩)
      ∧ (∀ c, given = none → m.config = some c → load s path given = .ok ⟨m, c.digest⟩)
      ∧ (load s path given = .error .missingDigest ↔ given = none ∧ m.config = none) := by
  have hload := load_of_text hfile m.ofText?_text given
  rw [hload, resolve]
  refine ⟨m.ofText?_text, ?_, ?_, ?_⟩
  · intro d hgiven
    rw [hgiven]
    rfl
  · intro c hgiven hconfig
    rw [hgiven, hconfig]
    rfl
  · cases given <;> cases m.config <;> simp

/-- The layers stay in their order, and without a configuration a digest has to be given. -/
theorem load_of_written_twoLayers :
    let d := Digest.sha256 "c3" (by decide)
    let m : Manifest :=
      { layers := [⟨.sha256 "b2" (by decide), 5, none⟩,
          ⟨.sha256 "a1" (by decide), 18446744073709551615, some "a\"b"⟩] }
    let text := "\x7b\"layers\":[\x7b\"digest\":\"sha256:b2\",\"size\":5\x7d,"
      ++ "\x7b\"digest\":\"sha256:a1\",\"size\":18446744073709551615,"
      ++ "\"mediaType\":\"a\\\"b\"\x7d]\x7d"
    let s : Surroundings := { directory := "/", entry := fun _ => .file (bytes text) }
    s.entry "m.json" = .file (bytes m.toJson.text)
      ∧ ofText? (bytes text) = some m
      ∧ load s "m.json" (some d) = .ok ⟨m, d⟩
      ∧ load s "m.json" none = .error .missingDigest := by
  intro d m text s
  have htext : m.toJson.text = text := by decide +kernel
  have hfile : s.entry "m.json" = .file (bytes m.toJson.text) := htext ▸ rfl
  obtain ⟨hread, hgiven, -⟩ := load_of_written m (some d) hfile
  obtain ⟨-, -, -, hmissing⟩ := load_of_written m none hfile
  exact ⟨hfile, htext ▸ hread, hgiven d rfl, hmissing.mpr ⟨rfl, rfl⟩⟩

end Manifest

end ImagePull
