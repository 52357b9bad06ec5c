import ImagePull.Proofs.Digest
import ImagePull.Proofs.Duration
import ImagePull.Proofs.Json.Built
import ImagePull.Pull.View

/-!
# Snapshots as JSON

What the JSON object of a snapshot shows (`Pull.view`) is all that it depends on, and all of it can
be told from the object: of every type on the way no two values are written alike. The text of the
object is therefore one line that shows what it shows faithfully (`toJson_text_is_faithful`).
-/

namespace ImagePull

open Json (Built ofMembers_inj ofString_inj ofWord_inj)

/-! ## Progress -/

theorem Progress.built_toJson (p : Progress) : p.toJson.Built := by
  refine .ofMembers ?_ ?_
  · simp
  · simp [Built.ofWord, Built.bool]

theorem Progress.toJson_inj {p q : Progress} : p.toJson = q.toJson ↔ p = q := by
  cases p
  cases q
  simp [toJson, ofMembers_inj, ofWord_inj]

theorem Extraction.built_toJson (e : Extraction) : e.toJson.Built := by
  cases e with
  | elapsed time => exact .ofMembers (by simp) (by simp [Built.ofString])
  | bytes progress => exact .ofMembers (by simp) (by simp [progress.built_toJson])

theorem Extraction.toJson_inj {e f : Extraction} : e.toJson = f.toJson ↔ e = f := by
  cases e <;> cases f <;>
    simp [toJson, ofMembers_inj, ofString_inj, Duration.text_inj, Progress.toJson_inj]

/-! ## Layers -/

namespace LayerState

/-- The name of a state in JSON. -/
def tag : LayerState → String
  | .pullingFsLayer => "pulling_fs_layer"
  | .waiting => "waiting"
  | .downloading _ => "downloading"
  | .verifyingChecksum => "verifying_checksum"
  | .downloadComplete => "download_complete"
  | .alreadyDownloaded => "already_downloaded"
  | .alreadyExists => "already_exists"
  | .extracting _ => "extracting"
  | .pullComplete => "pull_complete"
  | .errored _ => "errored"

/-- The members behind the name. -/
def payload : LayerState → List (String × Json)
  | .downloading progress => [("progress", progress.toJson)]
  | .extracting detail => [("detail", detail.toJson)]
  | .errored message => [("message", .ofString message)]
  | _ => []

theorem toMembers_eq (s : LayerState) :
    s.toMembers = ("state", .ofString s.tag) :: s.payload := by
  cases s with
  | downloading _ | extracting _ | errored _ => rfl
  | _ => exact congrArg (fun tag => [("state", Json.ofString tag)]) (by decide +kernel)

theorem toMembers_inj {s t : LayerState} : s.toMembers = t.toMembers ↔ s = t := by
  rw [toMembers_eq, toMembers_eq]
  -- no two states share a name, so their payloads are compared only where the states agree
  cases s <;> cases t <;>
    simp [tag, payload, ofString_inj, Progress.toJson_inj, Extraction.toJson_inj]

end LayerState

theorem Layer.built_toJson (l : Layer) : l.toJson.Built := by
  rw [Layer.toJson, LayerState.toMembers_eq]
  cases hstate : l.state <;> refine .ofMembers ?_ ?_ <;>
    simp [LayerState.payload, Built.ofString, Progress.built_toJson, Extraction.built_toJson]

theorem Layer.toJson_inj {l k : Layer} : l.toJson = k.toJson ↔ l = k := by
  cases l
  cases k
  simp [toJson, ofMembers_inj, ofString_inj, LayerState.toMembers_inj]

/-! ## Snapshots -/

theorem Flavor.name_inj {f g : Flavor} : f.name = g.name ↔ f = g := by
  cases f <;> cases g <;> simp [name]

/-- A status is told by what stands in front, whatever follows it. -/
theorem PullStatus.toMembers_append_inj {s t : PullStatus} {xs ys : List (String × Json)} :
    s.toMembers ++ xs = t.toMembers ++ ys ↔ s = t ∧ xs = ys := by
  cases s <;> cases t <;> simp [toMembers, ofString_inj, Digest.text_inj, and_assoc]

/-- What a snapshot shows. -/
structure PullView where
  reference : String
  flavor : Flavor
  status : PullStatus
  digest : Option Digest
  layers : List Layer
  progress : Progress
deriving DecidableEq

namespace PullView

variable {v w : PullView}

/-- What is behind the status in the object. -/
def behind (v : PullView) : List (String × Json) :=
  Json.member? "daemon_digest" (v.digest.map fun d => .ofString d.text) ++
    [("layers", .array (v.layers.map Layer.toJson)), ("progress", v.progress.toJson)]

/-- What is shown as a JSON object. -/
def toJson (v : PullView) : Json :=
  .ofMembers (("reference", .ofString v.reference) :: ("flavor", .ofString v.flavor.name) ::
    (v.status.toMembers ++ v.behind))

theorem behind_inj :
    v.behind = w.behind ↔ v.digest = w.digest ∧ v.layers = w.layers ∧ v.progress = w.progress := by
  have hlayers : v.layers.map Layer.toJson = w.layers.map Layer.toJson ↔ v.layers = w.layers :=
    List.map_inj_right fun _ _ => Layer.toJson_inj.mp
  unfold behind
  cases v.digest <;> cases w.digest <;>
    simp [Json.member?, ofString_inj, Digest.text_inj, Progress.toJson_inj, hlayers]

/-- **Everything that is shown can be told from the object.** -/
theorem toJson_inj : v.toJson = w.toJson ↔ v = w := by
  constructor
  · intro h
    have hmembers := ofMembers_inj.mp h
    simp only [List.cons.injEq, Prod.mk.injEq, true_and, ofString_inj, Flavor.name_inj,
      PullStatus.toMembers_append_inj, behind_inj] at hmembers
    obtain ⟨hreference, hflavor, hstatus, hdigest, hlayers, hprogress⟩ := hmembers
    cases v
    cases w
    simp only [mk.injEq]
    exact ⟨hreference, hflavor, hstatus, hdigest, hlayers, hprogress⟩
  · intro h
    rw [h]

theorem built_toJson (v : PullView) : v.toJson.Built := by
  have hstatus : ∀ m ∈ v.status.toMembers, m.2.Built := by
    cases v.status <;> simp [PullStatus.toMembers, Built.ofString, Built.bool]
  have hlayers : (Json.array (v.layers.map Layer.toJson)).Built := by
    refine .array fun item hitem => ?_
    obtain ⟨l, -, rfl⟩ := List.mem_map.mp hitem
    exact l.built_toJson
  have hbehind : ∀ m ∈ v.behind, m.2.Built := by
    unfold behind
    cases v.digest <;> simp [Json.member?, Built.ofString, hlayers, v.progress.built_toJson]
  refine .ofMembers ?_ ?_
  · unfold behind
    cases v.status <;> cases v.digest <;> simp [PullStatus.toMembers, Json.member?]
  · simp only [List.forall_mem_cons, List.forall_mem_append]
    exact ⟨.ofString _, .ofString _, hstatus, hbehind⟩

end PullView

namespace Pull

open Text.Utf8 (bytes)

/-- What a snapshot shows. -/
def view (p : Pull) : PullView where
  reference := p.context.reference.text
  flavor := p.context.flavor
  status := p.status
  digest := p.digest
  layers := p.shownLayers
  progress := p.byteProgress

theorem toJson_eq (p : Pull) : p.toJson = p.view.toJson := by
  rw [toJson, PullView.toJson, PullView.behind, view]
  simp only [List.append_assoc, List.cons_append, List.nil_append]

/-- **The text of a snapshot is one line that shows it faithfully.** It holds no control character,
it spells the object, in which no object has a key twice, and two snapshots have one text just if
they show the same. -/
theorem toJson_text_is_faithful (p q : Pull) :
    Json.OnOneLine (bytes p.toJson.text)
      ∧ Json.Spells p.toJson (bytes p.toJson.text)
      ∧ p.toJson.NamesOnce
      ∧ (p.toJson.text = q.toJson.text ↔ p.view = q.view) := by
  have hbuilt : p.toJson.Built := p.toJson_eq ▸ p.view.built_toJson
  have hbuilt' : q.toJson.Built := q.toJson_eq ▸ q.view.built_toJson
  refine ⟨?_, ?_, hbuilt.namesOnce, ?_⟩
  · rw [hbuilt.bytes_text]
    exact Json.onOneLine_render hbuilt.wellFormed
  · rw [hbuilt.bytes_text]
    exact Json.spells_render hbuilt.wellFormed
  · rw [hbuilt.text_inj hbuilt', p.toJson_eq, q.toJson_eq]
    exact PullView.toJson_inj

end Pull

end ImagePull
