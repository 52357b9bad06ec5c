import ImagePull.Proofs.Pull.Snapshots
import ImagePull.Proofs.Text.Utf8
import ImagePull.Pull.View

/-!
# The lines for what changed

Between two snapshots there is a line for each layer that the second tracks and the first lacks or
has otherwise, in increasing order of their ids (`mem_changedLayers`, `changedLayers_increasing`).
The status comes after them. As long as the first snapshot runs, there is a line for it just if the
second has ended, or is the first to know its digest (`statusLines_of_running`).
-/

namespace ImagePull.Pull

/-- The layers of a snapshot that the one before lacks or has otherwise. -/
def changedLayers (previous : Option Pull) (p : Pull) : List Layer :=
  p.layers.layers.filter (isChanged previous)

/-- The line for the status, if it changed and there is something to say. -/
def statusLines (previous : Option Pull) (p : Pull) : List String :=
  if previous.map text != some p.text && (p.isTerminal || p.digest.isSome) then [p.text] else []

theorem changes_eq (previous : Option Pull) (p : Pull) :
    changes previous p
      = (changedLayers previous p).map p.layerLine ++ statusLines previous p :=
  rfl

variable {previous : Option Pull} {p s : Pull}

/-! ## Layers -/

theorem isChanged_iff {l : Layer} :
    isChanged previous l = true ↔ (previous.bind fun s => s.layers.get? l.id) ≠ some l := by
  rw [isChanged, bne_iff_ne]

/-- **There is a line for a layer just if it changed.** -/
theorem mem_changedLayers (hp : p.IsKeyed) {l : Layer} :
    l ∈ changedLayers previous p
      ↔ p.layers.get? l.id = some l ∧ (previous.bind fun s => s.layers.get? l.id) ≠ some l := by
  rw [changedLayers, List.mem_filter, mem_layers hp, isChanged_iff]

/-- **The lines for layers are in increasing order of the ids**, so there is one for each layer. -/
theorem changedLayers_increasing (hp : p.IsKeyed) (previous : Option Pull) :
    ((changedLayers previous p).map Layer.id).Pairwise (· < ·) := by
  have hids : (p.layers.layers.map Layer.id).Pairwise (· < ·) := by
    rw [map_id_layers hp]
    exact p.layers.ids_increasing
  exact hids.sublist (List.filter_sublist.map Layer.id)

/-- Without a change in the table of layers there is no line for a layer. -/
theorem changedLayers_of_layers_eq (hp : p.IsKeyed) (h : p.layers = s.layers) :
    changedLayers (some s) p = [] := by
  refine List.eq_nil_iff_forall_not_mem.mpr fun l hl => ?_
  obtain ⟨hget, hchanged⟩ := (mem_changedLayers hp).mp hl
  rw [h] at hget
  exact hchanged hget

/-! ## The status -/

theorem text_of_running (h : p.isTerminal = false) :
    p.text = if p.digest.isSome then "Finishing" else "Pulling" := by
  rw [text, isTerminal_eq_false_iff.mp h]
  cases p.digest <;> rfl

/-- The text of a pull that has ended is that of no running one. -/
theorem text_ne_of_isTerminal (h : p.isTerminal = true) :
    p.text ≠ "Finishing" ∧ p.text ≠ "Pulling" := by
  have hfirst : p.text.toList.head? = some 'C' ∨ p.text.toList.head? = some 'E' := by
    rw [text]
    cases hstatus : p.status with
    | inProgress => simp [isTerminal, hstatus, PullStatus.isTerminal] at h
    | complete digest newer => exact .inl (by simp)
    | errored message => exact .inr (by simp)
  constructor
  · intro htext
    rw [htext] at hfirst
    revert hfirst
    decide
  · intro htext
    rw [htext] at hfirst
    revert hfirst
    decide

/-- **After a running snapshot the status is shown** if it is the last one, and if a digest has come
to be known. -/
theorem statusLines_of_running (hs : s.isTerminal = false) (p : Pull) :
    statusLines (some s) p
      = if p.isTerminal then [p.text]
        else if s.digest.isNone && p.digest.isSome then ["Finishing"] else [] := by
  rw [statusLines, Option.map_some, text_of_running hs]
  cases hp : p.isTerminal with
  | true =>
      obtain ⟨hfinishing, hpulling⟩ := text_ne_of_isTerminal hp
      have hchanged : (some (if s.digest.isSome then "Finishing" else "Pulling")
          != some p.text) = true := by
        rw [bne_iff_ne, ne_eq, Option.some.injEq]
        split
        · exact hfinishing.symm
        · exact hpulling.symm
      rw [hchanged]
      rfl
  | false =>
      rw [text_of_running hp]
      cases s.digest <;> cases p.digest <;> rfl

/-! ## The first snapshot -/

/-- Before the first snapshot there might as well be a new pull. -/
theorem changedLayers_new (context : Context) (p : Pull) :
    changedLayers (some (.new context)) p = changedLayers none p :=
  rfl

theorem statusLines_new (context : Context) (p : Pull) :
    statusLines (some (.new context)) p = statusLines none p := by
  rw [statusLines_of_running rfl, statusLines]
  cases hp : p.isTerminal with
  | true => rfl
  | false =>
      rw [text_of_running hp]
      cases p.digest <;> rfl

end ImagePull.Pull
