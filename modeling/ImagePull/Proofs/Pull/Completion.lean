import ImagePull.Proofs.Layer.Correlation
import ImagePull.Proofs.Pull.Steps

/-!
# Completing a pull from its layers

A pull without a final status is completed if the digest of its image was given and every layer
of the manifest stands for a tracked layer that is present (`IsCompletable`). What it is completed
to is the same pull with that digest in its status (`finalize?_eq_some`), which says that something
was fetched if one of those layers was. The order of the manifest does not matter
(`status_finalize?_of_perm`).
-/

namespace ImagePull

/-! ## Sums of words -/

/-- The sum of words, however large it is. -/
def exactSum {α : Type} (f : α → UInt64) (xs : List α) : Nat :=
  xs.foldr (fun x total => (f x).toNat + total) 0

theorem toNat_foldr_add {α : Type} {f : α → UInt64} {xs : List α}
    (h : exactSum f xs < UInt64.size) :
    (xs.foldr (fun x total => f x + total) 0).toNat = exactSum f xs := by
  induction xs with
  | nil => rfl
  | cons x rest ih =>
      rw [exactSum, List.foldr_cons, ← exactSum] at h
      rw [List.foldr_cons, UInt64.toNat_add, ih (by omega)]
      exact Nat.mod_eq_of_lt h

namespace Manifest

/-- The sum of the sizes of all layers, however large it is. -/
def exactSize (m : Manifest) : Nat :=
  m.layers.foldr (fun d total => d.size.toNat + total) 0

theorem toNat_totalSize {m : Manifest} (h : m.exactSize < UInt64.size) :
    m.totalSize.toNat = m.exactSize :=
  toNat_foldr_add h

end Manifest

namespace Pull

/-! ## The layers of the manifest -/

/-- The tracked layer that a layer of the manifest stands for. -/
def Tracks (p : Pull) (d : Descriptor) (l : Layer) : Prop :=
  ∃ id, p.layers.IsShortest d.digest id ∧ p.layers.get? id = some l

/-- A layer in this state is there, whether it was fetched or not. -/
def IsPresent (state : LayerState) : Prop :=
  state = .pullComplete ∨ state = .alreadyExists ∨ state = .alreadyDownloaded

/-- Whether a layer of the manifest was fetched, if it is present. -/
def fetchedFor? (p : Pull) (d : Descriptor) : Option Bool :=
  (p.layers.findTracked? d.digest).bind fun l => fetched? l.state

variable {p q : Pull} {d : Descriptor}

theorem fetched?_eq_some {state : LayerState} {fetched : Bool} :
    fetched? state = some fetched
      ↔ IsPresent state ∧ (fetched = true ↔ state = .pullComplete) := by
  cases state <;> cases fetched <;> simp [fetched?, IsPresent]

theorem fetchedFor?_eq_some {fetched : Bool} :
    p.fetchedFor? d = some fetched
      ↔ ∃ l, p.Tracks d l ∧ IsPresent l.state ∧ (fetched = true ↔ l.state = .pullComplete) := by
  simp only [fetchedFor?, Option.bind_eq_some_iff, LayerTable.findTracked?_eq_some,
    fetched?_eq_some, Tracks]

theorem fetchedFor?_ne_none :
    p.fetchedFor? d ≠ none ↔ ∃ l, p.Tracks d l ∧ IsPresent l.state := by
  rw [Option.ne_none_iff_exists']
  constructor
  · rintro ⟨fetched, h⟩
    obtain ⟨l, hl, hpresent, -⟩ := fetchedFor?_eq_some.mp h
    exact ⟨l, hl, hpresent⟩
  · rintro ⟨l, hl, hpresent⟩
    exact ⟨decide (l.state = .pullComplete), fetchedFor?_eq_some.mpr ⟨l, hl, hpresent, by simp⟩⟩

/-! ## The completion -/

/-- What it takes to complete a pull from its layers. -/
structure IsCompletable (p : Pull) : Prop where
  running : p.status = .inProgress
  listed : p.context.manifest.layers ≠ []
  resolved : p.context.resolved ≠ none
  present : ∀ d ∈ p.context.manifest.layers, ∃ l, p.Tracks d l ∧ IsPresent l.state

/-- A layer of the manifest was fetched. -/
def HasFetched (p : Pull) : Prop :=
  ∃ d ∈ p.context.manifest.layers, ∃ l, p.Tracks d l ∧ l.state = .pullComplete

/-- The pull, completed to an image with the given digest. -/
def completed (p : Pull) (resolved : Digest) (newer : Bool) : Pull :=
  { p with
    digest := p.digest.or (some resolved)
    status := .complete resolved newer
    synthesized := true }

theorem any_fetchedFor? :
    (p.context.manifest.layers.filterMap p.fetchedFor?).any id = true ↔ p.HasFetched := by
  simp only [List.any_filterMap, List.any_eq_true, HasFetched]
  refine exists_congr fun d => and_congr_right fun _ => ?_
  constructor
  · intro h
    cases hd : p.fetchedFor? d with
    | none => simp [hd] at h
    | some fetched =>
        obtain ⟨l, hl, -, hfetched⟩ := fetchedFor?_eq_some.mp hd
        rw [hd] at h
        exact ⟨l, hl, hfetched.mp h⟩
  · rintro ⟨l, hl, hcomplete⟩
    rw [fetchedFor?_eq_some.mpr ⟨l, hl, .inl hcomplete, iff_of_true rfl hcomplete⟩]
    rfl

/-- **What a pull is completed to**, and what that takes. -/
theorem finalize?_eq_some :
    p.finalize? = some q
      ↔ p.IsCompletable ∧ ∃ resolved newer, p.context.resolved = some resolved
          ∧ (newer = true ↔ p.HasFetched) ∧ q = p.completed resolved newer := by
  have hfetched : p.fetchedLayers? = p.context.manifest.layers.mapM p.fetchedFor? := rfl
  rw [finalize?, hfetched]
  by_cases hguard : (p.status.isTerminal || p.context.manifest.layers.isEmpty) = true
  · rw [if_pos hguard]
    refine iff_of_false nofun ?_
    rintro ⟨hp, -⟩
    rw [hp.running, PullStatus.isTerminal, Bool.false_or, List.isEmpty_iff] at hguard
    exact hp.listed hguard
  · rw [if_neg hguard]
    simp only [Option.bind_eq_bind, Option.bind_eq_some_iff, mapM_eq_some, Option.some.injEq,
      Option.orElse_eq_orElse, Option.orElse_eq_or]
    constructor
    · rintro ⟨resolved, hresolved, fetched, ⟨hall, rfl⟩, rfl⟩
      rw [Bool.or_eq_true, not_or, List.isEmpty_iff] at hguard
      have hrunning : p.isTerminal = false := Bool.not_eq_true _ ▸ hguard.1
      exact ⟨⟨isTerminal_eq_false_iff.mp hrunning, hguard.2, by simp [hresolved],
          fun d hd => fetchedFor?_ne_none.mp (hall d hd)⟩,
        resolved, _, hresolved, any_fetchedFor?, rfl⟩
    · rintro ⟨hp, resolved, newer, hresolved, hnewer, rfl⟩
      refine ⟨resolved, hresolved, _,
        ⟨fun d hd => fetchedFor?_ne_none.mpr (hp.present d hd), rfl⟩, ?_⟩
      rw [Bool.eq_iff_iff.mpr (any_fetchedFor?.trans hnewer.symm)]
      rfl

theorem finalize?_ne_none : p.finalize? ≠ none ↔ p.IsCompletable := by
  rw [Option.ne_none_iff_exists']
  constructor
  · rintro ⟨q, hq⟩
    exact (finalize?_eq_some.mp hq).1
  · intro hp
    obtain ⟨resolved, hresolved⟩ := Option.ne_none_iff_exists'.mp hp.resolved
    have := Classical.dec p.HasFetched
    exact ⟨_, finalize?_eq_some.mpr ⟨hp, resolved, decide p.HasFetched, hresolved, by simp, rfl⟩⟩

/-! ## Bytes -/

/-- A layer of the manifest that is present counts in full. -/
theorem accountedFor_of_isPresent {l : Layer} (hl : p.Tracks d l) (hpresent : IsPresent l.state) :
    p.accountedFor d = d.size := by
  rw [accountedFor, LayerTable.findTracked?_eq_some.mpr hl]
  rcases hpresent with h | h | h <;> simp [h, accounted]

theorem byteProgress_of_isPresent
    (h : ∀ d ∈ p.context.manifest.layers, ∃ l, p.Tracks d l ∧ IsPresent l.state) :
    p.byteProgress.current = p.byteProgress.total := by
  rw [byteProgress, Manifest.totalSize]
  apply List.foldr_ext
  intro d hd total
  obtain ⟨l, hl, hpresent⟩ := h d hd
  rw [accountedFor_of_isPresent hl hpresent]

/-! ## The completed pull -/

/-- What a completion says, and what it leaves as it is. -/
structure IsCompletion (p q : Pull) : Prop where
  status : ∃ resolved newer, p.context.resolved = some resolved
    ∧ q.status = .complete resolved newer ∧ (newer = true ↔ p.HasFetched)
  synthesized : q.synthesized = true
  context : q.context = p.context
  layers : q.layers = p.layers
  accounted : q.byteProgress.current = q.byteProgress.total
  counted : q.context.manifest.exactSize < UInt64.size →
    q.byteProgress.current.toNat = q.context.manifest.exactSize
  last : q.finalize? = none
  closed : ∀ event, q.advance event = .error (.pullTerminated "complete" event.name)

theorem isCompletion_of_finalize? (h : p.finalize? = some q) : p.IsCompletion q := by
  obtain ⟨hp, resolved, newer, hresolved, hnewer, rfl⟩ := finalize?_eq_some.mp h
  -- the bytes are those of the same layers, looked up in the same table
  have hbytes := byteProgress_of_isPresent (p := p.completed resolved newer) hp.present
  exact {
    status := ⟨resolved, newer, hresolved, rfl, hnewer⟩
    synthesized := rfl
    context := rfl
    layers := rfl
    accounted := hbytes
    counted := fun hsize => by
      rw [hbytes]
      exact Manifest.toNat_totalSize hsize
    last := not_not.mp fun hne => nomatch (finalize?_ne_none.mp hne).running
    closed := advance_of_isTerminal rfl }

/-! ## The order of the manifest -/

/-- The pull with a manifest that lists these layers. -/
def withManifestLayers (p : Pull) (layers : List Descriptor) : Pull :=
  { p with context := { p.context with manifest := { p.context.manifest with layers } } }

/-- The status of a completion, and what it takes to be there. -/
theorem map_status_finalize?_eq_some {status : PullStatus} :
    p.finalize?.map Pull.status = some status
      ↔ p.IsCompletable ∧ ∃ resolved newer, p.context.resolved = some resolved
          ∧ (newer = true ↔ p.HasFetched) ∧ status = .complete resolved newer := by
  simp only [Option.map_eq_some_iff, finalize?_eq_some]
  constructor
  · rintro ⟨_, ⟨hp, resolved, newer, hresolved, hnewer, rfl⟩, rfl⟩
    exact ⟨hp, resolved, newer, hresolved, hnewer, rfl⟩
  · rintro ⟨hp, resolved, newer, hresolved, hnewer, rfl⟩
    exact ⟨_, ⟨hp, resolved, newer, hresolved, hnewer, rfl⟩, rfl⟩

theorem isCompletable_withManifestLayers {layers : List Descriptor}
    (h : layers.Perm p.context.manifest.layers) :
    (p.withManifestLayers layers).IsCompletable ↔ p.IsCompletable := by
  constructor
  · rintro ⟨hrunning, hlisted, hresolved, hpresent⟩
    exact ⟨hrunning, fun hnil => hlisted (List.perm_nil.mp (hnil ▸ h)), hresolved,
      fun d hd => hpresent d (h.mem_iff.mpr hd)⟩
  · rintro ⟨hrunning, hlisted, hresolved, hpresent⟩
    exact ⟨hrunning, fun hnil => hlisted (List.nil_perm.mp (hnil ▸ h)), hresolved,
      fun d hd => hpresent d (h.mem_iff.mp hd)⟩

/-- **The order of the manifest does not matter**, neither to whether a pull is completed nor to
the status that it gets. -/
theorem status_finalize?_of_perm {layers : List Descriptor}
    (h : layers.Perm p.context.manifest.layers) :
    (p.withManifestLayers layers).finalize?.map Pull.status = p.finalize?.map Pull.status := by
  have hfetched : (p.withManifestLayers layers).HasFetched ↔ p.HasFetched :=
    exists_congr fun d => and_congr_left fun _ => h.mem_iff
  apply Option.ext
  intro status
  rw [map_status_finalize?_eq_some, map_status_finalize?_eq_some,
    isCompletable_withManifestLayers h, hfetched]
  rfl

end Pull

end ImagePull
