import ImagePull.Proofs.Pull.Completion
import ImagePull.Proofs.Stream.Folds
import ImagePull.Session

/-!
# When a completion is inferred

A stream gives a completion that no record told only at its end, and only from the layers of the
manifest (`Pull.finalize?_eq_some`). Without such layers, as when the daemon is all that is known
of an image, none is ever given (`inferred_completions`).
-/

namespace ImagePull

/-! ## A manifest without layers -/

namespace Stream

variable {context : Context} {lines : List (List UInt8)}

/-- Without layers in the manifest every snapshot is that of a record. -/
theorem synthesized_of_layers_eq_nil (hlayers : context.manifest.layers = [])
    (failure : Option String) {number : Nat} {q : Pull}
    (hq : .ok q ∈ itemsFrom context (lastItems failure) none number lines) :
    q.synthesized = false := by
  obtain ⟨tail, hitems, hends⟩ := itemsFrom_none_eq context failure number lines
  rw [hitems, List.mem_append] at hq
  rcases hq with hq | hq
  · have hshown : q ∈ shown (foldsFrom context none lines) := by simpa using hq
    obtain ⟨f, hf, rfl⟩ := exists_of_mem_shown hshown
    exact synthesized_of_mem_foldsFrom hf
  · cases hends with
    | quiet => cases hq
    | broken => simp at hq
    | inferred hreached hfinal =>
        obtain ⟨before, f, hfolds, rfl⟩ := exists_of_reached hreached
        have hlisted := (Pull.finalize?_eq_some.mp hfinal).1.listed
        have hmem : f ∈ foldsFrom context none lines := hfolds ▸ List.mem_concat_self
        rw [context_of_mem_foldsFrom hmem] at hlisted
        exact absurd hlayers hlisted

end Stream

/-! ## A pull through the daemon alone -/

namespace Daemon

variable {ε δ α β : Type}

/-- The exchange gives this after some requests that were made before it. -/
def Gives (x : ExceptT ε Exchange α) (a : α) : Prop :=
  ∃ requests, (x.run.run requests).1 = .ok a

theorem gives_bind {x : ExceptT ε Exchange α} {f : α → ExceptT ε Exchange β} {b : β}
    (h : Gives (x >>= f) b) : ∃ a, Gives x a ∧ Gives (f a) b := by
  obtain ⟨requests, h⟩ := h
  rw [ExceptT.run_bind, StateT.run_bind] at h
  cases hx : x.run.run requests with
  | mk outcome later =>
      rw [hx] at h
      cases outcome with
      | error e => cases h
      | ok a => exact ⟨a, ⟨requests, by rw [hx]⟩, later, h⟩

/-- A step that is only made in some cases, and of which the result is not used. -/
theorem gives_of_optional {c : Prop} [Decidable c] {x : ExceptT ε Exchange α}
    {y : ExceptT ε Exchange β} {b : β} (h : Gives (if c then x >>= fun _ => y else y) b) :
    Gives y b := by
  split at h
  · obtain ⟨a, -, hy⟩ := gives_bind h
    exact hy
  · exact h

theorem gives_pure {a b : α} (h : Gives (pure a : ExceptT ε Exchange α) b) : a = b := by
  obtain ⟨requests, h⟩ := h
  exact Except.ok.inj h

theorem gives_under {widen : ε → δ} {x : ExceptT ε Exchange α} {a : α}
    (h : Gives (under widen x) a) : Gives x a := by
  obtain ⟨requests, h⟩ := h
  refine ⟨requests, ?_⟩
  change (Except.mapError widen (x.run.run requests).1) = .ok a at h
  cases hx : (x.run.run requests).1 with
  | error e => rw [hx] at h; cases h
  | ok a' => rw [hx] at h; cases h; rfl

theorem layers_of_gives_manifest {d : Daemon} {credentials : Credentials} {image : ImageRef}
    {resolved : ResolvedManifest} (h : Gives (d.manifest .daemon credentials image) resolved) :
    resolved.manifest.layers = [] := by
  rw [manifest] at h
  obtain ⟨digest, -, h⟩ := gives_bind h
  rw [← gives_pure h]

theorem layers_of_gives_begin {d : Daemon} {credentials : Credentials} {request : PullRequest}
    {b : BegunPull} (h : Gives (d.begin .daemon credentials request) b) :
    b.context.manifest.layers = [] := by
  rw [begin] at h
  obtain ⟨flavor, -, h⟩ := gives_bind h
  dsimp only at h
  obtain ⟨resolved, hresolved, h⟩ := gives_bind (gives_of_optional h)
  obtain ⟨reply, -, h⟩ := gives_bind h
  rw [← gives_pure h]
  exact layers_of_gives_manifest (gives_under hresolved)

end Daemon

/-! ## The completions of streams -/

namespace Stream

/-- **When a completion is inferred, and what it is.** The completion of a pull is there just if
the pull runs, its digest was given beforehand and all layers of its manifest are present, in
whatever order. Without such layers no stream and no recording gives one, and so no pull does of
which the daemon is to tell the manifest. -/
theorem inferred_completions :
    (∀ p : Pull, (p.finalize? ≠ none ↔ p.IsCompletable)
        ∧ (∀ q, p.finalize? = some q → p.IsCompletion q)
        ∧ ∀ layers, layers.Perm p.context.manifest.layers →
            (p.withManifestLayers layers).finalize?.map Pull.status
              = p.finalize?.map Pull.status)
      ∧ (∀ context : Context, context.manifest.layers = [] →
          (∀ capacity deliveries q, .ok q ∈ track context capacity deliveries →
              q.synthesized = false)
            ∧ ∀ lines ps, replay context lines = .ok ps → ∀ q ∈ ps, q.synthesized = false)
      ∧ ∀ (d : Daemon) credentials request requests b,
          ((d.begin .daemon credentials request).run.run requests).1 = .ok b →
          ∀ capacity q, .ok q ∈ b.items capacity → q.synthesized = false := by
  have hstream : ∀ context : Context, context.manifest.layers = [] →
      ∀ capacity deliveries q, .ok q ∈ track context capacity deliveries →
        q.synthesized = false := by
    intro context hlayers capacity deliveries q hq
    rw [track_eq, deliveredItems] at hq
    exact synthesized_of_layers_eq_nil hlayers _ hq
  refine ⟨fun p => ⟨Pull.finalize?_ne_none, fun q => Pull.isCompletion_of_finalize?,
    fun layers => Pull.status_finalize?_of_perm⟩, ?_, ?_⟩
  · intro context hlayers
    refine ⟨hstream context hlayers, ?_⟩
    intro lines ps hreplay q hq
    rw [replay, Tracker.replayLines_eq, mapM_id_eq_ok] at hreplay
    have hmem : (.ok q : StreamItem) ∈ ps.map .ok := List.mem_map_of_mem hq
    rw [← hreplay] at hmem
    exact synthesized_of_layers_eq_nil hlayers none hmem
  · intro d credentials request requests b hb capacity q
    exact hstream b.context (Daemon.layers_of_gives_begin ⟨requests, hb⟩) capacity _ q

/-- A pull of one layer, which was fetched and is tracked under a short form of its digest. -/
def fetchedPull : Pull :=
  let digest : Digest := ⟨"sha256", "a1b2", by decide, by decide⟩
  { Pull.new { sampleContext with
      manifest := { layers := [⟨digest, 5, none⟩] }, resolved := some digest } with
    layers := .ofList [⟨"a1", .pullComplete⟩] }

theorem inferred_completions_fetched :
    ∃ q, fetchedPull.finalize? = some q ∧ fetchedPull.IsCompletion q
      ∧ q.byteProgress.current = 5 := by
  have hcurrent : fetchedPull.finalize?.map (·.byteProgress.current) = some 5 := by
    decide +kernel
  obtain ⟨q, hq, hbytes⟩ := Option.map_eq_some_iff.mp hcurrent
  exact ⟨q, hq, (inferred_completions.1 fetchedPull).2.1 q hq, hbytes⟩

end Stream

end ImagePull
