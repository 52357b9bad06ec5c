import ImagePull.Proofs.Json.Members
import ImagePull.Proofs.Stream.Inference
import ImagePull.Proofs.Stream.Statuses
import ImagePull.Pull.View

/-!
# Whose digest a snapshot knows

The snapshot of a record knows the digest that the records up to it told last. A completion that the
end of the stream allows is no snapshot of a record: where no digest was told, it takes the one that
was given beforehand for the one that the daemon told (`digests_of_snapshots`), and so it is shown.
-/

namespace ImagePull

namespace Pull

/-- A completion keeps the digest that was told, and falls back on the one given beforehand. -/
theorem digest_of_finalize? {p q : Pull} (h : p.finalize? = some q) :
    q.digest = p.digest.or p.context.resolved := by
  obtain ⟨-, resolved, newer, hresolved, -, rfl⟩ := finalize?_eq_some.mp h
  rw [hresolved]
  rfl

/-- The digest of the daemon as the JSON of a snapshot shows it. -/
def shownDigest? (j : Json) : Option (Option String) := do
  let fields ← j.fields? ["daemon_digest"]
  Json.field? fields "daemon_digest" none (Json.nullable? Json.text?)

/-- **The JSON of a snapshot shows the digest that the snapshot knows.** -/
theorem shownDigest?_toJson (p : Pull) :
    shownDigest? p.toJson = some (p.digest.map Digest.text) := by
  have hmember : p.toJson.fields? ["daemon_digest"]
      = some (Json.member? "daemon_digest" (p.digest.map fun d => .ofString d.text)) := by
    rw [toJson, Json.fields?_ofMembers] <;>
      cases p.status <;> cases p.digest <;> simp [PullStatus.toMembers, Json.member?]
  rw [shownDigest?, hmember]
  cases p.digest with
  | none => rfl
  | some d => exact Json.nullable?_ofString d.text

end Pull

namespace Stream

variable {records : List ProgressRecord} {p q : Pull}

/-- A completion recounts the records if one of them told a digest, and only then. -/
theorem Recounts.finalize? (h : Recounts records p) (hfinal : p.finalize? = some q) :
    (∀ d, q.digest = some d
        ↔ LastDigest records d ∨ (∀ told, ¬LastDigest records told) ∧ p.context.resolved = some d)
      ∧ (Recounts records q ↔ ∃ d, LastDigest records d) := by
  obtain ⟨hp, -⟩ := Pull.finalize?_eq_some.mp hfinal
  obtain ⟨resolved, hresolved⟩ := Option.ne_none_iff_exists'.mp hp.resolved
  have hnone : p.digest = none ↔ ∀ told, ¬LastDigest records told := by
    rw [Option.eq_none_iff_forall_ne_some]
    exact forall_congr' fun d => not_congr (h d)
  have hdigest (d : Digest) : q.digest = some d
      ↔ LastDigest records d
        ∨ (∀ told, ¬LastDigest records told) ∧ p.context.resolved = some d := by
    rw [Pull.digest_of_finalize? hfinal, Option.or_eq_some_iff, h d, hnone]
  refine ⟨hdigest, fun hrecounts => ?_, ?_⟩
  · by_contra hsilent
    rw [not_exists] at hsilent
    have hresolved' := (hdigest resolved).mpr (.inr ⟨hsilent, hresolved⟩)
    exact hsilent resolved ((hrecounts resolved).mp hresolved')
  · rintro ⟨told, htold⟩ d
    rw [hdigest d]
    exact or_iff_left fun hsilent => hsilent.1 told htold

/-- The records of a stream that are folded. -/
def consumed (context : Context) (deliveries : List Delivery) : List ProgressRecord :=
  (folds context deliveries).map Fold.record

/-- **Whose digest a snapshot knows.** The snapshot of a record knows the digest that was told last
among the records up to it, and none if none was told. A completion that the end of the stream
allows does so just if a digest was told; else it knows the one that was given beforehand. The JSON
of a snapshot shows the digest that it knows as that of the daemon. -/
theorem digests_of_snapshots (context : Context) (capacity : Nat) (deliveries : List Delivery) :
    (∃ tail, track context capacity deliveries
          = (shown (folds context deliveries)).map .ok ++ tail
        ∧ tail.length ≤ 1
        ∧ ∀ q, .ok q ∈ tail → q.synthesized = true
          ∧ (∀ d, q.digest = some d
              ↔ LastDigest (consumed context deliveries) d
                ∨ (∀ told, ¬LastDigest (consumed context deliveries) told)
                  ∧ context.resolved = some d)
          ∧ (Recounts (consumed context deliveries) q
              ↔ ∃ d, LastDigest (consumed context deliveries) d))
      ∧ (consumed context deliveries).map some
          <+: (deliveredRecords deliveries).map ProgressRecord.ofLine?
      ∧ (∀ before f after, folds context deliveries = before ++ f :: after →
          f.pull.synthesized = false ∧ Recounts ((before ++ [f]).map Fold.record) f.pull)
      ∧ ∀ p : Pull, Pull.shownDigest? p.toJson = some (p.digest.map Digest.text) := by
  refine ⟨?_, ?_, fun before f after hfolds => ?_, Pull.shownDigest?_toJson⟩
  · obtain ⟨tail, hitems, hends⟩ := track_eq_shown context capacity deliveries
    refine ⟨tail, hitems, ?_⟩
    cases hends with
    | quiet => simp
    | broken e running => simp
    | @inferred p q hreached hfinal =>
        refine ⟨Nat.le_refl 1, fun q' hq' => ?_⟩
        obtain rfl : q' = q := by simpa using hq'
        obtain ⟨before, f, hfolds, rfl⟩ := exists_of_reached hreached
        have hcontext : f.pull.context = context :=
          context_of_mem_foldsFrom (hfolds ▸ List.mem_concat_self)
        have hrecounts := (recounts_of_folds hfolds).2
        rw [← hfolds] at hrecounts
        obtain ⟨hdigest, htold⟩ := hrecounts.finalize? hfinal
        rw [hcontext] at hdigest
        exact ⟨(Pull.isCompletion_of_finalize? hfinal).synthesized, hdigest, htold⟩
  · rw [consumed, List.map_map]
    exact foldsFrom_records context none _
  · have hmem : f ∈ folds context deliveries := hfolds ▸ List.mem_append_cons_self
    exact ⟨synthesized_of_mem_foldsFrom hmem, (recounts_of_folds hfolds).2⟩

/-- A pull of one layer, with a digest of its image given beforehand. -/
def storedContext : Context :=
  { fetchedPull.context with resolved := (Digest.parse "sha256:cafe").toOption }

/-- The layer is there already, and nothing follows. -/
def storedStream : Delivery :=
  .chunk (Text.Utf8.bytes "\x7b\"status\":\"Pulling from x\"\x7d\n" ++
    Text.Utf8.bytes "\x7b\"id\":\"a1b2\",\"status\":\"Already exists\"\x7d\n")

/-- A digest that no record told is shown as that of the daemon. -/
theorem digest_untold :
    (∀ r ∈ consumed storedContext [storedStream], ∀ rest, ¬r.Tells ("Digest:" ++ rest))
      ∧ ∃ q, .ok q ∈ track storedContext 1 [storedStream]
        ∧ Pull.shownDigest? q.toJson = some (some "sha256:cafe")
        ∧ ¬Recounts (consumed storedContext [storedStream]) q := by
  have hstatus : ∀ r ∈ consumed storedContext [storedStream],
      Text.after? r.status "Digest:" = none := by
    decide +kernel
  have hsilent : ∀ r ∈ consumed storedContext [storedStream],
      ∀ rest, ¬r.Tells ("Digest:" ++ rest) := by
    intro r hr rest htells
    have hnone := hstatus r hr
    rw [htells.1, Text.after?_append] at hnone
    cases hnone
  have hlast : ((track storedContext 1 [storedStream]).getLast?.map fun item =>
      item.toOption.bind Pull.digest) = some storedContext.resolved := by
    decide +kernel
  obtain ⟨item, hitem, hdigest⟩ := Option.map_eq_some_iff.mp hlast
  cases item with
  | error e => cases hdigest
  | ok q =>
      have hq : q.digest = storedContext.resolved := hdigest
      refine ⟨hsilent, q, List.mem_of_getLast? hitem, ?_, fun hrecounts => ?_⟩
      · rw [Pull.shownDigest?_toJson, hq]
        decide
      · obtain ⟨earlier, r, later, rest, hrecords, htells, -⟩ := (hrecounts _).mp hq
        exact hsilent r (hrecords ▸ List.mem_append_cons_self) rest htells

end Stream

end ImagePull
