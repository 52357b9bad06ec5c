import ImagePull.Proofs.Event.Classification
import ImagePull.Proofs.Pull.Completion
import ImagePull.Proofs.Stream.Folds

/-!
# What the snapshots of a stream say of its records

The status of a snapshot is decided by the record that it is given out for (`Reflects`): a final
status completes the pull to the digest that was told last before it, an error that is about no
layer fails it, and nothing else ends it. A final status before any digest ends the stream with an
error instead (`statuses_reflect_records`).
-/

namespace ImagePull.Stream

/-! ## The digest that was told last -/

/-- This is the digest told by the last of the records that tell one. -/
def LastDigest (records : List ProgressRecord) (d : Digest) : Prop :=
  ∃ earlier r later rest, records = earlier ++ r :: later
    ∧ r.Tells ("Digest:" ++ rest) ∧ Digest.parse rest = .ok d
    ∧ ∀ s ∈ later, ∀ rest, ¬s.Tells ("Digest:" ++ rest)

variable {records : List ProgressRecord} {r : ProgressRecord} {event : PullEvent} {d : Digest}

theorem not_lastDigest_nil : ¬LastDigest [] d := by
  rintro ⟨earlier, r, later, rest, h, -⟩
  simp at h

/-- The last record counts if it tells a digest, else those before it do. -/
theorem lastDigest_append_singleton :
    LastDigest (records ++ [r]) d
      ↔ (∃ rest, r.Tells ("Digest:" ++ rest) ∧ Digest.parse rest = .ok d)
        ∨ (∀ rest, ¬r.Tells ("Digest:" ++ rest)) ∧ LastDigest records d := by
  constructor
  · rintro ⟨earlier, s, later, rest, hrecords, htells, hparse, hlater⟩
    rcases List.eq_nil_or_concat later with rfl | ⟨later, last, rfl⟩
    · obtain ⟨-, rfl⟩ := List.append_singleton_inj.mp hrecords
      exact .inl ⟨rest, htells, hparse⟩
    · rw [List.concat_eq_append, ← List.cons_append, ← List.append_assoc] at hrecords
      obtain ⟨rfl, rfl⟩ := List.append_singleton_inj.mp hrecords
      exact .inr ⟨hlater r (by simp), earlier, s, later, rest, rfl, htells, hparse,
        fun t ht => hlater t (by simp [ht])⟩
  · rintro (⟨rest, htells, hparse⟩ | ⟨hsilent, earlier, s, later, rest, rfl, htells, hparse, hlater⟩)
    · exact ⟨records, r, [], rest, rfl, htells, hparse, nofun⟩
    · refine ⟨earlier, s, later ++ [r], rest, by simp, htells, hparse, fun t ht => ?_⟩
      rcases List.mem_append.mp ht with ht | ht
      · exact hlater t ht
      · rw [List.mem_singleton.mp ht]
        exact hsilent

/-- A record that is taken for another event tells no digest. -/
theorem digest?_eq_none (hevent : PullEvent.classify r = .ok event) :
    event.digest? = none ↔ ∀ rest, ¬r.Tells ("Digest:" ++ rest) := by
  constructor
  · intro hnone rest htells
    rw [PullEvent.classify_of_tells_digest htells] at hevent
    split at hevent <;> cases hevent
    cases hnone
  · intro hsilent
    cases event with
    | digest d =>
        obtain ⟨rest, htells, -⟩ := PullEvent.classify_eq_digest.mp hevent
        exact absurd htells (hsilent rest)
    | _ => rfl

theorem digest?_eq_some (hevent : PullEvent.classify r = .ok event) :
    event.digest? = some d ↔ ∃ rest, r.Tells ("Digest:" ++ rest) ∧ Digest.parse rest = .ok d := by
  rw [← PullEvent.classify_eq_digest, hevent]
  cases event <;> simp [PullEvent.digest?]

/-! ## Along the folds -/

variable {context : Context} {lines : List (List UInt8)} {before after : List Fold} {f : Fold}

/-- The digest that the pull knows is the one that was told last. -/
def Recounts (records : List ProgressRecord) (p : Pull) : Prop :=
  ∀ d, p.digest = some d ↔ LastDigest records d

theorem Recounts.append {p p' : Pull} (h : Recounts records p)
    (hevent : PullEvent.classify r = .ok event) (hadvance : p.advance event = .ok p') :
    Recounts (records ++ [r]) p' := fun d => by
  rw [Pull.digest_of_advance hadvance, Option.or_eq_some_iff, digest?_eq_some hevent,
    digest?_eq_none hevent, h d, lastDigest_append_singleton]

theorem recounts_of_folds (h : foldsFrom context none lines = before ++ f :: after) :
    Recounts (before.map Fold.record) (f.start context)
      ∧ Recounts ((before ++ [f]).map Fold.record) f.pull := by
  refine foldsFrom_induction (motive := fun folds p => Recounts (folds.map Fold.record) p)
    (fun _ => iff_of_false nofun not_lastDigest_nil) (fun hbefore hevent hadvance => ?_) h
  rw [List.map_append]
  exact hbefore.append hevent hadvance

/-- The status of a snapshot is decided by the record that it is given out for, and by the
records before it as far as they tell the digest. -/
structure Reflects (earlier : List ProgressRecord) (r : ProgressRecord) (p : Pull) : Prop where
  complete : ∀ d newer, p.status = .complete d newer
    ↔ (∃ rest, r.Tells ("Status:" ++ rest)
        ∧ (newer = true ↔ ∃ more, Text.trimmedStart rest = "Downloaded newer image" ++ more))
      ∧ LastDigest earlier d
  errored : ∀ message, p.status = .errored message
    ↔ r.ReportsError message ∧ ∀ id, ¬r.NamesLayer id
  inProgress : p.status = .inProgress
    ↔ (∀ rest, ¬r.Tells ("Status:" ++ rest))
      ∧ ∀ message, r.ReportsError message → ∃ id, r.NamesLayer id
  synthesized : p.synthesized = false

/-- A record ends the pull if it tells a final status or an error that is about no layer. -/
theorem endsPull_eq_false (hevent : PullEvent.classify r = .ok event) :
    event.endsPull = false
      ↔ (∀ rest, ¬r.Tells ("Status:" ++ rest))
        ∧ ∀ message, r.ReportsError message → ∃ id, r.NamesLayer id := by
  constructor
  · intro hends
    refine ⟨fun rest htells => ?_, fun message hreports => ?_⟩
    · rw [PullEvent.classify_eq_final.mpr ⟨rest, htells, rfl⟩] at hevent
      cases hevent
      cases hends
    · by_contra hunnamed
      rw [not_exists] at hunnamed
      rw [PullEvent.classify_eq_error.mpr ⟨hreports, hunnamed⟩] at hevent
      cases hevent
      cases hends
  · rintro ⟨hunfinished, hnamed⟩
    cases event with
    | error message =>
        obtain ⟨hreports, hunnamed⟩ := PullEvent.classify_eq_error.mp hevent
        obtain ⟨id, hid⟩ := hnamed message hreports
        exact absurd hid (hunnamed id)
    | final status =>
        obtain ⟨rest, htells, -⟩ := PullEvent.classify_eq_final.mp hevent
        exact absurd htells (hunfinished rest)
    | _ => rfl

theorem Recounts.reflects {p p' : Pull} (h : Recounts records p)
    (hevent : PullEvent.classify r = .ok event) (hadvance : p.advance event = .ok p')
    (hsynthesized : p'.synthesized = false) : Reflects records r p' where
  complete d newer := by
    rw [Pull.status_eq_complete_iff hadvance, ← h d]
    constructor
    · rintro ⟨status, rfl, hdigest, hnewer⟩
      obtain ⟨rest, htells, rfl⟩ := PullEvent.classify_eq_final.mp hevent
      refine ⟨⟨rest, htells, ?_⟩, hdigest⟩
      rw [← hnewer, FinalStatus.downloadedNewer_ofMessage]
    · rintro ⟨⟨rest, htells, hnewer⟩, hdigest⟩
      rw [PullEvent.classify_eq_final.mpr ⟨rest, htells, rfl⟩] at hevent
      cases hevent
      refine ⟨_, rfl, hdigest, ?_⟩
      rw [Bool.eq_iff_iff, hnewer, FinalStatus.downloadedNewer_ofMessage]
  errored message := by
    rw [Pull.status_eq_errored_iff hadvance, ← PullEvent.classify_eq_error, hevent,
      Except.ok.injEq]
  inProgress := (Pull.status_eq_inProgress_iff hadvance).trans (endsPull_eq_false hevent)
  synthesized := hsynthesized

/-- **Every snapshot reflects its record.** -/
theorem reflects_of_folds (h : foldsFrom context none lines = before ++ f :: after) :
    Reflects (before.map Fold.record) f.record f.pull := by
  have hmem : f ∈ foldsFrom context none lines := h ▸ List.mem_append_cons_self
  obtain ⟨line, -, hfold⟩ := exists_fold?_of_mem hmem
  obtain ⟨-, -, hevent, -⟩ := fold?_eq_some.mp hfold
  exact (recounts_of_folds h).1.reflects hevent (advance_of_fold? hfold)
    (synthesized_of_mem_foldsFrom hmem)

/-! ## A final status before any digest -/

/-- Before any digest is told the pull does not know it. -/
theorem digest_eq_none_of_reached {p : Pull}
    (hreached : reached none (foldsFrom context none lines) = some p)
    (hsilent : ∀ line ∈ lines, ∀ r, ProgressRecord.ofLine? line = some r →
      ∀ rest, ¬r.Tells ("Digest:" ++ rest)) : p.digest = none := by
  obtain ⟨before, f, hfolds, rfl⟩ := exists_of_reached hreached
  refine Option.eq_none_iff_forall_ne_some.mpr fun d hd => ?_
  obtain ⟨earlier, r, later, rest, hrecords, htells, -⟩ :=
    ((recounts_of_folds hfolds).2 d).mp hd
  rw [← hfolds] at hrecords
  obtain ⟨g, hg, rfl⟩ := List.mem_map.mp (hrecords ▸ List.mem_append_cons_self :
    r ∈ (foldsFrom context none lines).map Fold.record)
  obtain ⟨line, hline, hfold⟩ := exists_fold?_of_mem hg
  exact hsilent line hline g.record (fold?_eq_some.mp hfold).2.1 rest htells

/-- A final status for a running pull that does not know the digest ends the stream. -/
theorem itemsFrom_of_digest_eq_none {p : Pull} {line : List UInt8} {rest : String}
    (hp : p.isTerminal = false) (hdigest : p.digest = none)
    (hline : ProgressRecord.ofLine? line = some r) (htells : r.Tells ("Status:" ++ rest))
    (ending : Option Pull → List StreamItem) (number : Nat) (later : List (List UInt8)) :
    itemsFrom context ending (some p) number (line :: later)
      = [.error (.transition number .missingDigest)] := by
  simp only [itemsFrom, PullEvent.ofLine, hline, Pull.next,
    PullEvent.classify_eq_final.mpr ⟨rest, htells, rfl⟩,
    Pull.advance_final_of_digest_eq_none (Pull.isTerminal_eq_false_iff.mp hp) hdigest]

/-- **The snapshots of a stream reflect its records.** Each is given out for one record, apart
from a completion that the end of the stream allows, and its status is decided by that record. A
final status that opens no pull and comes before any digest is the last record of the stream. -/
theorem snapshots_reflect_records (context : Context) (capacity : Nat)
    (deliveries : List Delivery) :
    (∃ tail, track context capacity deliveries
          = (shown (folds context deliveries)).map .ok ++ tail
        ∧ tail.length ≤ 1 ∧ ∀ p, .ok p ∈ tail → p.synthesized = true)
      ∧ (folds context deliveries).map (some ·.record)
          <+: (deliveredRecords deliveries).map ProgressRecord.ofLine?
      ∧ (∀ before f after, folds context deliveries = before ++ f :: after →
          Reflects (before.map Fold.record) f.record f.pull)
      ∧ ∀ before line after record rest,
          deliveredRecords deliveries = before ++ line :: after → before ≠ [] →
          RunsThrough context none before →
          ProgressRecord.ofLine? line = some record → record.Tells ("Status:" ++ rest) →
          (∀ line ∈ before, ∀ r, ProgressRecord.ofLine? line = some r →
            ∀ rest, ¬r.Tells ("Digest:" ++ rest)) →
          track context capacity deliveries
              = (shown (foldsFrom context none before)).map .ok
                ++ [.error (.transition (before.length + 1) .missingDigest)]
            ∧ ∀ p, .ok p ∈ track context capacity deliveries → p.status = .inProgress := by
  refine ⟨?_, foldsFrom_records context none _, fun before f after => reflects_of_folds, ?_⟩
  · obtain ⟨tail, hitems, hends⟩ := track_eq_shown context capacity deliveries
    refine ⟨tail, hitems, ?_⟩
    cases hends with
    | quiet => simp
    | broken e running => simp
    | inferred reached finalized =>
        simp [(Pull.isCompletion_of_finalize? finalized).synthesized]
  · intro before line after record rest hrecords hne hruns hline htells hsilent
    obtain ⟨p, hreached, hp⟩ := hruns.exists_reached hne
    have hdigest := digest_eq_none_of_reached hreached hsilent
    have hitems : track context capacity deliveries
        = (shown (foldsFrom context none before)).map .ok
          ++ [.error (.transition (before.length + 1) .missingDigest)] := by
      rw [track_eq, deliveredItems]
      change itemsFrom _ _ _ _ (deliveredRecords deliveries) = _
      rw [hrecords, itemsFrom_append _ _ hruns, hreached,
        itemsFrom_of_digest_eq_none hp hdigest hline htells, Nat.add_comm]
    refine ⟨hitems, fun p hp => ?_⟩
    rw [hitems] at hp
    have hshown : p ∈ shown (foldsFrom context none before) := by simpa using hp
    obtain ⟨f, hf, rfl⟩ := exists_of_mem_shown hshown
    exact Pull.isTerminal_eq_false_iff.mp (hruns.2 f hf)

/-- The opening of a pull and its completion, with no digest between them. -/
def undigestedLines : List (List UInt8) :=
  ["\x7b\"status\":\"Pulling from x\"\x7d", "\x7b\"status\":\"Status: done\"\x7d"].map
    Text.Utf8.bytes

theorem snapshots_reflect_records_undigested :
    track sampleContext 1 [.chunk (undigestedLines[0] ++ [newline] ++ undigestedLines[1])]
      = [.error (.transition 2 .missingDigest)] := by
  have hopening : ∀ line ∈ [undigestedLines[0]], ∀ r, ProgressRecord.ofLine? line = some r →
      Text.after? r.status "Digest:" = none := by
    decide +kernel
  have hsilent : ∀ line ∈ [undigestedLines[0]], ∀ r, ProgressRecord.ofLine? line = some r →
      ∀ rest, ¬r.Tells ("Digest:" ++ rest) := by
    intro line hline r hr rest htells
    have hnone := hopening line hline r hr
    rw [htells.1, Text.after?_append] at hnone
    cases hnone
  obtain ⟨-, -, -, hundigested⟩ := snapshots_reflect_records sampleContext 1
    [.chunk (undigestedLines[0] ++ [newline] ++ undigestedLines[1])]
  obtain ⟨hstream, -⟩ := hundigested [undigestedLines[0]] undigestedLines[1] []
    { status := "Status: done" } " done" (by decide +kernel) nofun
    ⟨by decide +kernel, by decide +kernel⟩ (by decide +kernel)
    ⟨rfl, ProgressRecord.errorMessage_eq_none.mp (by decide)⟩ hsilent
  rw [hstream]
  decide +kernel

end ImagePull.Stream
