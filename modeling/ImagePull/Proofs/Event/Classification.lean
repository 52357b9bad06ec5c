import ImagePull.Event.Classify
import ImagePull.Proofs.Outcome

/-!
# What a record stands for

The events that are not about the progress of a layer, each said of the fields of the record: an
error text decides first (`ReportsError`), and only a record without one is taken at its status
(`Tells`). The statuses of layers are whole words and those of a pull beginnings of a text, and no
text is both (`layerEvent?_of_prefix`), so each event is known by one of them alone.
-/

namespace ImagePull

namespace ProgressRecord

/-! ## Fields -/

/-- The record reports an error in this text: that of `error`, or the message of `errorDetail`
where `error` is missing or empty. -/
def ReportsError (r : ProgressRecord) (message : String) : Prop :=
  message ≠ "" ∧ (r.error = some message
    ∨ (∀ text, r.error = some text → text = "")
      ∧ ∃ detail, r.errorDetail = some detail ∧ detail.message = message)

/-- The record names the layer that it is about. -/
def NamesLayer (r : ProgressRecord) (id : String) : Prop :=
  r.id = some id ∧ id ≠ ""

/-- The record has this status, and no error text that would decide before it. -/
def Tells (r : ProgressRecord) (status : String) : Prop :=
  r.status = status ∧ ∀ message, ¬r.ReportsError message

theorem errorMessage_eq_some {r : ProgressRecord} {message : String} :
    r.errorMessage = some message ↔ r.ReportsError message := by
  simp only [errorMessage, ReportsError, Option.orElse_eq_orElse, Option.orElse_eq_or,
    Option.or_eq_some_iff, Option.filter_eq_some_iff, Option.filter_eq_none_iff,
    Option.map_eq_some_iff, decide_not, Bool.not_eq_true', decide_eq_false_iff_not, Decidable.not_not]
  constructor
  · rintro (⟨herror, hne⟩ | ⟨hempty, ⟨detail, hdetail, rfl⟩, hne⟩)
    · exact ⟨hne, .inl herror⟩
    · exact ⟨hne, .inr ⟨hempty, detail, hdetail, rfl⟩⟩
  · rintro ⟨hne, herror | ⟨hempty, detail, hdetail, rfl⟩⟩
    · exact .inl ⟨herror, hne⟩
    · exact .inr ⟨hempty, ⟨detail, hdetail, rfl⟩, hne⟩

theorem errorMessage_eq_none {r : ProgressRecord} :
    r.errorMessage = none ↔ ∀ message, ¬r.ReportsError message := by
  simp only [Option.eq_none_iff_forall_ne_some, ne_eq, errorMessage_eq_some]

theorem layerId_eq_some {r : ProgressRecord} {id : String} :
    r.layerId = some id ↔ r.NamesLayer id := by
  simp [layerId, NamesLayer, Option.filter_eq_some_iff]

theorem layerId_eq_none {r : ProgressRecord} :
    r.layerId = none ↔ ∀ id, ¬r.NamesLayer id := by
  simp only [Option.eq_none_iff_forall_ne_some, ne_eq, layerId_eq_some]

/-! ## Statuses of layers -/

/-- The statuses that are about the progress of a layer. -/
def layerStatuses : List String :=
  ["Pulling fs layer", "Waiting", "Downloading", "Verifying Checksum", "Download complete",
    "Already exists", "Extracting", "Pull complete"]

theorem layerEvent?_of_not_mem {r : ProgressRecord} (h : r.status ∉ layerStatuses) :
    r.layerEvent? = .ok none := by
  rw [layerEvent?]
  split
  case h_9 => rfl
  all_goals exact absurd (by simp [layerStatuses, *]) h

/-- A status that begins as one of a pull is not one of a layer. -/
theorem layerEvent?_of_prefix {r : ProgressRecord} {start rest : String}
    (hstatus : r.status = start ++ rest)
    (hstart : ∀ word ∈ layerStatuses, Text.after? word start = none) :
    r.layerEvent? = .ok none := by
  refine layerEvent?_of_not_mem fun hmem => ?_
  have hnone := hstart r.status hmem
  rw [hstatus, Text.after?_append] at hnone
  cases hnone

end ProgressRecord

namespace PullEvent

/-! ## Events -/

/-- All that a record can be taken for. -/
inductive Classified (r : ProgressRecord) : PullEvent → Prop where
  | failure {message : String} (reports : r.ReportsError message)
      (unnamed : ∀ id, ¬r.NamesLayer id) : Classified r (.error message)
  | layerFailure {id message : String} (reports : r.ReportsError message)
      (named : r.NamesLayer id) : Classified r (.layer id (.error message))
  | layer {id : String} {event : LayerEvent} (silent : ∀ message, ¬r.ReportsError message)
      (read : r.layerEvent? = .ok (some event)) (named : r.NamesLayer id) :
      Classified r (.layer id event)
  | started {rest : String} (tells : r.Tells ("Pulling from" ++ rest)) : Classified r .started
  | digest {rest : String} {d : Digest} (tells : r.Tells ("Digest:" ++ rest))
      (parsed : Digest.parse rest = .ok d) : Classified r (.digest d)
  | final {rest : String} (tells : r.Tells ("Status:" ++ rest)) :
      Classified r (.final (.ofMessage (Text.trimmedStart rest)))

theorem classified_of_ofStatus {r : ProgressRecord} {event : PullEvent}
    (hsilent : ∀ message, ¬r.ReportsError message) (h : ofStatus r.status = .ok event) :
    Classified r event := by
  rw [ofStatus] at h
  split at h
  · next hstart =>
      obtain ⟨rest, hrest⟩ := Text.startsWith_iff.mp hstart
      cases h
      exact .started ⟨hrest, hsilent⟩
  · split at h
    · next rest hrest =>
        split at h
        · next d hd =>
            cases h
            exact .digest ⟨Text.after?_eq_some.mp hrest, hsilent⟩ hd
        · cases h
    · split at h
      · next rest hrest =>
          cases h
          exact .final ⟨Text.after?_eq_some.mp hrest, hsilent⟩
      · cases h

theorem classified {r : ProgressRecord} {event : PullEvent} (h : classify r = .ok event) :
    Classified r event := by
  rw [classify] at h
  cases herror : r.errorMessage with
  | some message =>
      have hreports := ProgressRecord.errorMessage_eq_some.mp herror
      cases hid : r.layerId with
      | some id =>
          simp only [herror, hid] at h
          cases h
          exact .layerFailure hreports (ProgressRecord.layerId_eq_some.mp hid)
      | none =>
          simp only [herror, hid] at h
          cases h
          exact .failure hreports (ProgressRecord.layerId_eq_none.mp hid)
  | none =>
      have hsilent := ProgressRecord.errorMessage_eq_none.mp herror
      rw [herror] at h
      obtain ⟨found, hread, hrest⟩ := bind_eq_ok.mp h
      cases found with
      | none => exact classified_of_ofStatus hsilent hrest
      | some layerEvent =>
          cases hid : r.layerId with
          | none => simp [hid] at hrest
          | some id =>
              simp only [hid] at hrest
              cases hrest
              exact .layer hsilent hread (ProgressRecord.layerId_eq_some.mp hid)

/-- Some line stands for the event. -/
def IsClassified (event : PullEvent) : Prop :=
  ∃ line, ofLine line = .ok event

theorem isClassified_of_classify {line : List UInt8} {r : ProgressRecord} {event : PullEvent}
    (hrecord : ProgressRecord.ofLine? line = some r) (h : classify r = .ok event) :
    event.IsClassified :=
  ⟨line, by rw [ofLine, hrecord]; exact h⟩

/-- An event of a layer names the layer. -/
theorem IsClassified.id_ne_empty {id : String} {event : LayerEvent}
    (h : IsClassified (.layer id event)) : id ≠ "" := by
  obtain ⟨line, hline⟩ := h
  rw [ofLine] at hline
  cases hrecord : ProgressRecord.ofLine? line with
  | none => simp [hrecord] at hline
  | some r =>
      simp only [hrecord] at hline
      cases classified hline with
      | layerFailure reports named => exact named.2
      | layer silent read named => exact named.2

/-- A status of a pull is taken at its word. -/
theorem classify_of_tells {r : ProgressRecord} {start rest : String} (h : r.Tells (start ++ rest))
    (hstart : ∀ word ∈ ProgressRecord.layerStatuses, Text.after? word start = none) :
    classify r = ofStatus (start ++ rest) := by
  rw [classify, ProgressRecord.errorMessage_eq_none.mpr h.2]
  show (r.layerEvent? >>= fun event => _) = _
  rw [ProgressRecord.layerEvent?_of_prefix h.1 hstart, h.1]
  rfl

/-- **A pull fails** by an error text in a record that names no layer. -/
theorem classify_eq_error {r : ProgressRecord} {message : String} :
    classify r = .ok (.error message) ↔ r.ReportsError message ∧ ∀ id, ¬r.NamesLayer id := by
  constructor
  · intro h
    cases classified h with
    | failure reports unnamed => exact ⟨reports, unnamed⟩
  · rintro ⟨hreports, hunnamed⟩
    rw [classify, ProgressRecord.errorMessage_eq_some.mpr hreports,
      ProgressRecord.layerId_eq_none.mpr hunnamed]

/-- A status that begins with `Digest:` is an error unless a digest follows. -/
theorem classify_of_tells_digest {r : ProgressRecord} {rest : String}
    (h : r.Tells ("Digest:" ++ rest)) :
    classify r = match Digest.parse rest with
      | .ok d => .ok (.digest d)
      | .error cause => .error (.invalidDigest r.status cause) := by
  rw [classify_of_tells h (by decide), ofStatus, h.1]
  cases hparse : Digest.parse rest <;>
    simp [Text.startsWith, Text.afterStart?, Text.after?_append, hparse]

/-- **The digest is told** by a status that begins with `Digest:`. -/
theorem classify_eq_digest {r : ProgressRecord} {d : Digest} :
    classify r = .ok (.digest d)
      ↔ ∃ rest, r.Tells ("Digest:" ++ rest) ∧ Digest.parse rest = .ok d := by
  constructor
  · intro h
    cases classified h with
    | digest tells parsed => exact ⟨_, tells, parsed⟩
  · rintro ⟨rest, htells, hd⟩
    rw [classify_of_tells_digest htells, hd]

/-- **A pull is announced** by a status that begins with `Pulling from`. -/
theorem classify_eq_started {r : ProgressRecord} :
    classify r = .ok .started ↔ ∃ rest, r.Tells ("Pulling from" ++ rest) := by
  constructor
  · intro h
    cases classified h with
    | started tells => exact ⟨_, tells⟩
  · rintro ⟨rest, htells⟩
    rw [classify_of_tells htells (by decide), ofStatus, if_pos]
    exact Text.startsWith_iff.mpr ⟨rest, rfl⟩

/-- **A pull is completed** by a status that begins with `Status:`. -/
theorem classify_eq_final {r : ProgressRecord} {status : FinalStatus} :
    classify r = .ok (.final status)
      ↔ ∃ rest, r.Tells ("Status:" ++ rest) ∧ status = .ofMessage (Text.trimmedStart rest) := by
  constructor
  · intro h
    cases classified h with
    | final tells => exact ⟨_, tells, rfl⟩
  · rintro ⟨rest, htells, rfl⟩
    rw [classify_of_tells htells (by decide), ofStatus]
    simp [Text.startsWith, Text.afterStart?, Text.after?]

end PullEvent

/-- Something was fetched if the message begins by saying so. -/
theorem FinalStatus.downloadedNewer_ofMessage {message : String} :
    (ofMessage message).downloadedNewer = true
      ↔ ∃ rest, message = "Downloaded newer image" ++ rest := by
  rw [← Text.startsWith_iff, ofMessage]
  split
  · next h => simp [downloadedNewer, h]
  · next h => split <;> simp [downloadedNewer, h]

end ImagePull
