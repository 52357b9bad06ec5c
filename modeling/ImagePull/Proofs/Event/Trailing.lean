import ImagePull.Proofs.Digest.Grammar
import ImagePull.Proofs.Event.Classification
import ImagePull.Proofs.Record

/-!
# Events told in their own words

A stream ends with the digest of the image and a final status. A record whose status is the text of
such an event is taken at its status, so it stands for the digest that is named there
(`classify_of_tells_digest_text`), or for the final status whose message follows
(`classify_of_tells_final_text`). No message that was read begins with a blank, and the kind of a
final status is in its message, so an event that was read once is read again from its own text
(`classify_of_tells_text`).
-/

namespace ImagePull

/-- A final status keeps its message. -/
theorem FinalStatus.message_ofMessage (message : String) :
    (ofMessage message).message = message := by
  rw [ofMessage]
  split
  · rfl
  · split <;> rfl

/-- A digest may stand behind a blank. -/
theorem Digest.parse_behindBlank (d : Digest) : parse (" " ++ d.text) = .ok d := by
  obtain ⟨-, hfirst, hlast⟩ := d.isStripped_text
  refine parse_eq_ok_iff_isStripped.mpr ⟨⟨[' '], [], ?_, ?_, List.forall_mem_nil _⟩, hfirst, hlast⟩
  · simp
  · exact List.forall_mem_singleton.mpr rfl

namespace PullEvent

variable {r s : ProgressRecord} {event : PullEvent}

/-- The digest of the image, or how the pull ended. -/
inductive IsTrailing : PullEvent → Prop where
  | digest (d : Digest) : IsTrailing (.digest d)
  | final (status : FinalStatus) : IsTrailing (.final status)

theorem text_digest (d : Digest) : (PullEvent.digest d).text = "Digest:" ++ (" " ++ d.text) := by
  rw [← String.append_assoc]
  rfl

theorem text_final (status : FinalStatus) :
    (PullEvent.final status).text = "Status:" ++ (" " ++ status.message) := by
  rw [← String.append_assoc]
  rfl

/-- **A digest is read from its text.** -/
theorem classify_of_tells_digest_text {d : Digest} (h : s.Tells (PullEvent.digest d).text) :
    classify s = .ok (.digest d) := by
  rw [text_digest] at h
  exact classify_eq_digest.mpr ⟨_, h, d.parse_behindBlank⟩

/-- **A final status is read from its text** by its message, without the blanks in front. -/
theorem classify_of_tells_final_text {status : FinalStatus}
    (h : s.Tells (PullEvent.final status).text) :
    classify s = .ok (.final (.ofMessage (Text.trimmedStart status.message))) := by
  rw [text_final] at h
  refine classify_eq_final.mpr ⟨_, h, ?_⟩
  have hblank : ∀ c ∈ " ".toList, Text.isBlank c = true := List.forall_mem_singleton.mpr rfl
  rw [Text.trimmedStart_append hblank]

/-- What a record stands for has been freed of blanks and told by its message. -/
theorem ofMessage_trimmedStart_message {status : FinalStatus}
    (h : classify r = .ok (.final status)) :
    .ofMessage (Text.trimmedStart status.message) = status := by
  obtain ⟨rest, -, rfl⟩ := classify_eq_final.mp h
  rw [FinalStatus.message_ofMessage, Text.trimmedStart_trimmedStart]

/-- **The end of a stream keeps its meaning in its own words.** Of a record that stands for a digest
or a final status the text of the event is enough: another record with that status stands for the
very same event, whatever else it holds besides an error text, and so does its line. -/
theorem classify_of_tells_text (h : classify r = .ok event) (htrailing : event.IsTrailing)
    (htells : s.Tells event.text) : classify s = .ok event ∧ ofLine s.toLine = .ok event := by
  have hagain : classify s = .ok event := by
    cases htrailing with
    | digest d => exact classify_of_tells_digest_text htells
    | final status =>
        rw [classify_of_tells_final_text htells, ofMessage_trimmedStart_message h]
  refine ⟨hagain, ?_⟩
  rw [ofLine, ProgressRecord.ofLine?_toLine]
  exact hagain

/-- Blanks inside a message stay; an id, counts and an empty error text do not matter. -/
theorem classify_of_tells_text_newer :
    let r : ProgressRecord := { status := "Status:\u2003 Downloaded newer image for  x" }
    let s : ProgressRecord :=
      { id := some "a", status := "Status: Downloaded newer image for  x", error := some "",
        progressDetail := { current := 3, units := some "s" } }
    let event := PullEvent.final (.downloadedNewerImage "Downloaded newer image for  x")
    classify r = .ok event ∧ event.IsTrailing ∧ s.Tells event.text
      ∧ classify s = .ok event ∧ ofLine s.toLine = .ok event := by
  intro r s event
  have h : classify r = .ok event := by decide +kernel
  have htells : s.Tells event.text :=
    ⟨by decide +kernel, ProgressRecord.errorMessage_eq_none.mp rfl⟩
  exact ⟨h, .final _, htells, classify_of_tells_text h (.final _) htells⟩

end PullEvent

end ImagePull
