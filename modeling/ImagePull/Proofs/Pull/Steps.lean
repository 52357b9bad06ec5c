import ImagePull.Proofs.Pull.Isolation

/-!
# From one snapshot to the next

All that an accepted event can make of a snapshot is listed once (`Advanced`). What one event does
to the status, the digest and the rest is read off that list, and with it what a run does.
-/

namespace ImagePull.Pull

open PullEvent

/-- All that an accepted event can make of a pull. -/
inductive Advanced (p : Pull) : PullEvent → Pull → Prop where
  | started : Advanced p .started p
  | layer {id : String} {event : LayerEvent} {l : Layer}
      (next : Layer.next id (p.layers.get? id) event = .ok l) :
      Advanced p (.layer id event) { p with layers := p.layers.insert id l }
  | digest (d : Digest) : Advanced p (.digest d) { p with digest := some d }
  | error (message : String) : Advanced p (.error message) { p with status := .errored message }
  | final {d : Digest} (status : FinalStatus) (known : p.digest = some d) :
      Advanced p (.final status) { p with status := .complete d status.downloadedNewer }

variable {p p' : Pull} {event : PullEvent}

theorem isTerminal_eq_false_iff : p.isTerminal = false ↔ p.status = .inProgress := by
  rw [isTerminal]
  cases p.status <;> simp [PullStatus.isTerminal]

theorem advance_of_isTerminal (hp : p.status.isTerminal = true) (event : PullEvent) :
    p.advance event = .error (.pullTerminated p.status.name event.name) := by
  unfold advance
  exact if_pos hp

theorem inProgress_of_advance (h : p.advance event = .ok p') : p.status = .inProgress := by
  cases hstatus : p.status with
  | inProgress => rfl
  | _ =>
      rw [advance_of_isTerminal (by rw [hstatus]; rfl)] at h
      cases h

theorem advanced (h : p.advance event = .ok p') : Advanced p event p' := by
  have hp := inProgress_of_advance h
  cases event with
  | layer id layerEvent =>
      rw [advance_layer hp] at h
      obtain ⟨l, hnext, rfl⟩ := map_eq_ok.mp h
      exact .layer hnext
  | final status =>
      rw [advance, if_neg (not_isTerminal_of_inProgress hp)] at h
      cases hdigest : p.digest with
      | none => simp [hdigest] at h
      | some d =>
          simp only [hdigest] at h
          rw [← Except.ok.inj h, ← hdigest]
          exact .final status hdigest
  | started | digest | error =>
      rw [advance, if_neg (not_isTerminal_of_inProgress hp)] at h
      cases h
      constructor

/-- An announcement changes nothing. -/
theorem eq_of_advance_started (h : p.advance .started = .ok p') : p' = p := by
  cases advanced h
  rfl

theorem advance_final_of_digest_eq_none (hp : p.status = .inProgress) (hdigest : p.digest = none)
    (status : FinalStatus) : p.advance (.final status) = .error .missingDigest := by
  rw [advance, if_neg (not_isTerminal_of_inProgress hp)]
  simp only [hdigest]

/-! ## What one event does -/

/-- **A pull is complete** by a final status that finds a digest. -/
theorem status_eq_complete_iff (h : p.advance event = .ok p') {d : Digest} {newer : Bool} :
    p'.status = .complete d newer
      ↔ ∃ status, event = .final status ∧ p.digest = some d
          ∧ status.downloadedNewer = newer := by
  have hp := inProgress_of_advance h
  cases advanced h with
  | final status known => simp [known]
  | _ => simp [hp]

theorem status_eq_errored_iff (h : p.advance event = .ok p') {message : String} :
    p'.status = .errored message ↔ event = .error message := by
  have hp := inProgress_of_advance h
  cases advanced h <;> simp [hp]

theorem status_eq_inProgress_iff (h : p.advance event = .ok p') :
    p'.status = .inProgress ↔ event.endsPull = false := by
  have hp := inProgress_of_advance h
  cases advanced h <;> simp [hp, endsPull]

theorem digest_of_advance (h : p.advance event = .ok p') :
    p'.digest = event.digest?.or p.digest := by
  cases advanced h <;> rfl

theorem synthesized_of_advance (h : p.advance event = .ok p') :
    p'.synthesized = p.synthesized := by
  cases advanced h <;> rfl

theorem context_of_advance (h : p.advance event = .ok p') : p'.context = p.context := by
  cases advanced h <;> rfl

end ImagePull.Pull
