import ImagePull.Proofs.Layer.Table
import ImagePull.Proofs.Pull.Completion
import ImagePull.Pull.Warning

/-!
# Failed layers

A layer fails by an error and then accepts nothing, so after an event the failed layers are those
before it and the one that the event reports (`erroredLayers_perm_of_advance`). What is newly failed
between two snapshots is just that one (`newlyFailed_of_advance`), and it is all that is warned of,
unless the second snapshot is an inferred completion.
-/

namespace ImagePull

/-- The layer that an event reports as failed. -/
def PullEvent.failed? : PullEvent → Option Layer
  | .layer id (.error message) => some ⟨id, .errored message⟩
  | _ => none

/-! ## Layers that have failed -/

namespace Layer

variable {id : String} {current : Option Layer} {event : LayerEvent} {l : Layer}

/-- A layer fails by an error and by nothing else. -/
theorem state_eq_errored_iff (h : next id current event = .ok l) (message : String) :
    l.state = .errored message ↔ event = .error message := by
  cases current with
  | none =>
      rw [next, start] at h
      cases hopened : LayerState.opened? event with
      | none => simp [hopened] at h
      | some state =>
          simp only [hopened] at h
          cases h
          cases event <;> cases hopened <;> simp
  | some before =>
      obtain ⟨before, state⟩ := before
      rw [next, advance] at h
      split at h
      · cases h
      · cases hnext : state.next? event with
        | none => simp [hnext] at h
        | some following =>
            simp only [hnext] at h
            cases h
            cases state <;> cases event <;> cases hnext <;> simp

theorem failed?_of_next (h : next id current event = .ok l) (hid : l.id = id) :
    PullEvent.failed? (.layer id event) = if l.state.isErrored then some l else none := by
  obtain ⟨id, state⟩ := l
  subst hid
  have hstate := state_eq_errored_iff h
  cases event with
  | error message =>
      obtain rfl : state = .errored message := (hstate message).mpr rfl
      rfl
  | _ =>
      have hnot : state.isErrored = false := by
        cases state with
        | errored message => exact absurd ((hstate message).mp rfl) (by simp)
        | _ => rfl
      simp [PullEvent.failed?, hnot]

/-- A layer that has failed accepts nothing. -/
theorem not_isErrored_of_next {before : Layer} (h : next id (some before) event = .ok l) :
    before.state.isErrored = false := by
  rw [next, advance] at h
  split at h
  · cases h
  · next hnot =>
      cases hstate : before.state with
      | errored message => exact absurd (by rw [hstate]; rfl) hnot
      | _ => rfl

end Layer

namespace Pull

/-- Every layer is tracked under its own id. -/
def IsKeyed (p : Pull) : Prop :=
  ∀ id l, p.layers.get? id = some l → l.id = id

variable {p p' q : Pull} {event : PullEvent}

theorem isKeyed_new (context : Context) : (new context).IsKeyed :=
  fun _ _ h => nomatch h

theorem IsKeyed.advance (hp : p.IsKeyed) (h : p.advance event = .ok p') : p'.IsKeyed := by
  cases advanced h with
  | @layer id _ l next =>
      intro other l' hl'
      rw [LayerTable.get?_insert] at hl'
      split at hl'
      · next hid =>
          cases hl'
          rw [← hid]
          exact Layer.id_of_next next (hp id)
      · exact hp other l' hl'
  | _ => exact hp

theorem mem_layers (hp : p.IsKeyed) {l : Layer} :
    l ∈ p.layers.layers ↔ p.layers.get? l.id = some l := by
  rw [LayerTable.layers, List.mem_map]
  constructor
  · rintro ⟨⟨id, l⟩, hentry, rfl⟩
    have hget := LayerTable.mem_entries_iff.mp hentry
    rwa [hp id l hget]
  · exact fun hget => ⟨(l.id, l), LayerTable.mem_entries_iff.mpr hget, rfl⟩

theorem mem_erroredLayers (hp : p.IsKeyed) {l : Layer} :
    l ∈ p.erroredLayers ↔ p.layers.get? l.id = some l ∧ l.state.isErrored = true := by
  rw [erroredLayers, List.mem_filter, mem_layers hp]

theorem map_id_layers (hp : p.IsKeyed) : p.layers.layers.map Layer.id = p.layers.ids := by
  rw [LayerTable.layers, LayerTable.ids, List.map_map]
  exact List.map_congr_left fun e he => hp e.1 e.2 (LayerTable.mem_entries_iff.mp he)

/-- No two failed layers have the same id. -/
theorem nodup_erroredLayers (hp : p.IsKeyed) : (p.erroredLayers.map Layer.id).Nodup := by
  have hids : (p.layers.layers.map Layer.id).Nodup := by
    rw [map_id_layers hp]
    exact p.layers.ids_increasing.imp String.ne_of_lt
  exact hids.sublist (List.filter_sublist.map Layer.id)

/-! ## One event -/

/-- An event that reports a failed layer is accepted for one that had not failed before. -/
theorem not_isErrored_of_failed? (h : p.advance event = .ok p') {l before : Layer}
    (hfailed : event.failed? = some l) (hbefore : p.layers.get? l.id = some before) :
    before.state.isErrored = false := by
  cases advanced h with
  | @layer id layerEvent _ next =>
      cases layerEvent with
      | error message =>
          cases hfailed
          rw [hbefore] at next
          exact Layer.not_isErrored_of_next next
      | _ => cases hfailed
  | _ => cases hfailed

/-- **After an event the failed layers are those before it and the one that it reports.** -/
theorem mem_erroredLayers_of_advance (hp : p.IsKeyed) (h : p.advance event = .ok p') {l : Layer} :
    l ∈ p'.erroredLayers ↔ l ∈ p.erroredLayers ∨ event.failed? = some l := by
  rw [mem_erroredLayers (hp.advance h), mem_erroredLayers hp]
  cases advanced h with
  | @layer id layerEvent found next =>
      have hid : found.id = id := Layer.id_of_next next (hp id)
      rw [LayerTable.get?_insert, Layer.failed?_of_next next hid]
      by_cases hsame : id = l.id
      · subst hsame
        -- had the layer of the event failed before, it would have accepted nothing
        have hnot : ¬(p.layers.get? l.id = some l ∧ l.state.isErrored = true) := by
          rintro ⟨hget, herrored⟩
          rw [hget] at next
          rw [Layer.not_isErrored_of_next next] at herrored
          cases herrored
        rw [if_pos rfl, or_iff_right hnot, Option.ite_none_right_eq_some, and_comm]
        refine and_congr_left fun hfound => ?_
        rw [Option.some.injEq] at hfound
        rw [hfound]
      · -- any other layer is as it was
        have hnot : ¬(if found.state.isErrored then some found else none) = some l := by
          rw [Option.ite_none_right_eq_some]
          rintro ⟨-, hfound⟩
          exact hsame (hid.symm.trans (congrArg Layer.id (Option.some.inj hfound)))
        rw [if_neg hsame, or_iff_left hnot]
  | _ => simp [PullEvent.failed?]

theorem isNewlyFailed_some {l : Layer} :
    isNewlyFailed (some p) l = true
      ↔ ∀ before, p.layers.get? l.id = some before → before.state.isErrored = false := by
  rw [isNewlyFailed, Option.bind_some]
  cases p.layers.get? l.id <;> simp

/-- A layer that had failed is not reported again. -/
theorem not_isNewlyFailed (hp : p.IsKeyed) {l : Layer} (hl : l ∈ p.erroredLayers) :
    ¬isNewlyFailed (some p) l = true := fun hnew => by
  obtain ⟨hget, herrored⟩ := (mem_erroredLayers hp).mp hl
  rw [isNewlyFailed_some.mp hnew l hget] at herrored
  cases herrored

theorem isNewlyFailed_of_failed? (h : p.advance event = .ok p') {l : Layer}
    (hfailed : event.failed? = some l) : isNewlyFailed (some p) l = true :=
  isNewlyFailed_some.mpr fun _ => not_isErrored_of_failed? h hfailed

theorem isNewlyFailed_iff (hp : p.IsKeyed) (h : p.advance event = .ok p') {l : Layer}
    (hl : l ∈ p'.erroredLayers) : isNewlyFailed (some p) l = true ↔ event.failed? = some l := by
  refine ⟨fun hnew => ?_, isNewlyFailed_of_failed? h⟩
  exact ((mem_erroredLayers_of_advance hp h).mp hl).resolve_left fun hold =>
    not_isNewlyFailed hp hold hnew

/-- **An event makes just the layer fail that it reports.** -/
theorem newlyFailed_of_advance (hp : p.IsKeyed) (h : p.advance event = .ok p') :
    p'.erroredLayers.filter (isNewlyFailed (some p)) = event.failed?.toList := by
  have hperm : (p'.erroredLayers.filter (isNewlyFailed (some p))).Perm event.failed?.toList := by
    have hnodup := (nodup_erroredLayers (hp.advance h)).of_map
    refine (List.perm_ext_iff_of_nodup (hnodup.filter _) ?_).mpr fun l => ?_
    · cases event.failed? <;> simp
    · rw [List.mem_filter, Option.mem_toList]
      refine ⟨fun ⟨hl, hnew⟩ => (isNewlyFailed_iff hp h hl).mp hnew, fun hfailed => ?_⟩
      have hl := (mem_erroredLayers_of_advance hp h).mpr (.inr hfailed)
      exact ⟨hl, (isNewlyFailed_iff hp h hl).mpr hfailed⟩
  cases hfailed : event.failed? with
  | none =>
      rw [hfailed] at hperm
      exact hperm.eq_nil
  | some l =>
      rw [hfailed] at hperm
      exact List.perm_singleton.mp hperm

/-- **No failed layer is lost, and none comes twice.** -/
theorem erroredLayers_perm_of_advance (hp : p.IsKeyed) (h : p.advance event = .ok p') :
    (p.erroredLayers ++ event.failed?.toList).Perm p'.erroredLayers := by
  have hnodup : (p.erroredLayers ++ event.failed?.toList).Nodup := by
    refine (nodup_erroredLayers hp).of_map.append (by cases event.failed? <;> simp) ?_
    intro l hl hfailed
    exact not_isNewlyFailed hp hl (isNewlyFailed_of_failed? h (Option.mem_toList.mp hfailed))
  have hnodup' := (nodup_erroredLayers (hp.advance h)).of_map
  refine (List.perm_ext_iff_of_nodup hnodup hnodup').mpr fun l => ?_
  rw [List.mem_append, Option.mem_toList, mem_erroredLayers_of_advance hp h]

/-- A completion makes no layer fail. -/
theorem newlyFailed_of_finalize? (hp : p.IsKeyed) (h : p.finalize? = some q) :
    q.erroredLayers.filter (isNewlyFailed (some p)) = [] := by
  refine List.filter_eq_nil_iff.mpr fun l hl => ?_
  rw [erroredLayers, (isCompletion_of_finalize? h).layers] at hl
  exact not_isNewlyFailed hp hl

/-! ## Warnings -/

/-- The warning that a layer has failed. -/
def failureWarning (l : Layer) : Warning :=
  ⟨.layerFailed, "layer " ++ l.id ++ " failed: " ++ l.state.text⟩

/-- The warning that a completion was inferred. -/
def inferredWarning (p : Pull) : Warning :=
  ⟨.synthesizedCompletion, p.context.reference.text
    ++ " sent no final status; completion inferred from its layers"⟩

theorem warnings_eq (previous : Option Pull) (p : Pull) :
    warnings previous p
      = (p.erroredLayers.filter (isNewlyFailed previous)).map failureWarning
        ++ if p.synthesized then [p.inferredWarning] else [] :=
  rfl

theorem warnings_of_advance (hp : p.IsKeyed) (hsynthesized : p.synthesized = false)
    (h : p.advance event = .ok p') :
    warnings (some p) p' = event.failed?.toList.map failureWarning := by
  rw [warnings_eq, newlyFailed_of_advance hp h, synthesized_of_advance h, hsynthesized]
  exact List.append_nil _

/-- A completion is reported, and no failure with it. -/
theorem warnings_of_finalize? (hp : p.IsKeyed) (h : p.finalize? = some q) :
    warnings (some p) q = [q.inferredWarning] := by
  rw [warnings_eq, newlyFailed_of_finalize? hp h, (isCompletion_of_finalize? h).synthesized]
  rfl

/-- Before a pull that tracks no layers there might as well be nothing. -/
theorem runWarnings_of_empty (hp : p.layers = .empty) (ps : List Pull) :
    runWarnings (some p) ps = runWarnings none ps := by
  cases ps with
  | nil => rfl
  | cons first rest =>
      have hnew : isNewlyFailed (some p) = isNewlyFailed none := by
        funext l
        rw [isNewlyFailed, Option.bind_some, hp]
        rfl
      rw [runWarnings, runWarnings, warnings_eq, warnings_eq, hnew]

theorem runWarnings_append (previous : Option Pull) (ps qs : List Pull) :
    runWarnings previous (ps ++ qs)
      = runWarnings previous ps ++ runWarnings (ps.getLast?.or previous) qs := by
  induction ps generalizing previous with
  | nil => rfl
  | cons p rest ih =>
      rw [List.cons_append, runWarnings, runWarnings, ih, List.append_assoc, List.getLast?_cons]
      cases rest.getLast? <;> rfl

end Pull

end ImagePull
