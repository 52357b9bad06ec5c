import ImagePull.Proofs.Pull.Failures
import ImagePull.Proofs.Stream.Growth

/-!
# What is warned of

Along the snapshots of a stream each failure of a layer is reported once, when its record is folded:
a layer that has failed stays as it is, so it is found again in every later snapshot and is newly
failed in none of them. An inferred completion and a stream that ended too early are reported once
each, and nothing else is (`warnings_of_snapshots`).
-/

namespace ImagePull.Stream

/-- The layers that have failed, in the order in which their failures were folded. -/
def failures (folds : List Fold) : List Layer :=
  folds.filterMap (·.event.failed?)

variable {context : Context} {lines : List (List UInt8)}

/-- What is warned of, and what has failed, after some folds. -/
structure Reported (context : Context) (fs : List Fold) (p : Pull) : Prop where
  keyed : p.IsKeyed
  told : p.synthesized = false
  reached : (fs.map Fold.pull).getLast?.getD (.new context) = p
  warnings : Pull.runWarnings (some (.new context)) (fs.map Fold.pull)
    = (failures fs).map Pull.failureWarning
  failed : (failures fs).Perm p.erroredLayers

theorem reported_nil (context : Context) : Reported context [] (.new context) where
  keyed := Pull.isKeyed_new context
  told := rfl
  reached := rfl
  warnings := rfl
  failed := .refl []

/-- One more fold is reported. -/
theorem Reported.append {fs : List Fold} {f : Fold} (h : Reported context fs (f.start context))
    (hadvance : (f.start context).advance f.event = .ok f.pull) :
    Reported context (fs ++ [f]) f.pull := by
  have hfailures : failures (fs ++ [f]) = failures fs ++ f.event.failed?.toList := by
    rw [failures, List.filterMap_append]
    cases hfailed : f.event.failed? <;> simp [failures, hfailed]
  have hpulls : (fs ++ [f]).map Fold.pull = fs.map Fold.pull ++ [f.pull] := List.map_append
  refine ⟨h.keyed.advance hadvance, ?_, ?_, ?_, ?_⟩
  · rw [Pull.synthesized_of_advance hadvance, h.told]
  · rw [hpulls, List.getLast?_concat]
    rfl
  · rw [hpulls, Pull.runWarnings_append, h.warnings, Option.or_some, h.reached, Pull.runWarnings,
      Pull.warnings_of_advance h.keyed h.told hadvance, Pull.runWarnings, List.append_nil,
      hfailures, List.map_append]
  · rw [hfailures]
    exact (h.failed.append_right _).trans (Pull.erroredLayers_perm_of_advance h.keyed hadvance)

/-- **All folds of a stream are reported.** -/
theorem reported_foldsFrom (context : Context) (lines : List (List UInt8)) :
    Reported context (foldsFrom context none lines)
      ((reached none (foldsFrom context none lines)).getD (.new context)) :=
  holds_of_foldsFrom (reported_nil context) (fun hbefore hadvance => hbefore.append hadvance) lines

/-- The announcement of a pull, which is not given out, would not be warned of either. -/
theorem runWarnings_shown (context : Context) (lines : List (List UInt8)) (ps : List Pull) :
    Pull.runWarnings none (shown (foldsFrom context none lines) ++ ps)
      = Pull.runWarnings (some (.new context))
          ((foldsFrom context none lines).map Fold.pull ++ ps) := by
  have hempty := Pull.runWarnings_of_empty (p := .new context) rfl
  cases hfolds : foldsFrom context none lines with
  | nil => exact (hempty ps).symm
  | cons f fs =>
      rw [shown_foldsFrom hfolds, List.map_cons]
      split
      · next hopening =>
          -- the announcement leads to a pull of which there is nothing to say
          rw [(advance_of_first hfolds).2 hopening]
          exact (hempty _).symm
      · exact (hempty _).symm

theorem reached_of_getLast?_shown {last : Pull}
    (h : (shown (foldsFrom context none lines)).getLast? = some last) :
    reached none (foldsFrom context none lines) = some last := by
  obtain ⟨before, hpulls⟩ := shown_suffix context lines
  rw [reached_none, ← hpulls, List.getLast?_append, h]
  rfl

/-- After the snapshots of the folds there is room for one completion only. -/
theorem snapshots_of_ends {current : Option Pull} {tail : List StreamItem}
    (h : Ends current tail) :
    snapshots tail = []
      ∨ ∃ p q, current = some p ∧ p.finalize? = some q ∧ snapshots tail = [q] := by
  cases h with
  | quiet | broken => exact .inl rfl
  | inferred hreached hfinal => exact .inr ⟨_, _, hreached, hfinal, rfl⟩

/-- **Each incident is warned of once.** The warnings for the snapshots of a stream are those for
the failures of layers, in the order in which these were folded, and one for a completion that was
inferred. The layers that failed are those that are errored in the last snapshot, each of them once.
The end of the stream adds a warning if the last snapshot has not ended the pull. -/
theorem warnings_of_snapshots (context : Context) (capacity : Nat) (deliveries : List Delivery)
    {last : Pull} (hlast : (snapshots (track context capacity deliveries)).getLast? = some last) :
    Pull.runWarnings none (snapshots (track context capacity deliveries))
        = (failures (folds context deliveries)).map Pull.failureWarning
          ++ (if last.synthesized then [last.inferredWarning] else [])
      ∧ (failures (folds context deliveries)).Perm last.erroredLayers
      ∧ (last.erroredLayers.map Layer.id).Nodup
      ∧ (Pull.endWarnings last).map Warning.kind
        = if last.isTerminal then [] else [.incompleteStream] := by
  have hend : (Pull.endWarnings last).map Warning.kind
      = if last.isTerminal then [] else [.incompleteStream] := by
    rw [Pull.endWarnings]
    split <;> rfl
  obtain ⟨tail, hitems, hends⟩ := track_eq_shown context capacity deliveries
  have hreported := reported_foldsFrom context (deliveredRecords deliveries)
  rw [hitems, snapshots_append, snapshots_map_ok] at hlast ⊢
  rw [folds] at hends hlast ⊢
  rw [runWarnings_shown, Pull.runWarnings_append, hreported.warnings, Option.or_some,
    hreported.reached]
  rcases snapshots_of_ends hends with hnone | ⟨p, q, hreached, hfinal, hone⟩
  · -- the last snapshot is that of the last fold
    rw [hnone, List.append_nil] at hlast
    rw [reached_of_getLast?_shown hlast] at hreported
    have htold : last.synthesized = false := hreported.told
    rw [hnone, htold]
    exact ⟨rfl, hreported.failed, Pull.nodup_erroredLayers hreported.keyed, hend⟩
  · -- the last snapshot is the completion, and its layers are those of the last fold
    rw [hone, List.getLast?_concat] at hlast
    obtain rfl : q = last := Option.some.inj hlast
    rw [hreached, Option.getD_some] at hreported ⊢
    have hcompletion := Pull.isCompletion_of_finalize? hfinal
    have herrored : q.erroredLayers = p.erroredLayers := by
      rw [Pull.erroredLayers, Pull.erroredLayers, hcompletion.layers]
    rw [hone, hcompletion.synthesized, herrored]
    refine ⟨?_, hreported.failed, Pull.nodup_erroredLayers hreported.keyed, hend⟩
    rw [Pull.runWarnings, Pull.warnings_of_finalize? hreported.keyed hfinal]
    rfl

/-- A layer that is announced as failed, and later one that fails. -/
def failingStream : Delivery :=
  .chunk (Text.Utf8.bytes "\x7b\"status\":\"Pulling from x\"\x7d\n" ++
    Text.Utf8.bytes "\x7b\"id\":\"b\",\"error\":\"gone\"\x7d\n" ++
    Text.Utf8.bytes "\x7b\"id\":\"a\",\"status\":\"Pulling fs layer\"\x7d\n" ++
    Text.Utf8.bytes "\x7b\"id\":\"a\",\"error\":\"late\"\x7d")

/-- The failures are told in the order of the records, not in that of the layers' ids. -/
theorem warnings_of_snapshots_failing :
    ∃ last, (snapshots (track sampleContext 1 [failingStream])).getLast? = some last
      ∧ Pull.runWarnings none (snapshots (track sampleContext 1 [failingStream]))
        = [⟨.layerFailed, "layer b failed: Error: gone"⟩,
          ⟨.layerFailed, "layer a failed: Error: late"⟩]
      ∧ last.erroredLayers.map Layer.id = ["a", "b"]
      ∧ (Pull.endWarnings last).map Warning.kind = [.incompleteStream] := by
  have hfailures : failures (folds sampleContext [failingStream])
      = [⟨"b", .errored "gone"⟩, ⟨"a", .errored "late"⟩] := by
    decide +kernel
  have hview : (snapshots (track sampleContext 1 [failingStream])).getLast?.map
      (fun p => (p.erroredLayers.map Layer.id, p.synthesized, p.isTerminal))
        = some (["a", "b"], false, false) := by
    decide +kernel
  obtain ⟨last, hlast, hfacts⟩ := Option.map_eq_some_iff.mp hview
  simp only [Prod.mk.injEq] at hfacts
  obtain ⟨hids, htold, hrunning⟩ := hfacts
  obtain ⟨hwarnings, -, -, hend⟩ := warnings_of_snapshots sampleContext 1 [failingStream] hlast
  rw [hfailures, htold] at hwarnings
  rw [hrunning] at hend
  exact ⟨last, hlast, hwarnings, hids, hend⟩

end ImagePull.Stream
