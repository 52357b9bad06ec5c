import ImagePull.Proofs.Command.Conclusion
import ImagePull.Proofs.Stream.Received
import ImagePull.Proofs.Stream.Warnings

/-!
# What a command warns of

The warnings of a run are collected along its snapshots and shown when it has ended, unless it has
ended in an error: then none is shown (`follow_complaints`). So a layer that has failed is told of
exactly once, except in a run with an error, where it is not told of at all.
-/

namespace ImagePull

/-! ## Failures along a run -/

namespace Pull

variable {p s t : Pull}

/-- The layers that fail along a run of snapshots, each compared with the one before. -/
def failedAlong (previous : Option Pull) : List Pull → List Layer
  | [] => []
  | p :: rest => p.erroredLayers.filter (isNewlyFailed previous) ++ failedAlong (some p) rest

/-- The warnings of failed layers are those of the layers that fail along the run. -/
theorem filter_runWarnings (previous : Option Pull) (ps : List Pull) :
    (runWarnings previous ps).filter (·.kind = .layerFailed)
      = (failedAlong previous ps).map failureWarning := by
  induction ps generalizing previous with
  | nil => rfl
  | cons p rest ih =>
      have hfailures (ls : List Layer) :
          (ls.map failureWarning).filter (·.kind = .layerFailed) = ls.map failureWarning := by
        refine List.filter_eq_self.mpr fun w hw => ?_
        obtain ⟨l, -, rfl⟩ := List.mem_map.mp hw
        rfl
      have hinferred : (if p.synthesized then [p.inferredWarning] else []).filter
          (·.kind = .layerFailed) = [] := by
        split <;> rfl
      rw [runWarnings, warnings_eq, List.filter_append, List.filter_append, hfailures, hinferred,
        List.append_nil, ih, failedAlong, List.map_append]

theorem mem_of_mem_failedAlong {previous : Option Pull} {ps : List Pull} {l : Layer}
    (h : l ∈ failedAlong previous ps) : ∃ p ∈ ps, l ∈ p.erroredLayers := by
  induction ps generalizing previous with
  | nil => cases h
  | cons p rest ih =>
      rcases List.mem_append.mp h with h | h
      · exact ⟨p, List.mem_cons_self, (List.mem_filter.mp h).1⟩
      · obtain ⟨q, hq, hl⟩ := ih h
        exact ⟨q, List.mem_cons_of_mem p hq, hl⟩

/-- The failed layers of a snapshot are those of the one before and those that newly failed. -/
theorem Succeeds.erroredLayers_perm (h : s.Succeeds t) (hs : s.IsKeyed) :
    (s.erroredLayers ++ t.erroredLayers.filter (isNewlyFailed (some s))).Perm t.erroredLayers := by
  rcases h with ⟨event, hadvance⟩ | hfinal
  · rw [newlyFailed_of_advance hs hadvance]
    exact erroredLayers_perm_of_advance hs hadvance
  · rw [newlyFailed_of_finalize? hs hfinal, List.append_nil, erroredLayers, erroredLayers,
      (isCompletion_of_finalize? hfinal).layers]

/-- What had failed at first and what fails along a run are different layers, and hold all that any
of the snapshots shows as failed. -/
theorem failedAlong_of_isChain {ps : List Pull} (h : (p :: ps).IsChain Succeeds)
    (hp : p.IsKeyed) :
    ((p.erroredLayers ++ failedAlong (some p) ps).map Layer.id).Nodup
      ∧ ∀ q ∈ p :: ps, ∀ l ∈ q.erroredLayers, l ∈ p.erroredLayers ++ failedAlong (some p) ps := by
  induction ps generalizing p with
  | nil =>
      rw [failedAlong, List.append_nil]
      refine ⟨nodup_erroredLayers hp, fun q hq l hl => ?_⟩
      rwa [List.mem_singleton.mp hq] at hl
  | cons q rest ih =>
      obtain ⟨hnext, hrest⟩ := List.isChain_cons_cons.mp h
      obtain ⟨hnodup, hall⟩ := ih hrest (hnext.isKeyed hp)
      have hstep : (p.erroredLayers ++ failedAlong (some p) (q :: rest)).Perm
          (q.erroredLayers ++ failedAlong (some q) rest) := by
        rw [failedAlong, ← List.append_assoc]
        exact (hnext.erroredLayers_perm hp).append_right _
      refine ⟨(hstep.map _).nodup_iff.mpr hnodup, fun r hr l hl => ?_⟩
      rcases List.mem_cons.mp hr with rfl | hr
      · exact List.mem_append_left _ hl
      · exact hstep.mem_iff.mpr (hall r hr l hl)

/-- **Along a run every layer fails once** that any of its snapshots shows as failed. -/
theorem failedAlong_none {ps : List Pull} (h : ps.IsChain Succeeds) (hps : ∀ p ∈ ps, p.IsKeyed) :
    ((failedAlong none ps).map Layer.id).Nodup
      ∧ ∀ l, l ∈ failedAlong none ps ↔ ∃ p ∈ ps, l ∈ p.erroredLayers := by
  cases ps with
  | nil => simp [failedAlong]
  | cons p rest =>
      obtain ⟨hnodup, hall⟩ := failedAlong_of_isChain h (hps p List.mem_cons_self)
      have hfirst : failedAlong none (p :: rest)
          = p.erroredLayers ++ failedAlong (some p) rest := by
        have hall : p.erroredLayers.filter (isNewlyFailed none) = p.erroredLayers :=
          List.filter_eq_self.mpr fun _ _ => rfl
        rw [failedAlong, hall]
      rw [hfirst]
      refine ⟨hnodup, fun l => ⟨fun hl => ?_, fun ⟨q, hq, hl⟩ => hall q hq l hl⟩⟩
      rw [← hfirst] at hl
      exact mem_of_mem_failedAlong hl

end Pull

/-! ## What is shown -/

namespace Command.Report

open Pull (failureWarning)

/-- The warnings that a run leads to: none if there is an error among its items. -/
def warned (items : List StreamItem) : List Warning :=
  match split items with
  | (pulls, none) => warnings pulls
  | (_, some _) => []

theorem follow_complaints (mode : OutputMode) (reference : String) (cut : Option String)
    (items : List StreamItem) :
    (follow mode reference cut items).complaints = (warned items).flatMap (ofWarning mode) := by
  have hconcluded (output complaints : List OutputLine) (result : Except Failure String) :
      (follow.concluded mode output complaints result).complaints = complaints := by
    cases result <;> rfl
  rcases sound_or_broken items with ⟨ps, rfl⟩ | ⟨ps, e, rest, rfl⟩
  · simp only [follow, warned, split_map_ok]
    cases cut with
    | none => exact hconcluded _ _ _
    | some limit =>
        simp only
        split
        · exact hconcluded _ _ _
        · rfl
  · rw [follow_broken, warned, split_broken]
    rfl

/-- Among these warnings there is one for each layer that failed in a run, and none for another. -/
def WarnsOfEach (ws : List Warning) (ps : List Pull) : Prop :=
  ∃ layers : List Layer, ws.filter (·.kind = .layerFailed) = layers.map failureWarning
    ∧ (layers.map Layer.id).Nodup ∧ ∀ l, l ∈ layers ↔ ∃ p ∈ ps, l ∈ p.erroredLayers

theorem filter_warnings (ps : List Pull) :
    (warnings ps).filter (·.kind = .layerFailed)
      = (Pull.failedAlong none ps).map failureWarning := by
  rw [warnings, List.filter_append, Pull.filter_runWarnings]
  cases ps.getLast? with
  | none => exact List.append_nil _
  | some p =>
      have hend : p.endWarnings.filter (·.kind = .layerFailed) = [] := by
        rw [Pull.endWarnings]
        split <;> rfl
      rw [hend, List.append_nil]

theorem warnsOfEach_warnings {ps : List Pull} (h : ps.IsChain Pull.Succeeds)
    (hps : ∀ p ∈ ps, p.IsKeyed) : WarnsOfEach (warnings ps) ps := by
  obtain ⟨hnodup, hmem⟩ := Pull.failedAlong_none h hps
  exact ⟨_, filter_warnings ps, hnodup, hmem⟩

theorem warnsOfEach_nil {ps : List Pull} :
    WarnsOfEach [] ps ↔ ∀ p ∈ ps, p.erroredLayers = [] := by
  constructor
  · rintro ⟨layers, hnone, -, hmem⟩ p hp
    obtain rfl : layers = [] := List.map_eq_nil_iff.mp hnone.symm
    exact List.eq_nil_iff_forall_not_mem.mpr fun l hl => nomatch (hmem l).mpr ⟨p, hp, hl⟩
  · intro h
    refine ⟨[], rfl, .nil, fun l => ⟨nofun, fun ⟨p, hp, hl⟩ => ?_⟩⟩
    rwa [h p hp] at hl

/-- **When each failed layer is warned of**, whatever part of a stream is followed. What is shown
are the warnings of the run in its mode. Among them there is exactly one for each layer that any
of the snapshots shows as failed, unless there is an error among the items: that leaves all of
them out, so then no layer may have failed. -/
theorem warnsOfEach_warned_iff {context : Context} {capacity : Nat}
    {input : List Stream.Delivery} {ended : Bool} {actions : List Stream.Action}
    {c : Stream.Channel}
    (h : (Stream.Channel.new context capacity input ended).follow? actions = some c) :
    (∀ mode reference cut, (follow mode reference cut c.received).complaints
        = (warned c.received).flatMap (ofWarning mode))
      ∧ (WarnsOfEach (warned c.received) (Stream.snapshots c.received)
        ↔ ((∃ e, .error e ∈ c.received) →
            ∀ p ∈ Stream.snapshots c.received, p.erroredLayers = [])) := by
  refine ⟨fun mode reference cut => follow_complaints mode reference cut c.received, ?_⟩
  obtain ⟨hnew, hbuilt⟩ := Stream.received_isChain h
  have hchain := hnew.tail
  have hkeyed : ∀ p ∈ Stream.snapshots c.received, p.IsKeyed := fun p hp => (hbuilt p hp).isKeyed
  rcases sound_or_broken c.received with ⟨ps, hsound⟩ | ⟨ps, e, rest, hbroken⟩
  · rw [hsound, Stream.snapshots_map_ok] at hchain hkeyed
    rw [hsound, Stream.snapshots_map_ok, warned, split_map_ok]
    exact ⟨fun _ ⟨e, he⟩ => by simp at he, fun _ => warnsOfEach_warnings hchain hkeyed⟩
  · have hsilent : warned c.received = [] := by
      rw [hbroken, warned, split_broken]
    have herror : ∃ e, .error e ∈ c.received := ⟨e, by simp [hbroken]⟩
    rw [hsilent, warnsOfEach_nil]
    exact ⟨fun hnone _ => hnone, fun hnone => hnone herror⟩

theorem warnsOfEach_warned_failing :
    WarnsOfEach (warned (Stream.track Stream.sampleContext 1 [Stream.failingStream]))
        (Stream.snapshots (Stream.track Stream.sampleContext 1 [Stream.failingStream]))
      ∧ ∃ p ∈ Stream.snapshots (Stream.track Stream.sampleContext 1 [Stream.failingStream]),
          p.erroredLayers.map Layer.id = ["a", "b"] := by
  obtain ⟨actions, c, hfollow, hreceived⟩ :=
    Stream.exists_follow_track Stream.sampleContext 1 [Stream.failingStream]
  have hsound : ∀ item ∈ c.received, item.isOk = true := by
    rw [hreceived]
    decide +kernel
  have hnone : ¬∃ e, .error e ∈ c.received := fun ⟨_, he⟩ => Bool.noConfusion (hsound _ he)
  rw [← hreceived]
  refine ⟨(warnsOfEach_warned_iff hfollow).2.mpr fun herror => absurd herror hnone, ?_⟩
  rw [hreceived]
  decide +kernel

/-- A layer that fails, before a line that is no record. -/
def brokenStream : Stream.Delivery :=
  .chunk (Text.Utf8.bytes ("\x7b\"status\":\"Pulling from x\"\x7d\n" ++
    "\x7b\"id\":\"a\",\"error\":\"EOF\"\x7d\nnot json\n"))

/-- A failure that an error hides. -/
theorem not_warnsOfEach_broken :
    ¬∀ (context : Context) (capacity : Nat) (input : List Stream.Delivery) (ended : Bool)
        (actions : List Stream.Action) (c : Stream.Channel),
        (Stream.Channel.new context capacity input ended).follow? actions = some c →
        WarnsOfEach (warned c.received) (Stream.snapshots c.received) := by
  intro h
  obtain ⟨actions, c, hfollow, hreceived⟩ :=
    Stream.exists_follow_track Stream.sampleContext 1 [brokenStream]
  have hwarns := h _ _ _ _ _ c hfollow
  have hsilent : warned c.received = [] := by
    rw [hreceived]
    decide +kernel
  have hfailed : ¬∀ p ∈ Stream.snapshots c.received, p.erroredLayers = [] := by
    rw [hreceived]
    decide +kernel
  rw [hsilent, warnsOfEach_nil] at hwarns
  exact hfailed hwarns

end Command.Report

end ImagePull
