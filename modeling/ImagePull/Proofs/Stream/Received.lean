import ImagePull.Proofs.Pull.Snapshots
import ImagePull.Proofs.Stream.Growth

/-!
# What a consumer receives

In whatever order the steps of a channel come, a consumer receives a beginning of what the
deliveries give undisturbed (`received_prefix_track`). So the snapshots that it receives are built
from lines, and each succeeds the one before it, the first of them a new pull (`received_isChain`).
-/

namespace ImagePull

theorem Pull.Succeeds.isKeyed {s t : Pull} (h : s.Succeeds t) (hs : s.IsKeyed) : t.IsKeyed := by
  rcases h with ⟨event, hadvance⟩ | hfinal
  · exact hs.advance hadvance
  · intro id l hl
    rw [(isCompletion_of_finalize? hfinal).layers] at hl
    exact hs id l hl

namespace Stream

variable {context : Context} {capacity : Nat} {input : List Delivery} {ended : Bool}
  {actions : List Action} {c : Channel} {lines : List (List UInt8)}

/-! ## The snapshots of a stream -/

theorem builtFrom_of_mem_foldsFrom {current : Option Pull} {f : Fold}
    (hcurrent : ∀ p ∈ current, p.BuiltFrom PullEvent.IsClassified)
    (h : f ∈ foldsFrom context current lines) : f.pull.BuiltFrom PullEvent.IsClassified := by
  induction lines generalizing current with
  | nil => cases h
  | cons line rest ih =>
      rw [foldsFrom] at h
      cases hfold : fold? context current line with
      | none => simp [hfold] at h
      | some g =>
          obtain ⟨rfl, hrecord, hevent, hnext⟩ := fold?_eq_some.mp hfold
          have hclassified := PullEvent.isClassified_of_classify hrecord hevent
          have hpull : g.pull.BuiltFrom PullEvent.IsClassified := by
            cases hprevious : g.previous with
            | none =>
                rw [hprevious] at hnext
                exact .start hclassified hnext
            | some p =>
                rw [hprevious] at hnext
                exact .advance (hcurrent p hprevious) hclassified hnext
          simp only [hfold, List.mem_cons] at h
          rcases h with rfl | h
          · exact hpull
          · split at h
            · cases h
            · exact ih (fun p hp => Option.mem_some.mp hp ▸ hpull) h

/-- **Every snapshot of a stream is built from lines.** -/
theorem builtFrom_of_mem_track {deliveries : List Delivery} {p : Pull}
    (h : p ∈ snapshots (track context capacity deliveries)) :
    p.BuiltFrom PullEvent.IsClassified := by
  have hfolded {f : Fold} (hf : f ∈ folds context deliveries) :
      f.pull.BuiltFrom PullEvent.IsClassified := by
    have hnone : ∀ p ∈ (none : Option Pull), p.BuiltFrom PullEvent.IsClassified :=
      fun _ hp => nomatch hp
    exact builtFrom_of_mem_foldsFrom hnone hf
  obtain ⟨tail, hitems, hends⟩ := track_eq_shown context capacity deliveries
  rw [hitems, snapshots_append, snapshots_map_ok] at h
  rcases List.mem_append.mp h with h | h
  · obtain ⟨f, hf, rfl⟩ := exists_of_mem_shown h
    exact hfolded hf
  · cases hends with
    | quiet | broken => cases h
    | @inferred before q reached finalized =>
        obtain ⟨folded, f, hfolds, rfl⟩ := exists_of_reached reached
        obtain rfl : p = q := List.mem_singleton.mp h
        exact .finalize (hfolded (by simp [hfolds])) finalized

/-- **The snapshots of a stream follow each other**, and the first of them a new pull. -/
theorem isChain_track (context : Context) (capacity : Nat) (deliveries : List Delivery) :
    (Pull.new context :: snapshots (track context capacity deliveries)).IsChain Pull.Succeeds := by
  obtain ⟨tail, hitems, hends⟩ := track_eq_shown context capacity deliveries
  rw [hitems, snapshots_append, snapshots_map_ok]
  rw [folds] at hends ⊢
  have hchain := isChain_pulls_append hends
  cases hfolds : foldsFrom context none (deliveredRecords deliveries) with
  | nil =>
      -- nothing was folded, so nothing can be completed
      rw [hfolds] at hends
      cases hends with
      | quiet | broken => exact .singleton _
      | inferred reached => cases reached
  | cons f fs =>
      obtain ⟨hadvance, hannounced⟩ := advance_of_first hfolds
      rw [hfolds] at hchain
      rw [shown_foldsFrom hfolds]
      by_cases hopening : f.event = .started
      · rw [if_pos hopening, ← hannounced hopening]
        exact hchain
      · rw [if_neg hopening]
        exact List.isChain_cons_cons.mpr ⟨.inl ⟨f.event, hadvance⟩, hchain⟩

/-! ## The steps of a channel -/

/-- A stream that is drained is one that has been received. -/
theorem exists_follow_track (context : Context) (capacity : Nat) (deliveries : List Delivery) :
    ∃ actions c, (Channel.new context capacity deliveries true).follow? actions = some c
      ∧ c.received = track context capacity deliveries := by
  obtain ⟨actions, hfollow, -⟩ :=
    (Channel.new context capacity deliveries true).exists_follow_drain
  exact ⟨actions, _, hfollow, rfl⟩

/-- **What has been received is a beginning of what the deliveries give undisturbed.** -/
theorem received_prefix_track
    (h : (Channel.new context capacity input ended).follow? actions = some c) :
    c.received <+: track context capacity (input ++ Channel.arrivals actions) := by
  have hbegins := (Channel.follow_outlook h (Channel.isFramed_new _ _ _ _) (fun _ => rfl)).1
  rw [Channel.outlook_new, List.append_nil] at hbegins
  rw [track_eq]
  exact ((List.prefix_append _ _).trans (c.handed_prefix_outlook [])).trans hbegins

theorem snapshots_received_prefix
    (h : (Channel.new context capacity input ended).follow? actions = some c) :
    snapshots c.received
      <+: snapshots (track context capacity (input ++ Channel.arrivals actions)) :=
  (received_prefix_track h).filterMap Except.toOption

/-- The snapshots received follow each other, the first of them a new pull, and are built from
lines. -/
theorem received_isChain
    (h : (Channel.new context capacity input ended).follow? actions = some c) :
    (Pull.new context :: snapshots c.received).IsChain Pull.Succeeds
      ∧ ∀ p ∈ snapshots c.received, p.BuiltFrom PullEvent.IsClassified := by
  have hbegins := snapshots_received_prefix h
  refine ⟨?_, fun p hp => builtFrom_of_mem_track (hbegins.subset hp)⟩
  have hchain := isChain_track context capacity (input ++ Channel.arrivals actions)
  obtain ⟨rest, hrest⟩ := hbegins
  rw [← hrest, ← List.cons_append] at hchain
  exact hchain.left_of_append

end Stream

end ImagePull
