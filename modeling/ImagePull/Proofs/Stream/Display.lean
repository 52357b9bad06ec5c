import ImagePull.Command.Output
import ImagePull.Proofs.Pull.Changes
import ImagePull.Proofs.Stream.Received
import ImagePull.Proofs.Stream.Warnings

/-!
# What is shown of a run

A run is shown by the lines for what changed from each of its snapshots to the next. As a record
changes one layer at most, or else something of the pull as a whole, there is one line at most for
each of them (`Succeeds.length_changes_le`). The lines for the status are few: that the pull
finishes, when its digest is first known, and how it has ended (`status_along`).
-/

namespace ImagePull

namespace Pull

variable {β : Type} {say : Option Pull → Pull → β} {previous : Option Pull} {p s t : Pull}
  {ps : List Pull}

/-! ## Along a run -/

/-- What there is to say of each snapshot of a run after the one before it. -/
def along (say : Option Pull → Pull → β) (previous : Option Pull) : List Pull → List β
  | [] => []
  | p :: rest => say previous p :: along say (some p) rest

theorem along_append (say : Option Pull → Pull → β) (previous : Option Pull) (ps qs : List Pull) :
    along say previous (ps ++ qs)
      = along say previous ps ++ along say (ps.getLast?.or previous) qs := by
  induction ps generalizing previous with
  | nil => rfl
  | cons p rest ih =>
      rw [List.cons_append, along, along, ih, List.cons_append, List.getLast?_cons]
      cases rest.getLast? <;> rfl

theorem along_prefix {qs : List Pull} (h : ps <+: qs) :
    along say previous ps <+: along say previous qs := by
  obtain ⟨rest, rfl⟩ := h
  rw [along_append]
  exact List.prefix_append _ _

/-- Only the first snapshot has to do with what there was before. -/
theorem along_congr {other : Option Pull} (h : ∀ p, say previous p = say other p)
    (ps : List Pull) : along say previous ps = along say other ps := by
  cases ps with
  | nil => rfl
  | cons p rest => rw [along, along, h]

theorem changes_new (context : Context) (p : Pull) :
    changes (some (.new context)) p = changes none p := by
  rw [changes_eq, changes_eq, changedLayers_new, statusLines_new]

/-! ## Two snapshots -/

theorem AltersOne.length_changedLayers_le (h : s.AltersOne t) (ht : t.IsKeyed) :
    (changedLayers (some s) t).length ≤ 1 := by
  have hid {l l' : Layer} (hl : l ∈ changedLayers (some s) t)
      (hl' : l' ∈ changedLayers (some s) t) : l.id = l'.id := by
    obtain ⟨hget, hchanged⟩ := (mem_changedLayers ht).mp hl
    obtain ⟨hget', hchanged'⟩ := (mem_changedLayers ht).mp hl'
    exact h.layer l.id l'.id (hget ▸ hchanged) (hget' ▸ hchanged')
  have hincreasing := changedLayers_increasing ht (some s)
  match hlayers : changedLayers (some s) t with
  | [] | [_] => simp
  | l :: l' :: rest =>
      -- two layers would have different ids
      rw [hlayers] at hid hincreasing
      have hlt : l.id < l'.id := List.rel_of_pairwise_cons hincreasing List.mem_cons_self
      rw [hid List.mem_cons_self (List.mem_cons_of_mem l List.mem_cons_self)] at hlt
      exact absurd hlt (String.lt_irrefl _)

/-- **A record changes one layer or the status**, so there is one line at most. -/
theorem Succeeds.length_changes_le (h : s.Succeeds t) (hs : s.IsKeyed) :
    (changes (some s) t).length ≤ 1 := by
  have ht := h.isKeyed hs
  rw [changes_eq, List.length_append, List.length_map]
  by_cases hlayers : t.layers = s.layers
  · rw [changedLayers_of_layers_eq ht hlayers, statusLines]
    split <;> simp
  · obtain ⟨hstatus, hdigest⟩ := h.altersOne.apart (Ne.symm hlayers)
    have hsilent : statusLines (some s) t = [] := by
      have htext : t.text = s.text := by rw [text, text, hstatus, hdigest]
      simp [statusLines, htext]
    rw [hsilent]
    exact h.altersOne.length_changedLayers_le ht

/-- **The end of a pull is all that is shown of its last snapshot.** -/
theorem Succeeds.changes_of_isTerminal (h : s.Succeeds t) (hs : s.IsKeyed)
    (hend : t.isTerminal = true) : changes (some s) t = [t.text] := by
  have hrunning := h.running
  have hlayers : t.layers = s.layers := by
    by_contra hne
    obtain ⟨hstatus, -⟩ := h.altersOne.apart (Ne.symm hne)
    rw [isTerminal, hstatus] at hend
    rw [isTerminal, hend] at hrunning
    cases hrunning
  rw [changes_eq, changedLayers_of_layers_eq (h.isKeyed hs) hlayers,
    statusLines_of_running hrunning, if_pos hend]
  rfl

/-! ## Whole runs -/

theorem length_changes_along (h : (s :: ps).IsChain Succeeds) (hs : s.IsKeyed) :
    ∀ lines ∈ along changes (some s) ps, lines.length ≤ 1 := by
  induction ps generalizing s with
  | nil => exact List.forall_mem_nil _
  | cons p rest ih =>
      obtain ⟨hnext, hrest⟩ := List.isChain_cons_cons.mp h
      exact List.forall_mem_cons.mpr
        ⟨hnext.length_changes_le hs, ih hrest (hnext.isKeyed hs)⟩

/-- A running snapshot that knows the digest of its image. -/
def isFinishing (p : Pull) : Bool :=
  !p.isTerminal && p.digest.isSome

/-- The text of the last snapshot, if it has ended the pull. -/
def ending? (ps : List Pull) : Option String :=
  (ps.getLast?.filter isTerminal).map text

theorem ending?_of_isTerminal (h : p.isTerminal = true) : ending? [p] = some p.text := by
  rw [ending?, List.getLast?_singleton, Option.filter_some_pos h]
  rfl

theorem ending?_cons (h : p.isTerminal = false) (rest : List Pull) :
    ending? (p :: rest) = ending? rest := by
  cases rest with
  | nil => simp [ending?, Option.filter, h]
  | cons q later => rw [ending?, ending?, List.getLast?_cons_cons]

/-- **The status of a run is shown when it finishes and when it has ended.** -/
theorem status_along (h : (s :: ps).IsChain Succeeds) :
    (along statusLines (some s) ps).flatten
      = (if s.digest.isNone && ps.any isFinishing then ["Finishing"] else [])
        ++ (ending? ps).toList := by
  induction ps generalizing s with
  | nil => simp [along, ending?]
  | cons p rest ih =>
      obtain ⟨hnext, hrest⟩ := List.isChain_cons_cons.mp h
      rw [along, List.flatten_cons, ih hrest, statusLines_of_running hnext.running, List.any_cons]
      cases hend : p.isTerminal with
      | true =>
          have hlast : rest = [] := by
            -- nothing succeeds a pull that has ended
            cases rest with
            | nil => rfl
            | cons q later =>
                have hrunning := (List.isChain_cons_cons.mp hrest).1.running
                rw [hend] at hrunning
                cases hrunning
          rw [hlast, ending?_of_isTerminal hend]
          simp [isFinishing, hend, ending?]
      | false =>
          have hfinishing : p.isFinishing = p.digest.isSome := by simp [isFinishing, hend]
          rw [ending?_cons hend, hfinishing, ← List.append_assoc]
          congr 1
          cases hdigest : p.digest with
          | none =>
              -- a digest that is known stays known
              have hnone : s.digest = none :=
                Decidable.not_not.mp fun hsome => hnext.growsTo.digest hsome hdigest
              simp [hnone]
          | some d => cases s.digest <;> simp

/-- **The end of a pull is the last line that is shown of it.** -/
theorem getLast?_changes_along {last : Pull} (h : (s :: ps).IsChain Succeeds) (hs : s.IsKeyed)
    (hlast : ps.getLast? = some last) (hend : last.isTerminal = true) :
    (along changes (some s) ps).flatten.getLast? = some last.text := by
  induction ps generalizing s with
  | nil => cases hlast
  | cons p rest ih =>
      obtain ⟨hnext, hrest⟩ := List.isChain_cons_cons.mp h
      rw [along, List.flatten_cons]
      cases rest with
      | nil =>
          cases hlast
          rw [hnext.changes_of_isTerminal hs hend]
          rfl
      | cons q later =>
          rw [List.getLast?_cons_cons] at hlast
          rw [List.getLast?_append, ih hrest (hnext.isKeyed hs) hlast, Option.some_or]

end Pull

namespace Stream

variable {context : Context}

/-! ## Records -/

/-- The lines for a record: what changed from the snapshot that it was folded into. -/
def Fold.changes (context : Context) (f : Fold) : List String :=
  Pull.changes (some (f.start context)) f.pull

/-- The lines for the records whose snapshots are given out. -/
def shownChanges (context : Context) (fs : List Fold) : List (List String) :=
  (fs.filter fun f => !f.isAnnouncement).map (Fold.changes context)

/-- The snapshot that was given out last is the one that the next record is folded into, and the
lines for the snapshots are those for their records. -/
structure Displayed (context : Context) (fs : List Fold) (p : Pull) : Prop where
  reached : (shown fs).getLast?.getD (.new context) = p
  changes : Pull.along Pull.changes none (shown fs) = shownChanges context fs

theorem Displayed.changes_eq {fs : List Fold} {p : Pull} (h : Displayed context fs p) (q : Pull) :
    Pull.changes (shown fs).getLast? q = Pull.changes (some p) q := by
  have hreached := h.reached
  cases hlast : (shown fs).getLast? with
  | none =>
      rw [hlast] at hreached
      rw [← hreached]
      exact (Pull.changes_new context q).symm
  | some last =>
      rw [hlast] at hreached
      rw [← hreached]
      rfl

/-- One more record is displayed. -/
theorem Displayed.append {fs : List Fold} {f : Fold} (h : Displayed context fs (f.start context))
    (hadvance : (f.start context).advance f.event = .ok f.pull) :
    Displayed context (fs ++ [f]) f.pull := by
  have hshown : shown (fs ++ [f]) = shown fs ++ if f.isAnnouncement then [] else [f.pull] := by
    cases hf : f.isAnnouncement <;> simp [shown, hf]
  have hchanges : shownChanges context (fs ++ [f]) = shownChanges context fs
      ++ if f.isAnnouncement then [] else [f.changes context] := by
    cases hf : f.isAnnouncement <;> simp [shownChanges, hf]
  cases hf : f.isAnnouncement with
  | true =>
      -- an announcement is not shown, and changes nothing
      rw [hf, if_pos rfl, List.append_nil] at hshown hchanges
      have hstarted : f.event = .started := (of_decide_eq_true hf).2
      rw [hstarted] at hadvance
      have hsame := Pull.eq_of_advance_started hadvance
      exact ⟨by rw [hshown, hsame, h.reached], by rw [hshown, hchanges, h.changes]⟩
  | false =>
      rw [hf] at hshown hchanges
      refine ⟨?_, ?_⟩
      · rw [hshown]
        simp
      · rw [hshown, hchanges, ← h.changes]
        simp only [Bool.false_eq_true, if_false]
        rw [Pull.along_append, Option.or_none, Pull.along, h.changes_eq, Pull.along]
        rfl

/-- **The lines for the snapshots of a stream are those for its records**, and the end of the pull
for a completion that was inferred. -/
theorem changes_of_track (context : Context) (capacity : Nat) (deliveries : List Delivery) :
    ∃ inferred : Option Pull, (∀ q ∈ inferred, q.synthesized = true)
        ∧ snapshots (track context capacity deliveries)
          = shown (folds context deliveries) ++ inferred.toList
        ∧ Pull.along Pull.changes none (snapshots (track context capacity deliveries))
          = shownChanges context (folds context deliveries)
            ++ inferred.toList.map fun q => [q.text] := by
  obtain ⟨tail, hitems, hends⟩ := track_eq_shown context capacity deliveries
  rw [hitems, snapshots_append, snapshots_map_ok, Pull.along_append, Option.or_none]
  rw [folds] at hends ⊢
  have hdisplayed : Displayed context _ _ := holds_of_foldsFrom ⟨rfl, rfl⟩
    (fun hbefore hadvance => hbefore.append hadvance) (deliveredRecords deliveries)
  rw [hdisplayed.changes]
  rcases snapshots_of_ends hends with hnone | ⟨p, q, hreached, hfinal, hone⟩
  · rw [hnone]
    exact ⟨none, by simp, rfl, rfl⟩
  · have hcompletion := Pull.isCompletion_of_finalize? hfinal
    have hkeyed : p.IsKeyed := by
      obtain ⟨before, f, hfolds, rfl⟩ := exists_of_reached hreached
      have hf : f ∈ foldsFrom context none (deliveredRecords deliveries) := by simp [hfolds]
      exact holds_of_mem_foldsFrom (Pull.isKeyed_new context) Pull.IsKeyed.advance hf
    have hend : q.isTerminal = true := by
      obtain ⟨resolved, newer, -, hstatus, -⟩ := hcompletion.status
      rw [Pull.isTerminal, hstatus]
      rfl
    have hlast : Pull.changes (shown (foldsFrom context none (deliveredRecords deliveries))).getLast?
        q = [q.text] := by
      rw [hdisplayed.changes_eq, hreached, Option.getD_some]
      exact Pull.Succeeds.changes_of_isTerminal (.inr hfinal) hkeyed hend
    rw [hone, Pull.along, hlast]
    exact ⟨some q, fun _ hq => Option.some.inj hq ▸ hcompletion.synthesized, rfl, rfl⟩

theorem ofSnapshots_normal (previous : Option Pull) (ps : List Pull) :
    Command.Report.ofSnapshots .normal previous ps
      = (Pull.along Pull.changes previous ps).flatten.map .plain := by
  induction ps generalizing previous with
  | nil => rfl
  | cons p rest ih =>
      rw [Command.Report.ofSnapshots, ih, Pull.along, List.flatten_cons, List.map_append]
      rfl

/-- **What is shown of a run is faithful and minimal.**

Between two snapshots there is a line for each layer that the second tracks and the first lacks or
has otherwise, in the order of the bytes of their ids, and for no other layer. At most the status
follows.

Of the snapshots that a consumer receives, in whatever order the steps come, there is one line at
most for each. It is for what the record of the snapshot changed, and a completion that no record
told is shown by its text. The lines for the status are that the pull finishes, if a running
snapshot knows the digest, and the text of the last snapshot, if it has ended the pull: this is the
last line of all. -/
theorem changes_of_snapshots :
    (∀ (kind : PullEvent → Prop) (previous : Option Pull) (p : Pull), p.BuiltFrom kind →
        Pull.changes previous p
            = (Pull.changedLayers previous p).map p.layerLine ++ Pull.statusLines previous p
          ∧ ((Pull.changedLayers previous p).map Layer.id).Pairwise
              (fun a b => Text.Utf8.bytes a < Text.Utf8.bytes b)
          ∧ (∀ l, l ∈ Pull.changedLayers previous p
              ↔ p.layers.get? l.id = some l
                ∧ (previous.bind fun s => s.layers.get? l.id) ≠ some l)
          ∧ (Pull.statusLines previous p = [] ∨ Pull.statusLines previous p = [p.text]))
      ∧ ∀ (context : Context) (capacity : Nat) (input : List Delivery) (ended : Bool)
          (actions : List Action) (c : Channel),
          (Channel.new context capacity input ended).follow? actions = some c →
          let ps := snapshots c.received
          let fs := folds context (input ++ Channel.arrivals actions)
          let lines := Pull.along Pull.changes none ps
          (∀ call ∈ lines, call.length ≤ 1)
            ∧ (∃ inferred : Option Pull, (∀ q ∈ inferred, q.synthesized = true)
                ∧ ps <+: shown fs ++ inferred.toList
                ∧ lines <+: shownChanges context fs ++ inferred.toList.map fun q => [q.text])
            ∧ (Pull.along Pull.statusLines none ps).flatten
                = (if ps.any Pull.isFinishing then ["Finishing"] else [])
                  ++ (Pull.ending? ps).toList
            ∧ (∀ text ∈ Pull.ending? ps, lines.flatten.getLast? = some text)
            ∧ Command.Report.ofSnapshots .normal none ps = lines.flatten.map .plain := by
  refine ⟨?_, ?_⟩
  · intro kind previous p hbuilt
    have hincreasing := Pull.changedLayers_increasing hbuilt.isKeyed previous
    refine ⟨Pull.changes_eq previous p, hincreasing.imp Text.Utf8.bytes_lt,
      fun l => Pull.mem_changedLayers hbuilt.isKeyed, ?_⟩
    rw [Pull.statusLines]
    split
    · exact .inr rfl
    · exact .inl rfl
  · intro context capacity input ended actions c h ps fs lines
    obtain ⟨hchain, -⟩ := received_isChain h
    have hnew : (Pull.new context).IsKeyed := Pull.isKeyed_new context
    have hlines : lines = Pull.along Pull.changes (some (.new context)) ps :=
      (Pull.along_congr (Pull.changes_new context) ps).symm
    refine ⟨?_, ?_, ?_, ?_, ofSnapshots_normal none ps⟩
    · rw [hlines]
      exact Pull.length_changes_along hchain hnew
    · obtain ⟨inferred, htold, hitems, hchanges⟩ :=
        changes_of_track context capacity (input ++ Channel.arrivals actions)
      have hbegins := snapshots_received_prefix h
      exact ⟨inferred, htold, hitems ▸ hbegins, hchanges ▸ Pull.along_prefix hbegins⟩
    · rw [← Pull.along_congr (Pull.statusLines_new context)]
      exact Pull.status_along hchain
    · intro text htext
      obtain ⟨last, hlast, rfl⟩ := Option.map_eq_some_iff.mp htext
      obtain ⟨hlast, hend⟩ := Option.filter_eq_some_iff.mp hlast
      rw [hlines]
      exact Pull.getLast?_changes_along hchain hnew hlast hend

/-- A pull of two layers, of which one record tells the digest again. -/
def repeatingStream : Delivery :=
  .chunk (Text.Utf8.bytes (
    "\x7b\"status\":\"Pulling from x\"\x7d\n" ++
    "\x7b\"id\":\"b\",\"status\":\"Pulling fs layer\"\x7d\n" ++
    "\x7b\"id\":\"a\",\"status\":\"Already exists\"\x7d\n" ++
    "\x7b\"status\":\"Digest: a:b\"\x7d\n" ++
    "\x7b\"status\":\"Digest: a:b\"\x7d\n" ++
    "\x7b\"status\":\"Status: x\"\x7d"))

/-- What is told again is not shown again. -/
theorem changes_of_snapshots_repeating :
    let ps := snapshots (track sampleContext 1 [repeatingStream])
    Pull.along Pull.changes none ps
        = [["b: Pulling fs layer"], ["a: Already exists"], ["Finishing"], [],
          ["Complete (Digest: a:b)"]]
      ∧ (Pull.along Pull.statusLines none ps).flatten
        = ["Finishing", "Complete (Digest: a:b)"] := by
  intro ps
  obtain ⟨actions, c, hfollow, hreceived⟩ :=
    exists_follow_track sampleContext 1 [repeatingStream]
  obtain ⟨-, -, hstatus, -⟩ := changes_of_snapshots.2 _ _ _ _ _ c hfollow
  have hview : Pull.along Pull.changes none ps
        = [["b: Pulling fs layer"], ["a: Already exists"], ["Finishing"], [],
          ["Complete (Digest: a:b)"]]
      ∧ ps.any Pull.isFinishing = true
      ∧ Pull.ending? ps = some "Complete (Digest: a:b)" := by
    decide +kernel
  obtain ⟨hlines, hfinishing, hending⟩ := hview
  refine ⟨hlines, ?_⟩
  rw [hreceived] at hstatus
  rw [hstatus, hfinishing, hending]
  rfl

end Stream

end ImagePull
