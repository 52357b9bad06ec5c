import ImagePull.Proofs.Pull.Completion
import ImagePull.Proofs.Stream.Folds
import Mathlib.Data.List.Chain

/-!
# How the snapshots of a stream follow each other

Each snapshot comes from the one before it by an event or is its completion (`Pull.Succeeds`), so
nothing that is settled is lost (`Pull.GrowsTo`) and little changes at a time (`Pull.AltersOne`).
As nothing succeeds a pull that has ended, such a snapshot is the last item of its stream.
-/

namespace ImagePull

/-! ## Two snapshots -/

namespace Pull

/-- The second snapshot comes from the first by an event, or is its completion. -/
def Succeeds (s t : Pull) : Prop :=
  (∃ event, s.advance event = .ok t) ∨ s.finalize? = some t

/-- What the first snapshot has settled the second one has as well. -/
structure GrowsTo (s t : Pull) : Prop where
  context : t.context = s.context
  tracked : ∀ id ∈ s.layers.ids, id ∈ t.layers.ids
  ended : ∀ id l, s.layers.get? id = some l → l.state.isTerminal = true →
    t.layers.get? id = some l
  digest : s.digest ≠ none → t.digest ≠ none

/-- The snapshots differ in one layer at most, and if they do in nothing that tells how far the
pull as a whole is. -/
structure AltersOne (s t : Pull) : Prop where
  layer : ∀ a b, s.layers.get? a ≠ t.layers.get? a → s.layers.get? b ≠ t.layers.get? b → a = b
  apart : s.layers ≠ t.layers → t.status = s.status ∧ t.digest = s.digest

variable {s t u : Pull}

theorem GrowsTo.trans (hst : s.GrowsTo t) (htu : t.GrowsTo u) : s.GrowsTo u where
  context := htu.context.trans hst.context
  tracked id hid := htu.tracked id (hst.tracked id hid)
  ended id l hl hended := htu.ended id l (hst.ended id l hl hended) hended
  digest hd := htu.digest (hst.digest hd)

instance : Trans GrowsTo GrowsTo GrowsTo := ⟨GrowsTo.trans⟩

/-- Snapshots of the same layers, of which the second may know a digest that the first does not. -/
theorem growsTo_of_layers_eq (hcontext : t.context = s.context) (hlayers : t.layers = s.layers)
    (hdigest : s.digest ≠ none → t.digest ≠ none) : s.GrowsTo t where
  context := hcontext
  tracked _ hid := hlayers ▸ hid
  ended _ _ hl _ := hlayers ▸ hl
  digest := hdigest

theorem altersOne_of_layers_eq (hlayers : t.layers = s.layers) : s.AltersOne t where
  layer a _ ha := absurd (by rw [hlayers]) ha
  apart hne := absurd hlayers.symm hne

/-- An event of a layer that is accepted leaves the layers that have ended as they are. -/
theorem growsTo_insert {id : String} {event : LayerEvent} {l : Layer}
    (hnext : Layer.next id (s.layers.get? id) event = .ok l) :
    s.GrowsTo { s with layers := s.layers.insert id l } where
  context := rfl
  tracked other hother := by
    rw [LayerTable.mem_ids_iff, LayerTable.get?_insert]
    split
    · exact Option.some_ne_none l
    · exact LayerTable.mem_ids_iff.mp hother
  ended other l' hl' hended := by
    rw [LayerTable.get?_insert, if_neg, hl']
    rintro rfl
    -- a layer that has ended accepts nothing
    rw [hl', Layer.next, Layer.advance, if_pos hended] at hnext
    cases hnext
  digest hd := hd

theorem altersOne_insert (s : Pull) (id : String) (l : Layer) :
    s.AltersOne { s with layers := s.layers.insert id l } where
  layer a b ha hb := by
    rw [LayerTable.get?_insert] at ha hb
    have hid (other : String)
        (hother : s.layers.get? other ≠ if id = other then some l else s.layers.get? other) :
        id = other := by
      by_contra hne
      rw [if_neg hne] at hother
      exact hother rfl
    exact (hid a ha).symm.trans (hid b hb)
  apart _ := ⟨rfl, rfl⟩

/-- **What an event or a completion keeps.** -/
theorem Succeeds.growsTo (h : s.Succeeds t) : s.GrowsTo t := by
  rcases h with ⟨event, hadvance⟩ | hfinal
  · cases advanced hadvance with
    | layer hnext => exact growsTo_insert hnext
    | digest d => exact growsTo_of_layers_eq rfl rfl fun _ => Option.some_ne_none d
    | started | error | final => exact growsTo_of_layers_eq rfl rfl id
  · obtain ⟨-, resolved, newer, -, -, rfl⟩ := finalize?_eq_some.mp hfinal
    exact growsTo_of_layers_eq rfl rfl fun _ => by simp [completed]

/-- **What an event or a completion changes.** -/
theorem Succeeds.altersOne (h : s.Succeeds t) : s.AltersOne t := by
  rcases h with ⟨event, hadvance⟩ | hfinal
  · cases advanced hadvance with
    | layer hnext => exact altersOne_insert s _ _
    | started | digest | error | final => exact altersOne_of_layers_eq rfl
  · obtain ⟨-, resolved, newer, -, -, rfl⟩ := finalize?_eq_some.mp hfinal
    exact altersOne_of_layers_eq rfl

/-- Nothing succeeds a pull that has ended. -/
theorem Succeeds.running (h : s.Succeeds t) : s.isTerminal = false := by
  rw [isTerminal_eq_false_iff]
  rcases h with ⟨event, hadvance⟩ | hfinal
  · exact inProgress_of_advance hadvance
  · exact (finalize?_eq_some.mp hfinal).1.running

theorem running_of_isChain {ps : List Pull} (h : ps.IsChain Succeeds) :
    ∀ p ∈ ps.dropLast, p.isTerminal = false := by
  induction ps with
  | nil => exact List.forall_mem_nil _
  | cons p rest ih =>
      cases rest with
      | nil => exact List.forall_mem_nil _
      | cons q rest =>
          obtain ⟨hpq, hrest⟩ := List.isChain_cons_cons.mp h
          rw [List.dropLast_cons_cons]
          exact List.forall_mem_cons.mpr ⟨hpq.running, ih hrest⟩

theorem running_of_isChain_of_getLast? {ps : List Pull} (h : ps.IsChain Succeeds)
    (hlast : ∀ p ∈ ps.getLast?, p.isTerminal = false) : ∀ p ∈ ps, p.isTerminal = false := by
  rcases List.eq_nil_or_concat ps with rfl | ⟨before, last, rfl⟩
  · exact List.forall_mem_nil _
  · rw [List.concat_eq_append] at h hlast ⊢
    have hbefore := running_of_isChain h
    rw [List.dropLast_concat] at hbefore
    exact List.forall_mem_append.mpr
      ⟨hbefore, List.forall_mem_singleton.mpr (hlast last List.getLast?_concat)⟩

end Pull

namespace Stream

/-! ## A whole stream -/

/-- The snapshots among items. -/
def snapshots (items : List StreamItem) : List Pull :=
  items.filterMap Except.toOption

variable {context : Context} {current : Option Pull} {lines : List (List UInt8)}

theorem mem_snapshots {items : List StreamItem} {p : Pull} :
    p ∈ snapshots items ↔ .ok p ∈ items := by
  simp only [snapshots, List.mem_filterMap, toOption_eq_some, exists_eq_right]

@[simp]
theorem snapshots_append (items items' : List StreamItem) :
    snapshots (items ++ items') = snapshots items ++ snapshots items' :=
  List.filterMap_append

@[simp]
theorem snapshots_map_ok (ps : List Pull) : snapshots (ps.map .ok) = ps := by
  simp [snapshots, List.filterMap_map, Function.comp_def, Except.toOption]

/-- Each fold succeeds the one before it. -/
theorem isChain_foldsFrom (context : Context) (current : Option Pull)
    (lines : List (List UInt8)) :
    (current.toList ++ (foldsFrom context current lines).map Fold.pull).IsChain Pull.Succeeds := by
  induction lines generalizing current with
  | nil => cases current <;> simp [foldsFrom]
  | cons line rest ih =>
      rw [foldsFrom]
      cases hfold : fold? context current line with
      | none => cases current <;> simp
      | some f =>
          simp only [List.map_cons]
          refine List.isChain_append.mpr ⟨by cases current <;> simp, ?_, ?_⟩
          · split
            · exact .singleton _
            · exact ih (some f.pull)
          · intro p hp q hq
            obtain ⟨-, -, -, hnext⟩ := fold?_eq_some.mp hfold
            cases hq
            cases current with
            | none => cases hp
            | some previous =>
                cases hp
                exact .inl ⟨f.event, hnext⟩

theorem reached_none (fs : List Fold) : reached none fs = (fs.map Fold.pull).getLast? := by
  rw [reached, Option.or_none, List.getLast?_map]

theorem isChain_pulls (context : Context) (lines : List (List UInt8)) :
    ((foldsFrom context none lines).map Fold.pull).IsChain Pull.Succeeds :=
  isChain_foldsFrom context none lines

theorem shown_suffix (context : Context) (lines : List (List UInt8)) :
    shown (foldsFrom context none lines) <:+ (foldsFrom context none lines).map Fold.pull := by
  cases hfolds : foldsFrom context none lines with
  | nil => exact List.suffix_rfl
  | cons f fs =>
      rw [shown_foldsFrom hfolds, List.map_cons]
      split
      · exact List.suffix_cons _ _
      · exact List.suffix_rfl

/-- The folds of a stream and the completion that its end allows are a chain. -/
theorem isChain_pulls_append {tail : List StreamItem}
    (hends : Ends (reached none (foldsFrom context none lines)) tail) :
    ((foldsFrom context none lines).map Fold.pull ++ snapshots tail).IsChain Pull.Succeeds := by
  refine List.isChain_append.mpr ⟨isChain_pulls context lines, ?_, ?_⟩
  · cases hends with
    | quiet | broken => exact .nil
    | inferred => exact .singleton _
  · intro p hp q hq
    cases hends with
    | quiet | broken => cases hq
    | inferred hreached hfinal =>
        cases hq
        rw [reached_none, hp] at hreached
        cases hreached
        exact .inr hfinal

/-- What a stream gives is a chain, up to an error that may end it. -/
theorem isChain_of_ends {tail : List StreamItem}
    (hends : Ends (reached none (foldsFrom context none lines)) tail) :
    (shown (foldsFrom context none lines) ++ snapshots tail).IsChain Pull.Succeeds :=
  (isChain_pulls_append hends).suffix
    (List.suffix_append_self_iff.mpr (shown_suffix context lines))

/-- Before an error that ends the stream no snapshot has ended the pull. -/
theorem running_of_mem_shown
    (hlast : ∀ p ∈ reached none (foldsFrom context none lines), p.isTerminal = false) :
    ∀ p ∈ shown (foldsFrom context none lines), p.isTerminal = false := by
  intro p hp
  rw [reached_none] at hlast
  exact Pull.running_of_isChain_of_getLast? (isChain_pulls context lines) hlast p
    ((shown_suffix context lines).subset hp)

/-- **An error or the end of the pull comes last.** -/
theorem running_of_mem_dropLast {tail : List StreamItem}
    (hends : Ends (reached none (foldsFrom context none lines)) tail) :
    ∀ item ∈ ((shown (foldsFrom context none lines)).map .ok ++ tail : List StreamItem).dropLast,
      ∃ p, item = .ok p ∧ p.isTerminal = false := by
  have hchain := Pull.running_of_isChain (isChain_of_ends hends)
  have hok (ps : List Pull) (h : ∀ p ∈ ps, p.isTerminal = false) :
      ∀ item ∈ (ps.map .ok : List StreamItem), ∃ p, item = .ok p ∧ p.isTerminal = false := by
    intro item hitem
    obtain ⟨p, hp, rfl⟩ := List.mem_map.mp hitem
    exact ⟨p, rfl, h p hp⟩
  cases hends with
  | quiet =>
      rw [List.append_nil, ← List.map_dropLast]
      exact hok _ (by simpa [snapshots] using hchain)
  | inferred hreached hfinal =>
      rw [List.dropLast_concat]
      exact hok _ (by simpa [snapshots, Except.toOption] using hchain)
  | broken e running =>
      rw [List.dropLast_concat]
      exact hok _ (running_of_mem_shown running)

/-! ## Counting -/

theorem length_shown (context : Context) (lines : List (List UInt8)) :
    (shown (foldsFrom context none lines)).length
        + (if (foldsFrom context none lines).head?.map Fold.event = some .started then 1 else 0)
      = (foldsFrom context none lines).length := by
  cases hfolds : foldsFrom context none lines with
  | nil => rfl
  | cons f fs =>
      rw [shown_foldsFrom hfolds]
      by_cases hevent : f.event = .started <;> simp [hevent]

/-- Of all snapshots only a completion at the end of the stream is inferred. -/
theorem any_synthesized {tail : List StreamItem}
    (hends : Ends (reached none (foldsFrom context none lines)) tail) :
    (if (shown (foldsFrom context none lines) ++ snapshots tail).any Pull.synthesized
      then 1 else 0) = (snapshots tail).length := by
  have hshown : (shown (foldsFrom context none lines)).any Pull.synthesized = false := by
    rw [List.any_eq_false]
    intro p hp
    obtain ⟨f, hf, rfl⟩ := exists_of_mem_shown hp
    simp [synthesized_of_mem_foldsFrom hf]
  rw [List.any_append, hshown]
  cases hends with
  | quiet | broken => rfl
  | inferred hreached hfinal =>
      simp [snapshots, Except.toOption, (Pull.isCompletion_of_finalize? hfinal).synthesized]

/-- **The shape of a stream.** Only its last item can be an error or end the pull; the snapshots
are those of the records that are folded, without an announcement and with a completion that is
inferred; and each keeps what those before it have settled and changes little. -/
theorem track_shape (context : Context) (capacity : Nat) (deliveries : List Delivery) :
    (∀ item ∈ (track context capacity deliveries).dropLast,
        ∃ p, item = .ok p ∧ p.isTerminal = false)
      ∧ (snapshots (track context capacity deliveries)).length
          + (if (folds context deliveries).head?.map Fold.event = some .started then 1 else 0)
        = (folds context deliveries).length
          + (if (snapshots (track context capacity deliveries)).any Pull.synthesized
              then 1 else 0)
      ∧ (snapshots (track context capacity deliveries)).Pairwise Pull.GrowsTo
      ∧ (snapshots (track context capacity deliveries)).IsChain Pull.AltersOne := by
  obtain ⟨tail, hitems, hends⟩ := track_eq_shown context capacity deliveries
  rw [hitems, snapshots_append, snapshots_map_ok]
  rw [folds] at hends ⊢
  have hchain := isChain_of_ends hends
  refine ⟨running_of_mem_dropLast hends, ?_, ?_, ?_⟩
  · rw [any_synthesized hends, List.length_append, ← length_shown context]
    omega
  · exact (hchain.imp fun _ _ h => h.growsTo).pairwise
  · exact hchain.imp fun _ _ h => h.altersOne

end Stream

end ImagePull
