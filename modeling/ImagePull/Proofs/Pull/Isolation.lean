import ImagePull.Proofs.Layer.Fold
import ImagePull.Proofs.Layer.Table
import ImagePull.Proofs.Text.Utf8
import ImagePull.Pull.Basic

/-!
# Layers do not touch each other

While no event ends a pull, each of its layers is what its own events make of it, the digest is
the last one reported, and nothing else changes (`Pull.Folded`). One event does this by
`folded_of_advance`, any number of them by `folded_of_foldlM`. Hence the order in which the events
of different layers come does not matter (`layers_isolated`).
-/

namespace ImagePull

namespace PullEvent

/-- What an event says of the layer under an id, if it is about it. -/
def layerEvent? (id : String) : PullEvent → Option LayerEvent
  | .layer about event => if about = id then some event else none
  | _ => none

/-- The digest that an event reports. -/
def digest? : PullEvent → Option Digest
  | .digest d => some d
  | _ => none

/-- Whether an event is the failure or the final status of a pull. -/
def endsPull : PullEvent → Bool
  | .error _ | .final _ => true
  | _ => false

/-- The events of one layer among all events, in order. -/
def layerEvents (id : String) (events : List PullEvent) : List LayerEvent :=
  events.filterMap (layerEvent? id)

/-- The digests reported, in order. -/
def digests (events : List PullEvent) : List Digest :=
  events.filterMap digest?

theorem layerEvents_cons (id : String) (event : PullEvent) (rest : List PullEvent) :
    layerEvents id (event :: rest) = layerEvents id [event] ++ layerEvents id rest := by
  rw [layerEvents, layerEvents, layerEvents, ← List.filterMap_append, List.singleton_append]

theorem digests_cons (event : PullEvent) (rest : List PullEvent) :
    digests (event :: rest) = digests [event] ++ digests rest := by
  rw [digests, digests, digests, ← List.filterMap_append, List.singleton_append]

end PullEvent

namespace Pull

open PullEvent

/-! ## One event -/

/-- What events that do not end the pull make of a snapshot. -/
structure Folded (p : Pull) (events : List PullEvent) (p' : Pull) : Prop where
  status : p'.status = .inProgress
  context : p'.context = p.context
  synthesized : p'.synthesized = p.synthesized
  digest : p'.digest = (digests events).getLast?.or p.digest
  layers (id : String) :
    Layer.after id (p.layers.get? id) (layerEvents id events) = .ok (p'.layers.get? id)

theorem not_isTerminal_of_inProgress {p : Pull} (hp : p.status = .inProgress) :
    ¬p.status.isTerminal = true := by
  rw [hp]
  exact Bool.false_ne_true

theorem advance_layer {p : Pull} (hp : p.status = .inProgress) (id : String) (event : LayerEvent) :
    p.advance (.layer id event)
      = (Layer.next id (p.layers.get? id) event).map
          fun l => { p with layers := p.layers.insert id l } := by
  have hroute : p.route id event = Layer.next id (p.layers.get? id) event := by
    unfold route Layer.next
    cases p.layers.get? id <;> rfl
  rw [advance, if_neg (not_isTerminal_of_inProgress hp)]
  simp only [hroute]
  cases Layer.next id (p.layers.get? id) event <;> rfl

/-- A layer event gives one layer its next state and leaves every other layer alone. -/
theorem after_insert (p : Pull) {id : String} {event : LayerEvent} {l : Layer}
    (h : Layer.next id (p.layers.get? id) event = .ok l) (key : String) :
    Layer.after key (p.layers.get? key) (layerEvents key [.layer id event])
      = .ok ((p.layers.insert id l).get? key) := by
  rw [LayerTable.get?_insert]
  by_cases hid : id = key
  · subst hid
    simp only [layerEvents, layerEvent?, List.filterMap_cons, List.filterMap_nil, if_pos,
      Layer.after, h]
    rfl
  · simp only [layerEvents, layerEvent?, List.filterMap_cons, List.filterMap_nil, if_neg hid]
    rfl

/-- **What one event does**, if it is accepted and does not end the pull. -/
theorem folded_of_advance {p p' : Pull} {event : PullEvent} (hp : p.status = .inProgress)
    (hevent : event.endsPull = false) (h : p.advance event = .ok p') : p.Folded [event] p' := by
  cases event with
  | started =>
      rw [advance, if_neg (not_isTerminal_of_inProgress hp)] at h
      cases h
      exact ⟨hp, rfl, rfl, rfl, fun _ => rfl⟩
  | layer id layerEvent =>
      rw [advance_layer hp] at h
      obtain ⟨l, hnext, rfl⟩ := map_eq_ok.mp h
      exact ⟨hp, rfl, rfl, rfl, p.after_insert hnext⟩
  | digest d =>
      rw [advance, if_neg (not_isTerminal_of_inProgress hp)] at h
      cases h
      exact ⟨hp, rfl, rfl, rfl, fun _ => rfl⟩
  | error message => cases hevent
  | final status => cases hevent

/-- An event that does not end the pull is accepted if the layer that it is about accepts it. -/
theorem exists_advance {p : Pull} {event : PullEvent} (hp : p.status = .inProgress)
    (hevent : event.endsPull = false)
    (haccepted : ∀ id, ∃ l,
      Layer.after id (p.layers.get? id) (layerEvents id [event]) = .ok l) :
    ∃ p', p.advance event = .ok p' := by
  cases event with
  | layer id layerEvent =>
      rw [advance_layer hp]
      cases hnext : Layer.next id (p.layers.get? id) layerEvent with
      | error e =>
          obtain ⟨l, hl⟩ := haccepted id
          simp only [layerEvents, layerEvent?, List.filterMap_cons, List.filterMap_nil, if_pos,
            Layer.after, hnext] at hl
          cases hl
      | ok l => exact ⟨_, rfl⟩
  | error message => cases hevent
  | final status => cases hevent
  | _ =>
      rw [advance, if_neg (not_isTerminal_of_inProgress hp)]
      exact ⟨_, rfl⟩

/-! ## Any number of events -/

theorem Folded.refl {p : Pull} (hp : p.status = .inProgress) : p.Folded [] p :=
  ⟨hp, rfl, rfl, rfl, fun _ => rfl⟩

theorem Folded.cons {p p' p'' : Pull} {event : PullEvent} {rest : List PullEvent}
    (h : p.Folded [event] p') (h' : p'.Folded rest p'') : p.Folded (event :: rest) p'' where
  status := h'.status
  context := h'.context.trans h.context
  synthesized := h'.synthesized.trans h.synthesized
  digest := by
    rw [h'.digest, h.digest, digests_cons event rest, List.getLast?_append, Option.or_assoc]
  layers id := by
    rw [layerEvents_cons id event rest, Layer.after_append, h.layers id]
    exact h'.layers id

/-- **What a run does**, if it is accepted and nothing in it ends the pull. -/
theorem folded_of_foldlM {p p' : Pull} {events : List PullEvent} (hp : p.status = .inProgress)
    (hevents : ∀ event ∈ events, event.endsPull = false)
    (h : events.foldlM advance p = .ok p') : p.Folded events p' := by
  induction events generalizing p with
  | nil =>
      cases h
      exact .refl hp
  | cons event rest ih =>
      obtain ⟨hevent, hrest⟩ := List.forall_mem_cons.mp hevents
      obtain ⟨next, hadvance, hlater⟩ := foldlM_cons_eq_ok.mp h
      have hstep := folded_of_advance hp hevent hadvance
      exact hstep.cons (ih hstep.status hrest hlater)

/-- A run is accepted if every layer accepts its own events. -/
theorem exists_foldlM {p : Pull} {events : List PullEvent} (hp : p.status = .inProgress)
    (hevents : ∀ event ∈ events, event.endsPull = false)
    (haccepted : ∀ id, ∃ l,
      Layer.after id (p.layers.get? id) (layerEvents id events) = .ok l) :
    ∃ p', events.foldlM advance p = .ok p' := by
  induction events generalizing p with
  | nil => exact ⟨p, rfl⟩
  | cons event rest ih =>
      obtain ⟨hevent, hrest⟩ := List.forall_mem_cons.mp hevents
      -- what a layer accepts of all events it accepts of the first one and then of the rest
      have hsplit (id : String) : ∃ l, Layer.after id (p.layers.get? id) (layerEvents id [event])
          = .ok l ∧ ∃ l', Layer.after id l (layerEvents id rest) = .ok l' := by
        obtain ⟨l', hl'⟩ := haccepted id
        rw [layerEvents_cons, Layer.after_append] at hl'
        obtain ⟨l, hfirst, hlater⟩ := bind_eq_ok.mp hl'
        exact ⟨l, hfirst, l', hlater⟩
      obtain ⟨next, hadvance⟩ := exists_advance hp hevent fun id => (hsplit id).imp fun l hl => hl.1
      have hstep := folded_of_advance hp hevent hadvance
      have hlater (id : String) : ∃ l', Layer.after id (next.layers.get? id) (layerEvents id rest)
          = .ok l' := by
        obtain ⟨l, hl, hl'⟩ := hsplit id
        have hsame := hl.symm.trans (hstep.layers id)
        cases hsame
        exact hl'
      obtain ⟨p', hp'⟩ := ih hstep.status hrest hlater
      exact ⟨p', foldlM_cons_eq_ok.mpr ⟨next, hadvance, hp'⟩⟩

/-- What events make of a snapshot depends on the events of each layer and on the digests only. -/
theorem Folded.eq {p p' p'' : Pull} {events events' : List PullEvent} (h : p.Folded events p')
    (h' : p.Folded events' p'') (hlayers : ∀ id, layerEvents id events = layerEvents id events')
    (hdigests : digests events = digests events') : p' = p'' := by
  -- tables are compared under every id, where only the events of that layer count
  have htables : p'.layers = p''.layers := by
    apply LayerTable.ext_get?
    intro id
    have hsame := h.layers id
    rw [hlayers id, h'.layers id] at hsame
    exact (Except.ok.inj hsame).symm
  have hdigest : p'.digest = p''.digest := by rw [h.digest, h'.digest, hdigests]
  have hcontext := h.context.trans h'.context.symm
  have hstatus := h.status.trans h'.status.symm
  have hsynthesized := h.synthesized.trans h'.synthesized.symm
  cases p'
  cases p''
  simp_all

/-! ## A pull from its opening on -/

/-- An opening that is accepted is the first event of a pull that is still empty. -/
theorem advance_of_start {context : Context} {opening : PullEvent} {opened : Pull}
    (h : start context opening = .ok opened) : (new context).advance opening = .ok opened := by
  unfold start at h
  split at h
  · exact h
  · exact h
  · exact h
  · cases h

theorem not_endsPull_of_start {context : Context} {opening : PullEvent} {opened : Pull}
    (h : start context opening = .ok opened) (hopening : ∀ message, opening ≠ .error message) :
    opening.endsPull = false ∧ opening.digest? = none := by
  cases opening with
  | error message => exact absurd rfl (hopening message)
  | digest d => cases hflavor : context.flavor <;> simp [start, hflavor] at h
  | final status => cases hflavor : context.flavor <;> simp [start, hflavor] at h
  | _ => exact ⟨rfl, rfl⟩

theorem foldlM_of_start {context : Context} {opening : PullEvent} {opened : Pull}
    (h : start context opening = .ok opened) (events : List PullEvent) :
    (opening :: events).foldlM advance (new context) = events.foldlM advance opened := by
  rw [List.foldlM_cons, advance_of_start h]
  rfl

/-- A pull that has ended takes no event, so after a failure that opens it nothing can follow. -/
theorem foldlM_of_isTerminal {p : Pull} (h : p.status.isTerminal = true) (events : List PullEvent) :
    (∃ p', events.foldlM advance p = .ok p') ↔ events = [] := by
  constructor
  · rintro ⟨p', hp'⟩
    cases events with
    | nil => rfl
    | cons event rest =>
        have hrefused : p.advance event = .error (.pullTerminated p.status.name event.name) := by
          unfold advance
          exact if_pos h
        obtain ⟨next, hadvance, -⟩ := foldlM_cons_eq_ok.mp hp'
        rw [hrefused] at hadvance
        cases hadvance
  · rintro rfl
    exact ⟨p, rfl⟩

section Opened

variable {context : Context} {opening : PullEvent} {opened : Pull} {events : List PullEvent}
  (hstart : start context opening = .ok opened) (hopening : ∀ message, opening ≠ .error message)
  (hevents : ∀ event ∈ events, event.endsPull = false)

include hstart hopening hevents

theorem forall_not_endsPull : ∀ event ∈ opening :: events, event.endsPull = false :=
  List.forall_mem_cons.mpr ⟨(not_endsPull_of_start hstart hopening).1, hevents⟩

theorem folded_of_start {p : Pull} (h : events.foldlM advance opened = .ok p) :
    (new context).Folded (opening :: events) p := by
  rw [← foldlM_of_start hstart] at h
  exact folded_of_foldlM rfl (forall_not_endsPull hstart hopening hevents) h

theorem exists_foldlM_iff :
    (∃ p, events.foldlM advance opened = .ok p)
      ↔ ∀ id, ∃ l, Layer.ofEvents id (layerEvents id (opening :: events)) = .ok l := by
  constructor
  · rintro ⟨p, hp⟩ id
    have hfolded := (folded_of_start hstart hopening hevents hp).layers id
    rw [← Layer.after_none]
    exact ⟨_, hfolded⟩
  · intro haccepted
    have hnew (id : String) : ∃ l, Layer.after id ((new context).layers.get? id)
        (layerEvents id (opening :: events)) = .ok l := by
      obtain ⟨l, hl⟩ := haccepted id
      exact ⟨l, (Layer.after_none id _).trans hl⟩
    obtain ⟨p, hp⟩ := exists_foldlM rfl (forall_not_endsPull hstart hopening hevents) hnew
    rw [foldlM_of_start hstart] at hp
    exact ⟨p, hp⟩

/-- The same events of each layer and the same digests come to the same. -/
theorem toOption_eq {opening' : PullEvent} {opened' : Pull} {events' : List PullEvent}
    (hstart' : start context opening' = .ok opened')
    (hopening' : ∀ message, opening' ≠ .error message)
    (hevents' : ∀ event ∈ events', event.endsPull = false)
    (hlayers : ∀ id, layerEvents id (opening :: events) = layerEvents id (opening' :: events'))
    (hdigests : digests events = digests events') :
    (events.foldlM advance opened).toOption = (events'.foldlM advance opened').toOption := by
  have hall : digests (opening :: events) = digests (opening' :: events') := by
    have hnone := (not_endsPull_of_start hstart hopening).2
    have hnone' := (not_endsPull_of_start hstart' hopening').2
    rw [digests, digests, List.filterMap_cons_none hnone, List.filterMap_cons_none hnone']
    exact hdigests
  have hiff := exists_foldlM_iff hstart hopening hevents
  simp only [hlayers] at hiff
  have hboth := hiff.trans (exists_foldlM_iff hstart' hopening' hevents').symm
  cases hrun : events.foldlM advance opened with
  | ok p =>
      obtain ⟨p', hrun'⟩ := hboth.mp ⟨p, hrun⟩
      have hfolded := folded_of_start hstart hopening hevents hrun
      have hfolded' := folded_of_start hstart' hopening' hevents' hrun'
      rw [hrun', hfolded.eq hfolded' hlayers hall]
  | error e =>
      cases hrun' : events'.foldlM advance opened' with
      | ok p' =>
          obtain ⟨p, hp⟩ := hboth.mpr ⟨p', hrun'⟩
          rw [hrun] at hp
          cases hp
      | error e' => rfl

end Opened

namespace Folded

variable {context : Context} {events : List PullEvent} {p : Pull}

theorem get?_eq (h : (new context).Folded events p) (id : String) :
    Layer.ofEvents id (layerEvents id events) = .ok (p.layers.get? id) := by
  rw [← Layer.after_none]
  exact h.layers id

theorem id_of_mem (h : (new context).Folded events p) :
    ∀ e ∈ p.layers.entries, e.2.id = e.1 := by
  intro e he
  have hget := LayerTable.mem_entries_iff.mp he
  have hafter := h.layers e.1
  rw [hget] at hafter
  exact Layer.id_of_after hafter fun l hl => by cases hl

theorem ids_eq (h : (new context).Folded events p) :
    p.layers.layers.map Layer.id = p.layers.ids := by
  rw [LayerTable.layers, LayerTable.ids, List.map_map]
  exact List.map_congr_left h.id_of_mem

theorem mem_ids_iff (h : (new context).Folded events p) (id : String) :
    id ∈ p.layers.ids ↔ layerEvents id events ≠ [] := by
  have hget := h.get?_eq id
  rw [LayerTable.mem_ids_iff]
  cases hown : layerEvents id events with
  | nil =>
      rw [hown] at hget
      simp [← Except.ok.inj hget]
  | cons first rest =>
      rw [hown] at hget
      obtain ⟨l, hl⟩ := Layer.exists_of_ofEvents hget
      simp [hl]

end Folded

/-- **Layers are isolated.** From an opening that is no failure, events that do not end the pull
are accepted exactly if every layer accepts its own events, from the one that opens it on. Then
the pull is in progress; the layers listed are those that occurred, each once, in the order of
the bytes of their ids, under their own ids and each as its own events leave it; and the digest is
the last one reported. Two such pulls whose layers have the same events and which report the same
digests become equal or are both refused, however the events of different layers are mixed. -/
theorem layers_isolated {context : Context} {opening : PullEvent} {opened : Pull}
    {events : List PullEvent} (hstart : start context opening = .ok opened)
    (hopening : ∀ message, opening ≠ .error message)
    (hevents : ∀ event ∈ events, event.endsPull = false) :
    ((∃ p, events.foldlM advance opened = .ok p)
        ↔ ∀ id, ∃ l, Layer.ofEvents id (layerEvents id (opening :: events)) = .ok l)
      ∧ (∀ p, events.foldlM advance opened = .ok p →
          p.status = .inProgress
            ∧ (p.layers.layers.map Layer.id).Pairwise
                (fun a b => Text.Utf8.bytes a < Text.Utf8.bytes b)
            ∧ (∀ id, id ∈ p.layers.layers.map Layer.id ↔ layerEvents id (opening :: events) ≠ [])
            ∧ (∀ e ∈ p.layers.entries, e.2.id = e.1)
            ∧ (∀ id, Layer.ofEvents id (layerEvents id (opening :: events))
                = .ok (p.layers.get? id))
            ∧ p.digest = (digests events).getLast?)
      ∧ ∀ (opening' : PullEvent) (opened' : Pull) (events' : List PullEvent),
          start context opening' = .ok opened' → (∀ message, opening' ≠ .error message) →
          (∀ event ∈ events', event.endsPull = false) →
          (∀ id, layerEvents id (opening :: events) = layerEvents id (opening' :: events')) →
          digests events = digests events' →
          (events.foldlM advance opened).toOption = (events'.foldlM advance opened').toOption := by
  refine ⟨exists_foldlM_iff hstart hopening hevents, fun p hp => ?_, ?_⟩
  · have hfolded := folded_of_start hstart hopening hevents hp
    have hnone : opening.digest? = none := (not_endsPull_of_start hstart hopening).2
    rw [hfolded.ids_eq]
    refine ⟨hfolded.status, p.layers.ids_increasing.imp Text.Utf8.bytes_lt, hfolded.mem_ids_iff,
      hfolded.id_of_mem, hfolded.get?_eq, ?_⟩
    rw [hfolded.digest, digests, List.filterMap_cons_none hnone]
    exact Option.or_none
  · intro opening' opened' events'
    exact toOption_eq hstart hopening hevents

/-- A pull by Podman, whose stream may open with a layer. -/
def podmanContext : Context where
  reference := { registry := none, name := "x", tag := none, digest := none }
  manifest := {}
  flavor := .podman
  resolved := none

theorem layers_isolated_podman :
    ∃ opened p, start podmanContext (.layer "b" .pullingFsLayer) = .ok opened
      ∧ [.layer "a" .alreadyExists, .layer "b" .waiting].foldlM advance opened = .ok p
      ∧ p.status = .inProgress
      ∧ p.layers.get? "b" = some ⟨"b", .waiting⟩ := by
  obtain ⟨hiff, hrun, -⟩ := layers_isolated
    (rfl : start podmanContext (.layer "b" .pullingFsLayer)
      = .ok { new podmanContext with layers := LayerTable.empty.insert "b" ⟨"b", .pullingFsLayer⟩ })
    (fun _ => nofun)
    (by decide : ∀ event ∈ ([.layer "a" .alreadyExists, .layer "b" .waiting] : List PullEvent),
      event.endsPull = false)
  obtain ⟨p, hp⟩ := hiff.mpr fun id => by
    by_cases ha : "a" = id
    · subst ha
      exact ⟨_, rfl⟩
    · by_cases hb : "b" = id
      · subst hb
        exact ⟨_, rfl⟩
      · exact ⟨none, by simp [layerEvents, layerEvent?, ha, hb, Layer.ofEvents]⟩
  obtain ⟨hstatus, -, -, -, hlayers, -⟩ := hrun p hp
  exact ⟨_, p, rfl, hp, hstatus, (Except.ok.inj (hlayers "b")).symm⟩

/-- A failure may open a pull. The pull has then ended at once, although no layer has refused
anything, and takes no further event, although no layer would refuse it. -/
theorem ended_by_failed_opening :
    ∃ opened, start podmanContext (.error "boom") = .ok opened
      ∧ [].foldlM advance opened = .ok opened
      ∧ opened.status ≠ .inProgress
      ∧ (∀ id, Layer.ofEvents id (layerEvents id [.error "boom", .started]) = .ok none)
      ∧ ¬∃ p, [.started].foldlM advance opened = .ok p := by
  refine ⟨{ new podmanContext with status := .errored "boom" }, rfl, rfl, nofun, fun _ => rfl, ?_⟩
  rw [foldlM_of_isTerminal rfl]
  exact List.cons_ne_nil _ _

end Pull

end ImagePull
