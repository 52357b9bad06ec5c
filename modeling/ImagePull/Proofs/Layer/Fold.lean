import ImagePull.Layer.Basic
import ImagePull.Proofs.Outcome

/-!
# One layer by itself

The events of one layer, taken apart from all others: the first of them opens the layer and the
others advance it (`Layer.ofEvents`). `Layer.after` says the same from a layer that may already
be there, and so lets events be taken one at a time.
-/

namespace ImagePull.Layer

/-- The layer after an event, which opens it if it is not there. -/
def next (id : String) (current : Option Layer) (event : LayerEvent) :
    Except TransitionError Layer :=
  match current with
  | none => start id event
  | some l => l.advance event

/-- The layer that its events lead to; none without events. -/
def ofEvents (id : String) : List LayerEvent → Except TransitionError (Option Layer)
  | [] => .ok none
  | first :: rest => do
    let opened ← start id first
    let l ← rest.foldlM advance opened
    .ok (some l)

/-- The layer that further events lead to. -/
def after (id : String) (current : Option Layer) :
    List LayerEvent → Except TransitionError (Option Layer)
  | [] => .ok current
  | event :: rest => do
    let l ← next id current event
    after id (some l) rest

theorem after_append (id : String) (current : Option Layer) (xs ys : List LayerEvent) :
    after id current (xs ++ ys) = after id current xs >>= (after id · ys) := by
  induction xs generalizing current with
  | nil => rfl
  | cons event rest ih =>
      simp only [List.cons_append, after]
      cases next id current event with
      | error e => rfl
      | ok l => exact ih (some l)

theorem after_some (id : String) (l : Layer) (events : List LayerEvent) :
    after id (some l) events = (events.foldlM advance l).map some := by
  induction events generalizing l with
  | nil => rfl
  | cons event rest ih =>
      simp only [after, next, List.foldlM_cons]
      cases l.advance event with
      | error e => rfl
      | ok l' => exact ih l'

/-- **From nothing, events open the layer and advance it.** -/
theorem after_none (id : String) (events : List LayerEvent) :
    after id none events = ofEvents id events := by
  cases events with
  | nil => rfl
  | cons first rest =>
      simp only [after, next, ofEvents]
      cases start id first with
      | error e => rfl
      | ok opened =>
          show after id (some opened) rest = (rest.foldlM advance opened).bind (.ok ∘ some)
          rw [after_some]
          cases rest.foldlM advance opened <;> rfl

/-- With an event there is a layer. -/
theorem exists_of_ofEvents {id : String} {first : LayerEvent} {rest : List LayerEvent}
    {current : Option Layer} (h : ofEvents id (first :: rest) = .ok current) :
    ∃ l, current = some l := by
  obtain ⟨opened, -, hrest⟩ := bind_eq_ok.mp h
  obtain ⟨l, -, hl⟩ := bind_eq_ok.mp hrest
  exact ⟨l, (Except.ok.inj hl).symm⟩

/-- A layer keeps its id, and a new one has the id under which it was opened. -/
theorem id_of_next {id : String} {current : Option Layer} {event : LayerEvent} {l : Layer}
    (h : next id current event = .ok l) (hid : ∀ l' ∈ current, l'.id = id) : l.id = id := by
  cases current with
  | none =>
      rw [next, start] at h
      split at h
      · cases h
        rfl
      · cases h
  | some l' =>
      have hsame := hid l' rfl
      rw [next, advance] at h
      split at h
      · cases h
      · split at h
        · cases h
          exact hsame
        · cases h

theorem id_of_after {id : String} {current : Option Layer} {events : List LayerEvent} {l : Layer}
    (h : after id current events = .ok (some l)) (hid : ∀ l' ∈ current, l'.id = id) :
    l.id = id := by
  induction events generalizing current with
  | nil =>
      cases h
      exact hid l rfl
  | cons event rest ih =>
      obtain ⟨l', hnext, hrest⟩ := bind_eq_ok.mp h
      refine ih hrest fun l'' hl'' => ?_
      cases hl''
      exact id_of_next hnext hid

end ImagePull.Layer
