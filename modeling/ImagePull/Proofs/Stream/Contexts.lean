import ImagePull.Proofs.Stream.Digests

/-!
# What a context can change

Of what is known of a pull before its stream starts, only the flavor of the runtime has a say in
which records are accepted and what they lead to. In another context of the same flavor the same
stream gives the same items, with the other context in their snapshots, apart from a completion that
the end of the stream allows (`items_of_contexts`): a manifest can only add that one item.
-/

namespace ImagePull

namespace Pull

/-- The snapshot, with another context. -/
def inContext (context : Context) (p : Pull) : Pull :=
  { p with context }

theorem isTerminal_inContext (context : Context) (p : Pull) :
    (p.inContext context).isTerminal = p.isTerminal :=
  rfl

/-- An event does to a snapshot what it does in another context. -/
theorem advance_inContext (context : Context) (p : Pull) (event : PullEvent) :
    (p.inContext context).advance event = (p.advance event).map (inContext context) := by
  have hstatus : (p.inContext context).status = p.status := rfl
  by_cases hend : p.status.isTerminal = true
  · rw [advance_of_isTerminal hend, advance_of_isTerminal (hstatus ▸ hend)]
    rfl
  · unfold advance
    rw [hstatus, if_neg hend, if_neg hend]
    cases event with
    | layer id layerEvent =>
        have hroute : (p.inContext context).route id layerEvent = p.route id layerEvent := rfl
        simp only [hroute]
        cases p.route id layerEvent <;> rfl
    | final status =>
        have hdigest : (p.inContext context).digest = p.digest := rfl
        simp only [hdigest]
        cases p.digest <;> rfl
    | started | digest | error => rfl

variable {context other : Context}

/-- A pull is opened by the same events in another context of its flavor. -/
theorem start_inContext (h : context.flavor = other.flavor) (event : PullEvent) :
    start other event = (start context event).map (inContext other) := by
  have hnew : new other = (new context).inContext other := rfl
  unfold start
  rw [← h]
  cases context.flavor <;> cases event <;>
    first | rfl | simp only [hnew, advance_inContext]

theorem next_inContext (h : context.flavor = other.flavor) (current : Option Pull)
    (event : PullEvent) :
    Pull.next other (current.map (inContext other)) event
      = (Pull.next context current event).map (inContext other) := by
  cases current with
  | none => exact start_inContext h event
  | some p => exact advance_inContext other p event

end Pull

namespace Stream

/-! ## Two runs in step -/

/-- **Two runs in step.** Where the snapshots of one run are those of another under a map that
events respect, the items are, from the record on that is mapped first. -/
theorem itemsFrom_map {context other : Context} {ending ending' : Option Pull → List StreamItem}
    {map : Pull → Pull} {current current' : Option Pull} {lines : List (List UInt8)}
    (hadvance : ∀ p event, (map p).advance event = (p.advance event).map map)
    (hterminal : ∀ p, (map p).isTerminal = p.isTerminal)
    (hending : ∀ p, ending' (some (map p)) = (ending (some p)).map (Except.map map))
    (hopen : current' = none ↔ current = none)
    (hempty : lines = [] → ending' current' = (ending current).map (Except.map map))
    (hfirst : ∀ line ∈ lines.head?, ∀ event, PullEvent.ofLine line = .ok event →
      Pull.next other current' event = (Pull.next context current event).map map)
    (number : Nat) :
    itemsFrom other ending' current' number lines
      = (itemsFrom context ending current number lines).map (Except.map map) := by
  induction lines generalizing current current' number with
  | nil => exact hempty rfl
  | cons line rest ih =>
      rw [itemsFrom, itemsFrom]
      cases hevent : PullEvent.ofLine line with
      | error cause => rfl
      | ok event =>
          simp only [hfirst line rfl event hevent]
          cases Pull.next context current event with
          | error cause => rfl
          | ok p =>
              -- the two runs give an item alike, and end or go on alike
              simp only [Except.map, hopen, hterminal]
              rw [List.map_append]
              congr 1
              · split <;> rfl
              · split
                · rfl
                · have hopened : some (map p) = none ↔ some p = none :=
                    iff_of_false (Option.some_ne_none _) (Option.some_ne_none _)
                  exact ih hopened (fun _ => hending p) (fun _ _ event _ => hadvance p event)
                    (number + 1)

/-! ## The completion apart -/

/-- The item is a completion that no record told. -/
def isInferred : StreamItem → Bool
  | .ok p => p.synthesized
  | .error _ => false

/-- The items, without a completion at their end that no record told. -/
def withoutInferred (items : List StreamItem) : List StreamItem :=
  if items.getLast?.any isInferred then items.dropLast else items

/-- What follows the last record of a stream, apart from a completion. -/
def failureItems (failure : Option String) : List StreamItem :=
  failure.toList.map fun reason => .error (.read reason)

/-- The items of records, apart from a completion. -/
def toldFrom (context : Context) (failure : Option String) (current : Option Pull) (number : Nat)
    (lines : List (List UInt8)) : List StreamItem :=
  itemsFrom context (fun _ => failureItems failure) current number lines

/-- What follows the items that were told: a completion that was not, or nothing. -/
def IsInferred (tail : List StreamItem) : Prop :=
  tail.length ≤ 1 ∧ ∀ item ∈ tail, isInferred item = true

theorem isInferred_nil : IsInferred [] :=
  ⟨Nat.zero_le 1, List.forall_mem_nil _⟩

theorem withoutInferred_append {items tail : List StreamItem} (htail : IsInferred tail)
    (hitems : ∀ item ∈ items, isInferred item = false) :
    withoutInferred (items ++ tail) = items := by
  obtain ⟨hlength, hinferred⟩ := htail
  rw [withoutInferred]
  cases tail with
  | nil =>
      have hlast : items.getLast?.any isInferred = false := by
        cases h : items.getLast? with
        | none => rfl
        | some item => exact hitems item (List.mem_of_getLast? h)
      rw [List.append_nil, hlast]
      rfl
  | cons item rest =>
      obtain rfl : rest = [] := List.length_eq_zero_iff.mp (by simpa using hlength)
      rw [List.getLast?_concat, Option.any_some, if_pos (hinferred item List.mem_cons_self),
        List.dropLast_concat]

variable {context other : Context} {lines : List (List UInt8)} {current : Option Pull}

theorem exists_inferred_lastItems (failure : Option String) (current : Option Pull) :
    ∃ tail, lastItems failure current = failureItems failure ++ tail ∧ IsInferred tail := by
  cases failure with
  | some reason => exact ⟨[], rfl, isInferred_nil⟩
  | none =>
      rw [lastItems, completion]
      cases hfinal : current.bind Pull.finalize? with
      | none => exact ⟨[], rfl, isInferred_nil⟩
      | some q =>
          obtain ⟨p, -, hq⟩ := Option.bind_eq_some_iff.mp hfinal
          exact ⟨[.ok q], rfl, Nat.le_refl 1,
            List.forall_mem_singleton.mpr (Pull.isCompletion_of_finalize? hq).synthesized⟩

/-- **At the end of the items that were told there is room for one completion only.** -/
theorem exists_inferred (context : Context) (failure : Option String) (current : Option Pull)
    (number : Nat) (lines : List (List UInt8)) :
    ∃ tail, itemsFrom context (lastItems failure) current number lines
        = toldFrom context failure current number lines ++ tail ∧ IsInferred tail := by
  induction lines generalizing current number with
  | nil => exact exists_inferred_lastItems failure current
  | cons line rest ih =>
      rw [toldFrom, itemsFrom, itemsFrom]
      cases PullEvent.ofLine line with
      | error cause => exact ⟨[], rfl, isInferred_nil⟩
      | ok event =>
          simp only
          cases Pull.next context current event with
          | error cause => exact ⟨[], rfl, isInferred_nil⟩
          | ok p =>
              simp only
              cases p.isTerminal with
              | true => exact ⟨[], (List.append_nil _).symm, isInferred_nil⟩
              | false =>
                  obtain ⟨tail, htail, hinferred⟩ := ih (some p) (number + 1)
                  simp only [Bool.false_eq_true, if_false]
                  exact ⟨tail, by rw [htail, ← List.append_assoc]; rfl, hinferred⟩

/-- An item that was told is no completion that was not. -/
theorem isInferred_of_mem_toldFrom {failure : Option String} {number : Nat} {item : StreamItem}
    (hcurrent : ∀ p ∈ current, p.synthesized = false)
    (h : item ∈ toldFrom context failure current number lines) : isInferred item = false := by
  induction lines generalizing current number with
  | nil =>
      obtain ⟨reason, -, rfl⟩ := List.mem_map.mp h
      rfl
  | cons line rest ih =>
      cases hfold : fold? context current line with
      | none =>
          obtain ⟨e, he⟩ := itemsFrom_of_fold?_eq_none hfold number rest
          rw [toldFrom, he, List.mem_singleton] at h
          rw [h]
          rfl
      | some f =>
          have hpull : f.pull.synthesized = false := by
            rw [Pull.synthesized_of_advance (advance_of_fold? hfold), Fold.start,
              (fold?_eq_some.mp hfold).1]
            cases current with
            | none => rfl
            | some p => exact hcurrent p rfl
          rw [toldFrom, itemsFrom_of_fold? hfold, List.mem_append] at h
          rcases h with h | h
          · split at h
            · cases h
            · rw [List.mem_singleton.mp h]
              exact hpull
          · split at h
            · cases h
            · exact ih (by rintro p ⟨⟩; exact hpull) h

/-! ## Another context -/

/-- **In another context of the same flavor the same items are told**, with that context in their
snapshots. -/
theorem toldFrom_inContext (h : context.flavor = other.flavor) (failure : Option String)
    (current : Option Pull) (number : Nat) (lines : List (List UInt8)) :
    toldFrom other failure (current.map (Pull.inContext other)) number lines
      = (toldFrom context failure current number lines).map
        (Except.map (Pull.inContext other)) := by
  have hfailure : failureItems failure
      = (failureItems failure).map (Except.map (Pull.inContext other)) := by
    cases failure <;> rfl
  exact itemsFrom_map (Pull.advance_inContext other) (Pull.isTerminal_inContext other)
    (fun _ => hfailure) Option.map_eq_none_iff (fun _ => hfailure)
    (fun _ _ event _ => Pull.next_inContext h current event) number

/-- The items of a stream, apart from a completion that no record told. -/
def told (context : Context) (deliveries : List Delivery) : List StreamItem :=
  toldFrom context (content deliveries).2 none 1 (deliveredRecords deliveries)

theorem exists_track_eq_told (context : Context) (capacity : Nat) (deliveries : List Delivery) :
    ∃ tail, track context capacity deliveries = told context deliveries ++ tail
      ∧ IsInferred tail := by
  rw [track_eq, deliveredItems]
  exact exists_inferred context _ none 1 _

theorem withoutInferred_track (context : Context) (capacity : Nat) (deliveries : List Delivery) :
    withoutInferred (track context capacity deliveries) = told context deliveries := by
  obtain ⟨tail, htrack, hinferred⟩ := exists_track_eq_told context capacity deliveries
  have hnew : ∀ p ∈ (none : Option Pull), p.synthesized = false := fun _ h => nomatch h
  rw [htrack]
  exact withoutInferred_append hinferred fun _ hitem => isInferred_of_mem_toldFrom hnew hitem

/-- **The context does not steer the fold.** In two contexts of the same flavor, whatever else they
hold and whatever the capacities of the queues, a stream gives the same items, apart from a
completion that no record told at the end of either: the same errors, and snapshots that differ in
their contexts alone. -/
theorem items_of_contexts {context other : Context} (h : context.flavor = other.flavor)
    (capacity capacity' : Nat) (deliveries : List Delivery) :
    withoutInferred (track other capacity' deliveries)
        = (withoutInferred (track context capacity deliveries)).map
          (Except.map (Pull.inContext other))
      ∧ ∃ tail, track context capacity deliveries
          = withoutInferred (track context capacity deliveries) ++ tail
        ∧ IsInferred tail := by
  rw [withoutInferred_track, withoutInferred_track]
  exact ⟨toldFrom_inContext h _ none 1 _, exists_track_eq_told context capacity deliveries⟩

/-- The manifest of the second context adds a completion, and changes nothing before it. -/
theorem items_of_contexts_stored :
    withoutInferred (track storedContext 2 [storedStream])
        = (track sampleContext 1 [storedStream]).map (Except.map (Pull.inContext storedContext))
      ∧ (track storedContext 2 [storedStream]).length
        = (track sampleContext 1 [storedStream]).length + 1 := by
  have hnone : withoutInferred (track sampleContext 1 [storedStream])
      = track sampleContext 1 [storedStream] := by
    decide +kernel
  have hflavor : sampleContext.flavor = storedContext.flavor := rfl
  have hsame := (items_of_contexts hflavor 1 2 [storedStream]).1
  rw [hnone] at hsame
  exact ⟨hsame, by decide +kernel⟩

end Stream

end ImagePull
