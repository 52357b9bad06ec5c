import ImagePull.Proofs.Stream.Records

/-!
# The items of a whole stream

What a stream gives, said of all its records at once: each record is classified and folded into
the snapshot before it, and the fold stops at the first record that cannot be folded or that ends
the pull. A tracker takes the same records one by one; `items_cons` is the one step in which both
agree, and every later module argues with it instead of opening `Tracker.consume`.
-/

namespace ImagePull

/-- The snapshot that an event leads to. The first event opens the pull. -/
def Pull.next (context : Context) (current : Option Pull) (event : PullEvent) :
    Except TransitionError Pull :=
  match current with
  | none => Pull.start context event
  | some pull => pull.advance event

namespace Stream

/-! ## The specification -/

/-- The items of records. Before them the snapshot is `current`, the first of them has the given
number, and `ending` says what follows when all of them are folded. An opening announcement gives
no item. -/
def itemsFrom (context : Context) (ending : Option Pull → List StreamItem)
    (current : Option Pull) (number : Nat) : List (List UInt8) → List StreamItem
  | [] => ending current
  | record :: rest =>
    match PullEvent.ofLine record with
    | .error cause => [.error (.classification number cause)]
    | .ok event =>
      match Pull.next context current event with
      | .error cause => [.error (.transition number cause)]
      | .ok pull =>
        (if current = none ∧ event = .started then [] else [.ok pull]) ++
          if pull.isTerminal then []
          else itemsFrom context ending (some pull) (number + 1) rest

/-- The completion that the end of a stream allows. -/
def completion (current : Option Pull) : List StreamItem :=
  (current.bind Pull.finalize?).toList.map .ok

/-- What follows the last record of a stream that ends, or that breaks off with a failure. -/
def lastItems (failure : Option String) (current : Option Pull) : List StreamItem :=
  match failure with
  | none => completion current
  | some reason => [.error (.read reason)]

/-- The items of a stream that ends. -/
def itemsOf (context : Context) (bytes : List UInt8) : List StreamItem :=
  itemsFrom context completion none 1 (records bytes)

/-- What a transport delivers before it ends or fails: its bytes, and its failure. -/
def content : List Delivery → List UInt8 × Option String
  | [] => ([], none)
  | .chunk bytes :: rest => (bytes ++ (content rest).1, (content rest).2)
  | .failure reason :: _ => ([], some reason)

/-- The items of all that a transport delivers. -/
def deliveredItems (context : Context) (deliveries : List Delivery) : List StreamItem :=
  itemsFrom context (lastItems (content deliveries).2) none 1
    (recordsBefore (content deliveries).2 (content deliveries).1)

theorem content_chunks (chunks : List (List UInt8)) :
    content (chunks.map .chunk) = (chunks.flatten, none) := by
  induction chunks with
  | nil => rfl
  | cons chunk rest ih => simp [content, ih]

/-- Without a failure the items depend on the bytes alone, not on how they are cut. -/
theorem deliveredItems_chunks (context : Context) (chunks : List (List UInt8)) :
    deliveredItems context (chunks.map .chunk) = itemsOf context chunks.flatten := by
  rw [deliveredItems, content_chunks]
  rfl

end Stream

/-! ## The tracker -/

namespace Tracker

open ImagePull.Stream

/-- The items of the records that a tracker has yet to take. -/
def items (t : Tracker) (ending : Option Pull → List StreamItem)
    (records : List (List UInt8)) : List StreamItem :=
  itemsFrom t.context ending t.current (t.line + 1) records

@[simp]
theorem items_nil (t : Tracker) (ending : Option Pull → List StreamItem) :
    t.items ending [] = ending t.current :=
  rfl

theorem fold_eq (t : Tracker) (event : PullEvent) :
    t.fold event
      = (Pull.next t.context t.current event).map
          (·, decide ¬(t.current = none ∧ event = .started)) := by
  unfold fold Pull.next
  cases t.current with
  | none =>
      have hshown : (event != .started) = decide ¬(True ∧ event = .started) := by
        by_cases he : event = .started <;> simp [he, bne]
      simp [hshown]
  | some pull => simp

/-- The announcement that opens a pull leaves it running. -/
theorem not_isTerminal_of_next_started {context : Context} {pull : Pull}
    (h : Pull.next context none .started = .ok pull) : pull.isTerminal = false := by
  have hnew : Pull.new context = pull := Except.ok.inj h
  subst hnew
  rfl

/-- The items from a record on, by what taking it comes to: an error ends the stream, and so
does a snapshot that ends the pull; otherwise what `rest` gives follows. -/
def itemsAfter (taken : Except StreamError (Tracker × Option Pull))
    (rest : Tracker → List StreamItem) : List StreamItem :=
  match taken with
  | .error e => [.error e]
  | .ok (t, none) => rest t
  | .ok (t, some pull) => .ok pull :: if pull.isTerminal then [] else rest t

/-- **One record of a stream** is one line that the tracker takes. -/
theorem items_cons (t : Tracker) (ending : Option Pull → List StreamItem)
    (record : List UInt8) (rest : List (List UInt8)) :
    t.items ending (record :: rest)
      = itemsAfter (t.consume record) (·.items ending rest) := by
  rw [items, itemsFrom, consume]
  cases PullEvent.ofLine record with
  | error cause => rfl
  | ok event =>
      simp only [fold_eq]
      cases hnext : Pull.next t.context t.current event with
      | error cause => rfl
      | ok pull =>
          by_cases hopen : t.current = none ∧ event = .started
          · -- only the opening announcement gives no item
            obtain ⟨hcurrent, rfl⟩ := hopen
            rw [hcurrent] at hnext
            simp [Except.map, hcurrent, not_isTerminal_of_next_started hnext, items, itemsAfter]
          · simp [Except.map, hopen, items, itemsAfter]

/-- Taking lines one by one gives all snapshots of the stream, or its error. -/
theorem replayLines_eq (t : Tracker) (lines : List (List UInt8)) :
    t.replayLines lines = (t.items completion lines).mapM id := by
  induction lines generalizing t with
  | nil =>
      rw [replayLines, items_nil, completion, complete?]
      cases t.current.bind Pull.finalize? <;> rfl
  | cons line rest ih =>
      rw [replayLines, items_cons]
      cases hline : t.consume line with
      | error e => rfl
      | ok taken =>
          obtain ⟨t', shown⟩ := taken
          cases shown with
          | none => exact ih t'
          | some pull =>
              simp only [itemsAfter]
              by_cases hend : pull.isTerminal
              · rw [if_pos hend, if_pos hend]
                rfl
              · rw [if_neg hend, if_neg hend, ih t', List.mapM_cons]
                cases (t'.items completion rest).mapM id <;> rfl

end Tracker

end ImagePull
