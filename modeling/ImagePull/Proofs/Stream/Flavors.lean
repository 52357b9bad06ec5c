import ImagePull.Proofs.Stream.Contexts

/-!
# What the flavor of a runtime decides

Which of the two runtimes serves a pull decides only how its stream may open. A layer opens a pull
of Podman as if the pull had been announced before it (`itemsFrom_of_layer`), and is refused from
Docker; from the second record on, and with every other first record, the flavor has no say
(`items_of_flavors`).
-/

namespace ImagePull

/-- The same context, with another runtime. -/
def Context.withFlavor (context : Context) (flavor : Flavor) : Context :=
  { context with flavor }

namespace Pull

/-- The same snapshot, of a pull by another runtime. -/
def withFlavor (flavor : Flavor) (p : Pull) : Pull :=
  p.inContext (p.context.withFlavor flavor)

/-! ## An open pull -/

theorem isTerminal_withFlavor (flavor : Flavor) (p : Pull) :
    (p.withFlavor flavor).isTerminal = p.isTerminal :=
  rfl

/-- An event does to a snapshot what it does in another flavor. -/
theorem advance_withFlavor (flavor : Flavor) (p : Pull) (event : PullEvent) :
    (p.withFlavor flavor).advance event = (p.advance event).map (withFlavor flavor) := by
  rw [withFlavor, advance_inContext]
  cases hadvance : p.advance event with
  | error e => rfl
  | ok p' =>
      show Except.ok (p'.inContext _) = Except.ok (p'.inContext _)
      rw [context_of_advance hadvance]

/-- The completion of a pull does not depend on its flavor. -/
theorem finalize?_withFlavor (flavor : Flavor) (p : Pull) :
    (p.withFlavor flavor).finalize? = p.finalize?.map (withFlavor flavor) := by
  have hlayers : (p.withFlavor flavor).fetchedLayers? = p.fetchedLayers? := rfl
  have hresolved : (p.withFlavor flavor).context.resolved = p.context.resolved := rfl
  have hguard : ((p.withFlavor flavor).status.isTerminal
        || (p.withFlavor flavor).context.manifest.layers.isEmpty)
      = (p.status.isTerminal || p.context.manifest.layers.isEmpty) := rfl
  rw [finalize?, finalize?, hguard, hresolved, hlayers]
  split
  · rfl
  · cases p.context.resolved with
    | none => rfl
    | some resolved => cases p.fetchedLayers? <;> rfl

/-! ## Openings -/

variable {context : Context}

/-- The announcement of a pull and its failure open it in either flavor. -/
theorem start_withFlavor (flavor flavor' : Flavor) {event : PullEvent}
    (h : event = .started ∨ ∃ message, event = .error message) :
    start (context.withFlavor flavor') event
      = (start (context.withFlavor flavor) event).map (withFlavor flavor') := by
  rcases h with rfl | ⟨message, rfl⟩
  · cases flavor <;> cases flavor' <;> rfl
  · cases flavor <;> cases flavor' <;> rfl

/-- Neither a digest nor a final status opens a pull. -/
theorem start_eq_error (context : Context) {event : PullEvent}
    (h : (∃ d, event = .digest d) ∨ ∃ status, event = .final status) :
    start context event = .error (.invalidInitialEvent event.name context.flavor) := by
  rcases h with ⟨d, rfl⟩ | ⟨status, rfl⟩
  · cases hflavor : context.flavor <;> simp only [start, hflavor]
  · cases hflavor : context.flavor <;> simp only [start, hflavor]

/-- A layer opens no pull by Docker. -/
theorem start_layer_docker (h : context.flavor = .docker) (id : String) (event : LayerEvent) :
    start context (.layer id event) = .error (.invalidInitialEvent event.name .docker) := by
  simp only [start, h]
  rfl

/-- A layer opens a pull by Podman as if the pull were open already. -/
theorem start_layer_podman (h : context.flavor = .podman) (id : String) (event : LayerEvent) :
    start context (.layer id event) = (new context).advance (.layer id event) := by
  simp only [start, h]

end Pull

/-- The error, told of the next line if it is told of a line. -/
def StreamError.onNextLine : StreamError → StreamError
  | .classification line cause => .classification (line + 1) cause
  | .transition line cause => .transition (line + 1) cause
  | .read reason => .read reason

namespace Stream

variable {context : Context} {current : Option Pull} {line : List UInt8}

/-! ## Numbers of lines -/

theorem lastItems_onNextLine (failure : Option String) (current : Option Pull) :
    (lastItems failure current).map (Except.mapError StreamError.onNextLine)
      = lastItems failure current := by
  cases failure with
  | some reason => rfl
  | none =>
      show (completion current).map _ = completion current
      rw [completion]
      cases current.bind Pull.finalize? <;> rfl

/-- **Records that come one line later** give the same snapshots, and their error one line later. -/
theorem itemsFrom_succ (failure : Option String) (current : Option Pull) (number : Nat)
    (lines : List (List UInt8)) :
    itemsFrom context (lastItems failure) current (number + 1) lines
      = (itemsFrom context (lastItems failure) current number lines).map
        (Except.mapError StreamError.onNextLine) := by
  induction lines generalizing current number with
  | nil => exact (lastItems_onNextLine failure current).symm
  | cons line rest ih =>
      rw [itemsFrom, itemsFrom]
      cases PullEvent.ofLine line with
      | error cause => rfl
      | ok event =>
          simp only
          cases Pull.next context current event with
          | error cause => rfl
          | ok p =>
              simp only [List.map_append]
              congr 1
              · split <;> rfl
              · split
                · rfl
                · exact ih (some p) (number + 1)

/-! ## The first record -/

theorem itemsFrom_of_started (h : PullEvent.ofLine line = .ok .started)
    (ending : Option Pull → List StreamItem) (number : Nat) (rest : List (List UInt8)) :
    itemsFrom context ending none number (line :: rest)
      = itemsFrom context ending (some (.new context)) (number + 1) rest := by
  have hopened : Pull.next context none .started = .ok (.new context) := rfl
  have hrunning : (Pull.new context).isTerminal = false := rfl
  simp [itemsFrom, h, hopened, hrunning]

/-- **A layer that opens a pull by Podman** might as well have come after an announcement. -/
theorem itemsFrom_of_layer (hflavor : context.flavor = .podman) {id : String} {event : LayerEvent}
    (h : PullEvent.ofLine line = .ok (.layer id event))
    (ending : Option Pull → List StreamItem) (number : Nat) (rest : List (List UInt8)) :
    itemsFrom context ending none number (line :: rest)
      = itemsFrom context ending (some (.new context)) number (line :: rest) := by
  have hnext : Pull.next context none (.layer id event)
      = Pull.next context (some (.new context)) (.layer id event) :=
    Pull.start_layer_podman hflavor id event
  simp [itemsFrom, h, hnext]

/-- A finished line in front of what is delivered is the first record, unless it is blank. -/
theorem deliveredRecords_cons {piece : List UInt8} (h : newline ∉ piece)
    (deliveries : List Delivery) :
    deliveredRecords (.chunk (piece ++ [newline]) :: deliveries)
      = (trimmedLine? piece).toList ++ deliveredRecords deliveries := by
  rw [deliveredRecords, content, List.append_assoc]
  exact recordsBefore_cut _ h _

/-! ## Two flavors -/

/-- The same items, of a pull by Podman. -/
def asPodman (items : List StreamItem) : List StreamItem :=
  items.map (Except.map (Pull.withFlavor .podman))

/-- The items of both flavors are alike if the first record opens pulls of both. -/
theorem itemsFrom_podman (context : Context) (failure : Option String) (number : Nat)
    {lines : List (List UInt8)}
    (h : ∀ line ∈ lines.head?, ∀ event, PullEvent.ofLine line = .ok event →
      event = .started ∨ ∃ message, event = .error message) :
    itemsFrom (context.withFlavor .podman) (lastItems failure) none number lines
      = asPodman (itemsFrom (context.withFlavor .docker) (lastItems failure) none number lines) := by
  have hending (p : Pull) : lastItems failure (some (p.withFlavor .podman))
      = asPodman (lastItems failure (some p)) := by
    cases failure with
    | some reason => rfl
    | none =>
        show completion _ = asPodman (completion _)
        rw [completion, completion, Option.bind_some, Option.bind_some, Pull.finalize?_withFlavor]
        cases p.finalize? <;> rfl
  have hempty : lastItems failure none = asPodman (lastItems failure none) := by
    cases failure <;> rfl
  refine itemsFrom_map (Pull.advance_withFlavor .podman) (Pull.isTerminal_withFlavor .podman)
    hending Iff.rfl (fun _ => hempty) ?_ number
  intro line hline event hevent
  exact Pull.start_withFlavor .docker .podman (h line hline event hevent)

/-- An announcement in front of a layer changes nothing but the number of the line of an error. -/
theorem track_announced (context : Context) (capacity : Nat) {deliveries : List Delivery}
    {first piece : List UInt8} {rest : List (List UInt8)} {id : String} {event : LayerEvent}
    (hrecords : deliveredRecords deliveries = first :: rest)
    (hfirst : PullEvent.ofLine first = .ok (.layer id event))
    (hpiece : newline ∉ piece) (hline : trimmedLine? piece = some line)
    (hstarted : PullEvent.ofLine line = .ok .started) :
    track (context.withFlavor .podman) capacity (.chunk (piece ++ [newline]) :: deliveries)
      = (track (context.withFlavor .podman) capacity deliveries).map
        (Except.mapError StreamError.onNextLine) := by
  rw [track_eq_itemsFrom, track_eq_itemsFrom, deliveredRecords_cons hpiece, hline, hrecords,
    Option.toList_some, List.singleton_append, itemsFrom_of_started hstarted,
    itemsFrom_of_layer rfl hfirst]
  exact itemsFrom_succ (content deliveries).2 _ 1 (first :: rest)

/-- What the first record is taken for, if there is one. -/
def opening? (deliveries : List Delivery) : Option (Except ClassifyError PullEvent) :=
  (deliveredRecords deliveries).head?.map PullEvent.ofLine

theorem exists_of_opening? {deliveries : List Delivery} {taken : Except ClassifyError PullEvent}
    (h : opening? deliveries = some taken) :
    ∃ first rest, deliveredRecords deliveries = first :: rest ∧ PullEvent.ofLine first = taken := by
  obtain ⟨first, hfirst, htaken⟩ := Option.map_eq_some_iff.mp h
  obtain ⟨rest, hrecords⟩ := List.head?_eq_some_iff.mp hfirst
  exact ⟨first, rest, hrecords, htaken⟩

/-- A stream whose first record opens no pull, or stands for no event, is refused. -/
theorem track_of_opening? {context : Context} {capacity : Nat} {deliveries : List Delivery} :
    (∀ event cause, opening? deliveries = some (.ok event) →
        Pull.start context event = .error cause →
        track context capacity deliveries = [.error (.transition 1 cause)])
      ∧ ∀ cause, opening? deliveries = some (.error cause) →
        track context capacity deliveries = [.error (.classification 1 cause)] := by
  constructor
  · intro event cause hopening hstart
    obtain ⟨first, rest, hrecords, hfirst⟩ := exists_of_opening? hopening
    rw [track_eq_itemsFrom, hrecords]
    simp only [itemsFrom, hfirst, Pull.next, hstart]
  · intro cause hopening
    obtain ⟨first, rest, hrecords, hfirst⟩ := exists_of_opening? hopening
    rw [track_eq_itemsFrom, hrecords]
    simp only [itemsFrom, hfirst]

/-- **The flavor matters for the first record only.** By what the first record of a stream is
taken for:

* without a record, with the announcement of the pull or with its failure, the items of both flavors
  are the same, apart from the flavor in their snapshots;
* a layer is refused from Docker and opens a pull by Podman, whose items are those that would come
  if any announcement stood before the layer, with a lower line number in an error;
* a digest or a final status is refused in either flavor, and the error names the flavor;
* a record that stands for no event ends both streams with the same error. -/
theorem items_of_flavors (context : Context) (capacity capacity' : Nat)
    (deliveries : List Delivery) :
    let docker := track (context.withFlavor .docker) capacity deliveries
    let podman := track (context.withFlavor .podman) capacity' deliveries
    (opening? deliveries = none ∨ opening? deliveries = some (.ok .started)
          ∨ (∃ message, opening? deliveries = some (.ok (.error message))) →
        podman = asPodman docker)
      ∧ (∀ id event, opening? deliveries = some (.ok (.layer id event)) →
        docker = [.error (.transition 1 (.invalidInitialEvent event.name .docker))]
          ∧ ∀ piece line record rest, newline ∉ piece → trimmedLine? piece = some line →
            ProgressRecord.ofLine? line = some record → record.Tells ("Pulling from" ++ rest) →
            track (context.withFlavor .podman) capacity'
                (.chunk (piece ++ [newline]) :: deliveries)
              = podman.map (Except.mapError StreamError.onNextLine))
      ∧ (∀ event, opening? deliveries = some (.ok event) →
        (∃ d, event = .digest d) ∨ (∃ status, event = .final status) →
        docker = [.error (.transition 1 (.invalidInitialEvent event.name .docker))]
          ∧ podman = [.error (.transition 1 (.invalidInitialEvent event.name .podman))])
      ∧ ∀ cause, opening? deliveries = some (.error cause) →
        docker = [.error (.classification 1 cause)]
          ∧ podman = [.error (.classification 1 cause)] := by
  intro docker podman
  refine ⟨?_, ?_, ?_, ?_⟩
  · intro hopening
    show track _ _ _ = asPodman (track _ _ _)
    rw [track_eq_itemsFrom, track_eq_itemsFrom]
    refine itemsFrom_podman context _ 1 ?_
    intro line hline event hevent
    have htaken : opening? deliveries = some (.ok event) := by
      rw [opening?, hline, Option.map_some, hevent]
    rw [htaken] at hopening
    simpa using hopening
  · intro id event hopening
    obtain ⟨first, rest, hrecords, hfirst⟩ := exists_of_opening? hopening
    refine ⟨track_of_opening?.1 _ _ hopening (Pull.start_layer_docker rfl id event), ?_⟩
    intro piece line record name hpiece hline hrecord htells
    have hstarted : PullEvent.ofLine line = .ok .started := by
      rw [PullEvent.ofLine, hrecord]
      exact PullEvent.classify_eq_started.mpr ⟨name, htells⟩
    exact track_announced context capacity' hrecords hfirst hpiece hline hstarted
  · intro event hopening hneither
    exact ⟨track_of_opening?.1 _ _ hopening (Pull.start_eq_error _ hneither),
      track_of_opening?.1 _ _ hopening (Pull.start_eq_error _ hneither)⟩
  · intro cause hopening
    exact ⟨track_of_opening?.2 cause hopening, track_of_opening?.2 cause hopening⟩

/-- The announcement of a pull. -/
def announcement : List UInt8 :=
  Text.Utf8.bytes "\x7b\"status\":\"Pulling from x\"\x7d"

/-- A stream that opens with a layer and cannot be read on. -/
def unannouncedStream : Delivery :=
  .chunk (Text.Utf8.bytes "\x7b\"id\":\"a\",\"status\":\"Pulling fs layer\"\x7d\nx")

theorem items_of_flavors_unannounced :
    track (sampleContext.withFlavor .docker) 1 [unannouncedStream]
        = [.error (.transition 1 (.invalidInitialEvent "pulling-fs-layer" .docker))]
      ∧ (track (sampleContext.withFlavor .podman) 2 [unannouncedStream]).getLast?
        = some (.error (.classification 2 (.malformedRecord (Text.Utf8.bytes "x"))))
      ∧ track (sampleContext.withFlavor .podman) 2
          [.chunk (announcement ++ [newline]), unannouncedStream]
        = (track (sampleContext.withFlavor .podman) 2 [unannouncedStream]).map
          (Except.mapError StreamError.onNextLine) := by
  have hview : (opening? [unannouncedStream]).map Except.toOption
      = some (some (.layer "a" .pullingFsLayer)) := by
    decide +kernel
  have hopening : opening? [unannouncedStream] = some (.ok (.layer "a" .pullingFsLayer)) := by
    obtain ⟨taken, htaken, hevent⟩ := Option.map_eq_some_iff.mp hview
    cases taken with
    | error cause => cases hevent
    | ok event => rw [htaken, ← Option.some.inj hevent]
  obtain ⟨-, hlayer, -⟩ := items_of_flavors sampleContext 1 2 [unannouncedStream]
  obtain ⟨hdocker, hannounced⟩ := hlayer "a" .pullingFsLayer hopening
  refine ⟨hdocker, by decide +kernel, ?_⟩
  refine hannounced announcement announcement { status := "Pulling from x" } " x"
    (by decide +kernel) (by decide +kernel) (by decide +kernel) ⟨rfl, ?_⟩
  exact ProgressRecord.errorMessage_eq_none.mp rfl

end Stream

end ImagePull
