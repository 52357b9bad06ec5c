import ImagePull.Proofs.Layer.Fold
import Mathlib.Computability.RegularExpressions

/-!
# The life of a layer

Which events a layer takes, said of whole sequences and without its states. Of the kinds of its
events, all that can happen to a layer that does not fail is a regular expression (`lifecycle`);
a layer that has not ended may fail instead, and nothing follows (`Possible`). `remainder` says
what may still happen in each state. An event leads to a state whose remainder is the derivative
of the one before (`matches'_deriv_remainder`); that step gives the accepted sequences, and with
what a state recalls of the events before it, the state that they lead to.
-/

namespace ImagePull

/-! ## Sequences of events -/

/-- What a layer event is about, apart from its payload. -/
inductive LayerEvent.Kind where
  | pullingFsLayer
  | waiting
  | downloading
  | verifyingChecksum
  | downloadComplete
  | alreadyExists
  | extracting
  | pullComplete
  | error
deriving DecidableEq, Repr

/-- The kind of an event. -/
def LayerEvent.kind : LayerEvent → Kind
  | .pullingFsLayer => .pullingFsLayer
  | .waiting => .waiting
  | .downloading _ => .downloading
  | .verifyingChecksum => .verifyingChecksum
  | .downloadComplete => .downloadComplete
  | .alreadyExists => .alreadyExists
  | .extracting _ => .extracting
  | .pullComplete => .pullComplete
  | .error _ => .error

theorem LayerEvent.kind_eq_error {event : LayerEvent} :
    event.kind = .error ↔ ∃ message, event = .error message := by
  cases event <;> simp [kind]

namespace Layer

open LayerEvent (Kind)
open RegularExpression (char star rmatch_iff_matches')

/-- An expression that may be left out. -/
def optional (r : RegularExpression Kind) : RegularExpression Kind := 1 + r

/-- An expression once or more often. -/
def repeated (r : RegularExpression Kind) : RegularExpression Kind := r * star r

/-- A layer is announced, and may have to wait. -/
def announced : RegularExpression Kind :=
  char .pullingFsLayer * optional (char .waiting)

/-- The content of an announced layer is there, or it is downloaded to the end. -/
def obtained : RegularExpression Kind :=
  char .alreadyExists + char .downloadComplete
    + repeated (char .downloading) * char .downloadComplete
    + repeated (char .downloading) * char .verifyingChecksum * char .downloadComplete

/-- All that can happen to a layer that does not fail, from its opening to its end. It exists
already, which counts for an announced layer only when it is said twice; or it is obtained and may
be extracted; or it is extracted without a word that the download is complete. -/
def lifecycle : RegularExpression Kind :=
  char .alreadyExists
    + announced * char .alreadyExists * char .alreadyExists
    + announced * obtained * star (char .extracting) * char .pullComplete
    + announced * repeated (char .downloading) * optional (char .verifyingChecksum)
        * repeated (char .extracting) * char .pullComplete

example : [.pullingFsLayer, .downloading, .downloading, .verifyingChecksum, .extracting,
    .pullComplete] ∈ lifecycle.matches' := by decide

/-- The beginnings of the words of a language. -/
def Begins (L : Language Kind) (kinds : List Kind) : Prop :=
  ∃ word ∈ L, kinds <+: word

/-- What can happen so far where the words of a language are all that can happen without a
failure: a beginning of a word, or one that is not yet a word and then a failure. -/
def Possible (L : Language Kind) (kinds : List Kind) : Prop :=
  Begins L kinds ∨ ∃ before, kinds = before ++ [.error] ∧ Begins L before ∧ before ∉ L

/-! ## The first event of a sequence -/

theorem cons_mem_matches' {r : RegularExpression Kind} {kind : Kind} {kinds : List Kind} :
    kind :: kinds ∈ r.matches' ↔ kinds ∈ (r.deriv kind).matches' := by
  rw [← rmatch_iff_matches', ← rmatch_iff_matches', RegularExpression.rmatch]

theorem begins_cons {r : RegularExpression Kind} {kind : Kind} {kinds : List Kind} :
    Begins r.matches' (kind :: kinds) ↔ Begins (r.deriv kind).matches' kinds := by
  constructor
  · rintro ⟨word, hword, later, rfl⟩
    exact ⟨kinds ++ later, cons_mem_matches'.mp hword, List.prefix_append _ _⟩
  · rintro ⟨word, hword, hbegins⟩
    exact ⟨kind :: word, cons_mem_matches'.mpr hword, List.cons_prefix_cons.mpr ⟨rfl, hbegins⟩⟩

theorem possible_cons {r : RegularExpression Kind} {kind : Kind} (hkind : kind ≠ .error)
    {kinds : List Kind} :
    Possible r.matches' (kind :: kinds) ↔ Possible (r.deriv kind).matches' kinds := by
  refine or_congr begins_cons ⟨?_, ?_⟩
  · rintro ⟨before, hbefore, hbegins, hnot⟩
    cases before with
    | nil => exact absurd (List.cons.inj hbefore).1 hkind
    | cons first rest =>
        obtain ⟨rfl, rfl⟩ := List.cons.inj hbefore
        exact ⟨rest, rfl, begins_cons.mp hbegins, fun h => hnot (cons_mem_matches'.mpr h)⟩
  · rintro ⟨before, rfl, hbegins, hnot⟩
    exact ⟨kind :: before, rfl, begins_cons.mpr hbegins, fun h => hnot (cons_mem_matches'.mp h)⟩

theorem not_possible_zero (kinds : List Kind) : ¬Possible 0 kinds := by
  have hnone (kinds : List Kind) : ¬Begins 0 kinds := fun ⟨word, hword, _⟩ => hword
  rintro (h | ⟨before, -, h, -⟩)
  · exact hnone kinds h
  · exact hnone before h

/-- Nothing follows the end. -/
theorem possible_one {kinds : List Kind} : Possible 1 kinds ↔ kinds = [] := by
  have hempty (kinds : List Kind) : Begins 1 kinds ↔ kinds = [] := by
    constructor
    · rintro ⟨word, hword, hbegins⟩
      rw [(Language.mem_one _).mp hword] at hbegins
      exact List.prefix_nil.mp hbegins
    · rintro rfl
      exact ⟨[], (Language.mem_one _).mpr rfl, List.prefix_rfl⟩
  constructor
  · rintro (h | ⟨before, -, h, hnot⟩)
    · exact (hempty kinds).mp h
    · exact absurd ((Language.mem_one _).mpr ((hempty before).mp h)) hnot
  · exact fun h => .inl ((hempty kinds).mpr h)

/-- Where no word has a failure next, a failure is the last that can happen. -/
theorem possible_error_cons {r : RegularExpression Kind} (hnext : (r.deriv .error).matches' = 0)
    {kinds : List Kind} :
    Possible r.matches' (.error :: kinds)
      ↔ kinds = [] ∧ Begins r.matches' [] ∧ [] ∉ r.matches' := by
  have hnone (kinds : List Kind) : ¬Begins r.matches' (.error :: kinds) := by
    rw [begins_cons, hnext]
    exact fun ⟨word, hword, _⟩ => hword
  constructor
  · rintro (h | ⟨before, hbefore, hbegins, hnot⟩)
    · exact absurd h (hnone kinds)
    · cases before with
      | nil => exact ⟨(List.cons.inj hbefore).2, hbegins, hnot⟩
      | cons first rest =>
          rw [← (List.cons.inj hbefore).1] at hbegins
          exact absurd hbegins (hnone rest)
  · rintro ⟨rfl, hbegins, hnot⟩
    exact .inr ⟨[], rfl, hbegins, hnot⟩

/-! ## States -/

/-- The state after an event, which opens the layer if it is not there. -/
def following? : Option LayerState → LayerEvent → Option LayerState
  | none, event => LayerState.opened? event
  | some state, event => state.next? event

/-- What may happen in a state until the layer ends without a failure. -/
def remainder : Option LayerState → RegularExpression Kind
  | none => lifecycle
  | some .pullingFsLayer =>
    optional (char .waiting) * char .alreadyExists * char .alreadyExists
      + optional (char .waiting) * obtained * star (char .extracting) * char .pullComplete
      + optional (char .waiting) * repeated (char .downloading)
          * optional (char .verifyingChecksum) * repeated (char .extracting) * char .pullComplete
  | some .waiting =>
    char .alreadyExists * char .alreadyExists
      + obtained * star (char .extracting) * char .pullComplete
      + repeated (char .downloading) * optional (char .verifyingChecksum)
          * repeated (char .extracting) * char .pullComplete
  | some (.downloading _) =>
    (star (char .downloading) * char .downloadComplete
        + star (char .downloading) * char .verifyingChecksum * char .downloadComplete)
          * star (char .extracting) * char .pullComplete
      + star (char .downloading) * optional (char .verifyingChecksum)
          * repeated (char .extracting) * char .pullComplete
  | some .verifyingChecksum =>
    char .downloadComplete * star (char .extracting) * char .pullComplete
      + repeated (char .extracting) * char .pullComplete
  | some .alreadyDownloaded => char .alreadyExists + star (char .extracting) * char .pullComplete
  | some .downloadComplete | some (.extracting _) => star (char .extracting) * char .pullComplete
  | some .alreadyExists | some .pullComplete | some (.errored _) => 1

/-- **An event leads to the state that its derivative describes.** No word has a failure in it. -/
theorem matches'_deriv_remainder (state : Option LayerState) (event : LayerEvent) :
    ((remainder state).deriv event.kind).matches'
      = if event.kind = .error then 0
        else (following? state event).elim 0 fun next => (remainder (some next)).matches' := by
  rcases state with _ | state
  · cases event <;>
      simp [remainder, lifecycle, announced, obtained, optional, repeated, following?,
        LayerState.opened?, LayerEvent.kind, RegularExpression.deriv,
        RegularExpression.matchEpsilon]
  · cases state <;> cases event <;>
      simp [remainder, obtained, optional, repeated, following?, LayerState.next?,
        LayerEvent.kind, RegularExpression.deriv, RegularExpression.matchEpsilon]

/-- Every state can still end without a failure. -/
theorem begins_remainder_nil (state : Option LayerState) :
    Begins (remainder state).matches' [] := by
  suffices h : ∃ word, (remainder state).rmatch word = true by
    obtain ⟨word, hword⟩ := h
    exact ⟨word, (rmatch_iff_matches' _ _).mp hword, List.nil_prefix⟩
  rcases state with _ | state
  · exact ⟨[.alreadyExists], rfl⟩
  · cases state with
    | pullingFsLayer | waiting => exact ⟨[.alreadyExists, .alreadyExists], rfl⟩
    | downloading | verifyingChecksum => exact ⟨[.downloadComplete, .pullComplete], rfl⟩
    | alreadyDownloaded | downloadComplete | extracting => exact ⟨[.pullComplete], rfl⟩
    | alreadyExists | pullComplete | errored => exact ⟨[], rfl⟩

/-- A failure is taken by a layer that is open, and by one that is not there. -/
theorem following?_error (state : Option LayerState) (message : String) :
    following? state (.error message)
      = if [] ∈ (remainder state).matches' then none else some (.errored message) := by
  rcases state with _ | state
  · rfl
  · cases state <;> rfl

/-- The refusal of an event. A layer that is not there is in state `new`. -/
def refusal (id : String) (state : Option LayerState) (event : LayerEvent) : TransitionError :=
  match state with
  | none => .invalidLayerTransition id "new" event.name
  | some state =>
    match state with
    | .alreadyExists | .pullComplete | .errored _ => .layerTerminated id state.name event.name
    | _ => .invalidLayerTransition id state.name event.name

/-- What an event does to the layer with an id. -/
theorem next_mk (id : String) (state : Option LayerState) (event : LayerEvent) :
    next id (state.map (mk id)) event
      = match following? state event with
        | some following => .ok ⟨id, following⟩
        | none => .error (refusal id state event) := by
  rcases state with _ | state
  · show start id event = _
    rw [start, following?]
    cases LayerState.opened? event <;> rfl
  · show advance ⟨id, state⟩ event = _
    rw [advance, following?]
    cases hstate : state <;> cases state.next? event <;> rfl

theorem after_mk_cons (id : String) (state : Option LayerState) (event : LayerEvent)
    (rest : List LayerEvent) :
    after id (state.map (mk id)) (event :: rest)
      = match following? state event with
        | some following => after id ((some following).map (mk id)) rest
        | none => .error (refusal id state event) := by
  rw [after, next_mk]
  cases following? state event <;> rfl

/-! ## Sequences of events and states -/

/-- **The accepted sequences**, from any state on. -/
theorem exists_after_iff (id : String) (state : Option LayerState) (events : List LayerEvent) :
    (∃ current, after id (state.map (mk id)) events = .ok current)
      ↔ Possible (remainder state).matches' (events.map LayerEvent.kind) := by
  induction events generalizing state with
  | nil => exact ⟨fun _ => .inl (begins_remainder_nil state), fun _ => ⟨_, rfl⟩⟩
  | cons event rest ih =>
      rw [after_mk_cons, List.map_cons]
      have hstep := matches'_deriv_remainder state event
      by_cases hkind : event.kind = .error
      · -- a failure has to be the last event, of a layer that has not ended
        obtain ⟨message, rfl⟩ := LayerEvent.kind_eq_error.mp hkind
        rw [if_pos hkind, hkind] at hstep
        rw [hkind, possible_error_cons hstep, following?_error]
        by_cases hended : [] ∈ (remainder state).matches'
        · simp [hended]
        · have hrest := ih (some (.errored message))
          rw [show remainder (some (.errored message)) = 1 from rfl,
            RegularExpression.matches'_epsilon, possible_one] at hrest
          rw [if_neg hended]
          exact hrest.trans ⟨fun h => ⟨h, begins_remainder_nil state, hended⟩, And.left⟩
      · rw [if_neg hkind] at hstep
        rw [possible_cons hkind, hstep]
        cases following? state event with
        | some following => exact ih (some following)
        | none => exact ⟨fun ⟨_, h⟩ => (nomatch h), fun h => absurd h (not_possible_zero _)⟩

/-- **The first refused event decides**, and gives its refusal. -/
theorem after_eq_error_iff {id : String} (state : Option LayerState) {events : List LayerEvent}
    {e : TransitionError} :
    after id (state.map (mk id)) events = .error e
      ↔ ∃ before refused later reached, events = before ++ refused :: later
          ∧ after id (state.map (mk id)) before = .ok (Option.map (mk id) reached)
          ∧ following? reached refused = none ∧ e = refusal id reached refused := by
  constructor
  · intro h
    induction events generalizing state with
    | nil => cases h
    | cons event rest ih =>
        rw [after_mk_cons] at h
        cases hfollowing : following? state event with
        | none =>
            rw [hfollowing] at h
            exact ⟨[], event, rest, state, rfl, rfl, hfollowing, (Except.error.inj h).symm⟩
        | some following =>
            rw [hfollowing] at h
            obtain ⟨before, refused, later, reached, rfl, hbefore, hrefused⟩ := ih _ h
            refine ⟨event :: before, refused, later, reached, rfl, ?_, hrefused⟩
            rw [after_mk_cons, hfollowing]
            exact hbefore
  · rintro ⟨before, refused, later, reached, rfl, hbefore, hrefused, rfl⟩
    rw [after_append, hbefore]
    show after id (reached.map (mk id)) (refused :: later) = _
    rw [after_mk_cons, hrefused]

/-- An event is refused where no possible sequence goes on with it. -/
theorem following?_eq_none_iff {id : String} {before : List LayerEvent}
    {state : Option LayerState} (h : after id none before = .ok (state.map (mk id)))
    (event : LayerEvent) :
    following? state event = none
      ↔ ¬Possible lifecycle.matches' ((before ++ [event]).map LayerEvent.kind) := by
  have haccepted := exists_after_iff id none (before ++ [event])
  have hlast : after id none (before ++ [event]) = after id (state.map (mk id)) [event] := by
    rw [after_append, h]
    rfl
  rw [Option.map_none, hlast, after_mk_cons] at haccepted
  rw [show lifecycle = remainder none from rfl, ← haccepted]
  cases following? state event <;> simp [after]

/-! ## What a state recalls -/

/-- The state that an accepted event leads to, given the events before it: that of the event, with
its payload. An announced layer that exists already is `alreadyDownloaded` when this is said for
the first time. -/
def reached (before : List LayerEvent) : LayerEvent → LayerState
  | .pullingFsLayer => .pullingFsLayer
  | .waiting => .waiting
  | .downloading progress => .downloading progress
  | .verifyingChecksum => .verifyingChecksum
  | .downloadComplete => .downloadComplete
  | .alreadyExists =>
    if before = [] ∨ .alreadyExists ∈ before then .alreadyExists else .alreadyDownloaded
  | .extracting detail => .extracting detail
  | .pullComplete => .pullComplete
  | .error message => .errored message

/-- What the states in which a layer may be said to exist recall of the events before. -/
structure Recalls (before : List LayerEvent) (state : Option LayerState) : Prop where
  unopened : state = none → before = []
  unsaid : state = some .pullingFsLayer ∨ state = some .waiting →
    before ≠ [] ∧ .alreadyExists ∉ before
  said : state = some .alreadyDownloaded → .alreadyExists ∈ before

/-- An event that is accepted leads to its own state, which recalls it. -/
theorem Recalls.step {before : List LayerEvent} {state : Option LayerState} {event : LayerEvent}
    {following : LayerState} (h : Recalls before state)
    (hfollowing : following? state event = some following) :
    following = reached before event ∧ Recalls (before ++ [event]) (some following) := by
  obtain ⟨hunopened, hunsaid, hsaid⟩ := h
  rcases state with _ | state
  · obtain rfl := hunopened rfl
    cases event <;> cases hfollowing <;> exact ⟨rfl, by simp, by simp, by simp⟩
  · cases state <;> cases event <;> cases hfollowing <;>
      refine ⟨?_, ?_, ?_, ?_⟩ <;> simp_all [reached]

theorem recalls_of_after {id : String} {events : List LayerEvent} {current : Option Layer}
    (h : after id none events = .ok current) :
    ∃ state, current = Option.map (mk id) state ∧ Recalls events state
      ∧ ∀ before last, events = before ++ [last] → state = some (reached before last) := by
  induction events using List.reverseRecOn generalizing current with
  | nil =>
      cases h
      exact ⟨none, rfl, ⟨fun _ => rfl, by simp, by simp⟩, by simp⟩
  | append_singleton before last ih =>
      rw [after_append] at h
      obtain ⟨earlier, hbefore, hlast⟩ := bind_eq_ok.mp h
      obtain ⟨state, rfl, hrecalls, -⟩ := ih hbefore
      rw [after_mk_cons] at hlast
      cases hfollowing : following? state last with
      | none => rw [hfollowing] at hlast; cases hlast
      | some following =>
          rw [hfollowing] at hlast
          cases hlast
          obtain ⟨hreached, hrecalls'⟩ := hrecalls.step hfollowing
          refine ⟨some following, rfl, hrecalls', fun before' last' hsame => ?_⟩
          obtain ⟨rfl, hlast⟩ := List.append_inj' hsame rfl
          cases hlast
          rw [hreached]

/-! ## The events of a layer -/

/-- **A layer takes exactly the events of its life.** Its events are accepted, from the one that
opens it on, if and only if their kinds are a beginning of a word of `lifecycle`, or such a
beginning that is not the whole word and then a failure. The last of them gives the state with its
own payload. Otherwise the first event that goes beyond such a sequence is refused: as one that
comes too late if the layer has ended, and else as one that its state does not take. -/
theorem ofEvents_of_lifecycle (id : String) (events : List LayerEvent) :
    ((∃ current, ofEvents id events = .ok current)
        ↔ Possible lifecycle.matches' (events.map LayerEvent.kind))
      ∧ (∀ before last current, events = before ++ [last] →
          ofEvents id events = .ok current → current = some ⟨id, reached before last⟩)
      ∧ ∀ e, ofEvents id events = .error e ↔ ∃ before refused later current,
          events = before ++ refused :: later
            ∧ ofEvents id before = .ok current
            ∧ ¬Possible lifecycle.matches' ((before ++ [refused]).map LayerEvent.kind)
            ∧ e = refusal id (current.map state) refused := by
  simp only [← after_none]
  refine ⟨exists_after_iff id none events, fun before last current hevents h => ?_, fun e => ?_⟩
  · obtain ⟨state, rfl, -, hlast⟩ := recalls_of_after h
    rw [hlast before last hevents]
    rfl
  · constructor
    · intro h
      obtain ⟨before, refused, later, state, rfl, hbefore, hnone, rfl⟩ :=
        (after_eq_error_iff none).mp h
      exact ⟨before, refused, later, _, rfl, hbefore,
        (following?_eq_none_iff hbefore refused).mp hnone, by cases state <;> rfl⟩
    · rintro ⟨before, refused, later, current, rfl, hbefore, hnot, rfl⟩
      obtain ⟨state, rfl, -, -⟩ := recalls_of_after hbefore
      exact (after_eq_error_iff none).mpr ⟨before, refused, later, state, rfl, hbefore,
        (following?_eq_none_iff hbefore refused).mpr hnot, by cases state <;> rfl⟩

end Layer

end ImagePull
