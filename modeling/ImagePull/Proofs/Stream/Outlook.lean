import ImagePull.Proofs.Stream.Items
import ImagePull.Stream.Channel

/-!
# What a channel has yet to give

`Channel.outlook` lists the items of a channel from the first to the last: those received, those
in the queue, and those that its producer has yet to compute from what the transport delivers
(`Producer.yields`). No step of the system changes the outlook, except that a producer which is
asked to cancel drops the part that is not queued (`Acted.outlook`). `follow_outlook` extends this
to every order of steps; each statement on interleavings is read off it.
-/

namespace ImagePull.Stream

/-! ## The producer -/

namespace Producer

/-- The items that a producer has yet to hand over if its transport makes the deliveries and
then ends. -/
def yields (p : Producer) (deliveries : List Delivery) : List StreamItem :=
  p.offer.toList ++
    match p.phase with
    | .reading | .waiting =>
      p.tracker.items (lastItems (content deliveries).2)
        (recordsBefore (content deliveries).2 (p.framer.buffer ++ (content deliveries).1))
    | .ending => p.tracker.items completion (records p.framer.buffer)
    | .settling => completion p.tracker.current
    | .closed => []

/-- While a producer waits for input, and once the input has ended, it holds no finished piece. -/
def IsFramed (p : Producer) : Prop :=
  p.phase = .waiting ∨ p.phase = .ending → newline ∉ p.framer.buffer

@[simp]
theorem yields_stop (p : Producer) (ds : List Delivery) : p.stop.yields ds = [] :=
  rfl

@[simp]
theorem yields_offerLast (p : Producer) (item : StreamItem) (ds : List Delivery) :
    (p.offerLast item).yields ds = [item] :=
  rfl

/-- Folding a line gives its item, if it has one, before what the producer gives after it. -/
theorem yields_fold {p : Producer} (hoffer : p.offer = none) (line : List UInt8)
    (ds : List Delivery) :
    (p.fold line).yields ds
      = Tracker.itemsAfter (p.tracker.consume line)
          fun t => { p with tracker := t }.yields ds := by
  rw [fold]
  cases p.tracker.consume line with
  | error e => rfl
  | ok taken =>
      obtain ⟨t, shown⟩ := taken
      cases shown with
      | none => rfl
      | some pull =>
          simp only [Tracker.itemsAfter]
          by_cases hend : pull.isTerminal
          · rw [if_pos hend, if_pos hend, yields_offerLast]
          · rw [if_neg hend, if_neg hend]
            simp [yields, hoffer]

/-- Folding a line changes the phase only to close. -/
theorem fold_phase (p : Producer) (line : List UInt8) :
    (p.fold line).phase = p.phase ∨ (p.fold line).phase = .closed := by
  rw [fold]
  cases p.tracker.consume line with
  | error e => exact .inr rfl
  | ok taken =>
      obtain ⟨t, shown⟩ := taken
      cases shown with
      | none => exact .inl rfl
      | some pull =>
          simp only
          split
          · exact .inr rfl
          · exact .inl rfl

theorem isFramed_fold {p : Producer} (hphase : p.phase = .reading ∨ p.phase = .settling)
    (line : List UInt8) : (p.fold line).IsFramed := by
  intro hfolded
  rcases fold_phase p line with h | h <;> rcases hphase with hp | hp <;> simp [h, hp] at hfolded

theorem yields_read {p : Producer} (hoffer : p.offer = none) (hphase : p.phase = .reading)
    (ds : List Delivery) : p.read.yields ds = p.yields ds := by
  rw [read]
  cases hnext : p.framer.next with
  | mk found f =>
      cases found with
      | none =>
          -- only blank pieces are lost, and they have no records
          have hkept := (Framer.next_none (content ds).2 hnext).2 (content ds).1
          simp [yields, hphase, hkept]
      | some line =>
          have hfirst := Framer.next_some (content ds).2 hnext (content ds).1
          rw [yields_fold (p := { p with framer := f }) hoffer]
          simp [yields, hoffer, hphase, hfirst, Tracker.items_cons]

theorem yields_endInput {p : Producer} (hoffer : p.offer = none) (hphase : p.phase = .ending)
    (hframed : p.IsFramed) (ds : List Delivery) : p.endInput.yields ds = p.yields ds := by
  have hbuffer := records_of_unfinished (hframed (.inr hphase))
  rw [endInput, Framer.finish]
  cases hline : trimmedLine? p.framer.buffer with
  | none => simp [yields, hphase, hbuffer, hline]
  | some line =>
      simp only
      rw [yields_fold (p := { p with framer := {}, phase := .settling }) hoffer]
      simp [yields, hoffer, hphase, hbuffer, hline, Tracker.items_cons]

theorem yields_settle {p : Producer} (hoffer : p.offer = none) (hphase : p.phase = .settling)
    (ds : List Delivery) : p.settle.yields ds = p.yields ds := by
  rw [settle, Tracker.complete?]
  cases hcomplete : p.tracker.current.bind Pull.finalize? with
  | none => simp [yields, hoffer, hphase, completion, hcomplete, stop]
  | some pull => simp [yields, hoffer, hphase, completion, hcomplete, offerLast]

/-- A delivery that is taken was to be expected before the later ones. -/
theorem yields_take {p : Producer} (hoffer : p.offer = none) (hphase : p.phase = .waiting)
    (hframed : p.IsFramed) (d : Delivery) (ds : List Delivery) :
    (p.take d).yields ds = p.yields (d :: ds) := by
  cases d with
  | chunk bytes => simp [take, yields, hphase, content, Framer.push]
  | failure reason =>
      have hbuffer := recordsBefore_failure_of_unfinished reason (hframed (.inl hphase))
      simp [take, yields, hoffer, hphase, content, hbuffer, lastItems, offerLast]

/-- Where the transport ends, nothing is expected after the bytes held. -/
theorem yields_end {p : Producer} (hphase : p.phase = .waiting) (ds : List Delivery) :
    { p with phase := .ending }.yields ds = p.yields [] := by
  have hlast : lastItems none = completion := rfl
  simp [yields, hphase, content, recordsBefore, hlast]

end Producer

/-! ## Steps -/

@[simp]
theorem CancelFlag.isRaised_eq (f : CancelFlag) : f.isRaised = f.requested := by
  rw [isRaised, awaited?]
  cases f.requested <;> cases f.abandoned <;> rfl

namespace Channel

/-- All that a step of the producer can be. -/
inductive Produced (c : Channel) : Channel → Prop where
  | stop (requested : c.flag.requested = true)
      (waits : c.producer.offer ≠ none ∨ c.producer.phase = .waiting) :
    Produced c { c with producer := c.producer.stop }
  | enqueue {item : StreamItem} (offer : c.producer.offer = some item)
      (asked : c.flag.requested = false) (room : c.queue.length < c.limit) :
    Produced c { c with queue := c.queue ++ [item], producer := { c.producer with offer := none } }
  | read (offer : c.producer.offer = none) (phase : c.producer.phase = .reading) :
    Produced c { c with producer := c.producer.read }
  | take {d : Delivery} {rest : List Delivery} (offer : c.producer.offer = none)
      (phase : c.producer.phase = .waiting) (input : c.input = d :: rest) :
    Produced c { c with producer := c.producer.take d, input := rest, taken := c.taken + 1 }
  | exhausted (offer : c.producer.offer = none) (phase : c.producer.phase = .waiting)
      (input : c.input = []) (ended : c.inputEnded = true) :
    Produced c { c with producer := { c.producer with phase := .ending } }
  | finish (offer : c.producer.offer = none) (phase : c.producer.phase = .ending) :
    Produced c { c with producer := c.producer.endInput }
  | settle (offer : c.producer.offer = none) (phase : c.producer.phase = .settling) :
    Produced c { c with producer := c.producer.settle }

theorem produced {c c' : Channel} (h : c.produce? = some c') : Produced c c' := by
  rw [produce?] at h
  cases hoffer : c.producer.offer with
  | some item =>
      simp only [hoffer, CancelFlag.isRaised_eq] at h
      cases hasked : c.flag.requested with
      | true =>
          simp only [hasked, if_true] at h
          cases h
          exact .stop hasked (.inl (by simp [hoffer]))
      | false =>
          simp only [hasked, Bool.false_eq_true, if_false] at h
          split at h
          · cases h
            exact .enqueue hoffer hasked (by assumption)
          · cases h
  | none =>
      simp only [hoffer, work?] at h
      cases hphase : c.producer.phase with
      | reading => simp only [hphase] at h; cases h; exact .read hoffer hphase
      | ending => simp only [hphase] at h; cases h; exact .finish hoffer hphase
      | settling => simp only [hphase] at h; cases h; exact .settle hoffer hphase
      | closed => simp [hphase] at h
      | waiting =>
          -- a request is looked for before the transport
          simp only [hphase, CancelFlag.isRaised_eq] at h
          split at h
          · cases h
            exact .stop (by assumption) (.inr hphase)
          · rw [takeInput?] at h
            cases hinput : c.input with
            | cons d rest =>
                simp only [hinput] at h
                cases h
                exact .take hoffer hphase hinput
            | nil =>
                simp only [hinput] at h
                split at h
                · cases h
                  rw [← hinput]
                  exact .exhausted hoffer hphase hinput (by assumption)
                · cases h

/-- The items of a channel from the first received to the last one to come, if the transport
makes further deliveries and then ends. -/
def outlook (c : Channel) (later : List Delivery) : List StreamItem :=
  c.received ++ c.queue ++ c.producer.yields (c.input ++ later)

theorem outlook_new (context : Context) (capacity : Nat) (input later : List Delivery)
    (ended : Bool) :
    (new context capacity input ended).outlook later
      = deliveredItems context (input ++ later) :=
  rfl

/-- The items that the producer has computed: those handed over, and the one that it holds. -/
def computed (c : Channel) : List StreamItem :=
  c.received ++ c.queue ++ c.producer.offer.toList

/-- The items that the producer has yet to compute, if the transport makes further deliveries and
then ends. -/
def uncomputed (c : Channel) (later : List Delivery) : List StreamItem :=
  Producer.yields { c.producer with offer := none } (c.input ++ later)

theorem outlook_eq (c : Channel) (later : List Delivery) :
    c.outlook later = c.computed ++ c.uncomputed later := by
  simp [outlook, computed, uncomputed, Producer.yields]

theorem handed_prefix_outlook (c : Channel) (later : List Delivery) :
    c.received ++ c.queue <+: c.outlook later :=
  List.prefix_append _ _

theorem isFramed_new (context : Context) (capacity : Nat) (input : List Delivery) (ended : Bool) :
    (new context capacity input ended).producer.IsFramed := by
  intro hphase
  rcases hphase with hphase | hphase <;> cases hphase

/-- Every step of the producer keeps it framed. -/
theorem Produced.isFramed {c c' : Channel} (h : Produced c c') (hc : c.producer.IsFramed) :
    c'.producer.IsFramed := by
  cases h with
  | stop => simp [Producer.IsFramed, Producer.stop]
  | enqueue => exact hc
  | read offer phase =>
      show c.producer.read.IsFramed
      rw [Producer.read]
      cases hnext : c.producer.framer.next with
      | mk found f =>
          cases found with
          | none => exact fun _ => (Framer.next_none none hnext).1
          | some line =>
              exact Producer.isFramed_fold (p := { c.producer with framer := f }) (.inl phase) line
  | @take d rest offer phase input =>
      cases d <;> simp [Producer.IsFramed, Producer.take, Producer.offerLast]
  | exhausted offer phase => exact fun _ => hc (.inl phase)
  | finish offer phase =>
      show c.producer.endInput.IsFramed
      rw [Producer.endInput, Framer.finish]
      cases trimmedLine? c.producer.framer.buffer with
      | none => simp [Producer.IsFramed]
      | some line => exact Producer.isFramed_fold (.inr rfl) line
  | settle offer phase =>
      show c.producer.settle.IsFramed
      rw [Producer.settle]
      cases c.producer.tracker.complete? <;>
        simp [Producer.IsFramed, Producer.stop, Producer.offerLast]

/-- **A step of the producer keeps the outlook**, unless cancellation was requested; then it may
drop the end of it. -/
theorem Produced.outlook {c c' : Channel} (h : Produced c c') (hc : c.producer.IsFramed)
    {later : List Delivery} (hlater : c.inputEnded = true → later = []) :
    c'.outlook later <+: c.outlook later
      ∧ (c.flag.requested = false → c'.outlook later = c.outlook later) := by
  cases h with
  | stop requested =>
      -- the only step that drops something, and it needs a request
      refine ⟨?_, fun hnot => by simp [requested] at hnot⟩
      simp [Channel.outlook]
  | @enqueue item offer asked room =>
      have hmoved : c.producer.yields (c.input ++ later)
          = item :: Producer.yields { c.producer with offer := none } (c.input ++ later) := by
        simp [Producer.yields, offer]
      simp [Channel.outlook, hmoved]
  | read offer phase =>
      have hsame := Producer.yields_read offer phase (c.input ++ later)
      simp [Channel.outlook, hsame]
  | @take d rest offer phase input =>
      have hsame := Producer.yields_take offer phase hc d (rest ++ later)
      simp [Channel.outlook, hsame, input]
  | exhausted offer phase input ended =>
      have hsame := Producer.yields_end phase []
      simp [Channel.outlook, hsame, input, hlater ended]
  | finish offer phase =>
      have hsame := Producer.yields_endInput offer phase hc (c.input ++ later)
      simp [Channel.outlook, hsame]
  | settle offer phase =>
      have hsame := Producer.yields_settle offer phase (c.input ++ later)
      simp [Channel.outlook, hsame]

/-- All that an action can do. -/
inductive Acted (c : Channel) : Action → Channel → Prop where
  | deliver (d : Delivery) (still : c.inputEnded = false) : Acted c (.deliver d) (c.deliver d)
  | endInput : Acted c .endInput c.endInput
  | produce {c' : Channel} (step : Produced c c') : Acted c .produce c'
  | receive {item : StreamItem} {rest : List StreamItem} (queue : c.queue = item :: rest) :
    Acted c .receive { c with queue := rest, received := c.received ++ [item] }
  | cancel (present : c.flag.abandoned = false) : Acted c .cancel c.cancel
  | abandon : Acted c .abandon c.abandon

theorem acted {c c' : Channel} {action : Action} (h : c.act? action = some c') :
    Acted c action c' := by
  cases action with
  | deliver d =>
      simp only [act?, Option.ite_none_left_eq_some, Bool.not_eq_true] at h
      obtain ⟨still, rfl⟩ := by simpa using h
      exact .deliver d still
  | endInput => cases h; exact .endInput
  | produce => exact .produce (produced h)
  | receive =>
      simp only [act?, receive?] at h
      cases hqueue : c.queue with
      | nil => simp [hqueue] at h
      | cons item rest =>
          simp only [hqueue] at h
          cases h
          exact .receive hqueue
  | cancel =>
      simp only [act?] at h
      obtain ⟨present, rfl⟩ := by simpa using h
      exact .cancel present
  | abandon => cases h; exact .abandon

theorem Acted.isFramed {c c' : Channel} {action : Action} (h : Acted c action c')
    (hc : c.producer.IsFramed) : c'.producer.IsFramed := by
  cases h with
  | produce step => exact step.isFramed hc
  | _ => exact hc

/-- Nothing is delivered after the end of the input, which stays. -/
theorem Acted.inputEnded {c c' : Channel} {action : Action} (h : Acted c action c')
    (hended : c.inputEnded = true) : action.delivery? = none ∧ c'.inputEnded = true := by
  cases h with
  | deliver d still => simp [hended] at still
  | endInput => exact ⟨rfl, rfl⟩
  | produce step => cases step <;> exact ⟨rfl, hended⟩
  | receive => exact ⟨rfl, hended⟩
  | cancel => exact ⟨rfl, hended⟩
  | abandon => exact ⟨rfl, hended⟩

/-- A request stays. -/
theorem Acted.requested {c c' : Channel} {action : Action} (h : Acted c action c')
    (hrequested : c.flag.requested = true) : c'.flag.requested = true := by
  cases h with
  | produce step => cases step <;> exact hrequested
  | cancel => rfl
  | _ => exact hrequested

/-- **One step keeps the outlook**, counted from the deliveries that it makes. -/
theorem Acted.outlook {c c' : Channel} {action : Action} (h : Acted c action c')
    (hc : c.producer.IsFramed) {later : List Delivery}
    (hlater : c'.inputEnded = true → later = []) :
    c'.outlook later <+: c.outlook (action.delivery?.toList ++ later)
      ∧ (c'.flag.requested = false →
          c'.outlook later = c.outlook (action.delivery?.toList ++ later)) := by
  cases h with
  | deliver d still => simp [Channel.outlook, Channel.deliver, Action.delivery?]
  | endInput => simp [Channel.outlook, Channel.endInput, Action.delivery?]
  | produce step =>
      have hflag : c'.flag = c.flag := by cases step <;> rfl
      have hended : c'.inputEnded = c.inputEnded := by cases step <;> rfl
      rw [hflag]
      exact step.outlook hc (by rwa [hended] at hlater)
  | @receive item rest queue => simp [Channel.outlook, queue, Action.delivery?]
  | cancel => simp [Channel.outlook, Channel.cancel, Action.delivery?]
  | abandon => simp [Channel.outlook, Channel.abandon, Action.delivery?]

/-! ## Orders of steps -/

/-- The deliveries that actions make, in order. -/
def arrivals (actions : List Action) : List Delivery :=
  actions.filterMap Action.delivery?

theorem arrivals_cons (action : Action) (rest : List Action) :
    arrivals (action :: rest) = action.delivery?.toList ++ arrivals rest := by
  rw [arrivals, arrivals, List.filterMap_cons]
  cases action.delivery? <;> rfl

/-- A statement that one step carries on holds along every order of steps. -/
theorem follow_induction {motive : Channel → Prop} {actions : List Action} {c c' : Channel}
    (h : c.follow? actions = some c') (start : motive c)
    (step : ∀ {c c' : Channel} {action : Action}, Acted c action c' → motive c → motive c') :
    motive c' := by
  induction actions generalizing c with
  | nil => cases h; exact start
  | cons action rest ih =>
      obtain ⟨d, hd, hrest⟩ := Option.bind_eq_some_iff.mp h
      exact ih hrest (step (acted hd) start)

theorem follow_requested {actions : List Action} {c c' : Channel}
    (h : c.follow? actions = some c') (hrequested : c.flag.requested = true) :
    c'.flag.requested = true :=
  follow_induction (motive := fun c => c.flag.requested = true) h hrequested
    fun step hc => step.requested hc

theorem follow_inputEnded {actions : List Action} {c c' : Channel}
    (h : c.follow? actions = some c') (hended : c.inputEnded = true) :
    arrivals actions = [] ∧ c'.inputEnded = true := by
  induction actions generalizing c with
  | nil => cases h; exact ⟨rfl, hended⟩
  | cons action rest ih =>
      obtain ⟨d, hd, hrest⟩ := Option.bind_eq_some_iff.mp h
      obtain ⟨hnone, hstill⟩ := (acted hd).inputEnded hended
      obtain ⟨hempty, hlast⟩ := ih hrest hstill
      exact ⟨by rw [arrivals_cons, hnone, hempty]; rfl, hlast⟩

/-- **Every order of steps keeps the outlook**, counted from all deliveries that are made. -/
theorem follow_outlook {actions : List Action} {c c' : Channel}
    (h : c.follow? actions = some c') (hc : c.producer.IsFramed)
    {later : List Delivery} (hlater : c'.inputEnded = true → later = []) :
    c'.outlook later <+: c.outlook (arrivals actions ++ later)
      ∧ (c'.flag.requested = false →
          c'.outlook later = c.outlook (arrivals actions ++ later)) := by
  -- each step is counted from what the rest of the actions deliver and from `later`
  induction actions generalizing c with
  | nil => cases h; exact ⟨List.prefix_rfl, fun _ => rfl⟩
  | cons action rest ih =>
      obtain ⟨d, hd, hrest⟩ := Option.bind_eq_some_iff.mp h
      have hstep := acted hd
      have hexpected : d.inputEnded = true → arrivals rest ++ later = [] := by
        intro hended
        obtain ⟨hempty, hlast⟩ := follow_inputEnded hrest hended
        rw [hempty, hlater hlast]
        rfl
      obtain ⟨hbegins, hsame⟩ := ih hrest (hstep.isFramed hc)
      obtain ⟨hbegins', hsame'⟩ := hstep.outlook hc hexpected
      rw [arrivals_cons, List.append_assoc]
      refine ⟨hbegins.trans hbegins', fun hnot => ?_⟩
      have hnot' : d.flag.requested = false :=
        Bool.eq_false_iff.mpr fun hyes => by simp [follow_requested hrest hyes] at hnot
      rw [hsame hnot, hsame' hnot']

end Channel

end ImagePull.Stream
