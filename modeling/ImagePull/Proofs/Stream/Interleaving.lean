import ImagePull.Proofs.Stream.Drain

/-!
# Every order of steps

Deliveries, steps of the producer, receipts, a request to cancel and the loss of those who could
make one come in any order. `handed_over_in_order` says what holds after each of them: what was
handed over is a beginning of what the same deliveries give undisturbed, the producer is at most
one item ahead of its queue and takes no delivery before it has to, and after a request nothing
is queued.
-/

namespace ImagePull.Stream

namespace Channel

/-! ## The bound on the queue -/

/-- The queue is not longer than it may be. -/
def IsBounded (c : Channel) : Prop :=
  c.queue.length ≤ c.limit

theorem Acted.isBounded {c c' : Channel} {action : Action} (h : Acted c action c')
    (hc : c.IsBounded) : c'.IsBounded := by
  cases h with
  | produce step =>
      cases step with
      | enqueue offer asked room =>
          show (c.queue ++ [_]).length ≤ c.limit
          rw [List.length_append, List.length_singleton]
          omega
      | _ => exact hc
  | @receive item rest queue =>
      have hlength : c.queue.length = rest.length + 1 := by rw [queue, List.length_cons]
      show rest.length ≤ c.limit
      have : c.queue.length ≤ c.limit := hc
      omega
  | _ => exact hc

theorem Acted.capacity {c c' : Channel} {action : Action} (h : Acted c action c') :
    c'.capacity = c.capacity := by
  cases h with
  | produce step => cases step <;> rfl
  | _ => rfl

theorem follow_capacity {actions : List Action} {c c' : Channel}
    (h : c.follow? actions = some c') : c'.capacity = c.capacity :=
  follow_induction (motive := fun d => d.capacity = c.capacity) h rfl
    fun step hd => step.capacity.trans hd

/-- **The queue keeps its bound** in whatever order the steps come. -/
theorem follow_isBounded {actions : List Action} {c c' : Channel}
    (h : c.follow? actions = some c') (hc : c.IsBounded) : c'.IsBounded :=
  follow_induction h hc fun step hd => step.isBounded hd

/-- A queue that can be made never holds more than the largest one can. -/
theorem follow_queue_le_maxCapacity {actions : List Action} {c c' : Channel}
    (h : c.follow? actions = some c') (hc : c.IsBounded) (hcapacity : c.capacity ≤ maxCapacity) :
    c'.queue.length ≤ maxCapacity := by
  have hbounded : c'.queue.length ≤ c'.limit := follow_isBounded h hc
  have hmax : 1 ≤ maxCapacity := by decide
  rw [limit, follow_capacity h] at hbounded
  omega

theorem computed_length_le (c : Channel) :
    c.computed.length ≤ (c.received ++ c.queue).length + 1 := by
  have hoffer : c.producer.offer.toList.length ≤ 1 := by cases c.producer.offer <;> simp
  rw [computed, List.length_append]
  omega

/-! ## Taking deliveries -/

/-- A delivery is taken only by a producer that holds neither a finished piece nor an item. -/
theorem Produced.input {c c' : Channel} (h : Produced c c') (hc : c.producer.IsFramed)
    (htaken : c'.input ≠ c.input) :
    newline ∉ c.producer.framer.buffer ∧ c.producer.offer = none := by
  cases h with
  | take offer phase =>
      -- a producer waits only after it has looked for a finished piece
      exact ⟨hc (.inl phase), offer⟩
  | _ => exact absurd rfl htaken

/-! ## Cancellation -/

/-- After a request a step hands nothing over to the queue. -/
theorem Acted.handed {c c' : Channel} {action : Action} (h : Acted c action c')
    (hrequested : c.flag.requested = true) :
    c'.received ++ c'.queue = c.received ++ c.queue := by
  cases h with
  | produce step =>
      cases step with
      | enqueue offer asked room => simp [asked] at hrequested
      | _ => rfl
  | @receive item rest queue => simp [queue]
  | _ => rfl

/-- **After a request nothing more is handed over**, in whatever order the steps come. -/
theorem follow_handed {actions : List Action} {c c' : Channel}
    (h : c.follow? actions = some c') (hrequested : c.flag.requested = true) :
    c'.received ++ c'.queue = c.received ++ c.queue :=
  (follow_induction
    (motive := fun d => d.flag.requested = true ∧ d.received ++ d.queue = c.received ++ c.queue)
    h ⟨hrequested, rfl⟩
    fun step hd => ⟨step.requested hd.1, (step.handed hd.1).trans hd.2⟩).2

/-- The channel as it would be if somebody were left who could request cancellation. -/
def attended (c : Channel) : Channel :=
  { c with flag := { c.flag with abandoned := false } }

theorem attended_takeInput? (c : Channel) :
    c.attended.takeInput? = c.takeInput?.map attended := by
  rw [takeInput?, takeInput?]
  cases hinput : c.input with
  | cons d rest => simp [attended, hinput]
  | nil => cases hended : c.inputEnded <;> simp [attended, hinput, hended]

/-- The producer does not look at who is left. -/
theorem attended_produce? (c : Channel) : c.attended.produce? = c.produce?.map attended := by
  have hproducer : c.attended.producer = c.producer := rfl
  have hrequested : c.attended.flag.requested = c.flag.requested := rfl
  have hqueue : c.attended.queue.length < c.attended.limit ↔ c.queue.length < c.limit := Iff.rfl
  rw [produce?, produce?, hproducer]
  cases c.producer.offer with
  | some item =>
      simp only [CancelFlag.isRaised_eq, hrequested, hqueue]
      split
      · rfl
      · split <;> rfl
  | none =>
      simp only [work?, hproducer, CancelFlag.isRaised_eq, hrequested]
      cases c.producer.phase with
      | waiting =>
          simp only
          split
          · rfl
          · exact c.attended_takeInput?
      | _ => rfl

theorem attended_act? (c : Channel) {action : Action} (hcancel : action ≠ .cancel)
    (habandon : action ≠ .abandon) :
    c.attended.act? action = (c.act? action).map attended := by
  cases action with
  | deliver d =>
      simp only [act?]
      show (if c.inputEnded then none else _) = _
      split <;> rfl
  | endInput => rfl
  | produce => exact c.attended_produce?
  | receive =>
      simp only [act?, receive?]
      cases hqueue : c.queue <;> simp [attended, hqueue]
  | cancel => exact absurd rfl hcancel
  | abandon => exact absurd rfl habandon

/-- **The loss of those who could request cancellation changes nothing**: without it the same
steps lead to the same channel. -/
theorem attended_follow? {actions : List Action} {c c' : Channel}
    (h : c.follow? actions = some c') (hcancel : .cancel ∉ actions) :
    c.attended.follow? (actions.filter (· ≠ .abandon)) = some c'.attended := by
  induction actions generalizing c with
  | nil => cases h; rfl
  | cons action rest ih =>
      obtain ⟨d, hd, hrest⟩ := Option.bind_eq_some_iff.mp h
      have hkept := ih hrest fun hmem => hcancel (List.mem_cons_of_mem _ hmem)
      by_cases habandon : action = .abandon
      · -- the step is left out, and what it changes is not looked at
        subst habandon
        cases hd
        simpa [attended, abandon] using hkept
      · have hne : action ≠ .cancel := fun he => hcancel (he ▸ List.mem_cons_self)
        rw [List.filter_cons_of_pos (by simpa using habandon), follow?,
          c.attended_act? hne habandon, hd]
        exact hkept

end Channel

/-! ## The whole system -/

/-- **What holds after every order of steps.** Whatever deliveries may still follow:

* what was handed over is a beginning of what all the deliveries give undisturbed, and until
  somebody requests cancellation the rest is the held item and what is yet to be computed;
* the queue keeps its bound, and at most one computed item is not handed over;
* a delivery is taken only when neither a finished piece nor an item is held;
* after a request nothing more is handed over;
* without a request, nobody being left to make one changes nothing. -/
theorem handed_over_in_order {context : Context} {capacity : Nat} {actions : List Action}
    {c : Channel} (h : (Channel.new context capacity [] false).follow? actions = some c) :
    (∀ later : List Delivery, (c.inputEnded = true → later = []) →
      c.received ++ c.queue <+: track context capacity (Channel.arrivals actions ++ later)
        ∧ (c.flag.requested = false →
            track context capacity (Channel.arrivals actions ++ later)
              = c.computed ++ c.uncomputed later))
      ∧ c.queue.length ≤ max capacity 1
      ∧ c.computed.length ≤ (c.received ++ c.queue).length + 1
      ∧ (∀ c' : Channel, c.produce? = some c' → c'.input ≠ c.input →
          newline ∉ c.producer.framer.buffer ∧ c.producer.offer = none)
      ∧ (c.flag.requested = true → ∀ (more : List Action) (c' : Channel),
          c.follow? more = some c' → c'.received ++ c'.queue = c.received ++ c.queue)
      ∧ (.cancel ∉ actions →
          (Channel.new context capacity [] false).follow? (actions.filter (· ≠ .abandon))
            = some { c with flag := {} }) := by
  have hstart : (Channel.new context capacity [] false).producer.IsFramed :=
    Channel.isFramed_new context capacity [] false
  have hframed : c.producer.IsFramed :=
    Channel.follow_induction (motive := fun d => d.producer.IsFramed) h hstart
      fun step hd => step.isFramed hd
  have hbounded : c.IsBounded := Channel.follow_isBounded h (Nat.zero_le _)
  have hcapacity : c.capacity = capacity := Channel.follow_capacity h
  refine ⟨fun later hlater => ?_, ?_, c.computed_length_le, ?_, ?_, ?_⟩
  · obtain ⟨hbegins, hsame⟩ := Channel.follow_outlook h hstart hlater
    rw [Channel.outlook_new, List.nil_append] at hbegins hsame
    rw [track_eq]
    refine ⟨(c.handed_prefix_outlook later).trans hbegins, fun hnot => ?_⟩
    rw [← hsame hnot, Channel.outlook_eq]
  · rw [← hcapacity]
    exact hbounded
  · exact fun c' hproduce htaken => (Channel.produced hproduce).input hframed htaken
  · exact fun hrequested more c' hmore => Channel.follow_handed hmore hrequested
  · intro hcancel
    have hnot : c.flag.requested = false := Channel.requested_eq_of_follow h hcancel
    have hflag : c.attended = { c with flag := {} } := by simp [Channel.attended, hnot]
    rw [← hflag]
    exact Channel.attended_follow? h hcancel

theorem handed_over_in_order_cancelled :
    ∃ c, (Channel.new sampleContext 0 [] false).follow?
          (sampleSteps ++ [.cancel, .produce, .receive]) = some c
      ∧ c.received.length = 1
      ∧ c.received ++ c.queue <+: track sampleContext 0 (sampleChunks.map .chunk)
      ∧ ∀ (more : List Action) (c' : Channel),
          c.follow? more = some c' → c'.received ++ c'.queue = c.received ++ c.queue := by
  have hreached : ((Channel.new sampleContext 0 [] false).follow?
      (sampleSteps ++ [.cancel, .produce, .receive])).any
        (fun c => c.received.length = 1 ∧ c.flag.requested = true) = true := by
    decide +kernel
  obtain ⟨c, hfollow, hc⟩ := (Option.any_eq_true ..).mp hreached
  obtain ⟨hone, hrequested⟩ := of_decide_eq_true hc
  obtain ⟨hbegins, -, -, -, hsilent, -⟩ := handed_over_in_order hfollow
  exact ⟨c, hfollow, hone, (hbegins [] fun _ => rfl).1, hsilent hrequested⟩

end ImagePull.Stream
