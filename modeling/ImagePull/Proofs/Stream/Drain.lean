import ImagePull.Proofs.Stream.Outlook

/-!
# Draining a stream

A producer and a consumer that are left to themselves come to rest: each of their steps uses up
a part of what is due (`due`), so the bound that `drain` starts with is never met. At rest the
outlook has been received, so what is drained is what the whole stream gives (`track_eq`),
however its bytes are cut and whatever the queue holds (`track_eq_itemsOf`).
-/

namespace ImagePull.Stream

/-! ## What is due -/

/-- The steps that a phase still asks for, of producer and consumer together. -/
def Phase.due : Phase → Nat
  | .reading => 6
  | .waiting => 5
  | .ending => 4
  | .settling => 3
  | .closed => 0

/-- The steps that a producer still asks for, apart from its bytes. -/
def Producer.due (p : Producer) : Nat :=
  2 * p.offer.toList.length + p.phase.due

namespace Channel

/-- A bound on the steps that producer and consumer can still take. -/
def due (c : Channel) : Nat :=
  3 * c.pendingBytes + 2 * c.input.length + c.queue.length + c.producer.due

/-- Neither producer nor consumer can take a step. -/
def IsIdle (c : Channel) : Prop :=
  c.produce? = none ∧ c.receive? = none

instance (c : Channel) : Decidable c.IsIdle :=
  inferInstanceAs (Decidable (_ ∧ _))

theorem pendingBytes_eq (c : Channel) :
    c.pendingBytes
      = c.input.foldr (fun d n => d.size + n) 0 + c.producer.framer.buffer.length := by
  rw [pendingBytes]
  induction c.input with
  | nil => simp
  | cons d rest ih => simp only [List.foldr_cons, ih]; omega

theorem due_le_fuel (c : Channel) : c.due ≤ c.fuel := by
  have hphase : c.producer.phase.due ≤ 6 := by cases c.producer.phase <;> decide
  have hoffer : c.producer.offer.toList.length ≤ 1 := by cases c.producer.offer <;> simp
  simp only [due, fuel, Producer.due]
  omega

end Channel

/-! ## Every step uses some of it up -/

theorem Producer.fold_due {p : Producer} (hoffer : p.offer = none) (line : List UInt8) :
    (p.fold line).due ≤ p.due + 2 ∧ (p.fold line).framer = p.framer := by
  rw [fold]
  cases p.tracker.consume line with
  | error e => simp [due, offerLast, Phase.due]
  | ok taken =>
      obtain ⟨t, shown⟩ := taken
      cases shown with
      | none => simp [due]
      | some pull =>
          simp only
          split
          · simp [due, offerLast, Phase.due]
          · simp [due, hoffer, Nat.add_comm]

theorem Producer.read_due {p : Producer} (hoffer : p.offer = none) (hphase : p.phase = .reading) :
    3 * p.read.framer.buffer.length + p.read.due < 3 * p.framer.buffer.length + p.due := by
  rw [read]
  cases hnext : p.framer.next with
  | mk found f =>
      have hlength := Framer.next_length hnext
      cases found with
      | none =>
          simp only [due, hoffer, hphase, Phase.due, Option.toList_none, List.length_nil] at *
          omega
      | some line =>
          obtain ⟨hdue, hframer⟩ := fold_due (p := { p with framer := f }) hoffer line
          simp only [Option.toList_some, List.length_singleton] at hlength
          simp only [hframer]
          have hsame : Producer.due { p with framer := f } = p.due := rfl
          omega

theorem Producer.endInput_due {p : Producer} (hoffer : p.offer = none)
    (hphase : p.phase = .ending) :
    3 * p.endInput.framer.buffer.length + p.endInput.due
      < 3 * p.framer.buffer.length + p.due := by
  rw [endInput, Framer.finish]
  cases hline : trimmedLine? p.framer.buffer with
  | none => simp [due, hoffer, hphase, Phase.due]
  | some line =>
      -- the line costs at most one item, for which its bytes pay
      have hnonempty : 0 < p.framer.buffer.length := by
        apply List.length_pos_iff.mpr
        intro hempty
        simp [hempty, trimmedLine?, Text.trim, Text.trimEnd] at hline
      obtain ⟨hdue, hframer⟩ :=
        fold_due (p := { p with framer := {}, phase := .settling }) hoffer line
      simp only [hframer, List.length_nil]
      simp only [due, hoffer, hphase, Phase.due, Option.toList_none, List.length_nil] at *
      omega

namespace Channel

theorem Produced.due_lt {c c' : Channel} (h : Produced c c') : c'.due < c.due := by
  cases h with
  | stop requested waits =>
      -- whether it held an item or waited, something was due
      have hsome : 0 < c.producer.due := by
        rcases waits with hoffer | hphase
        · obtain ⟨item, hitem⟩ := Option.ne_none_iff_exists'.mp hoffer
          rw [Producer.due, hitem, Option.toList_some, List.length_singleton]
          omega
        · simp [Producer.due, hphase, Phase.due]
      have hnone : c.producer.stop.due = 0 := rfl
      have hbytes : pendingBytes { c with producer := c.producer.stop } = c.pendingBytes := rfl
      simp only [due, hnone, hbytes]
      omega
  | enqueue offer asked room =>
      simp only [due, pendingBytes_eq, Producer.due, offer]
      simp
      omega
  | read offer phase =>
      have := Producer.read_due offer phase
      simp only [due, pendingBytes_eq] at *
      omega
  | @take d rest offer phase input =>
      simp only [due, pendingBytes_eq, input]
      cases d <;>
        simp [Producer.take, Producer.due, Framer.push, offer, phase, Phase.due, Delivery.size,
          Producer.offerLast] <;> omega
  | exhausted offer phase input ended =>
      simp only [due, pendingBytes_eq, Producer.due, offer, phase, Phase.due]
      omega
  | finish offer phase =>
      have := Producer.endInput_due offer phase
      simp only [due, pendingBytes_eq] at *
      omega
  | settle offer phase =>
      simp only [due, pendingBytes_eq, Producer.settle]
      cases c.producer.tracker.complete? <;>
        simp [Producer.due, Producer.stop, Producer.offerLast, offer, phase, Phase.due]

theorem due_lt_of_receive? {c c' : Channel} (h : c.receive? = some c') :
    c'.due < c.due ∧ c'.received.length = c.received.length + 1 := by
  rw [receive?] at h
  cases hqueue : c.queue with
  | nil => simp [hqueue] at h
  | cons item rest =>
      simp only [hqueue] at h
      cases h
      constructor
      · simp only [due, pendingBytes_eq, hqueue, List.length_cons]
        omega
      · simp

theorem Produced.received {c c' : Channel} (h : Produced c c') : c'.received = c.received := by
  cases h <;> rfl

/-! ## Rest -/

/-- With enough fuel, and more items wanted than can come, nothing moves afterwards. -/
theorem takeWithin_isIdle {wanted fuel : Nat} {c : Channel} (hfuel : c.due ≤ fuel)
    (hwanted : c.received.length + fuel ≤ wanted) : (takeWithin wanted fuel c).IsIdle := by
  induction fuel generalizing c with
  | zero =>
      -- nothing is due, so no step is possible
      have hnone : c.due = 0 := Nat.le_zero.mp hfuel
      constructor
      · cases hproduce : c.produce? with
        | none => exact hproduce
        | some d => have := (produced hproduce).due_lt; omega
      · cases hreceive : c.receive? with
        | none => exact hreceive
        | some d => have := (due_lt_of_receive? hreceive).1; omega
  | succ fuel ih =>
      rw [takeWithin, if_neg (by omega)]
      cases hproduce : c.produce? with
      | some d =>
          have hless := (produced hproduce).due_lt
          have hsame := (produced hproduce).received
          exact ih (by omega) (by rw [hsame]; omega)
      | none =>
          cases hreceive : c.receive? with
          | some d =>
              obtain ⟨hless, hmore⟩ := due_lt_of_receive? hreceive
              exact ih (by omega) (by omega)
          | none => exact ⟨hproduce, hreceive⟩

/-- What is taken is reached by steps of the producer and the consumer alone. -/
theorem exists_follow_takeWithin (wanted fuel : Nat) (c : Channel) :
    ∃ actions, c.follow? actions = some (takeWithin wanted fuel c)
      ∧ ∀ action ∈ actions, action = .produce ∨ action = .receive := by
  induction fuel generalizing c with
  | zero => exact ⟨[], rfl, by simp⟩
  | succ fuel ih =>
      rw [takeWithin]
      split
      · exact ⟨[], rfl, by simp⟩
      · cases hproduce : c.produce? with
        | some d =>
            obtain ⟨actions, hfollow, honly⟩ := ih d
            refine ⟨.produce :: actions, ?_, by simpa using honly⟩
            simpa [follow?, act?, hproduce] using hfollow
        | none =>
            cases hreceive : c.receive? with
            | some d =>
                obtain ⟨actions, hfollow, honly⟩ := ih d
                refine ⟨.receive :: actions, ?_, by simpa using honly⟩
                simpa [follow?, act?, hreceive] using hfollow
            | none => exact ⟨[], rfl, by simp⟩

/-- A drained channel is reached without deliveries and without a request to cancel. -/
theorem exists_follow_drain (c : Channel) :
    ∃ actions, c.follow? actions = some c.drain
      ∧ ∀ action ∈ actions, action = .produce ∨ action = .receive :=
  exists_follow_takeWithin _ _ c

theorem drain_isIdle (c : Channel) : c.drain.IsIdle :=
  takeWithin_isIdle c.due_le_fuel (Nat.le_refl _)

/-- At rest nothing is handed over any more, if nobody has requested cancellation: the producer is
done, or it waits for a delivery that is still to come. -/
theorem IsIdle.rests {c : Channel} (hidle : c.IsIdle) (hnot : c.flag.requested = false) :
    c.queue = [] ∧ c.producer.offer = none
      ∧ (c.producer.phase = .closed ∨ c.input = [] ∧ c.inputEnded = false) := by
  obtain ⟨hproduce, hreceive⟩ := hidle
  have hqueue : c.queue = [] := by
    cases hq : c.queue with
    | nil => rfl
    | cons item rest => simp [receive?, hq] at hreceive
  have hlimit : 0 < c.limit := by rw [limit]; omega
  have hoffer : c.producer.offer = none := by
    cases ho : c.producer.offer with
    | none => rfl
    | some item => simp [produce?, ho, hnot, hqueue, hlimit] at hproduce
  refine ⟨hqueue, hoffer, ?_⟩
  cases hp : c.producer.phase with
  | closed => exact .inl rfl
  | waiting =>
      cases hinput : c.input with
      | nil => exact .inr ⟨rfl, by simpa [produce?, hoffer, work?, hp, hnot, takeInput?, hinput]
          using hproduce⟩
      | cons d rest => simp [produce?, hoffer, work?, hp, hnot, takeInput?, hinput] at hproduce
  | _ => simp [produce?, hoffer, work?, hp] at hproduce

/-- **At rest everything has been received**, if the producer is done and nobody has requested
cancellation. -/
theorem IsIdle.outlook_of_closed {c : Channel} (hidle : c.IsIdle)
    (hnot : c.flag.requested = false) (hclosed : c.producer.phase = .closed)
    (later : List Delivery) : c.outlook later = c.received := by
  obtain ⟨hqueue, hoffer, -⟩ := hidle.rests hnot
  simp [outlook, Producer.yields, hqueue, hoffer, hclosed]

/-- The same, if the input has ended. -/
theorem IsIdle.outlook_eq {c : Channel} (hidle : c.IsIdle) (hended : c.inputEnded = true)
    (hnot : c.flag.requested = false) : c.outlook [] = c.received := by
  obtain ⟨-, -, hclosed | ⟨-, hstill⟩⟩ := hidle.rests hnot
  · exact hidle.outlook_of_closed hnot hclosed []
  · rw [hended] at hstill
    cases hstill

/-- Without a request among the actions the flag stays as it was. -/
theorem requested_eq_of_follow {actions : List Action} {c c' : Channel}
    (h : c.follow? actions = some c') (hcancel : .cancel ∉ actions) :
    c'.flag.requested = c.flag.requested := by
  induction actions generalizing c with
  | nil => cases h; rfl
  | cons action rest ih =>
      obtain ⟨d, hd, hrest⟩ := Option.bind_eq_some_iff.mp h
      rw [ih hrest fun hmem => hcancel (List.mem_cons_of_mem _ hmem)]
      -- of all actions only a request changes the flag in this place
      cases acted hd with
      | produce step => cases step <;> rfl
      | cancel => exact absurd List.mem_cons_self hcancel
      | _ => rfl

/-- **Every order of steps drains to the same items**, if it makes all deliveries, ends the input
and lets producer and consumer come to rest. -/
theorem received_eq_of_isIdle {context : Context} {capacity : Nat} {actions : List Action}
    {input : List Delivery} {ended : Bool} {c : Channel}
    (h : (new context capacity input ended).follow? actions = some c)
    (hcancel : .cancel ∉ actions) (hended : c.inputEnded = true) (hidle : c.IsIdle) :
    c.received = deliveredItems context (input ++ arrivals actions) := by
  have hnot : c.flag.requested = false := requested_eq_of_follow h hcancel
  have hnothing : c.inputEnded = true → ([] : List Delivery) = [] := fun _ => rfl
  have hsame := (follow_outlook h (isFramed_new _ _ _ _) hnothing).2 hnot
  rw [hidle.outlook_eq hended hnot, outlook_new, List.append_nil] at hsame
  exact hsame

end Channel

/-- What is drained is what the deliveries give as a whole. -/
theorem track_eq (context : Context) (capacity : Nat) (input : List Delivery) :
    track context capacity input = deliveredItems context input := by
  obtain ⟨actions, hfollow, honly⟩ :=
    (Channel.new context capacity input true).exists_follow_drain
  have harrivals : Channel.arrivals actions = [] := by
    apply List.filterMap_eq_nil_iff.mpr
    intro action hmem
    rcases honly action hmem with rfl | rfl <;> rfl
  have hcancel : .cancel ∉ actions := fun hmem => by
    rcases honly _ hmem with h | h <;> cases h
  have hended := (Channel.follow_inputEnded hfollow rfl).2
  have hreceived := Channel.received_eq_of_isIdle hfollow hcancel hended
    (Channel.drain_isIdle (Channel.new context capacity input true))
  rw [harrivals, List.append_nil] at hreceived
  exact hreceived

/-! ## The whole stream -/

/-- **The drained items are those of the whole stream**, however its bytes are cut and whatever
the queue holds. Every order of steps gives them that makes the deliveries, ends the input, comes
to rest and has no request to cancel. -/
theorem track_eq_itemsOf (context : Context) (capacity : Nat) (chunks : List (List UInt8)) :
    track context capacity (chunks.map .chunk) = itemsOf context chunks.flatten
      ∧ ∀ (actions : List Action) (c : Channel),
          (Channel.new context capacity [] false).follow? actions = some c →
          Channel.arrivals actions = chunks.map .chunk → .cancel ∉ actions →
          c.inputEnded = true → c.IsIdle → c.received = itemsOf context chunks.flatten := by
  refine ⟨?_, fun actions c h harrivals hcancel hended hidle => ?_⟩
  · rw [track_eq, deliveredItems_chunks]
  · rw [Channel.received_eq_of_isIdle h hcancel hended hidle, harrivals, List.nil_append,
      deliveredItems_chunks]

/-- A pull of an image about which nothing is known beforehand. -/
def sampleContext : Context where
  reference := { registry := none, name := "x", tag := none, digest := none }
  manifest := {}
  flavor := .docker
  resolved := none

/-- A stream that is cut within its first line and cannot be read on in its third. -/
def sampleChunks : List (List UInt8) :=
  [Text.Utf8.bytes "\x7b\"status\":\"Pulling fr",
    Text.Utf8.bytes "om x\"\x7d\r\n\x7b\"id\":\"a\",\"status\":\"Pulling fs layer\"\x7d\nx"]

/-- Steps after which the last item of `sampleChunks` waits for room. -/
def sampleSteps : List Action :=
  [.produce, .deliver (.chunk sampleChunks[0]), .produce, .produce,
    .deliver (.chunk sampleChunks[1]), .endInput] ++ List.replicate 7 .produce

theorem track_eq_itemsOf_cut :
    track sampleContext 0 (sampleChunks.map .chunk) = itemsOf sampleContext sampleChunks.flatten
      ∧ ∃ c, (Channel.new sampleContext 0 [] false).follow?
            (sampleSteps ++ [.receive, .produce, .receive]) = some c
          ∧ c.received.length = 2
          ∧ c.received = itemsOf sampleContext sampleChunks.flatten := by
  obtain ⟨htrack, hevery⟩ := track_eq_itemsOf sampleContext 0 sampleChunks
  have hreached : ((Channel.new sampleContext 0 [] false).follow?
      (sampleSteps ++ [.receive, .produce, .receive])).any
        (fun c => c.received.length = 2 ∧ c.inputEnded = true ∧ c.IsIdle) = true := by
    decide +kernel
  obtain ⟨c, hfollow, hc⟩ := (Option.any_eq_true ..).mp hreached
  obtain ⟨htwo, hended, hidle⟩ := of_decide_eq_true hc
  exact ⟨htrack, c, hfollow, htwo, hevery _ c hfollow rfl (by decide) hended hidle⟩

end ImagePull.Stream
