import ImagePull.Stream.Producer

/-!
# Snapshots through a bounded queue

A producer and a consumer share a queue of bounded length. The system has four
sources of steps: the transport delivers, the producer works, the consumer
receives, and somebody requests cancellation or gives up the means to. An `Action`
is one step of one of them, and `follow?` takes actions in any order; `drain`,
`takeItems` and `settle` are orders that a program runs. A producer that is asked
to cancel stops where it would otherwise wait, so nothing is queued after the
request.
-/

namespace ImagePull.Stream

/-- The flag by which cancellation is requested. -/
structure CancelFlag where
  requested : Bool := false
  /-- Whether nobody is left who could request it. -/
  abandoned : Bool := false
deriving DecidableEq, Repr

/-- How waiting for a request ends. -/
inductive Awaited where
  | requested
  | abandoned
deriving DecidableEq, Repr

namespace CancelFlag

/-- How waiting for a request has ended; `none` while it goes on. A request that
was made counts also after nobody is left. -/
def awaited? (f : CancelFlag) : Option Awaited :=
  if f.requested then some .requested
  else if f.abandoned then some .abandoned
  else none

/-- Whether the producer has to stop. When nobody is left to ask it, it goes on. -/
def isRaised (f : CancelFlag) : Bool :=
  match f.awaited? with
  | some .requested => true
  | some .abandoned => false
  | none => false

end CancelFlag

/-- The state of a producer, its transport, its queue and its consumer. -/
structure Channel where
  producer : Producer
  capacity : Nat
  /-- Deliveries that the producer has not taken. -/
  input : List Delivery := []
  /-- Whether the transport has ended after them. -/
  inputEnded : Bool := false
  queue : List StreamItem := []
  flag : CancelFlag := {}
  /-- What the consumer has received, in order. -/
  received : List StreamItem := []
  /-- How many deliveries the producer has taken. -/
  taken : Nat := 0
deriving DecidableEq

namespace Channel

/-- A channel whose transport delivers `input` and then ends or stays open. -/
def new (context : Context) (capacity : Nat) (input : List Delivery) (inputEnded : Bool) :
    Channel :=
  { producer := .new context, capacity, input, inputEnded }

/-- The largest capacity for which a queue can be made, an eighth of the words; the attempt to make
a larger one ends the program. A channel here may have any capacity, since what it hands over does
not depend on it. -/
def maxCapacity : Nat := UInt64.size / 8 - 1

/-- How many items the queue holds at most. -/
def limit (c : Channel) : Nat := max c.capacity 1

/-- The producer takes the next delivery; `none` if there is none to take yet. -/
def takeInput? (c : Channel) : Option Channel :=
  match c.input with
  | delivery :: rest =>
    some { c with producer := c.producer.take delivery, input := rest, taken := c.taken + 1 }
  | [] =>
    if c.inputEnded then some { c with producer := { c.producer with phase := .ending } }
    else none

/-- The producer works while it holds no item. -/
def work? (c : Channel) : Option Channel :=
  match c.producer.phase with
  | .closed => none
  | .settling => some { c with producer := c.producer.settle }
  | .ending => some { c with producer := c.producer.endInput }
  | .reading => some { c with producer := c.producer.read }
  | .waiting =>
    if c.flag.isRaised then some { c with producer := c.producer.stop } else c.takeInput?

/-- The next step of the producer; `none` if it has to wait or is done. -/
def produce? (c : Channel) : Option Channel :=
  match c.producer.offer with
  | none => c.work?
  | some item =>
    if c.flag.isRaised then some { c with producer := c.producer.stop }
    else if c.queue.length < c.limit then
      some { c with queue := c.queue ++ [item], producer := { c.producer with offer := none } }
    else none

/-- The consumer receives the item that was queued first. -/
def receive? (c : Channel) : Option Channel :=
  match c.queue with
  | [] => none
  | item :: queue => some { c with queue, received := c.received ++ [item] }

/-- Cancellation is requested. -/
def cancel (c : Channel) : Channel := { c with flag := { c.flag with requested := true } }

/-- Nobody is left who could request cancellation. -/
def abandon (c : Channel) : Channel := { c with flag := { c.flag with abandoned := true } }

/-- The transport delivers. -/
def deliver (c : Channel) (delivery : Delivery) : Channel :=
  { c with input := c.input ++ [delivery] }

/-- The transport ends. -/
def endInput (c : Channel) : Channel := { c with inputEnded := true }

end Channel

/-- One step of the system. -/
inductive Action where
  | deliver (delivery : Delivery)
  | endInput
  | produce
  | receive
  | cancel
  | abandon
deriving DecidableEq

/-- The delivery that an action makes. -/
def Action.delivery? : Action → Option Delivery
  | .deliver delivery => some delivery
  | _ => none

namespace Channel

/-- The channel after an action; `none` if it is not possible. -/
def act? (c : Channel) : Action → Option Channel
  | .deliver delivery => if c.inputEnded then none else some (c.deliver delivery)
  | .endInput => some c.endInput
  | .produce => c.produce?
  | .receive => c.receive?
  | .cancel => if c.flag.abandoned then none else some c.cancel
  | .abandon => some c.abandon

/-- The channel after actions in a given order; `none` if one is not possible. -/
def follow? (c : Channel) : List Action → Option Channel
  | [] => some c
  | action :: rest => (c.act? action).bind (·.follow? rest)

/-! ## Schedules -/

/-- The bytes that the producer has not taken out as lines. -/
def pendingBytes (c : Channel) : Nat :=
  c.input.foldr (fun delivery n => delivery.size + n) c.producer.framer.buffer.length

/-- A bound on the number of steps that producer and consumer can still take. -/
def fuel (c : Channel) : Nat :=
  3 * c.pendingBytes + 2 * c.input.length + c.queue.length + 12

/-- The producer works until it has to wait. -/
def settleWithin : Nat → Channel → Channel
  | 0, c => c
  | fuel + 1, c =>
    match c.produce? with
    | some c => settleWithin fuel c
    | none => c

@[inherit_doc settleWithin]
def settle (c : Channel) : Channel := settleWithin c.fuel c

/-- The consumer receives whenever the producer has to wait, until `wanted`
items are received or nothing moves. -/
def takeWithin (wanted : Nat) : Nat → Channel → Channel
  | 0, c => c
  | fuel + 1, c =>
    if wanted ≤ c.received.length then c
    else match c.produce? with
      | some c => takeWithin wanted fuel c
      | none =>
        match c.receive? with
        | some c => takeWithin wanted fuel c
        | none => c

@[inherit_doc takeWithin]
def takeItems (c : Channel) (wanted : Nat) : Channel := takeWithin wanted c.fuel c

/-- Producer and consumer work until nothing moves. -/
def drain (c : Channel) : Channel := c.takeItems (c.received.length + c.fuel)

end Channel

/-- The items of a stream whose transport delivers `input` and ends. -/
def track (context : Context) (capacity : Nat) (input : List Delivery) : List StreamItem :=
  (Channel.new context capacity input true).drain.received

/-- The last snapshot of a run, or the first error in it. -/
def lastSnapshot (items : List StreamItem) : Except StreamError (Option Pull) := do
  let snapshots ← items.mapM id
  .ok snapshots.getLast?

end ImagePull.Stream
