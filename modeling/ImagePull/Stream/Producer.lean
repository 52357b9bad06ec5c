import ImagePull.Stream.Framer
import ImagePull.Stream.Tracker

/-!
# The producer of snapshots

A producer turns deliveries of a transport into stream items. It holds at most
one item that has been computed but not handed over (`offer`) and does nothing
else while it does. It folds the complete lines it has before it waits for more
input. When the input has ended, the unfinished line counts as a line, and then a
completion may be inferred.
-/

namespace ImagePull.Stream

/-- What a transport delivers: bytes, or the failure that ends it. -/
inductive Delivery where
  | chunk (bytes : List UInt8)
  | failure (reason : String)
deriving DecidableEq, Repr

/-- The number of bytes of a delivery. -/
def Delivery.size : Delivery → Nat
  | .chunk bytes => bytes.length
  | .failure _ => 0

/-- What a producer does next when it holds no item. -/
inductive Phase where
  /-- Folds complete lines. -/
  | reading
  /-- No complete line is left; takes a delivery. -/
  | waiting
  /-- The input has ended; its unfinished line is next. -/
  | ending
  /-- All lines are folded; a completion may follow. -/
  | settling
  /-- Nothing follows. -/
  | closed
deriving DecidableEq, Repr

/-- The state of a producer. -/
structure Producer where
  tracker : Tracker
  framer : Framer := {}
  phase : Phase := .reading
  offer : Option StreamItem := none
deriving DecidableEq

namespace Producer

/-- The producer of a pull that has not begun. -/
def new (context : Context) : Producer :=
  { tracker := { context } }

/-- Gives up whatever is left to do. -/
def stop (p : Producer) : Producer :=
  { p with phase := .closed, offer := none }

/-- Offers an item after which nothing follows. -/
def offerLast (p : Producer) (item : StreamItem) : Producer :=
  { p with phase := .closed, offer := some item }

/-- Folds a line. A snapshot that ends the pull, or an error, is the last item. -/
def fold (p : Producer) (line : List UInt8) : Producer :=
  match p.tracker.consume line with
  | .error e => p.offerLast (.error e)
  | .ok (tracker, none) => { p with tracker }
  | .ok (tracker, some pull) =>
    if pull.isTerminal then { p with tracker }.offerLast (.ok pull)
    else { p with tracker, offer := some (.ok pull) }

/-- Folds the next complete line, or waits for a delivery if there is none. -/
def read (p : Producer) : Producer :=
  match p.framer.next with
  | (some line, framer) => { p with framer }.fold line
  | (none, framer) => { p with framer, phase := .waiting }

/-- Takes in a delivery. -/
def take (p : Producer) : Delivery → Producer
  | .chunk bytes => { p with framer := p.framer.push bytes, phase := .reading }
  | .failure reason => p.offerLast (.error (.read reason))

/-- Treats the unfinished line as a line. -/
def endInput (p : Producer) : Producer :=
  let (line, framer) := p.framer.finish
  let p := { p with framer, phase := .settling }
  match line with
  | some line => p.fold line
  | none => p

/-- Offers the completion that can be inferred, if there is one. -/
def settle (p : Producer) : Producer :=
  match p.tracker.complete? with
  | some pull => p.offerLast (.ok pull)
  | none => p.stop

end Producer

end ImagePull.Stream
