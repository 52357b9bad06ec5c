import ImagePull.Proofs.Stream.Records

/-!
# Framing as its caller sees it

A caller gives chunks to a framer and asks it for lines, in whatever order; in the end it takes the
complete lines that are left and the unfinished one. However the calls are mixed and wherever the
chunks are cut, it gets the records of all the bytes that it gave (`framed_eq_records`).
-/

namespace ImagePull.Stream

namespace Framer

/-- What a caller does with a framer. -/
inductive Call where
  | push (chunk : List UInt8)
  | next

/-- The bytes that a call gives. -/
def Call.bytes : Call → List UInt8
  | .push chunk => chunk
  | .next => []

/-- All bytes that the calls give. -/
def pushed (calls : List Call) : List UInt8 :=
  calls.flatMap Call.bytes

/-- The lines that the calls get, and the framer after them. -/
def run (f : Framer) : List Call → List (List UInt8) × Framer
  | [] => ([], f)
  | .push chunk :: calls => (f.push chunk).run calls
  | .next :: calls =>
    let (found, f) := f.next
    let (lines, f) := f.run calls
    (found.toList ++ lines, f)

/-- The lines that are left when no more bytes come: the complete ones and the unfinished one. -/
def rest (f : Framer) : List (List UInt8) :=
  f.lines.1 ++ f.lines.2.finish.1.toList

/-- All lines that a new framer gives for the calls and then for the end of its input. -/
def framed (calls : List Call) : List (List UInt8) :=
  (run {} calls).1 ++ (run {} calls).2.rest

/-! ## What is still held -/

/-- The lines of the calls are the first records of what is held and given; the others are still
held. -/
theorem records_run (f : Framer) (calls : List Call) :
    records (f.buffer ++ pushed calls) = (f.run calls).1 ++ records (f.run calls).2.buffer := by
  induction calls generalizing f with
  | nil => exact congrArg records (List.append_nil _)
  | cons call rest ih =>
      have hpushed : pushed (call :: rest) = call.bytes ++ pushed rest := List.flatMap_cons
      rw [hpushed]
      cases call with
      | push chunk =>
          rw [Call.bytes, ← List.append_assoc]
          exact ih (f.push chunk)
      | next =>
          rw [Call.bytes, List.nil_append]
          cases hnext : f.next with
          | mk found f' =>
              simp only [run, hnext, List.append_assoc]
              cases found with
              | some line =>
                  have hrecords := next_some none hnext (pushed rest)
                  simp only [recordsBefore] at hrecords
                  rw [hrecords, ih f', Option.toList_some, List.singleton_append]
              | none =>
                  -- only blank pieces are gone
                  have hrecords := (next_none none hnext).2 (pushed rest)
                  simp only [recordsBefore] at hrecords
                  rw [hrecords, ih f', Option.toList_none, List.nil_append]

/-! ## Asking until there is no line -/

/-- Asked until it has no line, the framer gives these lines. -/
inductive Drains : Framer → List (List UInt8) → Framer → Prop where
  | done {f f' : Framer} (h : f.next = (none, f')) : Drains f [] f'
  | more {f g f' : Framer} {line : List UInt8} {lines : List (List UInt8)}
    (h : f.next = (some line, g)) (later : Drains g lines f') : Drains f (line :: lines) f'

/-- With room for them all lines are taken that there are. -/
theorem drains_drain {f : Framer} {room : Nat} (h : f.buffer.length ≤ room) :
    f.Drains (f.drain room).1 (f.drain room).2 := by
  induction room generalizing f with
  | zero =>
      obtain ⟨buffer⟩ := f
      cases List.length_eq_zero_iff.mp (Nat.le_zero.mp h)
      exact .done rfl
  | succ room ih =>
      cases hnext : f.next with
      | mk found f' =>
          simp only [drain, hnext]
          cases found with
          | none => exact .done hnext
          | some line =>
              have hlength := next_length hnext
              simp only [Option.toList_some, List.length_singleton] at hlength
              exact .more hnext (ih (by omega))

/-- The lines are the first records of what was held, and what is still held is not finished. -/
theorem Drains.records_eq {f f' : Framer} {lines : List (List UInt8)} (h : f.Drains lines f') :
    newline ∉ f'.buffer ∧ records f.buffer = lines ++ records f'.buffer := by
  induction h with
  | done h =>
      obtain ⟨hunfinished, hsame⟩ := next_none none h
      have hrecords := hsame []
      simp only [List.append_nil, recordsBefore] at hrecords
      exact ⟨hunfinished, hrecords⟩
  | more h later ih =>
      obtain ⟨hunfinished, hlater⟩ := ih
      have hrecords := next_some none h []
      simp only [List.append_nil, recordsBefore] at hrecords
      exact ⟨hunfinished, by rw [hrecords, hlater, List.cons_append]⟩

/-- **What is left when no more bytes come are the records of the bytes held.** -/
theorem rest_eq_records (f : Framer) : f.rest = records f.buffer := by
  obtain ⟨hunfinished, hrecords⟩ := (drains_drain (Nat.le_refl f.buffer.length)).records_eq
  rw [hrecords, records_of_unfinished hunfinished]
  rfl

/-- **There is no next line exactly when no record is finished.** -/
theorem next_eq_none_iff (f : Framer) :
    f.next.1 = none ↔ recordsAmong (f.buffer.splitOn newline).dropLast = [] := by
  show _ ↔ recordsBefore (some "") f.buffer = []
  cases hnext : f.next with
  | mk found f' =>
      cases found with
      | none =>
          obtain ⟨hunfinished, hsame⟩ := next_none (some "") hnext
          have hrecords := hsame []
          rw [List.append_nil, List.append_nil] at hrecords
          rw [hrecords, recordsBefore_failure_of_unfinished "" hunfinished]
          exact iff_of_true rfl rfl
      | some line =>
          have hrecords := next_some (some "") hnext []
          rw [List.append_nil] at hrecords
          simp [hrecords]

/-! ## Whole inputs -/

/-- **A framer gives the records of all its bytes**, in whatever chunks they come and however its
caller mixes giving with asking. -/
theorem framed_eq_records (calls : List Call) : framed calls = records (pushed calls) := by
  rw [framed, rest_eq_records]
  exact (records_run {} calls).symm

/-- The lines of several inputs, each with its end, that are given to one framer in turn. -/
def framedInTurn (f : Framer) : List (List Call) → List (List (List UInt8))
  | [] => []
  | calls :: inputs =>
    let (lines, f) := f.run calls
    let (left, f) := f.lines
    let (last, f) := f.finish
    (lines ++ left ++ last.toList) :: f.framedInTurn inputs

/-- A framer without bytes gives the records of each input. -/
theorem framedInTurn_eq_records (inputs : List (List Call)) :
    framedInTurn {} inputs = inputs.map fun calls => records (pushed calls) := by
  induction inputs with
  | nil => rfl
  | cons calls inputs ih =>
      rw [List.map_cons, ← ih, ← framed_eq_records, framed, rest, ← List.append_assoc]
      rfl

/-- **A framer cuts its bytes at every newline.** Whatever calls are made, asking for lines until
there is none and then for the unfinished one gives the pieces of all bytes, without the blanks at
their ends and without those that are blank. There is no next line exactly when no record is
finished. The end of its input makes a framer, whatever it held, a new one, which gives the records
of each input that follows. -/
theorem framed_splits (calls : List Call) :
    let (lines, held) := run {} calls
    held.Drains held.lines.1 held.lines.2
      ∧ lines ++ held.lines.1 ++ held.lines.2.finish.1.toList
          = ((pushed calls).splitOn newline |>.map stripped).filter (· ≠ [])
      ∧ (∀ f : Framer, f.next.1 = none
          ↔ recordsAmong (f.buffer.splitOn newline).dropLast = [])
      ∧ (∀ f : Framer, f.finish.2 = {})
      ∧ ∀ inputs : List (List Call),
          framedInTurn {} inputs = inputs.map fun calls => records (pushed calls) := by
  refine ⟨drains_drain (Nat.le_refl _), ?_, next_eq_none_iff, fun _ => rfl,
    framedInTurn_eq_records⟩
  rw [List.append_assoc]
  exact framed_eq_records calls

end Framer

end ImagePull.Stream
