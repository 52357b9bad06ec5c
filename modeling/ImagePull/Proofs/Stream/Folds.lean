import ImagePull.Proofs.Pull.Steps
import ImagePull.Proofs.Stream.Drain

/-!
# The records that are folded

Which records of a stream are folded, and into which snapshots (`foldsFrom`). A stream gives the
snapshots of these records in order, apart from that of the announcement that opens the pull, and
then what ends it: nothing, an error, or what its end allows (`itemsFrom_eq`). Each fold advances
the snapshot that the fold before it led to, so that what holds of a pull before any event and is
kept by every event holds before and after each fold (`foldsFrom_induction`).
-/

namespace ImagePull.Stream

/-- A record that is folded: the snapshot before it, once there is one, the event that it stands
for and the snapshot that it leads to. -/
structure Fold where
  previous : Option Pull
  record : ProgressRecord
  event : PullEvent
  pull : Pull

namespace Fold

/-- Whether the record announces the pull that it opens. No snapshot is given out for it. -/
def isAnnouncement (f : Fold) : Bool :=
  decide (f.previous = none ∧ f.event = .started)

/-- The snapshot that the record is folded into; a pull that it opens is new. -/
def start (context : Context) (f : Fold) : Pull :=
  f.previous.getD (.new context)

end Fold

/-- The fold of a record, if it can be read and its event is accepted. -/
def fold? (context : Context) (current : Option Pull) (line : List UInt8) : Option Fold := do
  let record ← ProgressRecord.ofLine? line
  let event ← (PullEvent.classify record).toOption
  let pull ← (Pull.next context current event).toOption
  some { previous := current, record, event, pull }

/-- The records that are folded, up to one that cannot be or that ends the pull. -/
def foldsFrom (context : Context) (current : Option Pull) : List (List UInt8) → List Fold
  | [] => []
  | line :: rest =>
    match fold? context current line with
    | none => []
    | some f => f :: if f.pull.isTerminal then [] else foldsFrom context (some f.pull) rest

/-- The snapshot that folds lead to, if there is one. -/
def reached (current : Option Pull) (folds : List Fold) : Option Pull :=
  (folds.getLast?.map Fold.pull).or current

/-- The snapshots of folds that are given out. -/
def shown (folds : List Fold) : List Pull :=
  (folds.filter fun f => !f.isAnnouncement).map Fold.pull

/-- The records that a transport delivers. -/
def deliveredRecords (deliveries : List Delivery) : List (List UInt8) :=
  recordsBefore (content deliveries).2 (content deliveries).1

/-- The records of a stream that are folded. -/
def folds (context : Context) (deliveries : List Delivery) : List Fold :=
  foldsFrom context none (deliveredRecords deliveries)

/-! ## One record -/

variable {context : Context} {current : Option Pull} {line : List UInt8}
  {lines : List (List UInt8)} {f : Fold}

theorem fold?_eq_some :
    fold? context current line = some f
      ↔ f.previous = current ∧ ProgressRecord.ofLine? line = some f.record
        ∧ PullEvent.classify f.record = .ok f.event
        ∧ Pull.next context current f.event = .ok f.pull := by
  simp only [fold?, Option.bind_eq_bind, Option.bind_eq_some_iff, toOption_eq_some,
    Option.some.injEq]
  constructor
  · rintro ⟨record, hrecord, event, hevent, pull, hpull, rfl⟩
    exact ⟨rfl, hrecord, hevent, hpull⟩
  · rintro ⟨rfl, hrecord, hevent, hpull⟩
    exact ⟨_, hrecord, _, hevent, _, hpull, rfl⟩

/-- A fold advances the snapshot before it. -/
theorem advance_of_fold? (h : fold? context current line = some f) :
    (f.start context).advance f.event = .ok f.pull := by
  obtain ⟨rfl, -, -, hpull⟩ := fold?_eq_some.mp h
  rw [Fold.start]
  cases hprevious : f.previous with
  | none => exact Pull.advance_of_start (by rw [hprevious] at hpull; exact hpull)
  | some pull => rw [hprevious] at hpull; exact hpull

theorem shown_cons (f : Fold) (fs : List Fold) :
    shown (f :: fs) = (if f.isAnnouncement then [] else [f.pull]) ++ shown fs := by
  cases hf : f.isAnnouncement <;> simp [shown, hf]

theorem exists_of_mem_shown {fs : List Fold} {p : Pull} (h : p ∈ shown fs) :
    ∃ f ∈ fs, f.pull = p := by
  obtain ⟨f, hf, rfl⟩ := List.mem_map.mp h
  exact ⟨f, (List.mem_filter.mp hf).1, rfl⟩

theorem exists_of_reached {fs : List Fold} {p : Pull} (h : reached none fs = some p) :
    ∃ before f, fs = before ++ [f] ∧ f.pull = p := by
  rw [reached, Option.or_none, Option.map_eq_some_iff] at h
  obtain ⟨f, hlast, rfl⟩ := h
  obtain ⟨before, hfs⟩ := List.getLast?_eq_some_iff.mp hlast
  exact ⟨before, f, hfs, rfl⟩

theorem reached_cons (current : Option Pull) (f : Fold) (fs : List Fold) :
    reached current (f :: fs) = reached (some f.pull) fs := by
  rw [reached, reached, List.getLast?_cons]
  cases fs.getLast? <;> rfl

/-- A record that is folded gives its snapshot, and goes on with the stream if the pull does. -/
theorem itemsFrom_of_fold? (h : fold? context current line = some f)
    (ending : Option Pull → List StreamItem) (number : Nat) (rest : List (List UInt8)) :
    itemsFrom context ending current number (line :: rest)
      = (if f.isAnnouncement then [] else [.ok f.pull])
        ++ if f.pull.isTerminal then []
          else itemsFrom context ending (some f.pull) (number + 1) rest := by
  obtain ⟨rfl, hrecord, hevent, hpull⟩ := fold?_eq_some.mp h
  simp [itemsFrom, PullEvent.ofLine, hrecord, hevent, hpull, Fold.isAnnouncement]

/-- A record that is not folded ends the stream with an error, whatever would have followed. -/
theorem itemsFrom_of_fold?_eq_none (h : fold? context current line = none) (number : Nat)
    (rest : List (List UInt8)) :
    ∃ e, ∀ ending : Option Pull → List StreamItem,
      itemsFrom context ending current number (line :: rest) = [.error e] := by
  simp only [itemsFrom, PullEvent.ofLine]
  cases hrecord : ProgressRecord.ofLine? line with
  | none => exact ⟨_, fun _ => rfl⟩
  | some record =>
      simp only
      cases hevent : PullEvent.classify record with
      | error cause => exact ⟨_, fun _ => rfl⟩
      | ok event =>
          simp only
          cases hpull : Pull.next context current event with
          | error cause => exact ⟨_, fun _ => rfl⟩
          | ok pull =>
              have hfold : fold? context current line = some ⟨current, record, event, pull⟩ :=
                fold?_eq_some.mpr ⟨rfl, hrecord, hevent, hpull⟩
              rw [h] at hfold
              cases hfold

/-! ## All records -/

/-- What can follow the snapshots of the folds, given the one that they lead to: an error, or the
completion that the end of the stream allows. -/
inductive Ends (last : Option Pull) : List StreamItem → Prop where
  | quiet : Ends last []
  | broken (e : StreamError) (running : ∀ p ∈ last, p.isTerminal = false) : Ends last [.error e]
  | inferred {p q : Pull} (reached : last = some p) (finalized : p.finalize? = some q) :
    Ends last [.ok q]

theorem ends_lastItems (failure : Option String) (hcurrent : ∀ p ∈ current, p.isTerminal = false) :
    Ends current (lastItems failure current) := by
  cases failure with
  | some reason => exact .broken _ hcurrent
  | none =>
      rw [lastItems, completion]
      cases hcompletion : current.bind Pull.finalize? with
      | none => exact .quiet
      | some q =>
          obtain ⟨p, hp, hq⟩ := Option.bind_eq_some_iff.mp hcompletion
          exact .inferred hp hq

/-- **A stream gives the snapshots of its folds and what ends it.** -/
theorem itemsFrom_eq (failure : Option String) (number : Nat)
    (hcurrent : ∀ p ∈ current, p.isTerminal = false) :
    ∃ tail, itemsFrom context (lastItems failure) current number lines
        = (shown (foldsFrom context current lines)).map .ok ++ tail
      ∧ Ends (reached current (foldsFrom context current lines)) tail := by
  induction lines generalizing current number with
  | nil => exact ⟨_, rfl, ends_lastItems failure hcurrent⟩
  | cons line rest ih =>
      rw [foldsFrom]
      cases hfold : fold? context current line with
      | none =>
          obtain ⟨e, he⟩ := itemsFrom_of_fold?_eq_none hfold number rest
          exact ⟨[.error e], he _, .broken e hcurrent⟩
      | some f =>
          simp only [itemsFrom_of_fold? hfold, shown_cons, reached_cons]
          cases hend : f.pull.isTerminal with
          | true =>
              refine ⟨[], ?_, .quiet⟩
              simp only [if_true]
              split <;> simp [shown]
          | false =>
              obtain ⟨tail, hitems, hends⟩ := ih (number + 1)
                (show ∀ p ∈ some f.pull, p.isTerminal = false by simpa using hend)
              refine ⟨tail, ?_, hends⟩
              simp only [Bool.false_eq_true, if_false, hitems]
              split <;> simp

theorem itemsFrom_none_eq (context : Context) (failure : Option String) (number : Nat)
    (lines : List (List UInt8)) :
    ∃ tail, itemsFrom context (lastItems failure) none number lines
        = (shown (foldsFrom context none lines)).map .ok ++ tail
      ∧ Ends (reached none (foldsFrom context none lines)) tail :=
  itemsFrom_eq failure number fun _ h => nomatch h

theorem track_eq_itemsFrom (context : Context) (capacity : Nat) (deliveries : List Delivery) :
    track context capacity deliveries
      = itemsFrom context (lastItems (content deliveries).2) none 1 (deliveredRecords deliveries) :=
  track_eq context capacity deliveries

theorem track_eq_shown (context : Context) (capacity : Nat) (deliveries : List Delivery) :
    ∃ tail, track context capacity deliveries
        = (shown (folds context deliveries)).map .ok ++ tail
      ∧ Ends (reached none (folds context deliveries)) tail := by
  rw [track_eq_itemsFrom, folds]
  exact itemsFrom_none_eq context (content deliveries).2 1 _

/-- The first fold, and where the others come from. -/
theorem foldsFrom_eq_cons {fs : List Fold} (h : foldsFrom context current lines = f :: fs) :
    ∃ line rest, lines = line :: rest ∧ fold? context current line = some f
      ∧ (fs ≠ [] → f.pull.isTerminal = false)
      ∧ (f.pull.isTerminal = false → fs = foldsFrom context (some f.pull) rest) := by
  cases lines with
  | nil => cases h
  | cons line rest =>
      rw [foldsFrom] at h
      cases hfold : fold? context current line with
      | none => simp [hfold] at h
      | some g =>
          simp only [hfold, List.cons.injEq] at h
          obtain ⟨rfl, hrest⟩ := h
          refine ⟨line, rest, rfl, hfold, fun hne => ?_, fun hnot => ?_⟩
          · by_contra hend
            rw [Bool.not_eq_false] at hend
            rw [if_pos hend] at hrest
            exact hne hrest.symm
          · rw [hnot] at hrest
            exact hrest.symm

/-- **What every event keeps holds along the folds**: before and after a record, of the folds up
to there and the snapshot that they lead to. -/
theorem foldsFrom_induction {motive : List Fold → Pull → Prop} (start : motive [] (.new context))
    (step : ∀ {before : List Fold} {f : Fold}, motive before (f.start context) →
      PullEvent.classify f.record = .ok f.event →
      (f.start context).advance f.event = .ok f.pull → motive (before ++ [f]) f.pull)
    {before after : List Fold} (h : foldsFrom context none lines = before ++ f :: after) :
    motive before (f.start context) ∧ motive (before ++ [f]) f.pull := by
  -- the folds that lead to `current` are carried along
  suffices hall : ∀ (before done : List Fold) (current : Option Pull) (lines : List (List UInt8)),
      motive done (current.getD (.new context)) →
      foldsFrom context current lines = before ++ f :: after →
      motive (done ++ before) (f.start context) ∧ motive (done ++ before ++ [f]) f.pull from
    hall before [] none lines start h
  intro before
  induction before with
  | nil =>
      intro done current lines hdone h
      obtain ⟨line, rest, -, hfold, -⟩ := foldsFrom_eq_cons h
      obtain ⟨rfl, -, hevent, -⟩ := fold?_eq_some.mp hfold
      rw [List.append_nil]
      exact ⟨hdone, step hdone hevent (advance_of_fold? hfold)⟩
  | cons g before ih =>
      intro done current lines hdone h
      obtain ⟨line, rest, -, hfold, hrunning, hrest⟩ := foldsFrom_eq_cons h
      obtain ⟨rfl, -, hevent, -⟩ := fold?_eq_some.mp hfold
      have hnext := ih (done ++ [g]) (some g.pull) rest
        (step hdone hevent (advance_of_fold? hfold)) (hrest (hrunning (by simp))).symm
      simpa using hnext

/-- What every event keeps holds of all folds of a stream. -/
theorem holds_of_foldsFrom {motive : List Fold → Pull → Prop} (start : motive [] (.new context))
    (step : ∀ {before : List Fold} {f : Fold}, motive before (f.start context) →
      (f.start context).advance f.event = .ok f.pull → motive (before ++ [f]) f.pull)
    (lines : List (List UInt8)) :
    motive (foldsFrom context none lines)
      ((reached none (foldsFrom context none lines)).getD (.new context)) := by
  rcases List.eq_nil_or_concat (foldsFrom context none lines) with hnil | ⟨before, f, hfolds⟩
  · rw [hnil]
    exact start
  · rw [List.concat_eq_append] at hfolds
    have hlast := (foldsFrom_induction start (fun hbefore _ hadvance => step hbefore hadvance)
      hfolds).2
    rw [hfolds, reached, List.getLast?_concat]
    exact hlast

/-- The folds are of the first records of the stream. -/
theorem foldsFrom_records (context : Context) (current : Option Pull)
    (lines : List (List UInt8)) :
    (foldsFrom context current lines).map (some ·.record) <+: lines.map ProgressRecord.ofLine? := by
  induction lines generalizing current with
  | nil => exact List.prefix_rfl
  | cons line rest ih =>
      rw [foldsFrom]
      cases hfold : fold? context current line with
      | none => exact List.nil_prefix
      | some f =>
          rw [List.map_cons, List.map_cons, (fold?_eq_some.mp hfold).2.1]
          refine List.cons_prefix_cons.mpr ⟨rfl, ?_⟩
          split
          · exact List.nil_prefix
          · exact ih (some f.pull)

/-- Each fold is of one of the lines. -/
theorem exists_fold?_of_mem (h : f ∈ foldsFrom context current lines) :
    ∃ line ∈ lines, fold? context f.previous line = some f := by
  induction lines generalizing current with
  | nil => cases h
  | cons line rest ih =>
      rw [foldsFrom] at h
      cases hfold : fold? context current line with
      | none => simp [hfold] at h
      | some g =>
          simp only [hfold, List.mem_cons] at h
          rcases h with rfl | h
          · obtain ⟨rfl, -⟩ := fold?_eq_some.mp hfold
            exact ⟨line, List.mem_cons_self, hfold⟩
          · split at h
            · cases h
            · obtain ⟨line', hline', hf⟩ := ih h
              exact ⟨line', List.mem_cons_of_mem line hline', hf⟩

/-- No fold announces a pull that is open already. -/
theorem shown_of_open (context : Context) (p : Pull) (lines : List (List UInt8)) :
    shown (foldsFrom context (some p) lines)
      = (foldsFrom context (some p) lines).map Fold.pull := by
  induction lines generalizing p with
  | nil => rfl
  | cons line rest ih =>
      rw [foldsFrom]
      cases hfold : fold? context (some p) line with
      | none => rfl
      | some f =>
          have hopen : f.isAnnouncement = false := by
            simp [Fold.isAnnouncement, (fold?_eq_some.mp hfold).1]
          simp only [shown_cons, hopen, Bool.false_eq_true, if_false, List.map_cons]
          split
          · rfl
          · rw [ih f.pull]
            rfl

/-- Every fold is shown but the first, if it is the announcement. -/
theorem shown_foldsFrom {fs : List Fold} (h : foldsFrom context none lines = f :: fs) :
    shown (f :: fs) = (if f.event = .started then [] else [f.pull]) ++ fs.map Fold.pull := by
  obtain ⟨line, rest, -, hfold, hrunning, hrest⟩ := foldsFrom_eq_cons h
  have hlater : shown fs = fs.map Fold.pull := by
    by_cases hfs : fs = []
    · rw [hfs]
      rfl
    · rw [hrest (hrunning hfs), shown_of_open]
  rw [shown_cons, hlater]
  simp [Fold.isAnnouncement, (fold?_eq_some.mp hfold).1]

/-- The first record advances a new pull, and an announcement leaves it at that. -/
theorem advance_of_first {fs : List Fold} (h : foldsFrom context none lines = f :: fs) :
    (Pull.new context).advance f.event = .ok f.pull
      ∧ (f.event = .started → f.pull = .new context) := by
  obtain ⟨line, rest, -, hfold, -⟩ := foldsFrom_eq_cons h
  have hadvance := advance_of_fold? hfold
  have hstart : f.start context = .new context := by
    rw [Fold.start, (fold?_eq_some.mp hfold).1]
    rfl
  rw [hstart] at hadvance
  refine ⟨hadvance, fun hopening => ?_⟩
  rw [hopening] at hadvance
  exact (Except.ok.inj hadvance).symm

/-- What holds of a pull before its first record, and what every event keeps, holds of every pull
that is folded. -/
theorem holds_of_mem_foldsFrom {motive : Pull → Prop} (start : motive (.new context))
    (step : ∀ {p p' : Pull} {event : PullEvent}, motive p → p.advance event = .ok p' → motive p')
    (h : f ∈ foldsFrom context none lines) : motive f.pull := by
  obtain ⟨before, after, hfolds⟩ := List.append_of_mem h
  exact (foldsFrom_induction (motive := fun _ p => motive p) start
    (fun hbefore _ hadvance => step hbefore hadvance) hfolds).2

theorem context_of_mem_foldsFrom (h : f ∈ foldsFrom context none lines) :
    f.pull.context = context :=
  holds_of_mem_foldsFrom (motive := fun p => p.context = context) rfl
    (fun hbefore hadvance => (Pull.context_of_advance hadvance).trans hbefore) h

theorem synthesized_of_mem_foldsFrom (h : f ∈ foldsFrom context none lines) :
    f.pull.synthesized = false :=
  holds_of_mem_foldsFrom (motive := fun p => p.synthesized = false) rfl
    (fun hbefore hadvance => (Pull.synthesized_of_advance hadvance).trans hbefore) h

/-! ## The first records -/

/-- All records are folded, and the pull goes on after them. -/
def RunsThrough (context : Context) (current : Option Pull) (lines : List (List UInt8)) : Prop :=
  (foldsFrom context current lines).length = lines.length
    ∧ ∀ f ∈ foldsFrom context current lines, f.pull.isTerminal = false

/-- The pull is open after its first record. -/
theorem RunsThrough.exists_reached (h : RunsThrough context current lines) (hne : lines ≠ []) :
    ∃ p, reached current (foldsFrom context current lines) = some p ∧ p.isTerminal = false := by
  have hfolds : foldsFrom context current lines ≠ [] := by
    rw [ne_eq, ← List.length_eq_zero_iff, h.1, List.length_eq_zero_iff]
    exact hne
  refine ⟨_, ?_, h.2 _ (List.getLast_mem hfolds)⟩
  rw [reached, List.getLast?_eq_some_getLast hfolds]
  rfl

/-- Records that the pull runs through give their snapshots, and the stream goes on from the
last of them. -/
theorem itemsFrom_append (ending : Option Pull → List StreamItem) (number : Nat)
    (h : RunsThrough context current lines) (rest : List (List UInt8)) :
    itemsFrom context ending current number (lines ++ rest)
      = (shown (foldsFrom context current lines)).map .ok
        ++ itemsFrom context ending (reached current (foldsFrom context current lines))
          (number + lines.length) rest := by
  induction lines generalizing current number with
  | nil => rfl
  | cons line later ih =>
      obtain ⟨hlength, hrunning⟩ := h
      rw [foldsFrom] at hlength hrunning
      rw [List.cons_append, foldsFrom]
      cases hfold : fold? context current line with
      | none => simp [hfold] at hlength
      | some f =>
          simp only [hfold] at hlength hrunning
          have hnot : f.pull.isTerminal = false := hrunning f List.mem_cons_self
          simp only [hnot, Bool.false_eq_true, if_false, List.length_cons, Nat.add_right_cancel_iff]
            at hlength hrunning
          have hlater := ih (number + 1)
            ⟨hlength, fun g hg => hrunning g (List.mem_cons_of_mem f hg)⟩
          simp only [itemsFrom_of_fold? hfold, hnot, Bool.false_eq_true, if_false, shown_cons,
            reached_cons, hlater, List.length_cons]
          rw [Nat.add_assoc, Nat.add_comm 1]
          split <;> simp

end ImagePull.Stream
