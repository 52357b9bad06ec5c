import ImagePull.Proofs.Stream.Contexts
import ImagePull.Proofs.Stream.Growth
import ImagePull.Proofs.Stream.Interleaving

/-!
# Streams that break off

A transport may fail at any byte. What it delivered before are the lines that it finished and the
beginning of one that it did not. The finished lines give their items, and the failure follows
unless they have ended the stream (`items_of_broken`). Nothing stands between them, neither an item
of the unfinished line nor a completion, and nothing behind the failure is taken.
-/

namespace ImagePull.Stream

/-! ## Finished lines -/

/-- The records of the lines that a newline ends. -/
def finishedRecords (bytes : List UInt8) : List (List UInt8) :=
  recordsAmong (bytes.splitOn newline).dropLast

/-- The bytes behind the last newline are left out. -/
theorem finishedRecords_lines {lines : List (List UInt8)} {unfinished : List UInt8}
    (hlines : ∀ line ∈ lines, newline ∉ line) (hunfinished : newline ∉ unfinished) :
    finishedRecords (lines.flatMap (· ++ [newline]) ++ unfinished) = recordsAmong lines := by
  -- as in a stream that fails, for whatever reason
  show recordsBefore (some "") _ = _
  induction lines with
  | nil => exact recordsBefore_failure_of_unfinished "" hunfinished
  | cons line rest ih =>
      obtain ⟨hline, hrest⟩ := List.forall_mem_cons.mp hlines
      rw [List.flatMap_cons, List.append_assoc, List.append_assoc, List.singleton_append,
        recordsBefore_cut _ hline, ih hrest, trimmedLine?_toList, ← recordsAmong_append]
      rfl

/-! ## What follows the last item -/

/-- The item ends its stream: an error, or the snapshot of a pull that is over. -/
def endsStream : StreamItem → Bool
  | .ok p => p.isTerminal
  | .error _ => true

/-- The items have ended their stream. -/
def haveEnded (items : List StreamItem) : Bool :=
  items.getLast?.any endsStream

theorem haveEnded_append {items : List StreamItem} (h : ∀ item ∈ items, endsStream item = false)
    (later : List StreamItem) : haveEnded (items ++ later) = haveEnded later := by
  rw [haveEnded, haveEnded, List.getLast?_append]
  cases hlater : later.getLast? with
  | some item => rfl
  | none =>
      rw [Option.none_or]
      cases hlast : items.getLast? with
      | none => rfl
      | some item => exact h item (List.mem_of_getLast? hlast)

/-- An announcement does not end the pull that it opens. -/
theorem isAnnouncement_of_isTerminal {context : Context} {current : Option Pull}
    {line : List UInt8} {f : Fold} (h : fold? context current line = some f)
    (hend : f.pull.isTerminal = true) : f.isAnnouncement = false := by
  obtain ⟨rfl, -, -, hpull⟩ := fold?_eq_some.mp h
  rw [Fold.isAnnouncement, decide_eq_false_iff_not]
  rintro ⟨hprevious, hevent⟩
  rw [hprevious, hevent] at hpull
  rw [Tracker.not_isTerminal_of_next_started hpull] at hend
  cases hend

/-- **What follows the last record** follows unless the items of the records have ended the
stream. -/
theorem itemsFrom_const (context : Context) (last : List StreamItem) (current : Option Pull)
    (number : Nat) (lines : List (List UInt8)) :
    itemsFrom context (fun _ => last) current number lines
      = itemsFrom context (fun _ => []) current number lines
        ++ if haveEnded (itemsFrom context (fun _ => []) current number lines) then []
          else last := by
  induction lines generalizing current number with
  | nil => rfl
  | cons line rest ih =>
      cases hfold : fold? context current line with
      | none =>
          obtain ⟨e, he⟩ := itemsFrom_of_fold?_eq_none hfold number rest
          rw [he, he]
          rfl
      | some f =>
          rw [itemsFrom_of_fold? hfold, itemsFrom_of_fold? hfold]
          by_cases hend : f.pull.isTerminal = true
          · have hended : haveEnded [.ok f.pull] = true := hend
            simp [hend, isAnnouncement_of_isTerminal hfold hend, hended]
          · -- the item of the record does not end the stream, so those that follow decide
            have hgoesOn : ∀ item ∈ (if f.isAnnouncement then [] else [.ok f.pull]),
                endsStream item = false := by
              intro item hitem
              split at hitem
              · cases hitem
              · rw [List.mem_singleton.mp hitem]
                exact Bool.eq_false_iff.mpr hend
            rw [if_neg hend, if_neg hend, haveEnded_append hgoesOn, List.append_assoc]
            exact congrArg _ (ih (some f.pull) (number + 1))

/-! ## Broken streams -/

/-- The items of the lines that the chunks finish. -/
def finishedItems (context : Context) (chunks : List (List UInt8)) : List StreamItem :=
  itemsFrom context (fun _ => []) none 1 (finishedRecords chunks.flatten)

/-- What a stream gives that breaks off after the chunks. -/
def brokenItems (context : Context) (chunks : List (List UInt8)) (reason : String) :
    List StreamItem :=
  finishedItems context chunks
    ++ if haveEnded (finishedItems context chunks) then [] else [.error (.read reason)]

/-- The deliveries of a transport that fails after the chunks. -/
def brokenOff (chunks : List (List UInt8)) (reason : String) (later : List Delivery) :
    List Delivery :=
  chunks.map .chunk ++ .failure reason :: later

theorem content_brokenOff (chunks : List (List UInt8)) (reason : String)
    (later : List Delivery) : content (brokenOff chunks reason later)
      = (chunks.flatten, some reason) := by
  induction chunks with
  | nil => rfl
  | cons chunk rest ih =>
      have hcons : brokenOff (chunk :: rest) reason later
          = .chunk chunk :: brokenOff rest reason later := rfl
      rw [hcons, content, ih]
      rfl

/-- The first deliveries hold the failure if there are more of them than chunks. -/
theorem exists_brokenOff {ds : List Delivery} {chunks : List (List UInt8)} {reason : String}
    {later : List Delivery} (h : ds <+: brokenOff chunks reason later)
    (hlong : chunks.length < ds.length) : ∃ later', ds = brokenOff chunks reason later' := by
  have hfailure : brokenOff chunks reason [] <+: brokenOff chunks reason later := by
    show _ <+: chunks.map .chunk ++ ([.failure reason] ++ later)
    rw [← List.append_assoc]
    exact List.prefix_append _ _
  have hlength : (brokenOff chunks reason []).length ≤ ds.length := by
    rw [brokenOff, List.length_append, List.length_map]
    exact hlong
  obtain ⟨later', hds⟩ := List.prefix_of_prefix_length_le hfailure h hlength
  refine ⟨later', ?_⟩
  rw [← hds, brokenOff, brokenOff, List.append_assoc]
  rfl

theorem deliveredItems_brokenOff (context : Context) (chunks : List (List UInt8))
    (reason : String) (later : List Delivery) :
    deliveredItems context (brokenOff chunks reason later)
      = brokenItems context chunks reason := by
  rw [deliveredItems, content_brokenOff]
  exact itemsFrom_const context [.error (.read reason)] none 1 (finishedRecords chunks.flatten)

/-- No completion is among the items of a stream that breaks off. -/
theorem synthesized_of_mem_brokenItems {context : Context} {chunks : List (List UInt8)}
    {reason : String} {q : Pull} (h : .ok q ∈ brokenItems context chunks reason) :
    q.synthesized = false := by
  have htold : brokenItems context chunks reason
      = toldFrom context (some reason) none 1 (finishedRecords chunks.flatten) :=
    (itemsFrom_const context [.error (.read reason)] none 1 _).symm
  have hnew : ∀ p ∈ (none : Option Pull), p.synthesized = false := fun _ hp => nomatch hp
  rw [htold] at h
  exact isInferred_of_mem_toldFrom hnew h

/-! ## What is taken -/

/-- The delivery is the failure of a transport. -/
def Delivery.isFailure : Delivery → Bool
  | .chunk _ => false
  | .failure _ => true

namespace Channel

/-- The deliveries that a channel has taken. Only the last of them may be a failure, and then its
producer is done. -/
structure HasTaken (c : Channel) (before : List Delivery) : Prop where
  length : before.length = c.taken
  dropLast : ∀ d ∈ before.dropLast, d.isFailure = false
  running : c.producer.phase ≠ .closed → ∀ d ∈ before, d.isFailure = false

/-- A step that takes nothing leaves a producer done that is done. -/
theorem HasTaken.of_not_taken {c c' : Channel} {before : List Delivery} (h : c.HasTaken before)
    (htaken : c'.taken = c.taken)
    (hclosed : c.producer.phase = .closed → c'.producer.phase = .closed) : c'.HasTaken before :=
  ⟨h.length.trans htaken.symm, h.dropLast, fun hrunning => h.running (mt hclosed hrunning)⟩

/-- **A step of the producer takes the first of the deliveries that wait**, or none. -/
theorem Produced.hasTaken {c c' : Channel} (h : Produced c c') {before : List Delivery}
    (hbefore : c.HasTaken before) :
    ∃ before', before ++ c.input = before' ++ c'.input ∧ c'.HasTaken before' := by
  cases h with
  | @take d rest offer phase input =>
      refine ⟨before ++ [d], by rw [input, List.append_assoc]; rfl, ?_⟩
      have hchunks := hbefore.running (by simp [phase])
      refine ⟨?_, ?_, ?_⟩
      · rw [List.length_append, hbefore.length]
        rfl
      · rw [List.dropLast_concat]
        exact hchunks
      · intro hrunning d' hd'
        rcases List.mem_append.mp hd' with hd' | hd'
        · exact hchunks d' hd'
        · rw [List.mem_singleton.mp hd']
          cases d with
          | chunk bytes => rfl
          | failure reason => exact absurd rfl hrunning
  | stop => exact ⟨before, rfl, hbefore.of_not_taken rfl fun _ => rfl⟩
  | enqueue => exact ⟨before, rfl, hbefore.of_not_taken rfl id⟩
  | read offer phase | exhausted offer phase | finish offer phase | settle offer phase =>
      refine ⟨before, rfl, hbefore.of_not_taken rfl fun hclosed => ?_⟩
      rw [phase] at hclosed
      cases hclosed

/-- One step adds the delivery that it makes to those that wait. -/
theorem Acted.hasTaken {c c' : Channel} {action : Action} (h : Acted c action c')
    {before : List Delivery} (hbefore : c.HasTaken before) :
    ∃ before', before ++ c.input ++ action.delivery?.toList = before' ++ c'.input
      ∧ c'.HasTaken before' := by
  have hsame (d : Channel) (htaken : d.taken = c.taken) (hproducer : d.producer = c.producer) :
      d.HasTaken before :=
    hbefore.of_not_taken htaken fun hclosed => hproducer ▸ hclosed
  cases h with
  | produce step =>
      show ∃ before', before ++ c.input ++ [] = before' ++ c'.input ∧ _
      rw [List.append_nil]
      exact step.hasTaken hbefore
  | deliver d still => exact ⟨before, List.append_assoc .., hsame _ rfl rfl⟩
  | _ => exact ⟨before, List.append_nil _, hsame _ rfl rfl⟩

/-- **Along every order of steps the deliveries are taken in order**, up to a failure. -/
theorem follow_hasTaken {actions : List Action} {c c' : Channel}
    (h : c.follow? actions = some c') {before : List Delivery} (hbefore : c.HasTaken before) :
    ∃ before', before ++ c.input ++ arrivals actions = before' ++ c'.input
      ∧ c'.HasTaken before' := by
  induction actions generalizing c before with
  | nil =>
      cases h
      exact ⟨before, List.append_nil _, hbefore⟩
  | cons action rest ih =>
      obtain ⟨d, hd, hrest⟩ := Option.bind_eq_some_iff.mp h
      obtain ⟨between, hbetween, htaken⟩ := (acted hd).hasTaken hbefore
      rw [arrivals_cons, ← List.append_assoc, hbetween]
      exact ih hrest htaken

/-- **Behind the failure nothing is taken.** -/
theorem HasTaken.taken_le {c : Channel} {before : List Delivery} (h : c.HasTaken before)
    {chunks : List (List UInt8)} {reason : String} {later : List Delivery}
    (hbroken : before <+: brokenOff chunks reason later) : c.taken ≤ chunks.length + 1 := by
  by_contra hmore
  have hlong : chunks.length < before.dropLast.length := by
    rw [List.length_dropLast, h.length]
    omega
  obtain ⟨later', heq⟩ := exists_brokenOff ((List.dropLast_prefix before).trans hbroken) hlong
  have hfailure : Delivery.failure reason ∈ before.dropLast := by
    rw [heq, brokenOff]
    exact List.mem_append_right _ List.mem_cons_self
  exact absurd (h.dropLast _ hfailure) nofun

/-- A producer that has taken the failure is done. -/
theorem HasTaken.closed {c : Channel} {before : List Delivery} (h : c.HasTaken before)
    {chunks : List (List UInt8)} {reason : String} {later : List Delivery}
    (hbroken : before <+: brokenOff chunks reason later) (hlong : chunks.length < before.length) :
    c.producer.phase = .closed := by
  by_contra hrunning
  obtain ⟨later', rfl⟩ := exists_brokenOff hbroken hlong
  have hfailure : Delivery.failure reason ∈ brokenOff chunks reason later' :=
    List.mem_append_right _ List.mem_cons_self
  exact absurd (h.running hrunning _ hfailure) nofun

/-- At rest the items of a broken stream have been received, whether or not the input has ended. -/
theorem received_of_brokenOff {context : Context} {capacity : Nat} {actions : List Action}
    {c : Channel} (h : (new context capacity [] false).follow? actions = some c)
    {before : List Delivery} (hbefore : c.HasTaken before)
    (harrivals : arrivals actions = before ++ c.input) {chunks : List (List UInt8)}
    {reason : String} {later : List Delivery}
    (hbroken : arrivals actions <+: brokenOff chunks reason later)
    (hcancel : .cancel ∉ actions) (hlong : chunks.length < (arrivals actions).length)
    (hidle : c.IsIdle) : c.received = brokenItems context chunks reason := by
  have hnot : c.flag.requested = false := requested_eq_of_follow h hcancel
  have htaken : before <+: brokenOff chunks reason later :=
    (harrivals ▸ List.prefix_append before c.input).trans hbroken
  have hclosed : c.producer.phase = .closed := by
    obtain ⟨-, -, hclosed | ⟨hinput, -⟩⟩ := hidle.rests hnot
    · exact hclosed
    · -- nothing waits any more, so the failure has been taken
      rw [hinput, List.append_nil] at harrivals
      exact hbefore.closed htaken (harrivals ▸ hlong)
  have hsame := (follow_outlook h (isFramed_new _ _ _ _) fun _ => rfl).2 hnot
  obtain ⟨later', hbrokenOff⟩ := exists_brokenOff hbroken hlong
  rw [hidle.outlook_of_closed hnot hclosed, outlook_new, List.append_nil, List.nil_append,
    hbrokenOff, deliveredItems_brokenOff] at hsame
  exact hsame

end Channel

/-- **A stream that breaks off gives the items of its finished lines, and then the failure** unless
they have ended the stream. The error names no line, no snapshot is a completion that no record
told, and the bytes behind the last newline do not count. Every order of steps that delivers the
failure, has no request to cancel and comes to rest gives these items, and none takes a delivery
behind the failure. -/
theorem items_of_broken (context : Context) (capacity : Nat) (chunks : List (List UInt8))
    (reason : String) (later : List Delivery) :
    track context capacity (brokenOff chunks reason later) = brokenItems context chunks reason
      ∧ (StreamError.read reason).line? = none
      ∧ (∀ q, .ok q ∈ brokenItems context chunks reason → q.synthesized = false)
      ∧ (∀ lines unfinished, (∀ line ∈ lines, newline ∉ line) → newline ∉ unfinished →
          chunks.flatten = lines.flatMap (· ++ [newline]) ++ unfinished →
          finishedItems context chunks
            = itemsFrom context (fun _ => []) none 1 (recordsAmong lines))
      ∧ ∀ (actions : List Action) (c : Channel),
          (Channel.new context capacity [] false).follow? actions = some c →
          Channel.arrivals actions <+: brokenOff chunks reason later →
          c.taken ≤ chunks.length + 1
            ∧ (.cancel ∉ actions → chunks.length < (Channel.arrivals actions).length →
                c.IsIdle → c.received = brokenItems context chunks reason) := by
  refine ⟨?_, rfl, ?_, ?_, ?_⟩
  · rw [track_eq, deliveredItems_brokenOff]
  · intro q hq
    exact synthesized_of_mem_brokenItems hq
  · intro lines unfinished hlines hunfinished hbytes
    rw [finishedItems, hbytes, finishedRecords_lines hlines hunfinished]
  · intro actions c h hbroken
    have hnone : (Channel.new context capacity [] false).HasTaken [] :=
      ⟨rfl, List.forall_mem_nil _, fun _ => List.forall_mem_nil _⟩
    obtain ⟨before, harrivals, hbefore⟩ := Channel.follow_hasTaken h hnone
    have htaken : before <+: brokenOff chunks reason later :=
      (harrivals ▸ List.prefix_append before c.input).trans hbroken
    refine ⟨hbefore.taken_le htaken, ?_⟩
    intro hcancel hlong hidle
    exact Channel.received_of_brokenOff h hbefore harrivals hbroken hcancel hlong hidle

/-- The layer of `storedContext` is there already, and the next line is not finished. -/
def storedChunks : List (List UInt8) :=
  [Text.Utf8.bytes "\x7b\"status\":\"Pulling from x\"\x7d\n",
    Text.Utf8.bytes "\x7b\"id\":\"a1b2\",\"status\":\"Already exists\"\x7d\n\x7b\"sta"]

/-- Steps after which the failure behind `storedChunks` has been received. -/
def storedSteps : List Action :=
  (brokenOff storedChunks "reset" []).map .deliver
    ++ List.replicate 9 .produce ++ [.receive, .produce, .receive]

/-- The pull could be completed where the stream breaks off, and is not. -/
theorem items_of_broken_stored :
    track storedContext 1 (brokenOff storedChunks "reset" [])
        = finishedItems storedContext storedChunks ++ [.error (.read "reset")]
      ∧ (∃ p, .ok p ∈ finishedItems storedContext storedChunks ∧ p.finalize? ≠ none)
      ∧ ∃ c, (Channel.new storedContext 1 [] false).follow? storedSteps = some c
          ∧ c.received = brokenItems storedContext storedChunks "reset" := by
  obtain ⟨htrack, -, -, -, hevery⟩ := items_of_broken storedContext 1 storedChunks "reset" []
  have hrunning : haveEnded (finishedItems storedContext storedChunks) = false := by
    decide +kernel
  have hcompletable : (snapshots (finishedItems storedContext storedChunks)).any
      (fun p => p.finalize?.isSome) = true := by
    decide +kernel
  have hreached : ((Channel.new storedContext 1 [] false).follow? storedSteps).any
      (fun c => c.IsIdle) = true := by
    decide +kernel
  obtain ⟨c, hfollow, hc⟩ := (Option.any_eq_true ..).mp hreached
  obtain ⟨p, hp, hfinal⟩ := List.any_eq_true.mp hcompletable
  refine ⟨?_, ⟨p, mem_snapshots.mp hp, Option.isSome_iff_ne_none.mp hfinal⟩, c, hfollow, ?_⟩
  · rw [htrack, brokenItems, hrunning]
    rfl
  · exact (hevery storedSteps c hfollow List.prefix_rfl).2 (by decide) (by decide)
      (of_decide_eq_true hc)

end ImagePull.Stream
