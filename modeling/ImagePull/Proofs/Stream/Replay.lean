import ImagePull.Proofs.Outcome
import ImagePull.Proofs.Stream.Blanks
import ImagePull.Proofs.Stream.Drain

/-!
# Replaying recorded lines

A replay takes texts as lines where a stream takes bytes. Both make the same records of lines that
are plain, and so give the same snapshots or the same error. Of a line that is not plain a stream
makes a malformed record, while a replay may pass it over, read a record from it, or refuse another
text than the stream does; `replay_eq_track_iff` says exactly when both agree in spite of such a
line. What the JSON reader says of a text that it refuses is not modelled: any function of the text
may be taken for it.
-/

namespace ImagePull

open ImagePull.Stream

/-! ## Lines as a stream -/

namespace Stream

theorem newline_not_mem_bytes {line : String} (h : '\n' ∉ line.toList) :
    newline ∉ Text.Utf8.bytes line := by
  intro hmem
  obtain ⟨c, hc, hbyte⟩ := List.mem_flatMap.mp hmem
  by_cases hascii : c.toNat < 0x80
  · rw [Text.Utf8.encodeChar_of_lt hascii, List.mem_singleton, ← UInt8.toNat_inj,
      UInt8.toNat_ofNat', Nat.mod_eq_of_lt (by omega)] at hbyte
    have hline : c = '\n' := Char.toNat_inj.mp hbyte.symm
    exact h (hline ▸ hc)
  · have := Text.Utf8.le_of_mem_encodeChar (Nat.not_lt.mp hascii) hbyte
    exact absurd this (by decide)

theorem encode_intercalate (lines : List (List Char)) :
    Text.Utf8.encode (['\n'].intercalate lines)
      = [newline].intercalate (lines.map Text.Utf8.encode) := by
  induction lines with
  | nil => rfl
  | cons line rest ih =>
      cases rest with
      | nil => simp
      | cons next later =>
          rw [List.intercalate_cons_cons, List.map_cons, List.map_cons,
            List.intercalate_cons_cons, Text.Utf8.encode_append, Text.Utf8.encode_append, ih]
          rfl

/-- **Joined lines are a stream of the records of these lines.** -/
theorem records_intercalate {lines : List String} (h : ∀ line ∈ lines, '\n' ∉ line.toList) :
    records (Text.Utf8.bytes ("\n".intercalate lines))
      = recordsAmong (lines.map Text.Utf8.bytes) := by
  cases lines with
  | nil => rfl
  | cons line rest =>
      have hpieces : ∀ piece ∈ (line :: rest).map Text.Utf8.bytes, newline ∉ piece := by
        intro piece hpiece
        obtain ⟨l, hl, rfl⟩ := List.mem_map.mp hpiece
        exact newline_not_mem_bytes (h l hl)
      have hjoined : Text.Utf8.bytes ("\n".intercalate (line :: rest))
          = [newline].intercalate ((line :: rest).map Text.Utf8.bytes) := by
        rw [Text.Utf8.bytes, String.toList_intercalate]
        refine (encode_intercalate _).trans ?_
        rw [List.map_map]
        rfl
      rw [records, hjoined, List.splitOn_intercalate newline hpieces (by simp)]

end Stream

/-! ## What an error tells -/

/-- What an error tells if `why` is what the JSON reader says of a text that it refuses: of a
malformed record the number of the line and what the reader says, of any other error all. -/
def StreamError.told {Cause : Type} (why : List UInt8 → Cause) :
    StreamError → Nat × Cause ⊕ StreamError
  | .classification line (.malformedRecord refused) => .inl (line, why refused)
  | e => .inr e

theorem StreamError.told_eq_inl {Cause : Type} {why : List UInt8 → Cause} {e : StreamError}
    {line : Nat} {cause : Cause} :
    e.told why = .inl (line, cause)
      ↔ ∃ refused, e = .classification line (.malformedRecord refused) ∧ why refused = cause := by
  constructor
  · intro h
    unfold told at h
    split at h
    · cases h
      exact ⟨_, rfl, rfl⟩
    · cases h
  · rintro ⟨refused, rfl, rfl⟩
    rfl

/-! ## Where an error comes from -/

theorem ProgressRecord.extraction_ne_malformed (r : ProgressRecord) (refused : List UInt8) :
    r.extraction ≠ .error (.malformedRecord refused) := by
  rw [extraction]
  split
  · exact nofun
  · simp only
    split <;> exact nofun

theorem ProgressRecord.layerEvent?_ne_malformed (r : ProgressRecord) (refused : List UInt8) :
    r.layerEvent? ≠ .error (.malformedRecord refused) := by
  rw [layerEvent?]
  split
  case h_7 =>
    -- only the counts of an extraction can be wrong here
    intro h
    cases hdetail : r.extraction with
    | error cause =>
        rw [hdetail] at h
        cases h
        exact r.extraction_ne_malformed refused hdetail
    | ok detail =>
        rw [hdetail] at h
        cases h
  all_goals exact nofun

theorem PullEvent.ofStatus_ne_malformed (status : String) (refused : List UInt8) :
    ofStatus status ≠ .error (.malformedRecord refused) := by
  rw [ofStatus]
  split
  · exact nofun
  · split
    · split <;> exact nofun
    · split <;> exact nofun

/-- A record that can be read is not malformed, whatever else is wrong with it. -/
theorem PullEvent.classify_ne_malformed (r : ProgressRecord) (refused : List UInt8) :
    classify r ≠ .error (.malformedRecord refused) := by
  rw [classify]
  split
  · exact nofun
  · intro h
    cases hevent : r.layerEvent? with
    | error cause =>
        rw [hevent] at h
        cases h
        exact r.layerEvent?_ne_malformed refused hevent
    | ok event =>
        rw [hevent] at h
        cases event with
        | none => exact ofStatus_ne_malformed r.status refused h
        | some event => cases hid : r.layerId <;> simp [hid, bind, Except.bind] at h

namespace Tracker

theorem consume_of_malformed {t : Tracker} {line : List UInt8}
    (h : ProgressRecord.ofLine? line = none) :
    t.consume line = .error (.classification (t.line + 1) (.malformedRecord line)) := by
  simp only [consume, PullEvent.ofLine, h]

/-- A record is malformed only if the line that was refused is the one that was taken. -/
theorem malformed_of_consume {t : Tracker} {line refused : List UInt8} {number : Nat}
    (h : t.consume line = .error (.classification number (.malformedRecord refused))) :
    ProgressRecord.ofLine? line = none ∧ refused = line := by
  cases hrecord : ProgressRecord.ofLine? line with
  | none =>
      rw [consume_of_malformed hrecord] at h
      cases h
      exact ⟨rfl, rfl⟩
  | some r =>
      simp only [consume, PullEvent.ofLine, hrecord] at h
      cases hevent : PullEvent.classify r with
      | error cause =>
          simp only [hevent, Except.error.injEq, StreamError.classification.injEq] at h
          rw [h.2] at hevent
          exact absurd hevent (PullEvent.classify_ne_malformed r refused)
      | ok event =>
          simp only [hevent] at h
          cases hfold : t.fold event <;> simp [hfold] at h

theorem line_of_consume {t t' : Tracker} {line : List UInt8} {shown : Option Pull}
    (h : t.consume line = .ok (t', shown)) : t'.line = t.line + 1 := by
  simp only [consume] at h
  split at h
  · cases h
  · split at h
    · cases h
    · cases h
      rfl

theorem line_of_consume_error {t : Tracker} {line : List UInt8} {e : StreamError}
    (h : t.consume line = .error e) : e.line? = some (t.line + 1) := by
  simp only [consume] at h
  split at h
  · cases h
    rfl
  · split at h
    · cases h
      rfl
    · cases h

/-- After a line that can be taken an error comes from the lines that follow. -/
theorem replayLines_of_consume {t t' : Tracker} {line : List UInt8} {rest : List (List UInt8)}
    {shown : Option Pull} {e : StreamError} (hline : t.consume line = .ok (t', shown))
    (h : t.replayLines (line :: rest) = .error e) : t'.replayLines rest = .error e := by
  rw [replayLines, hline] at h
  cases shown with
  | none => exact h
  | some pull =>
      simp only at h
      split at h
      · cases h
      · exact map_eq_error.mp h

/-- An error names a line that has not been taken before. -/
theorem lt_line_of_replayLines {t : Tracker} {lines : List (List UInt8)} {e : StreamError}
    (h : t.replayLines lines = .error e) : ∃ number, e.line? = some number ∧ t.line < number := by
  induction lines generalizing t with
  | nil => cases h
  | cons line rest ih =>
      cases hline : t.consume line with
      | error cause =>
          rw [replayLines, hline] at h
          cases h
          exact ⟨t.line + 1, line_of_consume_error hline, Nat.lt_succ_self _⟩
      | ok taken =>
          obtain ⟨number, hsome, hlt⟩ := ih (replayLines_of_consume hline h)
          have hnumber := line_of_consume hline
          exact ⟨number, hsome, by omega⟩

/-- Taking lines fails at the next one as malformed exactly if no record is on it, and then it is
this line that is refused. -/
theorem replayLines_eq_malformed_iff {t : Tracker} {lines : List (List UInt8)}
    {refused : List UInt8} :
    t.replayLines lines = .error (.classification (t.line + 1) (.malformedRecord refused))
      ↔ lines.head? = some refused ∧ ProgressRecord.ofLine? refused = none := by
  cases lines with
  | nil => simp [replayLines]
  | cons line rest =>
      constructor
      · intro h
        cases hline : t.consume line with
        | error cause =>
            rw [replayLines, hline] at h
            cases h
            obtain ⟨hmalformed, rfl⟩ := malformed_of_consume hline
            exact ⟨rfl, hmalformed⟩
        | ok taken =>
            -- an error of a later line would have a larger number
            obtain ⟨number, hsome, hlt⟩ := lt_line_of_replayLines (replayLines_of_consume hline h)
            have hnumber := line_of_consume hline
            cases hsome
            omega
      · rintro ⟨hhead, hmalformed⟩
        cases hhead
        rw [replayLines, consume_of_malformed hmalformed]

/-- Taking lines tells of the next one that it is malformed, for some cause, exactly if no record
is on it and this is what the reader says of it. -/
theorem told_replayLines_iff {Cause : Type} {why : List UInt8 → Cause} {t : Tracker}
    {lines : List (List UInt8)} {cause : Cause} :
    (t.replayLines lines).mapError (StreamError.told why) = .error (.inl (t.line + 1, cause))
      ↔ ∃ record, lines.head? = some record ∧ ProgressRecord.ofLine? record = none
          ∧ why record = cause := by
  simp only [mapError_eq_error, StreamError.told_eq_inl]
  constructor
  · rintro ⟨e, he, refused, rfl, hcause⟩
    obtain ⟨hhead, hmalformed⟩ := replayLines_eq_malformed_iff.mp he
    exact ⟨refused, hhead, hmalformed, hcause⟩
  · rintro ⟨record, hhead, hmalformed, hcause⟩
    exact ⟨_, replayLines_eq_malformed_iff.mpr ⟨hhead, hmalformed⟩, record, rfl, hcause⟩

/-! ## Where both can differ -/

/-- The tracker takes all the records, and no snapshot among them ends the pull. -/
def Runs (t : Tracker) (records : List (List UInt8)) : Prop :=
  ∀ item ∈ t.items (fun _ => []) records, ∃ pull, item = .ok pull ∧ pull.isTerminal = false

theorem runs_nil (t : Tracker) : t.Runs [] := by
  simp [Runs]

theorem not_runs_of_error {t : Tracker} {record : List UInt8} {e : StreamError}
    (h : t.consume record = .error e) (rest : List (List UInt8)) : ¬t.Runs (record :: rest) := by
  intro hruns
  rw [Runs, items_cons, h] at hruns
  obtain ⟨pull, heq, -⟩ := hruns (.error e) List.mem_cons_self
  cases heq

theorem not_runs_of_isTerminal {t t' : Tracker} {record : List UInt8} {pull : Pull}
    (h : t.consume record = .ok (t', some pull)) (hend : pull.isTerminal = true)
    (rest : List (List UInt8)) : ¬t.Runs (record :: rest) := by
  intro hruns
  rw [Runs, items_cons, h] at hruns
  obtain ⟨pull', heq, hnot⟩ := hruns (.ok pull) List.mem_cons_self
  cases heq
  rw [hend] at hnot
  cases hnot

theorem runs_cons {t t' : Tracker} {record : List UInt8} {shown : Option Pull}
    (h : t.consume record = .ok (t', shown)) (hgoes : ∀ pull ∈ shown, pull.isTerminal = false)
    (rest : List (List UInt8)) : t.Runs (record :: rest) ↔ t'.Runs rest := by
  rw [Runs, items_cons, h]
  cases shown with
  | none => exact Iff.rfl
  | some pull =>
      have hpull := hgoes pull rfl
      simp [itemsAfter, hpull, Runs]

end Tracker

namespace Stream

/-- The lines that a replay takes, as bytes. -/
def replayed (lines : List String) : List (List UInt8) :=
  ((lines.map Text.trimmed).filter (· ≠ "")).map Text.Utf8.bytes

theorem bytes_eq_nil_iff {s : String} : Text.Utf8.bytes s = [] ↔ s = "" := by
  constructor
  · intro h
    cases hs : s.toList with
    | nil => exact String.toList_eq_nil_iff.mp hs
    | cons c rest =>
        rw [Text.Utf8.bytes, hs, Text.Utf8.encode_cons] at h
        exact absurd (List.append_eq_nil_iff.mp h).1 (Text.Utf8.encodeChar_ne_nil c)
  · rintro rfl
    rfl

theorem replayed_cons_of_eq_nil {line : String} (h : Text.Utf8.bytes (Text.trimmed line) = [])
    (rest : List String) : replayed (line :: rest) = replayed rest := by
  rw [bytes_eq_nil_iff] at h
  simp [replayed, h]

theorem replayed_cons_of_ne_nil {line : String} (h : Text.Utf8.bytes (Text.trimmed line) ≠ [])
    (rest : List String) :
    replayed (line :: rest) = Text.Utf8.bytes (Text.trimmed line) :: replayed rest := by
  rw [Ne, bytes_eq_nil_iff] at h
  simp [replayed, h]

theorem recordsAmong_cons_of_eq_nil {piece : List UInt8} (h : stripped piece = [])
    (rest : List (List UInt8)) : recordsAmong (piece :: rest) = recordsAmong rest := by
  simp [recordsAmong, h]

theorem recordsAmong_cons_of_ne_nil {piece : List UInt8} (h : stripped piece ≠ [])
    (rest : List (List UInt8)) :
    recordsAmong (piece :: rest) = stripped piece :: recordsAmong rest := by
  simp [recordsAmong, h]

/-- What holds at the first line that is not plain, of the lines before it, itself and the lines
after it. Without such a line everything does. -/
def AtFirstNotPlain (lines : List String)
    (P : List String → String → List String → Prop) : Prop :=
  ∀ before line after, lines = before ++ line :: after →
    (∀ l ∈ before, IsPlain l) → ¬IsPlain line → P before line after

theorem atFirstNotPlain_of_isPlain {line : String} (h : IsPlain line) (rest : List String)
    (P : List String → String → List String → Prop) :
    AtFirstNotPlain (line :: rest) P
      ↔ AtFirstNotPlain rest fun before => P (line :: before) := by
  constructor
  · rintro hall before l after rfl hbefore hl
    exact hall (line :: before) l after rfl (List.forall_mem_cons.mpr ⟨h, hbefore⟩) hl
  · intro hall before l after hlines hbefore hl
    cases before with
    | nil =>
        cases hlines
        exact absurd h hl
    | cons first before =>
        cases hlines
        exact hall before l after rfl (List.forall_mem_cons.mp hbefore).2 hl

theorem atFirstNotPlain_of_not_isPlain {line : String} (h : ¬IsPlain line) (rest : List String)
    (P : List String → String → List String → Prop) :
    AtFirstNotPlain (line :: rest) P ↔ P [] line rest := by
  constructor
  · intro hall
    exact hall [] line rest rfl (by simp) h
  · intro hfirst before l after hlines hbefore hl
    cases before with
    | nil =>
        cases hlines
        exact hfirst
    | cons first before =>
        cases hlines
        exact absurd (hbefore _ List.mem_cons_self) h

/-! ## Replay and stream -/

/-- A tracker comes to the same by both ways of making records exactly if at the first line that
is not plain the stream has ended before, or the replay stops there as well and is told the same. -/
theorem replayLines_replayed_iff {Cause : Type} (why : List UInt8 → Cause) (t : Tracker)
    (lines : List String) :
    (t.replayLines (replayed lines)).mapError (StreamError.told why)
        = (t.replayLines (recordsAmong (lines.map Text.Utf8.bytes))).mapError
            (StreamError.told why)
      ↔ AtFirstNotPlain lines fun before line after =>
          t.Runs (recordsAmong (before.map Text.Utf8.bytes)) →
            ∃ record, (replayed (line :: after)).head? = some record
              ∧ ProgressRecord.ofLine? record = none
              ∧ why record = why (stripped (Text.Utf8.bytes line)) := by
  induction lines generalizing t with
  | nil => simp [AtFirstNotPlain, replayed, recordsAmong]
  | cons line rest ih =>
      by_cases hplain : IsPlain line
      · rw [atFirstNotPlain_of_isPlain hplain]
        simp only [List.map_cons]
        by_cases hblank : stripped (Text.Utf8.bytes line) = []
        · -- a blank line is passed over by both
          simp only [recordsAmong_cons_of_eq_nil hblank,
            replayed_cons_of_eq_nil (hplain.trans hblank)]
          exact ih t
        · have hkept : Text.Utf8.bytes (Text.trimmed line) ≠ [] := by rwa [hplain]
          simp only [recordsAmong_cons_of_ne_nil hblank, replayed_cons_of_ne_nil hkept,
            hplain.eq]
          cases hline : t.consume (stripped (Text.Utf8.bytes line)) with
          | error e =>
              refine iff_of_true ?_ fun before l after _ _ _ hruns => ?_
              · rw [Tracker.replayLines, Tracker.replayLines, hline]
              · exact absurd hruns (Tracker.not_runs_of_error hline _)
          | ok taken =>
              obtain ⟨t', shown⟩ := taken
              cases shown with
              | none =>
                  simp only [Tracker.replayLines, hline, Tracker.runs_cons hline (by simp)]
                  exact ih t'
              | some pull =>
                  by_cases hend : pull.isTerminal = true
                  · refine iff_of_true ?_ fun before l after _ _ _ hruns => ?_
                    · simp only [Tracker.replayLines, hline, if_pos hend]
                    · exact absurd hruns (Tracker.not_runs_of_isTerminal hline hend _)
                  · have hgoes : ∀ p ∈ some pull, p.isTerminal = false := by simpa using hend
                    simp only [Tracker.replayLines, hline, if_neg hend, mapError_map,
                      Tracker.runs_cons hline hgoes, map_inj fun _ _ => List.tail_eq_of_cons_eq]
                    exact ih t'
      · -- the stream stops at this line, whatever follows
        obtain ⟨hne, hmalformed⟩ := ofLine?_stripped hplain
        have hstops : (t.replayLines (recordsAmong ((line :: rest).map Text.Utf8.bytes))).mapError
            (StreamError.told why)
              = .error (.inl (t.line + 1, why (stripped (Text.Utf8.bytes line)))) := by
          rw [List.map_cons, recordsAmong_cons_of_ne_nil hne, Tracker.replayLines,
            Tracker.consume_of_malformed hmalformed]
          rfl
        rw [atFirstNotPlain_of_not_isPlain hplain, hstops, Tracker.told_replayLines_iff]
        exact ⟨fun h _ => h, fun h => h t.runs_nil⟩

/-- **When a replay gives what the joined lines give as a stream**, however these are cut and
whatever the queue holds: all snapshots, or the same error of the same line for the same cause,
where `why` is what the JSON reader says of a text that it refuses. It does for lines that are all
plain. At the first line that is not plain the stream stops with a malformed record; the replay
gives the same only if the pull has ended or failed before, or if the next record that the replay
itself reads is malformed as well and the reader says the same of it. A no-break space before an
object with a number for its id is malformed for both, but one is told of the space and the other of
the number. -/
theorem replay_eq_track_iff {Cause : Type} (why : List UInt8 → Cause) (context : Context)
    (capacity : Nat) {lines : List String}
    (hlines : ∀ line ∈ lines, '\n' ∉ line.toList) {chunks : List (List UInt8)}
    (hchunks : chunks.flatten = Text.Utf8.bytes ("\n".intercalate lines)) :
    (replay context lines).mapError (StreamError.told why)
        = ((track context capacity (chunks.map .chunk)).mapM id).mapError (StreamError.told why)
      ↔ AtFirstNotPlain lines fun before line after =>
          Tracker.Runs { context } (recordsAmong (before.map Text.Utf8.bytes)) →
            ∃ record, (replayed (line :: after)).head? = some record
              ∧ ProgressRecord.ofLine? record = none
              ∧ why record = why (stripped (Text.Utf8.bytes line)) := by
  have htrack : (track context capacity (chunks.map .chunk)).mapM id
      = Tracker.replayLines { context } (recordsAmong (lines.map Text.Utf8.bytes)) := by
    rw [track_eq, deliveredItems_chunks, hchunks, itemsOf, records_intercalate hlines,
      Tracker.replayLines_eq]
    rfl
  rw [htrack]
  exact replayLines_replayed_iff why { context } lines

/-- What the JSON reader says of the texts that are refused below. -/
def sampleComplaint (refused : List UInt8) : String :=
  if refused.head? = some 0x7B then
    "invalid type: integer `1`, expected a string at line 1 column 7"
  else "expected value at line 1 column 1"

/-- Lines of which the last has a letter behind a no-break space, which the chunks cut. -/
def spacedLines : List String :=
  ["\x7b\"status\":\"Pulling from x\"\x7d\r", "\u00A0x"]

@[inherit_doc spacedLines]
def spacedChunks : List (List UInt8) :=
  [Text.Utf8.bytes "\x7b\"status\":\"Pulling from x\"\x7d\r\n" ++ [0xC2], [0xA0, 0x78]]

/-- Behind a no-break space a replay refuses another text than a stream does. If a letter follows,
the reader says the same of both; if an object does, it says of one that a number in it is wrong. -/
theorem replay_eq_track_iff_spaced :
    (replay sampleContext spacedLines).mapError (StreamError.told sampleComplaint)
        = ((track sampleContext 1 (spacedChunks.map .chunk)).mapM id).mapError
            (StreamError.told sampleComplaint)
      ∧ (replay sampleContext ["\u00A0\x7b\"id\":1\x7d"]).mapError
            (StreamError.told sampleComplaint)
          ≠ ((track sampleContext 1
              ([Text.Utf8.bytes "\u00A0\x7b\"id\":1\x7d"].map .chunk)).mapM id).mapError
                (StreamError.told sampleComplaint) := by
  constructor
  · have hchunks : spacedChunks.flatten = Text.Utf8.bytes ("\n".intercalate spacedLines) := by
      decide +kernel
    rw [replay_eq_track_iff sampleComplaint sampleContext 1 (by decide +kernel) hchunks,
      spacedLines, atFirstNotPlain_of_isPlain (by decide +kernel),
      atFirstNotPlain_of_not_isPlain (by decide +kernel)]
    exact fun _ => ⟨Text.Utf8.bytes "x", by decide +kernel, by decide +kernel, by decide +kernel⟩
  · have hchunks : [Text.Utf8.bytes "\u00A0\x7b\"id\":1\x7d"].flatten
        = Text.Utf8.bytes ("\n".intercalate ["\u00A0\x7b\"id\":1\x7d"]) := by
      decide +kernel
    rw [Ne, replay_eq_track_iff sampleComplaint sampleContext 1 (by decide) hchunks,
      atFirstNotPlain_of_not_isPlain (by decide +kernel)]
    intro hfirst
    obtain ⟨record, hhead, -, hsaid⟩ := hfirst (Tracker.runs_nil _)
    have hrecord : record = Text.Utf8.bytes "\x7b\"id\":1\x7d" := by
      rw [← Option.some.inj hhead]
      decide +kernel
    rw [hrecord] at hsaid
    exact absurd hsaid (by decide +kernel)

/-- A line of nothing but a no-break space is blank for a replay and malformed for a stream,
whatever the JSON reader says of it. -/
theorem replay_ne_track_of_noBreakSpace :
    ¬∃ why : List UInt8 → String, ∀ (context : Context) (capacity : Nat) (lines : List String)
        (chunks : List (List UInt8)),
        (∀ line ∈ lines, '\n' ∉ line.toList) →
        chunks.flatten = Text.Utf8.bytes ("\n".intercalate lines) →
        (replay context lines).mapError (StreamError.told why)
          = ((track context capacity (chunks.map .chunk)).mapM id).mapError
              (StreamError.told why) := by
  rintro ⟨why, h⟩
  have heq := congrArg Except.isOk
    (h sampleContext 1 ["\u00A0"] [Text.Utf8.bytes "\u00A0"] (by decide) (by decide))
  rw [isOk_mapError, isOk_mapError] at heq
  have hreplay : (replay sampleContext ["\u00A0"]).isOk = true := by decide +kernel
  have htrack : ((track sampleContext 1
      [.chunk (Text.Utf8.bytes "\u00A0")]).mapM id).isOk = false := by decide +kernel
  exact absurd (hreplay.symm.trans (heq.trans htrack)) (by decide)

end Stream

end ImagePull
