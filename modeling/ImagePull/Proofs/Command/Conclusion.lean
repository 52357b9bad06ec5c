import ImagePull.Command.Run
import ImagePull.Proofs.Digest
import ImagePull.Proofs.Outcome
import ImagePull.Proofs.Stream.Drain

/-!
# What becomes of a run

The items of a stream are snapshots up to the first error, if there is one. An error decides what
becomes of the run, else the last snapshot does (`Concludes`). What a command reports tells which
it was (`reports_iff`), and so does the digest that a pull without display yields
(`conclude_eq_ok_iff`).
-/

namespace ImagePull.Command

/-! ## The text of a success -/

/-- The text of a success. -/
def successText (reference : String) (digest : Digest) (newer : Bool) : String :=
  (if newer then "Downloaded newer image" else "Image is up to date")
    ++ " for " ++ reference ++ " (" ++ digest.text ++ ")"

theorem successText_inj {reference : String} {d e : Digest} {newer newer' : Bool} :
    successText reference d newer = successText reference e newer' ↔ d = e ∧ newer = newer' := by
  constructor
  · intro h
    simp only [successText, ← String.toList_inj, String.toList_append, List.append_assoc] at h
    cases newer <;> cases newer'
    · simpa [String.toList_inj, Digest.text_inj] using h
    · simp at h
    · simp at h
    · simpa [String.toList_inj, Digest.text_inj] using h
  · rintro ⟨rfl, rfl⟩
    rfl

namespace Report

/-! ## Items up to the first error -/

theorem split_map_ok (ps : List Pull) : split (ps.map .ok) = (ps, none) := by
  induction ps with
  | nil => rfl
  | cons p rest ih => rw [List.map_cons, split, ih]

theorem split_broken (ps : List Pull) (e : StreamError) (rest : List StreamItem) :
    split (ps.map .ok ++ .error e :: rest) = (ps, some e) := by
  induction ps with
  | nil => rfl
  | cons p rest ih => rw [List.map_cons, List.cons_append, split, ih]

theorem sound_or_broken (items : List StreamItem) :
    (∃ ps : List Pull, items = ps.map .ok)
      ∨ ∃ (ps : List Pull) (e : StreamError) (rest : List StreamItem),
          items = ps.map .ok ++ .error e :: rest := by
  induction items with
  | nil => exact .inl ⟨[], rfl⟩
  | cons item later ih =>
      cases item with
      | error e => exact .inr ⟨[], e, later, rfl⟩
      | ok p =>
          rcases ih with ⟨ps, rfl⟩ | ⟨ps, e, rest, rfl⟩
          · exact .inl ⟨p :: ps, rfl⟩
          · exact .inr ⟨p :: ps, e, rest, rfl⟩

/-- Without an error the last snapshot decides. -/
theorem follow_map_ok (mode : OutputMode) (reference : String) (ps : List Pull) :
    follow mode reference none (ps.map .ok)
      = follow.concluded mode (ofSnapshots mode none ps) ((warnings ps).flatMap (ofWarning mode))
          (conclude reference ps.getLast?) := by
  simp only [follow, split_map_ok]

/-- An error decides, and nothing more is said. -/
theorem follow_broken (mode : OutputMode) (reference : String) (cut : Option String)
    (ps : List Pull) (e : StreamError) (rest : List StreamItem) :
    follow mode reference cut (ps.map .ok ++ .error e :: rest)
      = { output := ofSnapshots mode none ps, result := .error (.stream e) } := by
  simp only [follow, split_broken]

end Report

theorem lastSnapshot_map_ok (ps : List Pull) :
    Stream.lastSnapshot (ps.map .ok) = .ok ps.getLast? := by
  rw [Stream.lastSnapshot, mapM_id_eq_ok.mpr rfl]
  rfl

theorem lastSnapshot_broken (ps : List Pull) (e : StreamError) (rest : List StreamItem) :
    Stream.lastSnapshot (ps.map .ok ++ .error e :: rest) = .error e := by
  have hmap : ((ps.map .ok ++ .error e :: rest : List StreamItem).mapM id) = .error e := by
    induction ps with
    | nil => rfl
    | cons p later ih =>
        rw [List.map_cons, List.cons_append, List.mapM_cons, ih]
        rfl
  rw [Stream.lastSnapshot, hmap]
  rfl

/-! ## Conclusions -/

/-- What becomes of a run: an image, and whether it is newer, or a failure. -/
abbrev Ending := Except Failure (Digest × Bool)

/-- What the items of a stream mean for a run: their first error if there is one, else what the
status of their last snapshot says. -/
inductive Concludes (reference : String) : List StreamItem → Ending → Prop
  | complete {before : List Pull} {p : Pull} {digest : Digest} {newer : Bool}
      (status : p.status = .complete digest newer) :
      Concludes reference ((before ++ [p]).map .ok) (.ok (digest, newer))
  | broken {before : List Pull} {e : StreamError} {rest : List StreamItem} :
      Concludes reference (before.map .ok ++ .error e :: rest) (.error (.stream e))
  | errored {before : List Pull} {p : Pull} {message : String}
      (status : p.status = .errored message) :
      Concludes reference ((before ++ [p]).map .ok) (.error (.pullFailed reference message))
  | unfinished {before : List Pull} {p : Pull} (status : p.status = .inProgress) :
      Concludes reference ((before ++ [p]).map .ok)
        (.error (.pullFailed reference "stream ended before the pull finished"))
  | empty : Concludes reference [] (.error (.pullFailed reference "no progress received"))

variable {reference : String} {items : List StreamItem} {ending : Ending} {mode : OutputMode}

/-- Every run comes to something. -/
theorem exists_concludes (reference : String) (items : List StreamItem) :
    ∃ ending, Concludes reference items ending := by
  rcases Report.sound_or_broken items with ⟨ps, rfl⟩ | ⟨ps, e, rest, rfl⟩
  · rcases List.eq_nil_or_concat ps with rfl | ⟨before, p, rfl⟩
    · exact ⟨_, .empty⟩
    · rw [List.concat_eq_append]
      cases hstatus : p.status with
      | inProgress => exact ⟨_, .unfinished hstatus⟩
      | complete digest newer => exact ⟨_, .complete hstatus⟩
      | errored message => exact ⟨_, .errored hstatus⟩
  · exact ⟨_, .broken⟩

/-- A report shows a success last, with its digest and whether the image is newer, or has failed
for the same reason. -/
def Reports (mode : OutputMode) (reference : String) (report : Report) : Ending → Prop
  | .ok (digest, newer) => report.result = .ok ()
      ∧ Report.ofSuccess mode (successText reference digest newer) <:+ report.output
  | .error e => report.result = .error e

theorem ofSuccess_suffix_inj {output : List OutputLine} {message message' : String}
    (h : Report.ofSuccess mode message <:+ output)
    (h' : Report.ofSuccess mode message' <:+ output) : message = message' := by
  obtain ⟨shown, rfl⟩ := h
  obtain ⟨shown', h'⟩ := h'
  cases mode <;> simp_all [Report.ofSuccess]

/-- A report tells what became of the run. -/
theorem Reports.unique {report : Report} {ending' : Ending}
    (h : Reports mode reference report ending) (h' : Reports mode reference report ending') :
    ending = ending' := by
  rcases ending with e | ⟨digest, newer⟩ <;> rcases ending' with e' | ⟨digest', newer'⟩
  · rw [Except.error.injEq]
    exact Except.error.inj (h.symm.trans h')
  · exact nomatch h.symm.trans h'.1
  · exact nomatch h.1.symm.trans h'
  · obtain ⟨rfl, rfl⟩ := successText_inj.mp (ofSuccess_suffix_inj h.2 h'.2)
    rfl

theorem Concludes.reports (h : Concludes reference items ending) :
    Reports mode reference (Report.follow mode reference none items) ending := by
  cases h with
  | complete status =>
      rw [Report.follow_map_ok, List.getLast?_concat]
      simp only [Report.conclude, status]
      exact ⟨rfl, List.suffix_append _ _⟩
  | broken =>
      rw [Report.follow_broken]
      rfl
  | errored status | unfinished status =>
      rw [Report.follow_map_ok, List.getLast?_concat]
      simp only [Report.conclude, status]
      rfl
  | empty => rfl

/-- A report that tells what becomes of a run tells nothing else. -/
theorem reports_iff_concludes {report : Report}
    (h : ∀ ending, Concludes reference items ending → Reports mode reference report ending) :
    Reports mode reference report ending ↔ Concludes reference items ending := by
  refine ⟨fun hreports => ?_, h ending⟩
  obtain ⟨ending', hconcludes⟩ := exists_concludes reference items
  rwa [hreports.unique (h ending' hconcludes)]

theorem result_eq_ok_iff {report : Report}
    (h : ∀ ending, Concludes reference items ending → Reports mode reference report ending) :
    report.result = .ok () ↔ ∃ digest newer, Concludes reference items (.ok (digest, newer)) := by
  constructor
  · intro hresult
    obtain ⟨ending, hconcludes⟩ := exists_concludes reference items
    rcases ending with e | ⟨digest, newer⟩
    · exact nomatch hresult.symm.trans (h _ hconcludes)
    · exact ⟨digest, newer, hconcludes⟩
  · rintro ⟨digest, newer, hconcludes⟩
    exact (h _ hconcludes).1

/-- **A run reports just what becomes of it.** -/
theorem reports_iff : Reports mode reference (Report.follow mode reference none items) ending
    ↔ Concludes reference items ending :=
  reports_iff_concludes fun _ => Concludes.reports

/-! ## Pulls without display -/

theorem Concludes.conclude (h : Concludes reference items ending) (request : PullRequest) :
    (request.conclude items).toOption = ending.toOption.map Prod.fst := by
  cases h with
  | complete status | errored status | unfinished status =>
      simp only [PullRequest.conclude, lastSnapshot_map_ok, List.getLast?_concat, status]
      rfl
  | broken =>
      rw [PullRequest.conclude, lastSnapshot_broken]
      rfl
  | empty => rfl

/-- A pull without display yields the digest with which the run is complete. -/
theorem conclude_eq_ok_iff (reference : String) {request : PullRequest} {digest : Digest} :
    request.conclude items = .ok digest
      ↔ ∃ newer, Concludes reference items (.ok (digest, newer)) := by
  constructor
  · intro hdigest
    obtain ⟨ending, h⟩ := exists_concludes reference items
    have hsame := h.conclude request
    rw [hdigest] at hsame
    rcases ending with e | ⟨digest', newer⟩
    · cases hsame
    · cases hsame
      exact ⟨newer, h⟩
  · rintro ⟨newer, h⟩
    have hsame := h.conclude request
    cases hconclude : request.conclude items with
    | error e =>
        rw [hconclude] at hsame
        cases hsame
    | ok digest' =>
        rw [hconclude] at hsame
        cases hsame
        rfl

/-! ## Replays -/

/-- The manifest that a replay is given, and the digest of its image, if they are known. -/
inductive Known (w : World) (a : ReplayArguments) : Manifest → Option Digest → Prop
  | loaded {path : String} {r : ResolvedManifest} (named : a.manifest = some path)
      (load : Manifest.load w.surroundings path a.digest = .ok r) :
      Known w a r.manifest (some r.digest)
  | absent (unnamed : a.manifest = none) : Known w a {} a.digest

/-- What the snapshots of a replay start from. -/
def replayContext (c : Config) (a : ReplayArguments) (manifest : Manifest)
    (resolved : Option Digest) : Context :=
  { reference := a.reference, manifest, flavor := (a.flavor <|> c.runtime).getD .docker, resolved }

/-- The items of a replay. -/
def replayItems (c : Config) (a : ReplayArguments) (manifest : Manifest)
    (resolved : Option Digest) (deliveries : List Stream.Delivery) : List StreamItem :=
  Stream.track (replayContext c a manifest resolved) c.queueCapacity.toNat deliveries

variable {w : World} {c : Config} {a : ReplayArguments} {manifest : Manifest}
  {resolved : Option Digest} {deliveries : List Stream.Delivery}

theorem replay_eq (hknown : Known w a manifest resolved)
    (hrecording : recording w a.file = .ok deliveries) (mode : OutputMode) :
    ∃ opening, replay w c mode a = .ok
      { Report.follow mode a.reference.text none (replayItems c a manifest resolved deliveries) with
        output := opening ++ (Report.follow mode a.reference.text none
          (replayItems c a manifest resolved deliveries)).output } := by
  cases hknown with
  | loaded named load =>
      simp only [replay, named, load, hrecording]
      exact ⟨_, rfl⟩
  | absent unnamed =>
      simp only [replay, unnamed, hrecording]
      exact ⟨_, rfl⟩

theorem Reports.opened {report : Report} (h : Reports mode reference report ending)
    (opening : List OutputLine) :
    Reports mode reference { report with output := opening ++ report.output } ending := by
  rcases ending with e | ⟨digest, newer⟩
  · exact h
  · exact ⟨h.1, h.2.trans (List.suffix_append _ _)⟩

theorem exists_report (hknown : Known w a manifest resolved)
    (hrecording : recording w a.file = .ok deliveries) (mode : OutputMode) :
    ∃ report, replay w c mode a = .ok report ∧ ∀ ending,
      Concludes a.reference.text (replayItems c a manifest resolved deliveries) ending →
        Reports mode a.reference.text report ending := by
  obtain ⟨opening, hreport⟩ := replay_eq (c := c) hknown hrecording mode
  exact ⟨_, hreport, fun ending h => h.reports.opened opening⟩

/-- The exit code tells whether a report is one of success. -/
theorem code_ofReport (r : Report) : (Outcome.ofReport r []).code = 0 ↔ r.result = .ok () := by
  rw [Outcome.ofReport]
  split
  · next h => simp [h]
  · next h => simp [h]

/-- **The outcome that is reported is the one that the stream has**, and a pull without display
yields the same. A replay whose files can be read reports an image exactly if there is no error
among its items and the last of them is a snapshot of the complete pull; the digest shown and
whether the image is newer are those of its status. Else it fails by the first error, by that of
the pull, because the stream ended too early, or because there was no progress. -/
theorem replay_concludes (hknown : Known w a manifest resolved)
    (hrecording : recording w a.file = .ok deliveries) (mode : OutputMode) :
    (∃ report, replay w c mode a = .ok report
      ∧ (∃ ending, Concludes a.reference.text (replayItems c a manifest resolved deliveries) ending)
      ∧ (∀ ending, Reports mode a.reference.text report ending
          ↔ Concludes a.reference.text (replayItems c a manifest resolved deliveries) ending)
      ∧ ((Outcome.ofReport report []).code = 0 ↔ ∃ digest newer, Concludes a.reference.text
          (replayItems c a manifest resolved deliveries) (.ok (digest, newer))))
      ∧ ∀ (request : PullRequest) (items : List StreamItem) (digest : Digest),
          request.conclude items = .ok digest ↔ ∃ newer, Reports mode request.image.text
            (Report.follow mode request.image.text none items) (.ok (digest, newer)) := by
  refine ⟨?_, fun request items digest => ?_⟩
  · obtain ⟨report, hreport, htells⟩ := exists_report (c := c) hknown hrecording mode
    refine ⟨report, hreport, exists_concludes _ _, fun _ => reports_iff_concludes htells, ?_⟩
    rw [code_ofReport, result_eq_ok_iff htells]
  · simp only [conclude_eq_ok_iff request.image.text, reports_iff]

/-- The digest of the configuration in a manifest file. -/
def givenDigest : Digest := .sha256 "beef" (by decide)

/-- The digest that a recorded daemon tells. -/
def toldDigest : Digest := .sha256 "cafe" (by decide)

/-- A recording of a pull on the standard input, and a manifest in a file. -/
def pipedWorld : World where
  surroundings :=
    { directory := "/"
      entry := fun path =>
        if path = "m.json" then
          .file (Text.Utf8.bytes "\x7b\"config\":\x7b\"digest\":\"sha256:beef\"\x7d\x7d")
        else .missing }
  input := Text.Utf8.bytes ("\x7b\"status\":\"Pulling from x\"\x7d\n" ++
    "\x7b\"status\":\"Digest: sha256:cafe\"\x7d\n" ++
    "\x7b\"status\":\"Status: Downloaded newer image for x\"\x7d\n")
  daemon := fun _ => { answer := fun _ => .error unreachable }

/-- Replays the standard input. -/
def pipedArguments : ReplayArguments where
  file := "-"
  manifest := some "m.json"
  reference := Stream.sampleContext.reference

/-- The digest that is shown is the one that was told, not the one that was given. -/
theorem replay_concludes_piped :
    ∃ report newer, replay pipedWorld {} .quiet pipedArguments = .ok report
      ∧ report.result = .ok ()
      ∧ (Outcome.ofReport report []).code = 0
      ∧ Report.ofSuccess .quiet (successText "x" toldDigest newer) <:+ report.output := by
  have hload : Manifest.load pipedWorld.surroundings "m.json" none
      = .ok ⟨{ config := some ⟨givenDigest, 0, none⟩ }, givenDigest⟩ := by
    decide +kernel
  have hrecording : recording pipedWorld "-" = .ok [.chunk pipedWorld.input] := rfl
  obtain ⟨⟨report, hreport, -, hiff, hcode⟩, hpull⟩ :=
    replay_concludes (c := {}) (a := pipedArguments) (.loaded rfl hload) hrecording .quiet
  have hyields : PullRequest.conclude { image := pipedArguments.reference }
      (replayItems {} pipedArguments { config := some ⟨givenDigest, 0, none⟩ } givenDigest
        [.chunk pipedWorld.input]) = .ok toldDigest := by
    decide +kernel
  obtain ⟨newer, hnewer⟩ := (hpull _ _ _).mp hyields
  have hconcludes := reports_iff.mp hnewer
  obtain ⟨hresult, hshown⟩ := (hiff _).mpr hconcludes
  have hreference : pipedArguments.reference.text = "x" := by decide +kernel
  rw [hreference] at hshown
  exact ⟨report, newer, hreport, hresult, hcode.mpr ⟨_, _, hconcludes⟩, hshown⟩

end ImagePull.Command
