import ImagePull.Event.Classify
import ImagePull.Proofs.Json.Members

/-!
# Records and their texts

Which objects hold a record: its known members stand in any order under keys with any escapes, those
that have their defaults may be left out, and members under other names may stand among them
(`ProgressRecord.IsHeldBy`). Every text of such an object is read as the record
(`ofLine?_of_spells`), and the line that is written for a record is one of them
(`isHeldBy_toJson`).
-/

namespace ImagePull

open Json (Field IsText IsWord IsFlag IsOptional Carries IsFound Fill present)

/-! ## The details of an error -/

namespace ErrorDetail

variable {d : ErrorDetail} {j : Json}

/-- The fields of the details. -/
def fields (d : ErrorDetail) : List Field :=
  [.of "message" IsText d.message ""]

/-- The object holds the details. -/
def IsHeldBy (d : ErrorDetail) (j : Json) : Prop :=
  Carries d.fields j

theorem IsHeldBy.ofJson? (h : d.IsHeldBy j) : ofJson? j = some d := by
  obtain ⟨found, hfields, hfound⟩ := h.exists_found
  have hnames : j.fields? ["message"] = some found := hfields
  have hmessage : Json.field? found "message" "" Json.text? = some d.message :=
    hfound.field?_of IsText (by simp [fields]) fun _ hvalue => hvalue.text?
  simp only [ErrorDetail.ofJson?, hnames, hmessage, Option.bind_eq_bind, Option.bind_some]

/-- What is written of the details. -/
def slots (d : ErrorDetail) : List (String × Option Json) :=
  [("message", some (.ofString d.message))]

theorem toJson_eq_present (d : ErrorDetail) : d.toJson = .ofMembers (present d.slots) :=
  rfl

theorem wellFormed_toJson (d : ErrorDetail) : d.toJson.WellFormed := by
  rw [toJson_eq_present]
  refine Json.wellFormed_present ?_
  simp [slots, Json.wellFormed_ofString]

theorem isHeldBy_toJson (d : ErrorDetail) : d.IsHeldBy d.toJson := by
  have hfill : Fill d.slots d.fields := .cons ⟨rfl, Json.isText_ofString _⟩ .nil
  exact Json.carries_present hfill (by simp [slots])

end ErrorDetail

/-! ## The counts -/

namespace ProgressDetail

variable {d : ProgressDetail} {j : Json}

/-- The fields of the counts. -/
def fields (d : ProgressDetail) : List Field :=
  [.of "current" IsWord d.current 0, .of "total" IsWord d.total 0,
    .of "hidecounts" IsFlag d.hideCounts false, .of "units" (IsOptional IsText) d.units none]

/-- The object holds the counts. -/
def IsHeldBy (d : ProgressDetail) (j : Json) : Prop :=
  Carries d.fields j

theorem IsHeldBy.ofJson? (h : d.IsHeldBy j) : ofJson? j = some d := by
  obtain ⟨found, hfields, hfound⟩ := h.exists_found
  have hnames : j.fields? ["current", "total", "hidecounts", "units"] = some found := hfields
  have hcurrent : Json.field? found "current" 0 Json.word? = some d.current :=
    hfound.field?_of IsWord (by simp [fields]) fun _ hvalue => hvalue ▸ Json.word?_ofWord _
  have htotal : Json.field? found "total" 0 Json.word? = some d.total :=
    hfound.field?_of IsWord (by simp [fields]) fun _ hvalue => hvalue ▸ Json.word?_ofWord _
  have hhide : Json.field? found "hidecounts" false Json.flag? = some d.hideCounts :=
    hfound.field?_of IsFlag (by simp [fields]) fun _ hvalue => hvalue ▸ rfl
  have hunits : Json.field? found "units" none (Json.nullable? Json.text?) = some d.units :=
    hfound.field?_of (IsOptional IsText) (by simp [fields])
      fun _ hvalue => hvalue.nullable?_text?
  simp only [ProgressDetail.ofJson?, hnames, hcurrent, htotal, hhide, hunits,
    Option.bind_eq_bind, Option.bind_some]

/-- What is written of the counts. -/
def slots (d : ProgressDetail) : List (String × Option Json) :=
  [("current", some (.ofWord d.current)), ("total", some (.ofWord d.total)),
    ("hidecounts", some (.bool d.hideCounts)), ("units", d.units.map .ofString)]

theorem toJson_eq_present (d : ProgressDetail) : d.toJson = .ofMembers (present d.slots) := by
  simp [toJson, present, slots, Json.member?]

theorem wellFormed_toJson (d : ProgressDetail) : d.toJson.WellFormed := by
  rw [toJson_eq_present]
  refine Json.wellFormed_present ?_
  simp [slots, Json.wellFormed_ofString, Json.wellFormed_ofWord, Json.WellFormed.bool]

theorem isHeldBy_toJson (d : ProgressDetail) : d.IsHeldBy d.toJson := by
  have hfill : Fill d.slots d.fields :=
    .cons ⟨rfl, rfl⟩ (.cons ⟨rfl, rfl⟩ (.cons ⟨rfl, rfl⟩
      (.cons ⟨rfl, Json.allows_map Json.isText_ofString _⟩ .nil)))
  rw [toJson_eq_present]
  exact Json.carries_present hfill (by simp [slots])

end ProgressDetail

/-! ## Records -/

namespace ProgressRecord

variable {r : ProgressRecord} {j : Json} {before text after : List UInt8}

/-- The fields of a record. -/
def fields (r : ProgressRecord) : List Field :=
  [.of "id" (IsOptional IsText) r.id none, .of "status" IsText r.status "",
    .of "error" (IsOptional IsText) r.error none,
    .of "errorDetail" (IsOptional ErrorDetail.IsHeldBy) r.errorDetail none,
    .of "progressDetail" ProgressDetail.IsHeldBy r.progressDetail {}]

/-- The object holds the record. -/
def IsHeldBy (r : ProgressRecord) (j : Json) : Prop :=
  Carries r.fields j

/-- **Every object that holds a record is read as that record.** -/
theorem IsHeldBy.ofJson? (h : r.IsHeldBy j) : ofJson? j = some r := by
  obtain ⟨found, hfields, hfound⟩ := h.exists_found
  have hnames : j.fields? ["id", "status", "error", "errorDetail", "progressDetail"]
      = some found := hfields
  have hid : Json.field? found "id" none (Json.nullable? Json.text?) = some r.id :=
    hfound.field?_of (IsOptional IsText) (by simp [fields])
      fun _ hvalue => hvalue.nullable?_text?
  have hstatus : Json.field? found "status" "" Json.text? = some r.status :=
    hfound.field?_of IsText (by simp [fields]) fun _ hvalue => hvalue.text?
  have herror : Json.field? found "error" none (Json.nullable? Json.text?) = some r.error :=
    hfound.field?_of (IsOptional IsText) (by simp [fields])
      fun _ hvalue => hvalue.nullable?_text?
  have hdetail : Json.field? found "errorDetail" none (Json.nullable? ErrorDetail.ofJson?)
      = some r.errorDetail :=
    hfound.field?_of (IsOptional ErrorDetail.IsHeldBy) (by simp [fields])
      fun _ hvalue => hvalue.nullable? nofun fun _ _ => ErrorDetail.IsHeldBy.ofJson?
  have hprogress : Json.field? found "progressDetail" {} ProgressDetail.ofJson?
      = some r.progressDetail :=
    hfound.field?_of ProgressDetail.IsHeldBy (by simp [fields]) fun _ hvalue => hvalue.ofJson?
  simp only [ProgressRecord.ofJson?, hnames, hid, hstatus, herror, hdetail, hprogress,
    Option.bind_eq_bind, Option.bind_some]

/-- What is written of a record. -/
def slots (r : ProgressRecord) : List (String × Option Json) :=
  [("id", r.id.map .ofString), ("status", some (.ofString r.status)),
    ("error", r.error.map .ofString), ("errorDetail", r.errorDetail.map ErrorDetail.toJson),
    ("progressDetail", some r.progressDetail.toJson)]

theorem toJson_eq_present (r : ProgressRecord) : r.toJson = .ofMembers (present r.slots) := by
  simp [toJson, present, slots, Json.member?]

theorem wellFormed_toJson (r : ProgressRecord) : r.toJson.WellFormed := by
  rw [toJson_eq_present]
  refine Json.wellFormed_present ?_
  simp [slots, Json.wellFormed_ofString, ErrorDetail.wellFormed_toJson,
    ProgressDetail.wellFormed_toJson]

/-- **A record is held by the object that is written for it.** -/
theorem isHeldBy_toJson (r : ProgressRecord) : r.IsHeldBy r.toJson := by
  have hfill : Fill r.slots r.fields :=
    .cons ⟨rfl, Json.allows_map Json.isText_ofString _⟩ (.cons ⟨rfl, Json.isText_ofString _⟩
      (.cons ⟨rfl, Json.allows_map Json.isText_ofString _⟩
        (.cons ⟨rfl, Json.allows_map ErrorDetail.isHeldBy_toJson _⟩
          (.cons ⟨rfl, r.progressDetail.isHeldBy_toJson⟩ .nil))))
  rw [toJson_eq_present]
  exact Json.carries_present hfill (by simp [slots])

/-! ## Lines -/

/-- **Every text of an object that holds a record is read as that record.** -/
theorem ofLine?_of_spells (h : r.IsHeldBy j) (hbefore : Json.Blanks before)
    (htext : Json.Spells j text) (hafter : Json.Blanks after) :
    ofLine? (before ++ (text ++ after)) = some r := by
  rw [ofLine?, Json.parse?_of_spells hbefore htext hafter]
  exact h.ofJson?

/-- **A record is read back from its line.** -/
theorem ofLine?_toLine (r : ProgressRecord) : ofLine? r.toLine = some r := by
  rw [ofLine?, toLine, Json.parse?_render r.wellFormed_toJson]
  exact r.isHeldBy_toJson.ofJson?

/-- **What is read of a text depends on the known members only.** Every text of an object that holds
a record, with any blanks around its tokens, is read as the record and stands for the same event, or
for the same error, as the line that is written for the record. That line is one of these texts. -/
theorem ofLine_eq_of_isHeldBy (h : r.IsHeldBy j) (hbefore : Json.Blanks before)
    (htext : Json.Spells j text) (hafter : Json.Blanks after) :
    ofLine? (before ++ (text ++ after)) = some r
      ∧ PullEvent.ofLine (before ++ (text ++ after)) = PullEvent.ofLine r.toLine
      ∧ r.IsHeldBy r.toJson ∧ Json.Spells r.toJson r.toLine := by
  have hread := ofLine?_of_spells h hbefore htext hafter
  refine ⟨hread, ?_, r.isHeldBy_toJson, Json.spells_render r.wellFormed_toJson⟩
  rw [PullEvent.ofLine, hread, PullEvent.ofLine, ofLine?_toLine]

/-! ## A record in an order of its own -/

open Json (SpellsChars Spells Blanks escape)
open Text.Utf8 (bytes)

/-- Counts behind a member that is not known, with a number and a string that have no value. -/
def countsBehindOther : Json :=
  .object [(escape "x".toList, .array [.number (bytes "1e999"), .string (bytes "\\ud800")]),
    (escape "current".toList, .ofWord 5)]

theorem wellFormed_countsBehindOther : countsBehindOther.WellFormed := by
  have hwhole : Json.IsWhole [0x31] := .digits (by decide) ⟨by simp, by simp [Json.isDigitByte]⟩
  have hpower : Json.IsDigits [0x39, 0x39, 0x39] := ⟨by simp, by simp [Json.isDigitByte]⟩
  have hnumber : Json.IsNumber (bytes "1e999") :=
    .plain (.parts hwhole .missing (.digits (.inl rfl) .missing hpower))
  have hstring : Json.IsBody (bytes "\\ud800") := .unit rfl .nil
  have hother : Json.WellFormed (.array [.number (bytes "1e999"), .string (bytes "\\ud800")]) :=
    .array (by simp [Json.WellFormed.number hnumber, Json.WellFormed.string hstring])
  exact .object (by simp [Json.isBody_escape]) (by simp [hother, Json.wellFormed_ofWord])

theorem isHeldBy_countsBehindOther :
    ProgressDetail.IsHeldBy { current := 5 } countsBehindOther := by
  refine .object (.cons (Json.spellsChars_escape _) (.cons (Json.spellsChars_escape _) .nil)) ?_ ?_
  · decide
  · refine List.forall_mem_cons.mpr ⟨rfl, List.forall_mem_cons.mpr ⟨rfl, ?_⟩⟩
    exact List.forall_mem_cons.mpr ⟨rfl, List.forall_mem_cons.mpr ⟨rfl, List.forall_mem_nil _⟩⟩

/-- The key of the status, with an escape that it does not need. -/
def statusKey : List UInt8 :=
  escape "st".toList ++ (bytes "\\u0061" ++ escape "tus".toList)

theorem spellsChars_statusKey : SpellsChars "status".toList statusKey := by
  have hletter : Json.Escaped 'a' [0x5C, 0x75, 0x30, 0x30, 0x36, 0x31] := .unit rfl
  exact (Json.spellsChars_escape ['s', 't']).append
    (.cons hletter (Json.spellsChars_escape ['t', 'u', 's']))

theorem spellsChars_smile : SpellsChars "😀".toList (bytes "\\ud83d\\ude00") := by
  show SpellsChars ['😀']
    ([0x5C, 0x75, 0x64, 0x38, 0x33, 0x64, 0x5C, 0x75, 0x64, 0x65, 0x30, 0x30] ++ [])
  exact .cons (.pair rfl rfl rfl rfl rfl) .nil

/-- An object that holds a record. -/
def reordered : Json :=
  .object [(escape "progressDetail".toList, countsBehindOther), (statusKey, .ofString "Waiting"),
    (escape "x".toList, .null), (escape "id".toList, .string (bytes "\\ud83d\\ude00"))]

theorem isHeldBy_reordered :
    IsHeldBy { id := some "😀", status := "Waiting", progressDetail := { current := 5 } }
      reordered := by
  have hid : (Field.of "id" (IsOptional IsText) (some "😀") none).Allows
      (some (.string (bytes "\\ud83d\\ude00"))) := .value (.string spellsChars_smile)
  have hstatus : (Field.of "status" IsText "Waiting" "").Allows (some (.ofString "Waiting")) :=
    Json.isText_ofString _
  refine .object (.cons (Json.spellsChars_escape _) (.cons spellsChars_statusKey
    (.cons (Json.spellsChars_escape _) (.cons (Json.spellsChars_escape _) .nil)))) ?_ ?_
  · decide
  · refine List.forall_mem_cons.mpr ⟨hid, List.forall_mem_cons.mpr ⟨hstatus, ?_⟩⟩
    refine List.forall_mem_cons.mpr ⟨rfl, List.forall_mem_cons.mpr ⟨rfl, ?_⟩⟩
    exact List.forall_mem_cons.mpr ⟨isHeldBy_countsBehindOther, List.forall_mem_nil _⟩

/-- A text of that object, with blanks around it and inside. -/
def reorderedLine : List UInt8 :=
  bytes ("\t\x7b\"progressDetail\" : \x7b\"x\":[1e999,\"\\ud800\"],\"current\":5\x7d,"
    ++ " \"st\\u0061tus\":\"Waiting\",\"x\":null,\"id\":\"\\ud83d\\ude00\"\x7d\r")

theorem exists_spells_reordered :
    ∃ text, Spells reordered text ∧ reorderedLine = bytes "\t" ++ (text ++ bytes "\r") := by
  have hblank : Blanks [0x20] := by decide
  have hnone : Blanks [] := Json.blanks_nil
  have hstatus : Json.WellFormed (.ofString "Waiting") := Json.wellFormed_ofString _
  refine ⟨_, .members (.more hnone (Json.isBody_escape _) hblank hblank
    (Json.spells_render wellFormed_countsBehindOther) hnone
    (.more hblank spellsChars_statusKey.isBody hnone hnone (Json.spells_render hstatus) hnone
    (.more hnone (Json.isBody_escape _) hnone hnone .null hnone
    (.last hnone (Json.isBody_escape _) hnone hnone (.string spellsChars_smile.isBody)
      hnone)))), ?_⟩
  decide +kernel

/-- The members stand in another order, a key and a text are escaped, and members that are not known
hold what could not be read. -/
theorem ofLine_eq_of_isHeldBy_reordered :
    let r : ProgressRecord :=
      { id := some "😀", status := "Waiting", progressDetail := { current := 5 } }
    r.IsHeldBy reordered
      ∧ (∃ text, Spells reordered text ∧ reorderedLine = bytes "\t" ++ (text ++ bytes "\r"))
      ∧ ofLine? reorderedLine = some r
      ∧ PullEvent.ofLine reorderedLine = PullEvent.ofLine r.toLine
      ∧ PullEvent.ofLine r.toLine = .ok (.layer "😀" .waiting) := by
  intro r
  have hbefore : Blanks (bytes "\t") := by decide
  have hafter : Blanks (bytes "\r") := by decide
  obtain ⟨text, htext, hline⟩ := exists_spells_reordered
  obtain ⟨hread, hevent, -⟩ := ofLine_eq_of_isHeldBy isHeldBy_reordered hbefore htext hafter
  refine ⟨isHeldBy_reordered, exists_spells_reordered, hline ▸ hread, hline ▸ hevent, ?_⟩
  rw [PullEvent.ofLine, ofLine?_toLine]
  rfl

/-- **The name of a member has to be a text**, also where the member is not known. Half of a
surrogate pair without the other half may stand in a string, but spells no text. -/
theorem ofLine_of_unpairedHalf :
    let r : ProgressRecord := { id := some "a", status := "Waiting" }
    let members := [(escape "id".toList, Json.ofString "a"),
      (escape "status".toList, Json.ofString "Waiting")]
    let other := (bytes "\\ud800", Json.number (bytes "0"))
    let line := bytes "\x7b\"id\":\"a\",\"status\":\"Waiting\",\"\\ud800\":0\x7d"
    r.IsHeldBy (.object members) ∧ Spells (.object (members ++ [other])) line
      ∧ (∀ name : String, ¬SpellsChars name.toList other.1)
      ∧ ofLine? line = none
      ∧ PullEvent.ofLine line = .error (.malformedRecord line)
      ∧ PullEvent.ofLine r.toLine = .ok (.layer "a" .waiting) := by
  intro r members other line
  have hheld : r.IsHeldBy (.object members) := by
    have hid : (Field.of "id" (IsOptional IsText) (some "a") none).Allows
        (some (.ofString "a")) := .value (Json.isText_ofString _)
    have hstatus : (Field.of "status" IsText "Waiting" "").Allows (some (.ofString "Waiting")) :=
      Json.isText_ofString _
    have hnames := Json.spellsNames_escape [("id", .ofString "a"), ("status", .ofString "Waiting")]
    refine .object hnames (by decide) ?_
    refine List.forall_mem_cons.mpr ⟨hid, List.forall_mem_cons.mpr ⟨hstatus, ?_⟩⟩
    refine List.forall_mem_cons.mpr ⟨rfl, List.forall_mem_cons.mpr ⟨rfl, ?_⟩⟩
    exact List.forall_mem_cons.mpr ⟨rfl, List.forall_mem_nil _⟩
  have hspells : Spells (.object (members ++ [other])) line := by
    have hbody : Json.IsBody other.1 := .unit rfl .nil
    have hnumber : Json.WellFormed other.2 := .number (Json.isNumber_numeral 0)
    have hformed : Json.WellFormed (.object (members ++ [other])) :=
      .object (by simp [members, Json.isBody_escape, hbody])
        (by simp [members, Json.wellFormed_ofString, hnumber])
    have hline : Json.render (.object (members ++ [other])) = line := by decide +kernel
    exact hline ▸ Json.spells_render hformed
  have hunread : Json.bodyText? other.1 = none := rfl
  have hnone : ofLine? line = none := by decide +kernel
  refine ⟨hheld, hspells, fun name hname => ?_, hnone, ?_, ?_⟩
  · have hread := hname.bodyText?
    rw [hunread] at hread
    cases hread
  · rw [PullEvent.ofLine, hnone]
  · rw [PullEvent.ofLine, ofLine?_toLine]
    rfl

end ProgressRecord

end ImagePull
