import ImagePull.Proofs.Record
import ImagePull.Proofs.Stream.Framing
import ImagePull.Proofs.Text.Trim

/-!
# Records on the wire

Every record is read back from the line that is written for it, whatever texts and counts it holds
and whichever of its fields are absent. Its line begins and ends with a brace and holds no end of a
line, so a framer neither splits it nor trims it: records written one after the other come back as
they were, in whatever chunks their bytes arrive (`framed_wire`).
-/

namespace ImagePull.Stream

open Text.Utf8 (bytes)

/-! ## Lines of records -/

/-- The bytes of records on the wire, each on a line of its own. -/
def wire (rs : List ProgressRecord) : List UInt8 :=
  rs.flatMap fun r => r.toLine ++ [newline]

theorem newline_notMem_toLine (r : ProgressRecord) : newline ∉ r.toLine := fun h => by
  have hlow := Json.onOneLine_render r.wellFormed_toJson newline h
  revert hlow
  decide

/-- A framer takes nothing off the line of a record. -/
theorem trimmedLine?_toLine (r : ProgressRecord) : trimmedLine? r.toLine = some r.toLine := by
  obtain ⟨inner, hinner⟩ := Json.exists_renderMembers
    ((Json.present r.slots).map fun m => (Json.escape m.1.toList, m.2))
  have hline : r.toLine = 0x7B :: (inner ++ [0x7D]) := by
    rw [ProgressRecord.toLine, r.toJson_eq_present, Json.ofMembers, Json.render, hinner]
  have htrim : Text.trim isLineBlank r.toLine = r.toLine := by
    rw [hline]
    refine Text.trim_eq_self (fun b hb => ?_) fun b hb => ?_
    · cases hb
      rfl
    · rw [← List.cons_append, List.getLast?_concat] at hb
      cases hb
      rfl
  rw [trimmedLine?, htrim, hline]

/-- **The records of the wire are the lines that were written.** -/
theorem records_wire (rs : List ProgressRecord) :
    records (wire rs) = rs.map ProgressRecord.toLine := by
  induction rs with
  | nil => rfl
  | cons r rest ih =>
      have hcut := recordsBefore_cut none (newline_notMem_toLine r) (wire rest)
      simp only [recordsBefore, trimmedLine?_toLine, ih] at hcut
      rw [wire, List.flatMap_cons, List.append_assoc]
      exact hcut

/-- **Records come back from the wire as they were**: none is lost, split, merged or altered,
wherever their bytes are cut into chunks and however giving chunks and asking for lines are
mixed. -/
theorem framed_wire {rs : List ProgressRecord} {calls : List Framer.Call}
    (h : Framer.pushed calls = wire rs) :
    (Framer.framed calls).map ProgressRecord.ofLine? = rs.map some := by
  rw [Framer.framed_eq_records, h, records_wire, List.map_map]
  exact List.map_congr_left fun r _ => r.ofLine?_toLine

/-- The first cut falls inside a character of four bytes, the second one inside the number that
follows it; an end of a line in a text is no end of a line on the wire. -/
theorem framed_wire_cut_inside_character :
    let rs : List ProgressRecord :=
      [{ id := some "a\n", status := " \x1f😀",
          progressDetail := { total := 18446744073709551615 } },
        { error := some "", errorDetail := some { message := "\"" } }]
    let calls : List Framer.Call :=
      [.push (bytes "\x7b\"id\":\"a\\n\",\"status\":\" \\u001f" ++ [0xF0, 0x9F]), .next,
        .push ([0x98, 0x80] ++ bytes "\",\"progressDetail\":\x7b\"current\":0,\"total\":184"),
        .push (bytes "46744073709551615,\"hidecounts\":false\x7d\x7d\n\x7b\"status\":\"\","), .next,
        .push (bytes "\"error\":\"\",\"errorDetail\":\x7b\"message\":\"\\\"\"\x7d,"), .next,
        .push (bytes "\"progressDetail\":\x7b\"current\":0,\"total\":0,"),
        .push (bytes "\"hidecounts\":false\x7d\x7d\n")]
    Framer.pushed calls = wire rs
      ∧ (Framer.framed calls).map ProgressRecord.ofLine? = rs.map some := by
  intro rs calls
  have hpushed : Framer.pushed calls = wire rs := by decide +kernel
  exact ⟨hpushed, framed_wire hpushed⟩

end ImagePull.Stream
