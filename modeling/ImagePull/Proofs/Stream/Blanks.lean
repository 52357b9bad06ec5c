import ImagePull.Event.Classify
import ImagePull.Proofs.Json.Bounds
import ImagePull.Proofs.Stream.Records
import ImagePull.Proofs.Text.Trim
import ImagePull.Proofs.Text.Utf8

/-!
# Two kinds of blanks

A recorded line loses the blanks of Unicode at its ends, a line of a byte stream only those of
ASCII without the vertical tab. A line is plain if both leave the same (`IsPlain`). What a stream
keeps of any other line begins or ends with a blank that no document can begin or end with, so no
record is read from it (`ofLine?_stripped`).
-/

namespace ImagePull.Stream

open ImagePull.Text

/-- A character that a byte stream takes off the ends of a line: all of its bytes are blanks. -/
def isStrippable (c : Char) : Bool :=
  (Utf8.encodeChar c).all isLineBlank

/-- Both kinds of blanks leave the same of the line. -/
def IsPlain (line : String) : Prop :=
  Utf8.bytes (trimmed line) = stripped (Utf8.bytes line)

instance (line : String) : Decidable (IsPlain line) :=
  inferInstanceAs (Decidable (_ = _))

theorem IsPlain.eq {line : String} (h : IsPlain line) :
    Utf8.bytes (trimmed line) = stripped (Utf8.bytes line) :=
  h

theorem isLineBlank_iff {b : UInt8} :
    isLineBlank b = true
      ↔ b.toNat = 0x09 ∨ b.toNat = 0x0A ∨ b.toNat = 0x0C ∨ b.toNat = 0x0D ∨ b.toNat = 0x20 := by
  simp only [isLineBlank, Bool.or_eq_true, beq_iff_eq, ← UInt8.toNat_inj]
  show (((b.toNat = 0x20 ∨ b.toNat = 0x09) ∨ b.toNat = 0x0A) ∨ b.toNat = 0x0C) ∨ b.toNat = 0x0D ↔ _
  omega

theorem isLineBlank_eq_false {b : UInt8} (h : 0x80 ≤ b.toNat) : isLineBlank b = false := by
  rw [← Bool.not_eq_true, isLineBlank_iff]
  omega

theorem keeps_isStrippable : Keeps Utf8.encodeChar isStrippable isLineBlank := by
  intro c
  refine ⟨Utf8.encodeChar_ne_nil c, fun b hb => ?_⟩
  by_cases hascii : c.toNat < 0x80
  · rw [Utf8.encodeChar_of_lt hascii, List.mem_singleton] at hb
    rw [hb, isStrippable, Utf8.encodeChar_of_lt hascii]
    simp
  · have hbyte := isLineBlank_eq_false (Utf8.le_of_mem_encodeChar (Nat.not_lt.mp hascii) hb)
    rw [hbyte, isStrippable]
    exact (List.all_eq_false.mpr ⟨b, hb, by simp [hbyte]⟩).symm

theorem stripped_bytes (line : String) :
    stripped (Utf8.bytes line) = Utf8.encode (trim isStrippable line.toList) := by
  rw [← trim_eq_stripped]
  exact trim_flatMap keeps_isStrippable line.toList

theorem bytes_trimmed (line : String) :
    Utf8.bytes (trimmed line) = Utf8.encode (trim isBlank line.toList) := by
  rw [Utf8.bytes, trimmed, String.toList_ofList]

/-! ## The blanks of Unicode -/

/-- The blanks below U+0080 are those that a byte stream takes off, and the vertical tab. -/
theorem isBlank_iff_of_lt {c : Char} (hascii : c.toNat < 0x80) :
    isBlank c = true ↔ isStrippable c = true ∨ c.toNat = 0x0B := by
  have hbyte : (UInt8.ofNat c.toNat).toNat = c.toNat := by
    rw [UInt8.toNat_ofNat']
    omega
  rw [isStrippable, Utf8.encodeChar_of_lt hascii, List.all_cons, List.all_nil, Bool.and_true,
    isLineBlank_iff, hbyte]
  simp only [isBlank, blankRanges, List.any_cons, List.any_nil, Bool.or_eq_true, Bool.and_eq_true,
    decide_eq_true_eq, Bool.false_eq_true, or_false]
  omega

theorem isBlank_of_isStrippable {c : Char} (h : isStrippable c = true) : isBlank c = true := by
  by_cases hascii : c.toNat < 0x80
  · exact (isBlank_iff_of_lt hascii).mpr (.inl h)
  · -- outside ASCII no byte is taken off
    obtain ⟨b, hb⟩ := List.exists_mem_of_ne_nil _ (Utf8.encodeChar_ne_nil c)
    have hstrip := List.all_eq_true.mp h b hb
    rw [isLineBlank_eq_false (Utf8.le_of_mem_encodeChar (Nat.not_lt.mp hascii) hb)] at hstrip
    cases hstrip

/-- A blank that a byte stream leaves at the end of a line cannot stand there in a document. -/
theorem mayBound_of_mem_encodeChar {c : Char} (h : isBlank c = true)
    (hstrip : isStrippable c = false) {b : UInt8} (hb : b ∈ Utf8.encodeChar c) :
    Json.mayBound b = false := by
  by_cases hascii : c.toNat < 0x80
  · have htab : c.toNat = 0x0B := by
      rcases (isBlank_iff_of_lt hascii).mp h with hc | hc
      · rw [hstrip] at hc
        cases hc
      · exact hc
    rw [Utf8.encodeChar_of_lt hascii, List.mem_singleton, htab] at hb
    rw [hb]
    rfl
  · have hhigh := Utf8.le_of_mem_encodeChar (Nat.not_lt.mp hascii) hb
    simp only [Json.mayBound, Bool.and_eq_false_iff, decide_eq_false_iff_not]
    exact .inl (by omega)

/-! ## Lines that are not plain -/

/-- The bytes of a text end in those of its last character and begin with those of its first. -/
theorem mem_ends_encode {cs : List Char} {c : Char} (h : c ∈ cs.head? ∨ c ∈ cs.getLast?) :
    ∃ b ∈ Utf8.encodeChar c, b ∈ (Utf8.encode cs).head? ∨ b ∈ (Utf8.encode cs).getLast? := by
  have hne := Utf8.encodeChar_ne_nil c
  rcases h with hfirst | hlast
  · obtain ⟨rest, rfl⟩ := List.head?_eq_some_iff.mp hfirst
    refine ⟨_, List.head_mem hne, .inl ?_⟩
    rw [Utf8.encode_cons, List.head?_append_of_ne_nil _ hne]
    exact List.head?_eq_some_head hne
  · obtain ⟨rest, rfl⟩ := List.getLast?_eq_some_iff.mp hlast
    refine ⟨_, List.getLast_mem hne, .inr ?_⟩
    have hcode : Utf8.encode (rest ++ [c]) = Utf8.encode rest ++ Utf8.encodeChar c := by
      rw [Utf8.encode_append, Utf8.encode_cons]
      exact congrArg _ (List.append_nil _)
    rw [hcode, List.getLast?_append_of_ne_nil _ hne]
    exact List.getLast?_eq_some_getLast hne

/-- **No record is read from what a byte stream keeps of a line that is not plain.** -/
theorem ofLine?_stripped {line : String} (h : ¬IsPlain line) :
    stripped (Utf8.bytes line) ≠ []
      ∧ ProgressRecord.ofLine? (stripped (Utf8.bytes line)) = none := by
  rw [IsPlain, bytes_trimmed, stripped_bytes] at h
  have hne : trim isBlank line.toList ≠ trim isStrippable line.toList :=
    fun heq => h (congrArg Utf8.encode heq)
  obtain ⟨c, hend, hblank, hstrip⟩ :=
    exists_end_of_trim_ne (fun _ => isBlank_of_isStrippable) hne
  obtain ⟨b, hb, hbounds⟩ := mem_ends_encode hend
  have hnot := mayBound_of_mem_encodeChar hblank hstrip hb
  rw [stripped_bytes]
  refine ⟨?_, ?_⟩
  · intro hempty
    simp [hempty] at hbounds
  · cases hparse : Json.parse? (Utf8.encode (trim isStrippable line.toList)) with
    | none => rw [ProgressRecord.ofLine?, hparse, Option.bind_none]
    | some value =>
        obtain ⟨hfirst, hlast⟩ := Json.mayBound_of_parse? hparse
        have hmay : Json.mayBound b = true := hbounds.elim (hfirst b) (hlast b)
        rw [hnot] at hmay
        cases hmay

end ImagePull.Stream
