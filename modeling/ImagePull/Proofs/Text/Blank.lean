import ImagePull.Text.Blank
import ImagePull.Proofs.Text.Trim
import Mathlib.Tactic.SplitIfs

/-!
# Laws of blanks and of lower case

A character of ASCII above U+0020 is not blank (`isBlank_eq_false`). Trimming a text takes off the
blanks around it (`isStripped_iff`). Putting a text in lower case moves its letters only, so blanks
stay where they are (`trimmed_lowered_eq_self_iff`), and a second time changes nothing
(`lowered_lowered`).
-/

namespace ImagePull.Text

theorem isBlank_eq_false {c : Char} (hlow : 0x20 < c.toNat) (hhigh : c.toNat < 0x80) :
    isBlank c = false := by
  simp only [isBlank, blankRanges, List.any_cons, List.any_nil, Bool.or_false,
    Bool.or_eq_false_iff, Bool.and_eq_false_iff, decide_eq_false_iff_not]
  omega

/-! ## Characters in lower case -/

theorem toNat_toLower (c : Char) :
    c.toLower.toNat = if 65 ≤ c.toNat ∧ c.toNat ≤ 90 then c.toNat + 32 else c.toNat := by
  have hupper : c.val ≥ 'A'.val ∧ c.val ≤ 'Z'.val ↔ 65 ≤ c.toNat ∧ c.toNat ≤ 90 :=
    and_congr UInt32.le_iff_toNat_le UInt32.le_iff_toNat_le
  delta Char.toLower
  split
  · next h =>
      have hrange := hupper.mp h
      rw [if_pos hrange]
      show (c.val + 32).toNat = c.toNat + 32
      rw [UInt32.toNat_add]
      show (c.toNat + 32) % 4294967296 = c.toNat + 32
      omega
  · next h => rw [if_neg (mt hupper.mpr h)]

theorem toLower_toLower (c : Char) : c.toLower.toLower = c.toLower := by
  rw [← Char.toNat_inj, toNat_toLower c.toLower, toNat_toLower c]
  split_ifs <;> omega

theorem isBlank_toLower (c : Char) : isBlank c.toLower = isBlank c := by
  by_cases hupper : 65 ≤ c.toNat ∧ c.toNat ≤ 90
  · have hlower := toNat_toLower c
    rw [if_pos hupper] at hlower
    rw [isBlank_eq_false (by omega) (by omega), isBlank_eq_false (by omega) (by omega)]
  · have hsame : c.toLower = c := by rw [← Char.toNat_inj, toNat_toLower, if_neg hupper]
    rw [hsame]

/-- No letter has a slash for its lower case. -/
theorem toLower_eq_slash {c : Char} : c.toLower = '/' ↔ c = '/' := by
  rw [← Char.toNat_inj, ← Char.toNat_inj, toNat_toLower]
  show _ = 47 ↔ c.toNat = 47
  split <;> omega

/-! ## Texts in lower case -/

theorem toList_lowered (s : String) : (lowered s).toList = s.toList.map Char.toLower :=
  String.toList_ofList

theorem lowered_lowered (s : String) : lowered (lowered s) = lowered s := by
  rw [← String.toList_inj, toList_lowered, toList_lowered, List.map_map]
  exact List.map_congr_left fun c _ => toLower_toLower c

/-- A text is trimmed before or after it is put in lower case, to the same effect. -/
theorem trimmed_lowered (s : String) : trimmed (lowered s) = lowered (trimmed s) := by
  have hkeeps : Keeps (fun c : Char => [c.toLower]) isBlank isBlank :=
    fun c => ⟨List.cons_ne_nil _ _, by simp [isBlank_toLower]⟩
  rw [← String.toList_inj, toList_lowered, trimmed, trimmed, String.toList_ofList,
    String.toList_ofList, toList_lowered, List.map_eq_flatMap, List.map_eq_flatMap]
  exact trim_flatMap hkeeps s.toList

/-! ## Blanks at the ends of a text -/

theorem trimmed_eq_self_iff {s : String} :
    trimmed s = s ↔ (∀ c ∈ s.toList.head?, isBlank c = false)
      ∧ ∀ c ∈ s.toList.getLast?, isBlank c = false := by
  rw [← trim_eq_self_iff, trimmed, ← String.toList_inj, String.toList_ofList]

/-- The text is what is left of the other one without the blanks around it. -/
structure IsStripped (s t : String) : Prop where
  around : ∃ before after, s.toList = before ++ t.toList ++ after
    ∧ (∀ c ∈ before, isBlank c = true) ∧ ∀ c ∈ after, isBlank c = true
  first : ∀ c ∈ t.toList.head?, isBlank c = false
  last : ∀ c ∈ t.toList.getLast?, isBlank c = false

/-- **Trimming takes off the blanks around a text** and nothing else. -/
theorem isStripped_iff {s t : String} : IsStripped s t ↔ trimmed s = t := by
  constructor
  · rintro ⟨⟨before, after, hs, hbefore, hafter⟩, hfirst, hlast⟩
    rw [trimmed, hs, trim_append_append hbefore hafter, trim_eq_self hfirst hlast,
      String.ofList_toList]
  · rintro rfl
    have hleft : (trimmed s).toList = trim isBlank s.toList := String.toList_ofList
    obtain ⟨before, after, hs, hbefore, hafter⟩ := exists_trim isBlank s.toList
    refine ⟨⟨before, after, ?_, hbefore, hafter⟩, ?_, ?_⟩
    · rw [hleft]
      exact hs
    · rw [hleft]
      exact head?_trim isBlank s.toList
    · rw [hleft]
      exact getLast?_trim isBlank s.toList

/-- Blanks in front do not matter to what is left without them. -/
theorem trimmedStart_append {before : String} (h : ∀ c ∈ before.toList, isBlank c = true)
    (s : String) : trimmedStart (before ++ s) = trimmedStart s := by
  rw [trimmedStart, String.toList_append, List.dropWhile_append_of_pos h, trimmedStart]

theorem trimmedStart_trimmedStart (s : String) :
    trimmedStart (trimmedStart s) = trimmedStart s := by
  rw [trimmedStart, trimmedStart, String.toList_ofList, List.dropWhile_idempotent]

/-- **A text has blanks at its ends exactly if it has some there in lower case.** -/
theorem trimmed_lowered_eq_self_iff {s : String} :
    trimmed (lowered s) = lowered s ↔ trimmed s = s := by
  rw [trimmed_eq_self_iff, trimmed_eq_self_iff, toList_lowered, List.head?_map, List.getLast?_map]
  simp [isBlank_toLower]

end ImagePull.Text
