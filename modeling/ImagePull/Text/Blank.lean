import ImagePull.Text.Trim

/-!
# Blank characters

A character is blank when it has the Unicode property White_Space. The property
holds of twenty-five characters, listed here by their ranges. `trimmed` takes
blanks off both ends of a text, `trimmedStart` off its beginning.
-/

namespace ImagePull.Text

/-- The ranges of code points with the property White_Space. -/
def blankRanges : List (Nat × Nat) :=
  [(0x09, 0x0D), (0x20, 0x20), (0x85, 0x85), (0xA0, 0xA0), (0x1680, 0x1680),
   (0x2000, 0x200A), (0x2028, 0x2029), (0x202F, 0x202F), (0x205F, 0x205F),
   (0x3000, 0x3000)]

/-- Whether the character has the property White_Space. -/
def isBlank (c : Char) : Bool :=
  blankRanges.any fun range => range.1 ≤ c.toNat && c.toNat ≤ range.2

/-- The text without blanks at either end. -/
def trimmed (s : String) : String :=
  String.ofList (trim isBlank s.toList)

/-- The text without blanks at its beginning. -/
def trimmedStart (s : String) : String :=
  String.ofList (s.toList.dropWhile isBlank)

/-- Whether the text begins with `start`. -/
def startsWith (s start : String) : Bool :=
  (afterStart? start.toList s.toList).isSome

/-- The rest of the text after `start`, if it begins that way. -/
def after? (s start : String) : Option String :=
  (afterStart? start.toList s.toList).map String.ofList

/-- The text in lower case, where only the letters `A` to `Z` have one. -/
def lowered (s : String) : String :=
  String.ofList (s.toList.map Char.toLower)

/-! ## Laws -/

theorem after?_append (start rest : String) : after? (start ++ rest) start = some rest := by
  simp [after?, afterStart?_append]

theorem after?_eq_some {s start rest : String} :
    after? s start = some rest ↔ s = start ++ rest := by
  simp only [after?, Option.map_eq_some_iff, afterStart?_eq_some]
  constructor
  · rintro ⟨l, hl, rfl⟩
    apply String.toList_inj.mp
    simp [hl]
  · rintro rfl
    exact ⟨rest.toList, by simp, by simp⟩

theorem startsWith_iff {s start : String} :
    startsWith s start = true ↔ ∃ rest, s = start ++ rest := by
  simp only [← after?_eq_some, ← Option.isSome_iff_exists, after?, Option.isSome_map, startsWith]

end ImagePull.Text
