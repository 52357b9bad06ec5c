import ImagePull.Json.Parser
import Mathlib.Data.List.TakeWhile

/-!
# What can bound a document

Every reader takes a beginning off its input and leaves the rest as it is. What it takes begins
and ends with bytes of ASCII other than the vertical tab (`Reads`), so a document cannot begin or
end with anything else (`mayBound_of_parse?`).
-/

namespace ImagePull.Json

/-- A byte that can be the first or the last one of a document: none above ASCII, and not the
vertical tab. -/
def mayBound (b : UInt8) : Bool :=
  b.toNat < 0x80 && b != 0x0B

/-- `rest` is left of `bs` after a beginning whose first and last bytes can bound a document. -/
def Reads (bs rest : List UInt8) : Prop :=
  ∃ used, bs = used ++ rest ∧ (∀ b ∈ used.head?, mayBound b) ∧ ∀ b ∈ used.getLast?, mayBound b

namespace Reads

theorem refl (bs : List UInt8) : Reads bs bs :=
  ⟨[], rfl, by simp, by simp⟩

theorem trans {bs mid rest : List UInt8} (h : Reads bs mid) (h' : Reads mid rest) :
    Reads bs rest := by
  obtain ⟨used, rfl, hfirst, hlast⟩ := h
  obtain ⟨used', rfl, hfirst', hlast'⟩ := h'
  refine ⟨used ++ used', (List.append_assoc ..).symm, ?_, ?_⟩
  · intro b hb
    rw [List.head?_append, Option.mem_def, Option.or_eq_some_iff] at hb
    rcases hb with hb | ⟨-, hb⟩
    · exact hfirst b hb
    · exact hfirst' b hb
  · intro b hb
    rw [List.getLast?_append, Option.mem_def, Option.or_eq_some_iff] at hb
    rcases hb with hb | ⟨-, hb⟩
    · exact hlast' b hb
    · exact hlast b hb

theorem byte {b : UInt8} (hb : mayBound b = true) (rest : List UInt8) : Reads (b :: rest) rest :=
  ⟨[b], rfl, by simpa using hb, by simpa using hb⟩

theorem of_all {used : List UInt8} (h : ∀ b ∈ used, mayBound b = true) (rest : List UInt8) :
    Reads (used ++ rest) rest :=
  ⟨used, rfl, fun b hb => h b (List.mem_of_head? hb), fun b hb => h b (List.mem_of_getLast? hb)⟩

theorem takeWhile {p : UInt8 → Bool} (h : ∀ b, p b = true → mayBound b = true)
    (bs : List UInt8) : Reads bs (bs.dropWhile p) := by
  have hall : ∀ b ∈ bs.takeWhile p, mayBound b = true :=
    fun b hb => h b (List.mem_takeWhile_imp hb)
  have := of_all hall (bs.dropWhile p)
  rwa [List.takeWhile_append_dropWhile] at this

end Reads

theorem mayBound_of_isBlankByte {b : UInt8} (h : isBlankByte b = true) : mayBound b = true := by
  simp only [isBlankByte, Bool.or_eq_true, beq_iff_eq] at h
  rcases h with ((rfl | rfl) | rfl) | rfl <;> decide

theorem mayBound_of_isDigitByte {b : UInt8} (h : isDigitByte b = true) : mayBound b = true := by
  simp only [isDigitByte, Bool.and_eq_true, decide_eq_true_eq] at h
  have hne : b ≠ 0x0B := by
    rintro rfl
    exact absurd h.1 (by decide)
  simp only [mayBound, Bool.and_eq_true, decide_eq_true_eq, bne_iff_ne]
  exact ⟨by omega, hne⟩

theorem reads_skipBlanks (bs : List UInt8) : Reads bs (skipBlanks bs) :=
  .takeWhile (fun _ => mayBound_of_isBlankByte) bs

theorem reads_token {bs rest : List UInt8} {b : UInt8} (h : skipBlanks bs = b :: rest)
    (hb : mayBound b = true) : Reads bs rest := by
  have hskip := reads_skipBlanks bs
  rw [h] at hskip
  exact hskip.trans (.byte hb rest)

theorem reads_word (word : List UInt8) {bs rest : List UInt8} (h : skipBlanks bs = word ++ rest)
    (hword : word.all mayBound = true) : Reads bs rest := by
  have hskip := reads_skipBlanks bs
  rw [h] at hskip
  exact hskip.trans (.of_all (List.all_eq_true.mp hword) rest)

/-! ## Scalars -/

/-- A string body is followed by its closing quote. -/
theorem exists_of_readBody {read bs body rest : List UInt8}
    (h : readBody read bs = some (body, rest)) : ∃ used, bs = used ++ 0x22 :: rest := by
  fun_induction readBody read bs with
  | case1 => cases h
  | case2 read rest' =>
      cases h
      exact ⟨[], rfl⟩
  | case3 read a b c d rest' hhex ih =>
      obtain ⟨used, rfl⟩ := ih h
      exact ⟨0x5C :: 0x75 :: a :: b :: c :: d :: used, rfl⟩
  | case5 read e rest' _ hescape ih =>
      obtain ⟨used, rfl⟩ := ih h
      exact ⟨0x5C :: e :: used, rfl⟩
  | case8 read b rest' _ _ _ hplain ih =>
      obtain ⟨used, rfl⟩ := ih h
      exact ⟨b :: used, rfl⟩
  | _ => cases h

theorem reads_string {bs body rest : List UInt8} (h : readBody [] bs = some (body, rest)) :
    Reads (0x22 :: bs) rest := by
  obtain ⟨used, rfl⟩ := exists_of_readBody h
  refine ⟨0x22 :: used ++ [0x22], by simp, ?_, ?_⟩
  · intro b hb
    cases hb
    decide
  · intro b hb
    rw [List.getLast?_append] at hb
    cases hb
    decide

theorem reads_of_readDigits? {bs digits rest : List UInt8}
    (h : readDigits? bs = some (digits, rest)) : Reads bs rest := by
  rw [readDigits?] at h
  split at h
  · cases h
  · cases h
    exact .takeWhile (fun _ => mayBound_of_isDigitByte) bs

theorem reads_of_readWhole? {bs whole rest : List UInt8}
    (h : readWhole? bs = some (whole, rest)) : Reads bs rest := by
  unfold readWhole? at h
  split at h
  · cases h
    exact .byte rfl _
  · exact reads_of_readDigits? h

theorem reads_of_readFraction? {bs fraction rest : List UInt8}
    (h : readFraction? bs = some (fraction, rest)) : Reads bs rest := by
  unfold readFraction? at h
  split at h
  · obtain ⟨⟨digits, rest'⟩, hdigits, heq⟩ := Option.map_eq_some_iff.mp h
    cases heq
    exact (Reads.byte rfl _).trans (reads_of_readDigits? hdigits)
  · cases h
    exact .refl _

theorem reads_readSign (bs : List UInt8) : Reads bs (readSign bs).2 := by
  unfold readSign
  split
  · exact .byte rfl _
  · exact .byte rfl _
  · exact .refl _

theorem reads_of_readExponent? {bs exponent rest : List UInt8}
    (h : readExponent? bs = some (exponent, rest)) : Reads bs rest := by
  unfold readExponent? at h
  split at h
  · next e rest' =>
      split at h
      · next hletter =>
          have he : mayBound e = true := by
            rcases hletter with rfl | rfl <;> decide
          obtain ⟨⟨digits, rest''⟩, hdigits, heq⟩ := Option.map_eq_some_iff.mp h
          cases heq
          exact (Reads.byte he _).trans ((reads_readSign _).trans (reads_of_readDigits? hdigits))
      · cases h
        exact .refl _
  · cases h
    exact .refl _

theorem reads_of_readUnsigned? {bs lexeme rest : List UInt8}
    (h : readUnsigned? bs = some (lexeme, rest)) : Reads bs rest := by
  simp only [readUnsigned?, Option.bind_eq_bind, Option.bind_eq_some_iff] at h
  obtain ⟨⟨whole, bs₁⟩, hwhole, ⟨fraction, bs₂⟩, hfraction, ⟨exponent, bs₃⟩, hexponent, heq⟩ := h
  cases heq
  exact (reads_of_readWhole? hwhole).trans
    ((reads_of_readFraction? hfraction).trans (reads_of_readExponent? hexponent))

theorem reads_of_readNumber? {bs lexeme rest : List UInt8}
    (h : readNumber? bs = some (lexeme, rest)) : Reads bs rest := by
  unfold readNumber? at h
  split at h
  · obtain ⟨⟨unsigned, rest'⟩, hunsigned, heq⟩ := Option.map_eq_some_iff.mp h
    cases heq
    exact (Reads.byte rfl _).trans (reads_of_readUnsigned? hunsigned)
  · exact reads_of_readUnsigned? h

/-! ## Values -/

section Nested

variable {depth : Nat}
  (hvalue : ∀ {bs value rest}, readValue? depth bs = some (value, rest) → Reads bs rest)
  (hitems : ∀ {bs items rest}, readItems? depth bs = some (items, rest) → Reads bs rest)
  (hmembers : ∀ {bs members rest}, readMembers? depth bs = some (members, rest) → Reads bs rest)

include hitems hmembers in
theorem reads_of_readValue?_succ {bs rest : List UInt8} {value : Json}
    (h : readValue? (depth + 1) bs = some (value, rest)) : Reads bs rest := by
  rw [readValue?] at h
  split at h
  · next hnull =>
      cases h
      exact reads_word [0x6E, 0x75, 0x6C, 0x6C] hnull rfl
  · next htrue =>
      cases h
      exact reads_word [0x74, 0x72, 0x75, 0x65] htrue rfl
  · next hfalse =>
      cases h
      exact reads_word [0x66, 0x61, 0x6C, 0x73, 0x65] hfalse rfl
  · next hquote =>
      obtain ⟨⟨body, rest'⟩, hbody, heq⟩ := Option.map_eq_some_iff.mp h
      cases heq
      have hskip := reads_skipBlanks bs
      rw [hquote] at hskip
      exact hskip.trans (reads_string hbody)
  · next hopen =>
      refine (reads_token hopen rfl).trans ?_
      split at h
      · next hclose =>
          cases h
          exact reads_token hclose rfl
      · obtain ⟨⟨items, rest'⟩, hread, heq⟩ := Option.map_eq_some_iff.mp h
        cases heq
        exact (reads_skipBlanks _).trans (hitems hread)
  · next hopen =>
      refine (reads_token hopen rfl).trans ?_
      split at h
      · next hclose =>
          cases h
          exact reads_token hclose rfl
      · obtain ⟨⟨members, rest'⟩, hread, heq⟩ := Option.map_eq_some_iff.mp h
        cases heq
        exact (reads_skipBlanks _).trans (hmembers hread)
  · obtain ⟨⟨lexeme, rest'⟩, hread, heq⟩ := Option.map_eq_some_iff.mp h
    cases heq
    exact (reads_skipBlanks bs).trans (reads_of_readNumber? hread)

include hvalue hitems in
theorem reads_of_readItems?_succ {bs rest : List UInt8} {items : List Json}
    (h : readItems? (depth + 1) bs = some (items, rest)) : Reads bs rest := by
  rw [readItems?] at h
  split at h
  · cases h
  · next item rest' hread =>
      refine (hvalue hread).trans ?_
      split at h
      · next hclose =>
          cases h
          exact reads_token hclose rfl
      · next hcomma =>
          obtain ⟨⟨later, rest''⟩, hlater, heq⟩ := Option.map_eq_some_iff.mp h
          cases heq
          exact (reads_token hcomma rfl).trans (hitems hlater)
      · cases h

include hvalue hmembers in
theorem reads_of_readMembers?_succ {bs rest : List UInt8} {members : List (List UInt8 × Json)}
    (h : readMembers? (depth + 1) bs = some (members, rest)) : Reads bs rest := by
  have hskip := reads_skipBlanks bs
  rw [readMembers?] at h
  split at h
  · next hquote =>
      rw [hquote] at hskip
      split at h
      · cases h
      · next key rest₁ hkey =>
          refine hskip.trans ((reads_string hkey).trans ?_)
          split at h
          · next hcolon =>
              refine (reads_token hcolon rfl).trans ?_
              split at h
              · cases h
              · next value rest₂ hread =>
                  refine (hvalue hread).trans ?_
                  split at h
                  · next hclose =>
                      cases h
                      exact reads_token hclose rfl
                  · next hcomma =>
                      obtain ⟨⟨later, rest₃⟩, hlater, heq⟩ := Option.map_eq_some_iff.mp h
                      cases heq
                      exact (reads_token hcomma rfl).trans (hmembers hlater)
                  · cases h
          · cases h
  · cases h

end Nested

/-- The readers of nested values, by their common depth of recursion. -/
theorem reads_nested (depth : Nat) :
    (∀ {bs value rest}, readValue? depth bs = some (value, rest) → Reads bs rest)
      ∧ (∀ {bs items rest}, readItems? depth bs = some (items, rest) → Reads bs rest)
      ∧ ∀ {bs members rest}, readMembers? depth bs = some (members, rest) → Reads bs rest := by
  -- each reader calls the others at a smaller depth, so one induction serves all three
  induction depth with
  | zero => simp [readValue?, readItems?, readMembers?]
  | succ depth ih =>
      obtain ⟨hvalue, hitems, hmembers⟩ := ih
      exact ⟨reads_of_readValue?_succ hitems hmembers, reads_of_readItems?_succ hvalue hitems,
        reads_of_readMembers?_succ hvalue hmembers⟩

/-- **A document begins and ends with a byte that can bound one.** -/
theorem mayBound_of_parse? {bs : List UInt8} {value : Json} (h : parse? bs = some value) :
    (∀ b ∈ bs.head?, mayBound b = true) ∧ ∀ b ∈ bs.getLast?, mayBound b = true := by
  rw [parse?] at h
  split at h
  · next value' rest hread =>
      split at h
      · next hblank =>
          have hreads := ((reads_nested _).1 hread).trans (reads_skipBlanks rest)
          rw [List.isEmpty_iff.mp hblank] at hreads
          obtain ⟨used, rfl, hfirst, hlast⟩ := hreads
          rw [List.append_nil]
          exact ⟨hfirst, hlast⟩
      · cases h
  · cases h

end ImagePull.Json
