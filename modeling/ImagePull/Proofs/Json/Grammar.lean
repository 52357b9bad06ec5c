import ImagePull.Json.Parser
import ImagePull.Json.Printer
import Mathlib.Data.List.TakeWhile

/-!
# The texts of documents

Which bytes spell which document (`Spells`), with blanks wherever the grammar of JSON has them. The
grammar is one of its own beside the readers, with one relation for each of them, and says what
they must not refuse: every text that spells a document is read as that document
(`parse?_of_spells`).
-/

namespace ImagePull.Json

/-! ## Strings -/

/-- A byte that stands in a string for itself. -/
def IsPlain (b : UInt8) : Prop :=
  0x20 ≤ b.toNat ∧ b ≠ 0x22 ∧ b ≠ 0x5C

/-- What can stand between quotes. -/
inductive IsBody : List UInt8 → Prop where
  | nil : IsBody []
  | plain {b : UInt8} {rest : List UInt8} (h : IsPlain b) (more : IsBody rest) :
    IsBody (b :: rest)
  | short {e : UInt8} {rest : List UInt8} (h : (shortEscape? e).isSome) (more : IsBody rest) :
    IsBody (0x5C :: e :: rest)
  | unit {a b c d : UInt8} {rest : List UInt8} (h : (hexUnit? a b c d).isSome)
    (more : IsBody rest) : IsBody (0x5C :: 0x75 :: a :: b :: c :: d :: rest)

theorem readBody_plain {b : UInt8} (h : IsPlain b) (read rest : List UInt8) :
    readBody read (b :: rest) = readBody (b :: read) rest := by
  obtain ⟨hlow, hquote, hescape⟩ := h
  rw [readBody]
  · exact if_neg (Nat.not_lt.mpr hlow)
  · exact hquote
  · rintro a b c d rest' rfl
    exact absurd rfl hescape
  · rintro e rest' rfl
    exact absurd rfl hescape

theorem readBody_short {e : UInt8} (h : (shortEscape? e).isSome) (read rest : List UInt8) :
    readBody read (0x5C :: e :: rest) = readBody (e :: 0x5C :: read) rest := by
  rw [readBody]
  · exact if_pos h
  · rintro a b c d rest' rfl
    cases h

theorem readBody_unit {a b c d : UInt8} (h : (hexUnit? a b c d).isSome) (read rest : List UInt8) :
    readBody read (0x5C :: 0x75 :: a :: b :: c :: d :: rest)
      = readBody (d :: c :: b :: a :: 0x75 :: 0x5C :: read) rest := by
  rw [readBody]
  exact if_pos h

/-- **A string is read up to its closing quote.** -/
theorem readBody_of_isBody {body : List UInt8} (h : IsBody body) (read rest : List UInt8) :
    readBody read (body ++ 0x22 :: rest) = some (read.reverse ++ body, rest) := by
  induction h generalizing read with
  | nil => simp [readBody]
  | plain h more ih => rw [List.cons_append, readBody_plain h, ih]; simp
  | short h more ih => rw [List.cons_append, List.cons_append, readBody_short h, ih]; simp
  | unit h more ih => simp only [List.cons_append]; rw [readBody_unit h, ih]; simp

/-! ## Numbers -/

/-- One digit or more. -/
def IsDigits (ds : List UInt8) : Prop :=
  ds ≠ [] ∧ ∀ d ∈ ds, isDigitByte d = true

/-- A whole part: a zero stands alone. -/
inductive IsWhole : List UInt8 → Prop where
  | zero : IsWhole [0x30]
  | digits {d : UInt8} {ds : List UInt8} (first : d ≠ 0x30) (h : IsDigits (d :: ds)) :
    IsWhole (d :: ds)

/-- A fraction, which may be missing. -/
inductive IsFraction : List UInt8 → Prop where
  | missing : IsFraction []
  | digits {ds : List UInt8} (h : IsDigits ds) : IsFraction (0x2E :: ds)

/-- The sign of an exponent, which may be missing. -/
inductive IsSign : List UInt8 → Prop where
  | missing : IsSign []
  | plus : IsSign [0x2B]
  | minus : IsSign [0x2D]

/-- An exponent, which may be missing. -/
inductive IsExponent : List UInt8 → Prop where
  | missing : IsExponent []
  | digits {e : UInt8} {sign ds : List UInt8} (letter : e = 0x65 ∨ e = 0x45) (hsign : IsSign sign)
    (h : IsDigits ds) : IsExponent (e :: (sign ++ ds))

/-- A number without its sign. -/
inductive IsUnsigned : List UInt8 → Prop where
  | parts {whole fraction exponent : List UInt8} (hwhole : IsWhole whole)
    (hfraction : IsFraction fraction) (hexponent : IsExponent exponent) :
    IsUnsigned (whole ++ fraction ++ exponent)

/-- A number. -/
inductive IsNumber : List UInt8 → Prop where
  | plain {lexeme : List UInt8} (h : IsUnsigned lexeme) : IsNumber lexeme
  | negative {lexeme : List UInt8} (h : IsUnsigned lexeme) : IsNumber (0x2D :: lexeme)

/-- What is left does not begin with a byte of this kind. -/
def EndsAt (continues : UInt8 → Bool) (rest : List UInt8) : Prop :=
  ∀ b ∈ rest.head?, continues b = false

/-- A byte with which a number could go on. -/
def continuesNumber (b : UInt8) : Bool :=
  isDigitByte b || b == 0x2E || b == 0x65 || b == 0x45

variable {ds rest : List UInt8}

theorem endsAt_nil (continues : UInt8 → Bool) : EndsAt continues [] := by
  simp [EndsAt]

theorem endsAt_cons {continues : UInt8 → Bool} {b : UInt8} :
    EndsAt continues (b :: rest) ↔ continues b = false := by
  simp [EndsAt]

theorem EndsAt.imp {p q : UInt8 → Bool} (h : EndsAt p rest)
    (himp : ∀ b, p b = false → q b = false) : EndsAt q rest :=
  fun b hb => himp b (h b hb)

theorem readDigits?_append (h : IsDigits ds) (hrest : EndsAt isDigitByte rest) :
    readDigits? (ds ++ rest) = some (ds, rest) := by
  obtain ⟨hne, hall⟩ := h
  have htake : rest.takeWhile isDigitByte = [] := by
    cases rest with
    | nil => rfl
    | cons b more => exact List.takeWhile_cons_of_neg (by simp [endsAt_cons.mp hrest])
  have hdrop : rest.dropWhile isDigitByte = rest := by
    cases rest with
    | nil => rfl
    | cons b more => exact List.dropWhile_cons_of_neg (by simp [endsAt_cons.mp hrest])
  rw [readDigits?, List.takeWhile_append_of_pos hall, List.dropWhile_append_of_pos hall, htake,
    hdrop, List.append_nil]
  cases ds with
  | nil => exact absurd rfl hne
  | cons d more => rfl

theorem readWhole?_append {whole : List UInt8} (h : IsWhole whole)
    (hrest : EndsAt isDigitByte rest) : readWhole? (whole ++ rest) = some (whole, rest) := by
  cases h with
  | zero => rfl
  | digits first h =>
      rw [List.cons_append, readWhole?]
      · exact readDigits?_append h hrest
      · exact fun _ hd => first (List.cons.inj hd).1

theorem readFraction?_append {fraction : List UInt8} (h : IsFraction fraction)
    (hrest : EndsAt isDigitByte rest) (hpoint : EndsAt (· == 0x2E) rest) :
    readFraction? (fraction ++ rest) = some (fraction, rest) := by
  cases h with
  | missing =>
      rw [List.nil_append, readFraction?]
      rintro more rfl
      cases endsAt_cons.mp hpoint
  | digits h =>
      rw [List.cons_append, readFraction?, readDigits?_append h hrest]
      rfl

theorem readSign_append {sign : List UInt8} (hsign : IsSign sign) (h : IsDigits ds) :
    readSign (sign ++ (ds ++ rest)) = (sign, ds ++ rest) := by
  cases hsign with
  | missing =>
      obtain ⟨hne, hall⟩ := h
      cases ds with
      | nil => exact absurd rfl hne
      | cons d more =>
          -- a digit is no sign
          rw [List.nil_append, List.cons_append, readSign]
          · intro more' hmore
            cases (List.cons.inj hmore).1 ▸ hall d List.mem_cons_self
          · intro more' hmore
            cases (List.cons.inj hmore).1 ▸ hall d List.mem_cons_self
  | plus => rfl
  | minus => rfl

theorem readExponent?_append {exponent : List UInt8} (h : IsExponent exponent)
    (hrest : EndsAt isDigitByte rest) (hletter : EndsAt (fun b => b == 0x65 || b == 0x45) rest) :
    readExponent? (exponent ++ rest) = some (exponent, rest) := by
  cases h with
  | missing =>
      cases rest with
      | nil => rfl
      | cons b more =>
          have hb := endsAt_cons.mp hletter
          simp only [Bool.or_eq_false_iff, beq_eq_false_iff_ne] at hb
          rw [List.nil_append, readExponent?, if_neg (not_or.mpr hb)]
  | digits letter hsign h =>
      simp only [List.cons_append, List.append_assoc, readExponent?, if_pos letter,
        readSign_append hsign h, readDigits?_append h hrest, Option.map_some]

theorem IsFraction.endsAt {fraction : List UInt8} (h : IsFraction fraction)
    {continues : UInt8 → Bool} (hpoint : continues 0x2E = false) (hrest : EndsAt continues rest) :
    EndsAt continues (fraction ++ rest) := by
  cases h with
  | missing => exact hrest
  | digits h => exact endsAt_cons.mpr hpoint

theorem IsExponent.endsAt {exponent : List UInt8} (h : IsExponent exponent)
    {continues : UInt8 → Bool} (hletter : continues 0x65 = false ∧ continues 0x45 = false)
    (hrest : EndsAt continues rest) : EndsAt continues (exponent ++ rest) := by
  cases h with
  | missing => exact hrest
  | digits letter hsign h =>
      rcases letter with rfl | rfl
      · exact endsAt_cons.mpr hletter.1
      · exact endsAt_cons.mpr hletter.2

theorem readUnsigned?_append {lexeme : List UInt8} (h : IsUnsigned lexeme)
    (hrest : EndsAt continuesNumber rest) :
    readUnsigned? (lexeme ++ rest) = some (lexeme, rest) := by
  have hdigit : EndsAt isDigitByte rest := hrest.imp (by simp +contextual [continuesNumber])
  have hpoint : EndsAt (· == 0x2E) rest := hrest.imp (by simp +contextual [continuesNumber])
  have hletter : EndsAt (fun b => b == 0x65 || b == 0x45) rest :=
    hrest.imp (by simp +contextual [continuesNumber])
  cases h with
  | @parts whole fraction exponent hwhole hfraction hexponent =>
      have hread := readWhole?_append hwhole
        (hfraction.endsAt (by decide) (hexponent.endsAt (by decide) hdigit))
      have hread' := readFraction?_append hfraction (hexponent.endsAt (by decide) hdigit)
        (hexponent.endsAt (by decide) hpoint)
      rw [List.append_assoc, List.append_assoc]
      simp only [readUnsigned?, hread, hread', readExponent?_append hexponent hdigit hletter,
        Option.bind_eq_bind, Option.bind_some, List.append_assoc]

theorem exists_of_isUnsigned {lexeme : List UInt8} (h : IsUnsigned lexeme) :
    ∃ d more, lexeme = d :: more ∧ isDigitByte d = true := by
  cases h with
  | parts hwhole =>
      cases hwhole with
      | zero => exact ⟨0x30, _, rfl, rfl⟩
      | digits first h => exact ⟨_, _, rfl, h.2 _ List.mem_cons_self⟩

/-- **A number is read as far as it goes.** -/
theorem readNumber?_append {lexeme : List UInt8} (h : IsNumber lexeme)
    (hrest : EndsAt continuesNumber rest) :
    readNumber? (lexeme ++ rest) = some (lexeme, rest) := by
  cases h with
  | plain h =>
      have hread := readUnsigned?_append h hrest
      obtain ⟨d, more, rfl, hd⟩ := exists_of_isUnsigned h
      rw [List.cons_append, readNumber?]
      · exact hread
      · intro more' hmore
        cases (List.cons.inj hmore).1 ▸ hd
  | negative h => rw [List.cons_append, readNumber?, readUnsigned?_append h hrest]; rfl

/-! ## The grammar of values -/

/-- Blanks between tokens. -/
def Blanks (gap : List UInt8) : Prop :=
  ∀ b ∈ gap, isBlankByte b = true

instance (gap : List UInt8) : Decidable (Blanks gap) :=
  List.decidableBAll _ gap

mutual

/-- The text spells this document, without blanks around it. -/
inductive Spells : Json → List UInt8 → Prop where
  | null : Spells .null [0x6E, 0x75, 0x6C, 0x6C]
  | bool (value : Bool) : Spells (.bool value) (render (.bool value))
  | number {lexeme : List UInt8} (h : IsNumber lexeme) : Spells (.number lexeme) lexeme
  | string {body : List UInt8} (h : IsBody body) : Spells (.string body) (quoted body)
  | noItems {gap : List UInt8} (hgap : Blanks gap) : Spells (.array []) (0x5B :: (gap ++ [0x5D]))
  | items {items : List Json} {text : List UInt8} (h : SpellsItems items text) :
    Spells (.array items) (0x5B :: text)
  | noMembers {gap : List UInt8} (hgap : Blanks gap) :
    Spells (.object []) (0x7B :: (gap ++ [0x7D]))
  | members {members : List (List UInt8 × Json)} {text : List UInt8}
    (h : SpellsMembers members text) : Spells (.object members) (0x7B :: text)

/-- The text spells one element or more, and the end of their array. -/
inductive SpellsItems : List Json → List UInt8 → Prop where
  | last {item : Json} {before text after : List UInt8} (hbefore : Blanks before)
    (hitem : Spells item text) (hafter : Blanks after) :
    SpellsItems [item] (before ++ (text ++ (after ++ [0x5D])))
  | more {item : Json} {items : List Json} {before text after rest : List UInt8}
    (hbefore : Blanks before) (hitem : Spells item text) (hafter : Blanks after)
    (hrest : SpellsItems items rest) :
    SpellsItems (item :: items) (before ++ (text ++ (after ++ 0x2C :: rest)))

/-- The text spells one member or more, and the end of their object. -/
inductive SpellsMembers : List (List UInt8 × Json) → List UInt8 → Prop where
  | last {key : List UInt8} {value : Json} {before colon between text after : List UInt8}
    (hbefore : Blanks before) (hkey : IsBody key) (hcolon : Blanks colon)
    (hbetween : Blanks between) (hvalue : Spells value text) (hafter : Blanks after) :
    SpellsMembers [(key, value)]
      (before ++ (quoted key ++ (colon ++ 0x3A :: (between ++ (text ++ (after ++ [0x7D]))))))
  | more {key : List UInt8} {value : Json} {members : List (List UInt8 × Json)}
    {before colon between text after rest : List UInt8}
    (hbefore : Blanks before) (hkey : IsBody key) (hcolon : Blanks colon)
    (hbetween : Blanks between) (hvalue : Spells value text) (hafter : Blanks after)
    (hrest : SpellsMembers members rest) :
    SpellsMembers ((key, value) :: members)
      (before ++ (quoted key ++ (colon ++ 0x3A :: (between ++ (text ++ (after ++ 0x2C :: rest))))))

end

/-! ## Reading values -/

variable {gap : List UInt8} {depth : Nat}

theorem skipBlanks_append (h : Blanks gap) (rest : List UInt8) :
    skipBlanks (gap ++ rest) = skipBlanks rest :=
  List.dropWhile_append_of_pos h

theorem skipBlanks_cons {b : UInt8} (h : isBlankByte b = false) (rest : List UInt8) :
    skipBlanks (b :: rest) = b :: rest :=
  List.dropWhile_cons_of_neg (by simp [h])

/-- Blanks in front of a token are passed over. -/
theorem skipBlanks_gap (h : Blanks gap) {b : UInt8} (hb : isBlankByte b = false)
    (rest : List UInt8) : skipBlanks (gap ++ b :: rest) = b :: rest := by
  rw [skipBlanks_append h, skipBlanks_cons hb]

theorem readValue?_gap (h : Blanks gap) (depth : Nat) (rest : List UInt8) :
    readValue? depth (gap ++ rest) = readValue? depth rest := by
  cases depth with
  | zero => rfl
  | succ depth => rw [readValue?, readValue?, skipBlanks_append h]

theorem continuesNumber_of_isBlankByte {b : UInt8} (h : isBlankByte b = true) :
    continuesNumber b = false := by
  simp only [isBlankByte, Bool.or_eq_true, beq_iff_eq] at h
  rcases h with ((rfl | rfl) | rfl) | rfl <;> rfl

/-- No number goes on behind blanks. -/
theorem Blanks.endsAt (h : Blanks gap) {rest : List UInt8} (hrest : EndsAt continuesNumber rest) :
    EndsAt continuesNumber (gap ++ rest) := by
  cases gap with
  | nil => exact hrest
  | cons c more => exact endsAt_cons.mpr (continuesNumber_of_isBlankByte (h c List.mem_cons_self))

theorem isBlankByte_of_isDigitByte {b : UInt8} (h : isDigitByte b = true) :
    isBlankByte b = false := by
  rw [← Bool.not_eq_true, isBlankByte]
  intro hblank
  simp only [Bool.or_eq_true, beq_iff_eq] at hblank
  rcases hblank with ((rfl | rfl) | rfl) | rfl <;> cases h

/-- A number begins with a digit or its sign. -/
theorem exists_of_isNumber {lexeme : List UInt8} (h : IsNumber lexeme) :
    ∃ b more, lexeme = b :: more ∧ (isDigitByte b = true ∨ b = 0x2D) := by
  cases h with
  | plain h =>
      obtain ⟨d, more, rfl, hd⟩ := exists_of_isUnsigned h
      exact ⟨d, more, rfl, .inl hd⟩
  | negative h => exact ⟨_, _, rfl, .inr rfl⟩

/-- A text begins with a byte that is neither blank nor the end of an array. -/
theorem Spells.exists_cons {value : Json} {text : List UInt8} (h : Spells value text) :
    ∃ b more, text = b :: more ∧ isBlankByte b = false ∧ b ≠ 0x5D := by
  cases h with
  | bool value => cases value <;> exact ⟨_, _, rfl, rfl, by decide⟩
  | number h =>
      obtain ⟨b, more, rfl, hb | rfl⟩ := exists_of_isNumber h
      · refine ⟨b, more, rfl, isBlankByte_of_isDigitByte hb, ?_⟩
        rintro rfl
        cases hb
      · exact ⟨_, _, rfl, rfl, by decide⟩
  | _ => exact ⟨_, _, rfl, rfl, by decide⟩

/-- What begins with no other token is read as a number. -/
theorem readValue?_number {b : UInt8} (hb : isDigitByte b = true ∨ b = 0x2D) (depth : Nat)
    (rest : List UInt8) :
    readValue? (depth + 1) (b :: rest)
      = (readNumber? (b :: rest)).map fun r => (.number r.1, r.2) := by
  have hblank : isBlankByte b = false := by
    rcases hb with hb | rfl
    · exact isBlankByte_of_isDigitByte hb
    · rfl
  rw [readValue?, skipBlanks_cons hblank]
  split
  case h_7 => rfl
  all_goals
    next heq =>
      cases heq
      rcases hb with hb | hb <;> cases hb

/-- What a reader of values reads within a depth. -/
def ReadsValues (depth : Nat) : Prop :=
  ∀ rest {value text}, Spells value text → 2 * text.length ≤ depth → EndsAt continuesNumber rest →
    readValue? depth (text ++ rest) = some (value, rest)

@[inherit_doc ReadsValues]
def ReadsItems (depth : Nat) : Prop :=
  ∀ rest {items text}, SpellsItems items text → 2 * text.length ≤ depth →
    readItems? depth (text ++ rest) = some (items, rest)

@[inherit_doc ReadsValues]
def ReadsMembers (depth : Nat) : Prop :=
  ∀ rest {members text}, SpellsMembers members text → 2 * text.length ≤ depth →
    readMembers? depth (text ++ rest) = some (members, rest)

/-- The elements of an array begin, behind blanks, with a byte that does not end it. -/
theorem SpellsItems.exists_gap {items : List Json} {text : List UInt8}
    (h : SpellsItems items text) :
    ∃ gap b more, Blanks gap ∧ text = gap ++ b :: more ∧ isBlankByte b = false ∧ b ≠ 0x5D := by
  cases h with
  | last hbefore hitem hafter =>
      obtain ⟨b, more, rfl, hb, hne⟩ := hitem.exists_cons
      exact ⟨_, b, _, hbefore, rfl, hb, hne⟩
  | more hbefore hitem hafter hrest =>
      obtain ⟨b, more, rfl, hb, hne⟩ := hitem.exists_cons
      exact ⟨_, b, _, hbefore, rfl, hb, hne⟩

theorem SpellsMembers.exists_gap {members : List (List UInt8 × Json)} {text : List UInt8}
    (h : SpellsMembers members text) :
    ∃ gap more, Blanks gap ∧ text = gap ++ 0x22 :: more := by
  cases h with
  | last hbefore => exact ⟨_, _, hbefore, rfl⟩
  | more hbefore => exact ⟨_, _, hbefore, rfl⟩

theorem readItems?_gap (h : Blanks gap) (depth : Nat) (rest : List UInt8) :
    readItems? depth (gap ++ rest) = readItems? depth rest := by
  cases depth with
  | zero => rfl
  | succ depth => rw [readItems?, readItems?, readValue?_gap h]

theorem readMembers?_gap (h : Blanks gap) (depth : Nat) (rest : List UInt8) :
    readMembers? depth (gap ++ rest) = readMembers? depth rest := by
  cases depth with
  | zero => rfl
  | succ depth => rw [readMembers?, readMembers?, skipBlanks_append h]

section Nested

variable (hvalues : ReadsValues depth) (hitems : ReadsItems depth) (hmembers : ReadsMembers depth)

include hitems hmembers in
theorem readsValues_succ : ReadsValues (depth + 1) := by
  intro rest value text h hdepth hrest
  cases h with
  | null => rfl
  | bool value => cases value <;> rfl
  | number h =>
      obtain ⟨b, more, rfl, hb⟩ := exists_of_isNumber h
      rw [List.cons_append, readValue?_number hb, ← List.cons_append, readNumber?_append h hrest]
      rfl
  | string h =>
      have hbody := readBody_of_isBody h [] rest
      simp only [quoted, List.cons_append, List.append_assoc, List.nil_append]
      rw [readValue?, skipBlanks_cons rfl]
      simp only [hbody]
      rfl
  | noItems hgap =>
      rw [List.cons_append, List.append_assoc, readValue?, skipBlanks_cons rfl]
      simp only [List.cons_append, skipBlanks_gap (b := 0x5D) hgap rfl, List.nil_append]
  | items h =>
      have hread := hitems rest h (by rw [List.length_cons] at hdepth; omega)
      obtain ⟨gap, b, more, hgap, rfl, hb, hne⟩ := h.exists_gap
      rw [List.append_assoc, List.cons_append, readItems?_gap hgap] at hread
      rw [List.cons_append, List.append_assoc, List.cons_append, readValue?, skipBlanks_cons rfl]
      simp only [skipBlanks_gap hgap hb]
      split
      · next heq => exact absurd (List.cons.inj heq).1 hne
      · rw [hread]
        rfl
  | noMembers hgap =>
      rw [List.cons_append, List.append_assoc, readValue?, skipBlanks_cons rfl]
      simp only [List.cons_append, skipBlanks_gap (b := 0x7D) hgap rfl, List.nil_append]
  | members h =>
      have hread := hmembers rest h (by rw [List.length_cons] at hdepth; omega)
      obtain ⟨gap, more, hgap, rfl⟩ := h.exists_gap
      rw [List.append_assoc, List.cons_append, readMembers?_gap hgap] at hread
      rw [List.cons_append, List.append_assoc, List.cons_append, readValue?, skipBlanks_cons rfl]
      simp only [skipBlanks_gap (b := 0x22) hgap rfl]
      split
      · next heq => exact absurd (List.cons.inj heq).1 (by decide)
      · rw [hread]
        rfl

include hvalues hitems in
theorem readsItems_succ : ReadsItems (depth + 1) := by
  intro rest items text h hdepth
  cases h with
  | @last item before text after hbefore hitem hafter =>
      simp only [List.length_append, List.length_cons] at hdepth
      have hread := hvalues (after ++ 0x5D :: rest) hitem (by omega)
        (hafter.endsAt (endsAt_cons.mpr rfl))
      simp only [List.append_assoc, List.singleton_append]
      rw [readItems?_gap hbefore, readItems?, hread]
      simp only [skipBlanks_gap (b := 0x5D) hafter rfl]
  | @more item items before text after later hbefore hitem hafter hrest =>
      simp only [List.length_append, List.length_cons] at hdepth
      have hread := hvalues (after ++ 0x2C :: (later ++ rest)) hitem (by omega)
        (hafter.endsAt (endsAt_cons.mpr rfl))
      have hlater := hitems rest hrest (by omega)
      simp only [List.append_assoc, List.cons_append]
      rw [readItems?_gap hbefore, readItems?, hread]
      simp only [skipBlanks_gap (b := 0x2C) hafter rfl, hlater, Option.map_some]

include hvalues hmembers in
theorem readsMembers_succ : ReadsMembers (depth + 1) := by
  intro rest members text h hdepth
  cases h with
  | @last key value before colon between text after hbefore hkey hcolon hbetween hvalue hafter =>
      simp only [quoted, List.length_append, List.length_cons] at hdepth
      have hbody := readBody_of_isBody hkey []
        (colon ++ 0x3A :: (between ++ (text ++ (after ++ 0x7D :: rest))))
      have hread := hvalues (after ++ 0x7D :: rest) hvalue (by omega)
        (hafter.endsAt (endsAt_cons.mpr rfl))
      simp only [quoted, List.append_assoc, List.cons_append, List.nil_append]
      rw [readMembers?_gap hbefore, readMembers?, skipBlanks_cons rfl]
      simp only [hbody, skipBlanks_gap (b := 0x3A) hcolon rfl, readValue?_gap hbetween, hread,
        skipBlanks_gap (b := 0x7D) hafter rfl, List.reverse_nil, List.nil_append]
  | @more key value members before colon between text after later hbefore hkey hcolon hbetween
      hvalue hafter hrest =>
      simp only [quoted, List.length_append, List.length_cons] at hdepth
      have hbody := readBody_of_isBody hkey []
        (colon ++ 0x3A :: (between ++ (text ++ (after ++ 0x2C :: (later ++ rest)))))
      have hread := hvalues (after ++ 0x2C :: (later ++ rest)) hvalue (by omega)
        (hafter.endsAt (endsAt_cons.mpr rfl))
      have hlater := hmembers rest hrest (by omega)
      simp only [quoted, List.append_assoc, List.cons_append, List.nil_append]
      rw [readMembers?_gap hbefore, readMembers?, skipBlanks_cons rfl]
      simp only [hbody, skipBlanks_gap (b := 0x3A) hcolon rfl, readValue?_gap hbetween, hread,
        skipBlanks_gap (b := 0x2C) hafter rfl, hlater, Option.map_some, List.reverse_nil,
        List.nil_append]

end Nested

/-- The readers of nested values, by their common depth of recursion. -/
theorem reads_spelled (depth : Nat) :
    ReadsValues depth ∧ ReadsItems depth ∧ ReadsMembers depth := by
  induction depth with
  | zero =>
      refine ⟨?_, ?_, ?_⟩
      · intro rest value text h hdepth
        obtain ⟨b, more, rfl, -⟩ := h.exists_cons
        simp at hdepth
      · intro rest items text h hdepth
        obtain ⟨gap, b, more, -, rfl, -⟩ := h.exists_gap
        simp at hdepth
      · intro rest members text h hdepth
        obtain ⟨gap, more, -, rfl⟩ := h.exists_gap
        simp at hdepth
  | succ depth ih =>
      obtain ⟨hvalues, hitems, hmembers⟩ := ih
      exact ⟨readsValues_succ hitems hmembers, readsItems_succ hvalues hitems,
        readsMembers_succ hvalues hmembers⟩

/-- **Every text that spells a document is read as that document**, with any blanks around it. -/
theorem parse?_of_spells {value : Json} {before text after : List UInt8} (hbefore : Blanks before)
    (h : Spells value text) (hafter : Blanks after) :
    parse? (before ++ (text ++ after)) = some value := by
  have hends : EndsAt continuesNumber after := by
    have := hafter.endsAt (endsAt_nil continuesNumber)
    rwa [List.append_nil] at this
  have hread := (reads_spelled _).1 after h
    (show 2 * text.length ≤ 2 * (before ++ (text ++ after)).length + 2 by
      simp only [List.length_append]
      omega) hends
  have hblank : skipBlanks after = [] := List.dropWhile_eq_nil_iff.mpr hafter
  rw [parse?, readValue?_gap hbefore, hread]
  simp only [hblank, List.isEmpty_nil, if_true]

end ImagePull.Json
