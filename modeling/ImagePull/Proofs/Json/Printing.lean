import ImagePull.Proofs.Json.Grammar
import ImagePull.Proofs.Text.Utf8

/-!
# Printed documents

A document whose scalars are well formed is printed as a text that spells it (`spells_render`), so
it is read back as it was (`parse?_render`). Texts and counts are among such scalars, whatever they
are, and are read back too (`word?_ofWord`), a text with its characters escaped in any way
(`SpellsChars.bodyText?`). A printed document holds no control character, so it stands on one line
(`onOneLine_render`).
-/

namespace ImagePull.Json

open Text.Utf8

/-! ## Strings -/

/-- How a character stands in a string: as a short escape, as one of its number, as two of the
halves of its number, or as its bytes. -/
inductive Escaped (c : Char) : List UInt8 → Prop where
  | short {e b : UInt8} (h : shortEscape? e = some b) (hbytes : encodeChar c = [b]) :
    Escaped c [0x5C, e]
  | unit {v w x y : UInt8} (h : hexUnit? v w x y = some c.toNat) :
    Escaped c [0x5C, 0x75, v, w, x, y]
  | pair {v w x y v' w' x' y' : UInt8} {high low : Nat} (h : hexUnit? v w x y = some high)
    (hhigh : isHighHalf high = true) (h' : hexUnit? v' w' x' y' = some low)
    (hlow : isLowHalf low = true)
    (hchar : c.toNat = 0x10000 + (high - 0xD800) * 0x400 + (low - 0xDC00)) :
    Escaped c [0x5C, 0x75, v, w, x, y, 0x5C, 0x75, v', w', x', y']
  | plain (h : ∀ b ∈ encodeChar c, IsPlain b) : Escaped c (encodeChar c)

/-- The body spells the characters, each escaped in some way or not at all. -/
inductive SpellsChars : List Char → List UInt8 → Prop where
  | nil : SpellsChars [] []
  | cons {c : Char} {cs : List Char} {bs rest : List UInt8} (first : Escaped c bs)
    (more : SpellsChars cs rest) : SpellsChars (c :: cs) (bs ++ rest)

theorem SpellsChars.append {cs cs' : List Char} {body body' : List UInt8}
    (h : SpellsChars cs body) (h' : SpellsChars cs' body') :
    SpellsChars (cs ++ cs') (body ++ body') := by
  induction h with
  | nil => exact h'
  | cons first more ih =>
      rw [List.cons_append, List.append_assoc]
      exact .cons first ih

/-- A control character is written by its number. -/
theorem hexUnit?_hexByte {n : Nat} (h : n < 0x20) :
    hexUnit? 0x30 0x30 (hexByte (n / 16)) (hexByte (n % 16)) = some n := by
  have hall : ∀ n < 0x20,
      hexUnit? 0x30 0x30 (hexByte (n / 16)) (hexByte (n % 16)) = some n := by decide
  exact hall n h

theorem isPlain_of_mem_encodeChar {c : Char} (hquote : c ≠ '"') (hescape : c ≠ '\\')
    (hlow : 0x20 ≤ c.toNat) : ∀ b ∈ encodeChar c, IsPlain b := by
  intro b hb
  by_cases hascii : c.toNat < 0x80
  · rw [encodeChar_of_lt hascii, List.mem_singleton] at hb
    have hbyte : b.toNat = c.toNat := by
      rw [hb, UInt8.toNat_ofNat']
      omega
    have hne (d : Char) (hd : c ≠ d) : b.toNat ≠ d.toNat := fun hsame =>
      hd (Char.toNat_inj.mp (hbyte.symm.trans hsame))
    refine ⟨by omega, ?_, ?_⟩
    · rintro rfl
      exact hne '"' hquote rfl
    · rintro rfl
      exact hne '\\' hescape rfl
  · have hhigh := le_of_mem_encodeChar (Nat.not_lt.mp hascii) hb
    refine ⟨by omega, ?_, ?_⟩
    · rintro rfl
      exact absurd hhigh (by decide)
    · rintro rfl
      exact absurd hhigh (by decide)

theorem escaped (c : Char) : Escaped c (escapeChar c) := by
  rw [escapeChar]
  split
  · next h => exact h ▸ .short (b := 0x22) rfl rfl
  split
  · next h => exact h ▸ .short (b := 0x5C) rfl rfl
  split
  · next h => exact h ▸ .short (b := 0x08) rfl rfl
  split
  · next h => exact h ▸ .short (b := 0x09) rfl rfl
  split
  · next h => exact h ▸ .short (b := 0x0A) rfl rfl
  split
  · next h => exact h ▸ .short (b := 0x0C) rfl rfl
  split
  · next h => exact h ▸ .short (b := 0x0D) rfl rfl
  split
  · next h => exact .unit (hexUnit?_hexByte h)
  · next hquote hescape _ _ _ _ _ hlow =>
      exact .plain (isPlain_of_mem_encodeChar hquote hescape (Nat.not_lt.mp hlow))

theorem spellsChars_escape (cs : List Char) : SpellsChars cs (escape cs) := by
  induction cs with
  | nil => exact .nil
  | cons c rest ih =>
      rw [escape, List.flatMap_cons]
      exact .cons (escaped c) ih

theorem IsBody.append {xs ys : List UInt8} (h : IsBody xs) (h' : IsBody ys) :
    IsBody (xs ++ ys) := by
  induction h with
  | nil => exact h'
  | plain h more ih => exact .plain h ih
  | short h more ih => exact .short h ih
  | unit h more ih => exact .unit h ih

theorem isBody_of_isPlain {bs : List UInt8} (h : ∀ b ∈ bs, IsPlain b) : IsBody bs := by
  induction bs with
  | nil => exact .nil
  | cons b rest ih =>
      obtain ⟨hb, hrest⟩ := List.forall_mem_cons.mp h
      exact .plain hb (ih hrest)

theorem Escaped.isBody {c : Char} {bs : List UInt8} (h : Escaped c bs) : IsBody bs := by
  cases h with
  | short h => exact .short (by simp [h]) .nil
  | unit h => exact .unit (by simp [h]) .nil
  | pair h hhigh h' => exact .unit (by simp [h]) (.unit (by simp [h']) .nil)
  | plain h => exact isBody_of_isPlain h

/-- **What spells characters can stand between quotes.** -/
theorem SpellsChars.isBody {cs : List Char} {body : List UInt8} (h : SpellsChars cs body) :
    IsBody body := by
  induction h with
  | nil => exact .nil
  | cons first more ih => exact first.isBody.append ih

theorem isBody_escape (cs : List Char) : IsBody (escape cs) :=
  (spellsChars_escape cs).isBody

theorem unescapeFrom_plain {bs : List UInt8} (h : ∀ b ∈ bs, IsPlain b) (read rest : List UInt8) :
    unescapeFrom read none (bs ++ rest) = unescapeFrom (bs.reverse ++ read) none rest := by
  induction bs generalizing read with
  | nil => rfl
  | cons b more ih =>
      obtain ⟨⟨-, -, hescape⟩, hmore⟩ := List.forall_mem_cons.mp h
      rw [List.cons_append, unescapeFrom]
      · simp only [Option.isSome_none, Bool.false_eq_true, if_false]
        rw [ih hmore, List.reverse_cons, List.append_assoc, List.singleton_append]
      · rintro a b' c d rest' rfl
        exact absurd rfl hescape
      · rintro e rest' rfl
        exact absurd rfl hescape

theorem unescapeFrom_short {e b : UInt8} (h : shortEscape? e = some b) (read rest : List UInt8) :
    unescapeFrom read none (0x5C :: e :: rest) = unescapeFrom (b :: read) none rest := by
  rw [unescapeFrom]
  · simp only [h, Option.isSome_none, Bool.false_eq_true, if_false]
  · rintro a b' c d rest' rfl
    cases h

/-- The number of a character is no half of a surrogate pair. -/
theorem not_isHalf_toNat (c : Char) :
    isHighHalf c.toNat = false ∧ isLowHalf c.toNat = false := by
  have hvalid : c.toNat < 0xD800 ∨ 0xDFFF < c.toNat ∧ c.toNat < 0x110000 := c.valid
  simp only [isHighHalf, isLowHalf, Bool.and_eq_false_iff, decide_eq_false_iff_not]
  omega

theorem unescapeFrom_unit {v w x y : UInt8} {c : Char} (h : hexUnit? v w x y = some c.toNat)
    (read rest : List UInt8) :
    unescapeFrom read none (0x5C :: 0x75 :: v :: w :: x :: y :: rest)
      = unescapeFrom ((encodeChar c).reverse ++ read) none rest := by
  obtain ⟨hhigh, hlow⟩ := not_isHalf_toNat c
  rw [unescapeFrom]
  simp only [h, hhigh, hlow, Bool.false_eq_true, if_false, Char.ofNat_toNat]

theorem Escaped.unescapeFrom {c : Char} {bs : List UInt8} (h : Escaped c bs)
    (read rest : List UInt8) :
    unescapeFrom read none (bs ++ rest)
      = unescapeFrom ((encodeChar c).reverse ++ read) none rest := by
  cases h with
  | short h hbytes =>
      rw [hbytes]
      exact unescapeFrom_short h read rest
  | unit h => exact unescapeFrom_unit h read rest
  | pair h hhigh h' hlow hchar =>
      simp only [List.cons_append, List.nil_append]
      rw [Json.unescapeFrom]
      simp only [h, hhigh, if_true]
      rw [Json.unescapeFrom]
      simp only [h', hlow, if_true, ← hchar, Char.ofNat_toNat]
  | plain h => exact unescapeFrom_plain h read rest

/-- **Undoing the escapes gives the bytes of the characters.** -/
theorem SpellsChars.unescapeFrom {cs : List Char} {body : List UInt8} (h : SpellsChars cs body)
    (read : List UInt8) :
    unescapeFrom read none body = some ((encode cs).reverse ++ read) := by
  induction h generalizing read with
  | nil => rfl
  | cons first more ih =>
      rw [first.unescapeFrom, ih, encode_cons, List.reverse_append, List.append_assoc]

/-- **A text is read from every string that spells it.** -/
theorem SpellsChars.bodyText? {s : String} {body : List UInt8} (h : SpellsChars s.toList body) :
    bodyText? body = some s := by
  rw [Json.bodyText?, unescape?, h.unescapeFrom, List.append_nil, Option.map_some,
    List.reverse_reverse, Option.bind_some]
  exact text?_bytes s

/-! ## Numbers -/

/-- A digit is written as one byte. -/
theorem isDigitByte_of_isDigit {c : Char} (h : c.isDigit = true) :
    isDigitByte (UInt8.ofNat c.toNat) = true
      ∧ Char.ofNat (UInt8.ofNat c.toNat).toNat = c ∧ c.toNat < 0x80 := by
  have hdigit : 48 ≤ c.toNat ∧ c.toNat ≤ 57 := by
    simp only [Char.isDigit, ge_iff_le, Bool.and_eq_true, decide_eq_true_eq] at h
    exact h
  have hbyte : (UInt8.ofNat c.toNat).toNat = c.toNat := by
    rw [UInt8.toNat_ofNat']
    omega
  refine ⟨?_, ?_, by omega⟩
  · simp only [isDigitByte, hbyte, Bool.and_eq_true, decide_eq_true_eq]
    exact hdigit
  · rw [hbyte, Char.ofNat_toNat]

theorem isDigit_of_mem_numeralChars {n : Nat} {c : Char} (h : c ∈ Text.numeralChars n) :
    c.isDigit = true :=
  Nat.isDigit_of_mem_toDigits (by decide) (by decide) h

theorem encode_numeralChars (n : Nat) :
    encode (Text.numeralChars n) = (Text.numeralChars n).map fun c => UInt8.ofNat c.toNat :=
  encode_of_forall_lt fun _ hc => (isDigitByte_of_isDigit (isDigit_of_mem_numeralChars hc)).2.2

/-- A number that is not zero does not begin with a zero. -/
theorem head?_numeralChars {n : Nat} (h : 0 < n) :
    ∀ c ∈ (Text.numeralChars n).head?, c ≠ '0' := by
  induction n using Nat.strongRecOn with
  | ind n ih =>
      rw [Text.numeralChars, Nat.toDigits_eq_if (by decide)]
      split
      · next hlt =>
          intro c hc
          cases hc
          rw [ne_eq, Nat.digitChar_eq_zero]
          omega
      · -- the first digit is that of the number without its last one
        have hhead := ih (n / 10) (by omega) (by omega)
        cases hdigits : Text.numeralChars (n / 10) with
        | nil => exact absurd hdigits Nat.toDigits_ne_nil
        | cons c rest =>
            rw [hdigits] at hhead
            rw [Text.numeralChars] at hdigits
            rw [hdigits]
            exact hhead

theorem isDigitByte_of_mem_numeral {n : Nat} {b : UInt8}
    (h : b ∈ encode (Text.numeralChars n)) : isDigitByte b = true := by
  rw [encode_numeralChars] at h
  obtain ⟨c, hc, rfl⟩ := List.mem_map.mp h
  exact (isDigitByte_of_isDigit (isDigit_of_mem_numeralChars hc)).1

/-- **A whole number is written as one.** -/
theorem isWhole_numeral (n : Nat) : IsWhole (encode (Text.numeralChars n)) := by
  rcases Nat.eq_zero_or_pos n with rfl | hn
  · exact .zero
  · cases hchars : Text.numeralChars n with
    | nil => exact absurd hchars Nat.toDigits_ne_nil
    | cons c rest =>
        have hc : c ≠ '0' := head?_numeralChars hn c (by rw [hchars]; rfl)
        have hback := (isDigitByte_of_isDigit (isDigit_of_mem_numeralChars (n := n) (c := c)
          (by rw [hchars]; exact List.mem_cons_self))).2.1
        have hdigits : ∀ b ∈ encode (Text.numeralChars n), isDigitByte b = true :=
          fun b hb => isDigitByte_of_mem_numeral hb
        rw [encode_numeralChars, hchars, List.map_cons] at hdigits
        rw [← hchars, encode_numeralChars, hchars, List.map_cons]
        refine .digits (fun hzero => hc ?_) ⟨List.cons_ne_nil _ _, hdigits⟩
        rw [← hback, hzero]
        rfl

theorem isNumber_numeral (n : Nat) : IsNumber (encode (Text.numeralChars n)) := by
  have h := IsUnsigned.parts (isWhole_numeral n) .missing .missing
  rw [List.append_nil, List.append_nil] at h
  exact .plain h

/-- **A count is read back from the number that is written for it.** -/
@[simp]
theorem word?_ofWord (n : UInt64) : (ofWord n).word? = some n := by
  have hdigits : (encode (Text.numeralChars n.toNat)).all
      (fun b => 48 ≤ b.toNat && b.toNat ≤ 57) = true :=
    List.all_eq_true.mpr fun b hb => isDigitByte_of_mem_numeral hb
  have hchars : (encode (Text.numeralChars n.toNat)).map (fun b => Char.ofNat b.toNat)
      = Text.numeralChars n.toNat := by
    rw [encode_numeralChars, List.map_map, List.map_congr_left (g := id), List.map_id]
    exact fun c hc => (isDigitByte_of_isDigit (isDigit_of_mem_numeralChars hc)).2.1
  have hvalue : Text.digitsFrom 0 (Text.numeralChars n.toNat) = n.toNat :=
    Nat.ofDigitChars_ten_toDigits
  simp only [ofWord, ofNat, word?]
  rw [if_pos hdigits, hchars, hvalue, if_pos n.toNat_lt, UInt64.ofNat_toNat]

/-! ## Documents -/

/-- Every scalar in the document is one that a text can hold. -/
inductive WellFormed : Json → Prop where
  | null : WellFormed .null
  | bool (value : Bool) : WellFormed (.bool value)
  | number {lexeme : List UInt8} (h : IsNumber lexeme) : WellFormed (.number lexeme)
  | string {body : List UInt8} (h : IsBody body) : WellFormed (.string body)
  | array {items : List Json} (h : ∀ item ∈ items, WellFormed item) : WellFormed (.array items)
  | object {members : List (List UInt8 × Json)} (keys : ∀ m ∈ members, IsBody m.1)
    (values : ∀ m ∈ members, WellFormed m.2) : WellFormed (.object members)

theorem wellFormed_ofString (s : String) : WellFormed (ofString s) :=
  .string (isBody_escape _)

theorem wellFormed_ofWord (n : UInt64) : WellFormed (ofWord n) :=
  .number (isNumber_numeral _)

theorem wellFormed_ofMembers {members : List (String × Json)}
    (h : ∀ m ∈ members, WellFormed m.2) : WellFormed (ofMembers members) := by
  refine .object ?_ ?_
  · intro m hm
    obtain ⟨named, -, rfl⟩ := List.mem_map.mp hm
    exact isBody_escape _
  · intro m hm
    obtain ⟨named, hnamed, rfl⟩ := List.mem_map.mp hm
    exact h named hnamed

theorem blanks_nil : Blanks [] := by
  simp [Blanks]

theorem spellsItems_renderItems {items : List Json} (hne : items ≠ [])
    (h : ∀ item ∈ items, Spells item (render item)) : SpellsItems items (renderItems items) := by
  induction items with
  | nil => exact absurd rfl hne
  | cons item rest ih =>
      obtain ⟨hitem, hrest⟩ := List.forall_mem_cons.mp h
      cases rest with
      | nil => exact .last blanks_nil hitem blanks_nil
      | cons next later =>
          exact .more blanks_nil hitem blanks_nil (ih (List.cons_ne_nil _ _) hrest)

theorem spellsMembers_renderMembers {members : List (List UInt8 × Json)} (hne : members ≠ [])
    (keys : ∀ m ∈ members, IsBody m.1) (values : ∀ m ∈ members, Spells m.2 (render m.2)) :
    SpellsMembers members (renderMembers members) := by
  induction members with
  | nil => exact absurd rfl hne
  | cons m rest ih =>
      obtain ⟨hkey, hkeys⟩ := List.forall_mem_cons.mp keys
      obtain ⟨hvalue, hvalues⟩ := List.forall_mem_cons.mp values
      cases rest with
      | nil => exact .last blanks_nil hkey blanks_nil blanks_nil hvalue blanks_nil
      | cons next later =>
          exact .more blanks_nil hkey blanks_nil blanks_nil hvalue blanks_nil
            (ih (List.cons_ne_nil _ _) hkeys hvalues)

/-- **What is printed for a document spells it.** -/
theorem spells_render {value : Json} (h : WellFormed value) : Spells value (render value) := by
  induction h with
  | null => exact .null
  | bool value => exact .bool value
  | number h => exact .number h
  | string h => exact .string h
  | @array items h ih =>
      cases items with
      | nil => exact .noItems blanks_nil
      | cons item rest => exact .items (spellsItems_renderItems (List.cons_ne_nil _ _) ih)
  | @object members keys values ih =>
      cases members with
      | nil => exact .noMembers blanks_nil
      | cons m rest => exact .members (spellsMembers_renderMembers (List.cons_ne_nil _ _) keys ih)

/-- **A document is read back from what is printed for it.** -/
theorem parse?_render {value : Json} (h : WellFormed value) :
    parse? (render value) = some value := by
  have hread := parse?_of_spells blanks_nil (spells_render h) blanks_nil
  rwa [List.nil_append, List.append_nil] at hread

/-! ## Lines -/

/-- There is no control character, so no end of a line either. -/
def OnOneLine (bs : List UInt8) : Prop :=
  ∀ b ∈ bs, 0x20 ≤ b.toNat

@[simp]
theorem onOneLine_nil : OnOneLine [] :=
  List.forall_mem_nil _

@[simp]
theorem onOneLine_cons {b : UInt8} {rest : List UInt8} :
    OnOneLine (b :: rest) ↔ 0x20 ≤ b.toNat ∧ OnOneLine rest :=
  List.forall_mem_cons

@[simp]
theorem onOneLine_append {xs ys : List UInt8} :
    OnOneLine (xs ++ ys) ↔ OnOneLine xs ∧ OnOneLine ys :=
  List.forall_mem_append

theorem le_of_hexValue? {b : UInt8} (h : (hexValue? b).isSome) : 0x20 ≤ b.toNat := by
  by_contra hlow
  simp only [hexValue?] at h
  rw [if_neg (by omega), if_neg (by omega), if_neg (by omega)] at h
  cases h

theorem onOneLine_of_hexUnit? {a b c d : UInt8} (h : (hexUnit? a b c d).isSome) :
    OnOneLine [a, b, c, d] := by
  obtain ⟨n, hn⟩ := Option.isSome_iff_exists.mp h
  simp only [hexUnit?, Option.bind_eq_bind, Option.bind_eq_some_iff] at hn
  obtain ⟨w, hw, x, hx, y, hy, z, hz, -⟩ := hn
  simp only [onOneLine_cons, onOneLine_nil, and_true]
  exact ⟨le_of_hexValue? (hw ▸ rfl), le_of_hexValue? (hx ▸ rfl), le_of_hexValue? (hy ▸ rfl),
    le_of_hexValue? (hz ▸ rfl)⟩

theorem le_of_shortEscape? {e : UInt8} (h : (shortEscape? e).isSome) : 0x20 ≤ e.toNat := by
  by_contra hlow
  have hnone : shortEscape? e = none := by
    rw [shortEscape?.eq_def]
    split <;> first | rfl | omega
  rw [hnone] at h
  cases h

theorem IsBody.onOneLine {body : List UInt8} (h : IsBody body) : OnOneLine body := by
  induction h with
  | nil => exact onOneLine_nil
  | plain h more ih => exact onOneLine_cons.mpr ⟨h.1, ih⟩
  | short h more ih => simp [le_of_shortEscape? h, ih]
  | unit h more ih => simpa [ih] using onOneLine_of_hexUnit? h

theorem IsDigits.onOneLine {ds : List UInt8} (h : IsDigits ds) : OnOneLine ds := by
  intro d hd
  have hdigit := h.2 d hd
  simp only [isDigitByte, Bool.and_eq_true, decide_eq_true_eq] at hdigit
  omega

theorem IsUnsigned.onOneLine {lexeme : List UInt8} (h : IsUnsigned lexeme) : OnOneLine lexeme := by
  obtain ⟨hwhole, hfraction, hexponent⟩ := h
  rw [onOneLine_append, onOneLine_append]
  refine ⟨⟨?_, ?_⟩, ?_⟩
  · cases hwhole with
    | zero => simp
    | digits first h => exact h.onOneLine
  · cases hfraction with
    | missing => simp
    | digits h => simp [h.onOneLine]
  · cases hexponent with
    | missing => simp
    | digits letter hsign h =>
        rcases letter with rfl | rfl <;> cases hsign <;> simp [h.onOneLine]

theorem IsNumber.onOneLine {lexeme : List UInt8} (h : IsNumber lexeme) : OnOneLine lexeme := by
  cases h with
  | plain h => exact h.onOneLine
  | negative h => simp [h.onOneLine]

theorem onOneLine_quoted {body : List UInt8} (h : IsBody body) : OnOneLine (quoted body) := by
  simp [quoted, h.onOneLine]

theorem onOneLine_renderItems {items : List Json} (h : ∀ item ∈ items, OnOneLine (render item)) :
    OnOneLine (renderItems items) := by
  induction items with
  | nil => simp [renderItems]
  | cons item rest ih =>
      obtain ⟨hitem, hrest⟩ := List.forall_mem_cons.mp h
      cases rest with
      | nil => simp [renderItems, hitem]
      | cons next later => simp [renderItems, hitem, ih hrest]

theorem onOneLine_renderMembers {members : List (List UInt8 × Json)}
    (keys : ∀ m ∈ members, IsBody m.1) (values : ∀ m ∈ members, OnOneLine (render m.2)) :
    OnOneLine (renderMembers members) := by
  induction members with
  | nil => simp [renderMembers]
  | cons m rest ih =>
      obtain ⟨hkey, hkeys⟩ := List.forall_mem_cons.mp keys
      obtain ⟨hvalue, hvalues⟩ := List.forall_mem_cons.mp values
      cases rest with
      | nil => simp [renderMembers, onOneLine_quoted hkey, hvalue]
      | cons next later =>
          simp [renderMembers, onOneLine_quoted hkey, hvalue, ih hkeys hvalues]

/-- **A document is printed on one line.** -/
theorem onOneLine_render {value : Json} (h : WellFormed value) : OnOneLine (render value) := by
  induction h with
  | null => simp [render]
  | bool value => cases value <;> simp [render]
  | number h => exact h.onOneLine
  | string h => exact onOneLine_quoted h
  | array h ih => simp [render, onOneLine_renderItems ih]
  | object keys values ih => simp [render, onOneLine_renderMembers keys ih]

/-- An object is printed up to its closing brace. -/
theorem exists_renderMembers (members : List (List UInt8 × Json)) :
    ∃ inner, renderMembers members = inner ++ [0x7D] := by
  induction members with
  | nil => exact ⟨[], rfl⟩
  | cons m rest ih =>
      cases rest with
      | nil => exact ⟨quoted m.1 ++ 0x3A :: render m.2, by simp [renderMembers]⟩
      | cons next later =>
          obtain ⟨inner, hinner⟩ := ih
          exact ⟨quoted m.1 ++ 0x3A :: (render m.2 ++ 0x2C :: inner), by
            simp [renderMembers, hinner]⟩

end ImagePull.Json
