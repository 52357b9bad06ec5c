import ImagePull.Proofs.Json.Members

/-!
# Documents that are built

Writers build documents of texts, counts and truth values, of lists, and of objects in which no name
stands twice (`Built`). The text of such a document is one line that spells the document, no object
in it holds a key twice, and nothing is lost: the bytes of the text are those that are printed
(`Built.bytes_text`) and are read back as the document, so no two documents have one text
(`Built.text_inj`).
-/

namespace ImagePull.Json

open Text.Utf8

/-! ## Keys -/

/-- No object in the document has a key twice, whichever way its keys are escaped. -/
inductive NamesOnce : Json → Prop where
  | null : NamesOnce .null
  | bool (value : Bool) : NamesOnce (.bool value)
  | number (lexeme : List UInt8) : NamesOnce (.number lexeme)
  | string (body : List UInt8) : NamesOnce (.string body)
  | array {items : List Json} (h : ∀ item ∈ items, NamesOnce item) : NamesOnce (.array items)
  | object {members : List (List UInt8 × Json)}
    (once : (members.map fun m => bodyText? m.1).Nodup) (values : ∀ m ∈ members, NamesOnce m.2) :
    NamesOnce (.object members)

/-- The documents that writers build. -/
inductive Built : Json → Prop where
  | null : Built .null
  | bool (value : Bool) : Built (.bool value)
  | ofWord (n : UInt64) : Built (ofWord n)
  | ofString (s : String) : Built (ofString s)
  | array {items : List Json} (h : ∀ item ∈ items, Built item) : Built (.array items)
  | ofMembers {members : List (String × Json)} (once : (members.map Prod.fst).Nodup)
    (values : ∀ m ∈ members, Built m.2) : Built (ofMembers members)

variable {j k : Json}

theorem Built.wellFormed (h : Built j) : WellFormed j := by
  induction h with
  | null => exact .null
  | bool value => exact .bool value
  | ofWord n => exact wellFormed_ofWord n
  | ofString s => exact wellFormed_ofString s
  | array _ ih => exact .array ih
  | ofMembers _ _ ih => exact wellFormed_ofMembers ih

theorem bodyText?_escape (s : String) : bodyText? (escape s.toList) = some s :=
  (spellsChars_escape s.toList).bodyText?

/-- **No object that is built has a key twice.** -/
theorem Built.namesOnce (h : Built j) : NamesOnce j := by
  induction h with
  | null => exact .null
  | bool value => exact .bool value
  | ofWord n => exact .number _
  | ofString s => exact .string _
  | array _ ih => exact .array ih
  | @ofMembers members once _ ih =>
      have hkeys : ((members.map fun m => (escape m.1.toList, m.2)).map fun m => bodyText? m.1)
          = (members.map Prod.fst).map some := by
        rw [List.map_map, List.map_map]
        exact List.map_congr_left fun m _ => bodyText?_escape m.1
      refine .object ?_ ?_
      · rw [hkeys]
        exact List.pairwise_map.mpr (once.imp fun hne heq => hne (Option.some.inj heq))
      · intro m hm
        obtain ⟨named, hnamed, rfl⟩ := List.mem_map.mp hm
        exact ih named hnamed

theorem built_present {slots : List (String × Option Json)} (once : (slots.map Prod.fst).Nodup)
    (h : ∀ slot ∈ slots, ∀ value ∈ slot.2, Built value) : Built (ofMembers (present slots)) :=
  .ofMembers (once.sublist (map_fst_present slots)) fun _ hm => h _ (mem_present.mp hm) _ rfl

/-! ## Characters -/

/-- The bytes are those of characters. -/
def IsEncoded (bs : List UInt8) : Prop :=
  ∃ cs, bs = encode cs

variable {b : UInt8} {bs rest : List UInt8}

theorem isEncoded_nil : IsEncoded [] :=
  ⟨[], rfl⟩

theorem IsEncoded.append (h : IsEncoded bs) (h' : IsEncoded rest) : IsEncoded (bs ++ rest) := by
  obtain ⟨cs, rfl⟩ := h
  obtain ⟨cs', rfl⟩ := h'
  exact ⟨cs ++ cs', (encode_append cs cs').symm⟩

/-- A byte of ASCII is a character. -/
theorem IsEncoded.cons (hb : b.toNat < 0x80) (h : IsEncoded rest) : IsEncoded (b :: rest) := by
  obtain ⟨cs, rfl⟩ := h
  have hchar : (Char.ofNat b.toNat).toNat = b.toNat := toNat_ofNat (by omega)
  refine ⟨Char.ofNat b.toNat :: cs, ?_⟩
  rw [encode_cons, encodeChar_of_lt (by omega), hchar, UInt8.ofNat_toNat, List.singleton_append]

theorem isEncoded_of_all (h : (bs.all fun b => b.toNat < 0x80) = true) : IsEncoded bs := by
  induction bs with
  | nil => exact isEncoded_nil
  | cons b rest ih =>
      rw [List.all_cons, Bool.and_eq_true] at h
      exact (ih h.2).cons (of_decide_eq_true h.1)

theorem hexByte_lt {n : Nat} (h : n < 16) : (hexByte n).toNat < 0x80 := by
  have hall : ∀ n < 16, (hexByte n).toNat < 0x80 := by decide
  exact hall n h

theorem isEncoded_escapeChar (c : Char) : IsEncoded (escapeChar c) := by
  unfold escapeChar
  -- one by one the escapes of one letter
  iterate 7
    split
    · exact isEncoded_of_all (by decide)
  split
  · next hlow =>
      have hhigh : (hexByte (c.toNat / 16)).toNat < 0x80 := hexByte_lt (by omega)
      have hlast : (hexByte (c.toNat % 16)).toNat < 0x80 := hexByte_lt (by omega)
      apply isEncoded_of_all
      simp [hhigh, hlast]
  · exact ⟨[c], (List.append_nil _).symm⟩

theorem isEncoded_escape (cs : List Char) : IsEncoded (escape cs) := by
  induction cs with
  | nil => exact isEncoded_nil
  | cons c rest ih =>
      rw [escape, List.flatMap_cons]
      exact (isEncoded_escapeChar c).append ih

theorem IsEncoded.quoted (h : IsEncoded bs) : IsEncoded (quoted bs) :=
  (h.append (isEncoded_nil.cons (by decide))).cons (by decide)

theorem isEncoded_renderItems {items : List Json} (h : ∀ item ∈ items, IsEncoded (render item)) :
    IsEncoded (renderItems items) := by
  have hend : IsEncoded [0x5D] := isEncoded_nil.cons (by decide)
  induction items with
  | nil => exact hend
  | cons item rest ih =>
      obtain ⟨hitem, hrest⟩ := List.forall_mem_cons.mp h
      cases rest with
      | nil => exact hitem.append hend
      | cons next later => exact hitem.append ((ih hrest).cons (by decide))

theorem isEncoded_renderMembers {members : List (List UInt8 × Json)}
    (keys : ∀ m ∈ members, IsEncoded m.1) (values : ∀ m ∈ members, IsEncoded (render m.2)) :
    IsEncoded (renderMembers members) := by
  have hend : IsEncoded [0x7D] := isEncoded_nil.cons (by decide)
  induction members with
  | nil => exact hend
  | cons m rest ih =>
      obtain ⟨hkey, hkeys⟩ := List.forall_mem_cons.mp keys
      obtain ⟨hvalue, hvalues⟩ := List.forall_mem_cons.mp values
      cases rest with
      | nil => exact hkey.quoted.append ((hvalue.append hend).cons (by decide))
      | cons next later =>
          have hmore := (ih hkeys hvalues).cons (b := 0x2C) (by decide)
          exact hkey.quoted.append ((hvalue.append hmore).cons (by decide))

/-- **What is printed for a document is a text.** -/
theorem Built.isEncoded_render (h : Built j) : IsEncoded (render j) := by
  induction h with
  | null => exact isEncoded_of_all (by decide)
  | bool value => cases value <;> exact isEncoded_of_all (by decide)
  | ofWord n => exact ⟨_, rfl⟩
  | ofString s => exact (isEncoded_escape _).quoted
  | array _ ih => exact (isEncoded_renderItems ih).cons (by decide)
  | ofMembers _ _ ih =>
      refine (isEncoded_renderMembers ?_ ?_).cons (by decide)
      · intro m hm
        obtain ⟨named, -, rfl⟩ := List.mem_map.mp hm
        exact isEncoded_escape _
      · intro m hm
        obtain ⟨named, hnamed, rfl⟩ := List.mem_map.mp hm
        exact ih named hnamed

/-! ## Texts of documents -/

/-- **The bytes of the text are those that are printed.** -/
theorem Built.bytes_text (h : Built j) : bytes j.text = j.render := by
  obtain ⟨cs, hcs⟩ := h.isEncoded_render
  have hbytes : bytes (String.ofList cs) = j.render := by
    rw [hcs, bytes, String.toList_ofList]
  rw [text, ← hbytes, decodeLossy_bytes]

theorem Built.parse?_text (h : Built j) : parse? (bytes j.text) = some j := by
  rw [h.bytes_text]
  exact parse?_render h.wellFormed

/-- **No two documents have one text.** -/
theorem Built.text_inj (h : Built j) (h' : Built k) : j.text = k.text ↔ j = k := by
  constructor
  · intro heq
    have hread := h.parse?_text
    rw [heq, h'.parse?_text] at hread
    exact (Option.some.inj hread).symm
  · intro heq
    rw [heq]

/-! ## Parts of documents -/

theorem ofString_inj {s t : String} : ofString s = ofString t ↔ s = t := by
  constructor
  · intro h
    have hread := (isText_ofString s).text?
    rw [h, (isText_ofString t).text?] at hread
    exact (Option.some.inj hread).symm
  · intro h
    rw [h]

theorem ofWord_inj {m n : UInt64} : ofWord m = ofWord n ↔ m = n := by
  constructor
  · intro h
    have hread := word?_ofWord m
    rw [h, word?_ofWord] at hread
    exact (Option.some.inj hread).symm
  · intro h
    rw [h]

/-- **An object holds its members and nothing else.** -/
theorem ofMembers_inj {members members' : List (String × Json)} :
    ofMembers members = ofMembers members' ↔ members = members' := by
  constructor
  · intro h
    have hread := (spellsNames_escape members).mapM_bodyText?
    have hmembers := Json.object.inj h
    rw [hmembers, (spellsNames_escape members').mapM_bodyText?] at hread
    exact (Option.some.inj hread).symm
  · intro h
    rw [h]

end ImagePull.Json
