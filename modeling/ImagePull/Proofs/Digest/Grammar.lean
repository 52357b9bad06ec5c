import ImagePull.Manifest
import ImagePull.Proofs.Digest
import ImagePull.Proofs.Json.Built

/-!
# The grammar of digests

Which texts are digests, said by the alphabets of the two parts (`IsOver`), and what is wrong with
any other text (`Refused`). A text is read as a digest exactly if it is the written form of that
digest with blanks around it (`parse_eq_ok`), and every other text is refused for the first reason
there is (`parse_eq_error`). A string of a document is read as the text that it holds
(`ofText?_ofString`).
-/

namespace ImagePull.Digest

open Text (IsStripped isStripped_iff)
open Text.Utf8 (bytes)

variable {s t algorithm encoded : String} {d : Digest} {e : DigestError}

/-! ## Alphabets -/

/-- What an algorithm is written with. -/
def algorithmAlphabet : List Char :=
  "abcdefghijklmnopqrstuvwxyz0123456789+._-".toList

/-- What an encoded value is written with. -/
def encodedAlphabet : List Char :=
  "ABCDEFGHIJKLMNOPQRSTUVWXYZabcdefghijklmnopqrstuvwxyz0123456789=_-".toList

/-- A word with one letter or more, all of them of the alphabet. -/
def IsOver (alphabet : List Char) (word : String) : Prop :=
  word ≠ "" ∧ ∀ c ∈ word.toList, c ∈ alphabet

/-- A class of the first 128 characters is an alphabet if each of these is in both or in none. -/
theorem isClass_iff_mem {inClass : Char → Bool} {alphabet : List Char}
    (hlow : ∀ c, inClass c = true → c.toNat < 0x80)
    (hmem : ∀ n < 0x80, inClass (Char.ofNat n) = true → Char.ofNat n ∈ alphabet)
    (hclass : alphabet.all inClass = true) (c : Char) :
    inClass c = true ↔ c ∈ alphabet := by
  constructor
  · intro h
    have hc := hmem c.toNat (hlow c h)
    rw [Char.ofNat_toNat] at hc
    exact hc h
  · exact List.all_eq_true.mp hclass c

theorem isAlgorithmChar_iff (c : Char) : isAlgorithmChar c = true ↔ c ∈ algorithmAlphabet :=
  isClass_iff_mem (fun _ h => (toNat_of_isAlgorithmChar h).2) (by decide +kernel)
    (by decide +kernel) c

theorem isEncodedChar_iff (c : Char) : isEncodedChar c = true ↔ c ∈ encodedAlphabet :=
  isClass_iff_mem (fun _ h => (toNat_of_isEncodedChar h).2) (by decide +kernel)
    (by decide +kernel) c

theorem isWord_iff {inClass : Char → Bool} {alphabet : List Char}
    (h : ∀ c, inClass c = true ↔ c ∈ alphabet) (word : String) :
    IsWord inClass word.toList ↔ IsOver alphabet word := by
  rw [IsWord, IsOver, List.all_eq_true, ne_eq, ne_eq, String.toList_eq_nil_iff]
  simp only [h]

theorem isWord_algorithm_iff (word : String) :
    IsWord isAlgorithmChar word.toList ↔ IsOver algorithmAlphabet word :=
  isWord_iff isAlgorithmChar_iff word

theorem isWord_encoded_iff (word : String) :
    IsWord isEncodedChar word.toList ↔ IsOver encodedAlphabet word :=
  isWord_iff isEncodedChar_iff word

/-- No algorithm is cut in two. -/
theorem colon_notMem_of_isOver (h : IsOver algorithmAlphabet algorithm) :
    ':' ∉ algorithm.toList := by
  intro hmem
  exact absurd (h.2 ':' hmem) (by decide)

/-! ## Two parts -/

theorem ofParts_eq_ok {a b : List Char} :
    ofParts a b = .ok d ↔ a = d.algorithm.toList ∧ b = d.encoded.toList := by
  constructor
  · intro h
    rw [ofParts] at h
    split at h
    · split at h
      · cases h
        exact ⟨String.toList_ofList.symm, String.toList_ofList.symm⟩
      · cases h
    · cases h
  · rintro ⟨rfl, rfl⟩
    simp only [ofParts, dif_pos d.algorithm_word, dif_pos d.encoded_word, String.ofList_toList]

theorem ofParts_eq_error :
    ofParts algorithm.toList encoded.toList = .error e
      ↔ ¬IsOver algorithmAlphabet algorithm ∧ e = .invalidAlgorithm algorithm
        ∨ IsOver algorithmAlphabet algorithm ∧ ¬IsOver encodedAlphabet encoded
          ∧ e = .invalidEncoded encoded := by
  rw [← isWord_algorithm_iff, ← isWord_encoded_iff, ofParts]
  split
  · next ha =>
      split
      · next hb => simp [ha, hb]
      · next hb => simp [ha, hb, eq_comm]
  · next ha => simp [ha, eq_comm]

/-! ## Texts without blanks around them -/

/-- Why a text is no digest: the first of the reasons that there are. -/
inductive Refused : String → DigestError → Prop where
  | empty : Refused "" .empty
  | missingAlgorithm {t : String} (filled : t ≠ "") (undivided : ':' ∉ t.toList) :
    Refused t (.missingAlgorithm t)
  | invalidAlgorithm {algorithm encoded : String} (first : ':' ∉ algorithm.toList)
    (invalid : ¬IsOver algorithmAlphabet algorithm) :
    Refused (algorithm ++ ":" ++ encoded) (.invalidAlgorithm algorithm)
  | invalidEncoded {algorithm encoded : String} (valid : IsOver algorithmAlphabet algorithm)
    (invalid : ¬IsOver encodedAlphabet encoded) :
    Refused (algorithm ++ ":" ++ encoded) (.invalidEncoded encoded)

theorem toList_of_isStripped (h : IsStripped s t) :
    Text.trim Text.isBlank s.toList = t.toList := by
  rw [← isStripped_iff.mp h, Text.trimmed, String.toList_ofList]

theorem parse_of_empty (h : IsStripped s "") : parse s = .error .empty := by
  rw [parse, toList_of_isStripped h]
  rfl

theorem parse_of_undivided (h : IsStripped s t) (hne : t ≠ "") (hcolon : ':' ∉ t.toList) :
    parse s = .error (.missingAlgorithm t) := by
  have hfilled : t.toList ≠ [] := fun hnil => hne (String.toList_eq_nil_iff.mp hnil)
  simp only [parse, toList_of_isStripped h, if_neg hfilled, Text.cutFirst?_eq_none.mpr hcolon,
    String.ofList_toList]

theorem parse_of_divided (h : IsStripped s (algorithm ++ ":" ++ encoded))
    (hcolon : ':' ∉ algorithm.toList) :
    parse s = ofParts algorithm.toList encoded.toList := by
  have htrim : Text.trim Text.isBlank s.toList = algorithm.toList ++ ':' :: encoded.toList := by
    rw [toList_of_isStripped h]
    simp
  have hcut : Text.cutFirst? ':' (algorithm.toList ++ ':' :: encoded.toList)
      = some (algorithm.toList, encoded.toList) := Text.cutFirst?_eq_some.mpr ⟨rfl, hcolon⟩
  simp only [parse, htrim, hcut]
  exact if_neg (List.append_ne_nil_of_right_ne_nil _ (List.cons_ne_nil _ _))

/-- A text is empty, or has no colon, or is cut in two parts at the first one. -/
theorem empty_or_undivided_or_divided (t : String) :
    t = "" ∨ t ≠ "" ∧ ':' ∉ t.toList
      ∨ ∃ algorithm encoded, t = algorithm ++ ":" ++ encoded ∧ ':' ∉ algorithm.toList := by
  by_cases hempty : t = ""
  · exact .inl hempty
  · cases hcut : Text.cutFirst? ':' t.toList with
    | none => exact .inr (.inl ⟨hempty, Text.cutFirst?_eq_none.mp hcut⟩)
    | some parts =>
        obtain ⟨htext, hfirst⟩ := Text.cutFirst?_eq_some.mp hcut
        refine .inr (.inr ⟨String.ofList parts.1, String.ofList parts.2, ?_, ?_⟩)
        · rw [← String.toList_inj]
          simpa using htext
        · rwa [String.toList_ofList]

/-- All that reading a text can come to. -/
theorem ok_or_refused (h : IsStripped s t) :
    (∃ d, parse s = .ok d ∧ t = d.text) ∨ ∃ e, parse s = .error e ∧ Refused t e := by
  rcases empty_or_undivided_or_divided t with
    rfl | ⟨hne, hcolon⟩ | ⟨algorithm, encoded, rfl, hcolon⟩
  · exact .inr ⟨_, parse_of_empty h, .empty⟩
  · exact .inr ⟨_, parse_of_undivided h hne hcolon, .missingAlgorithm hne hcolon⟩
  · have hparse := parse_of_divided h hcolon
    cases hparts : ofParts algorithm.toList encoded.toList with
    | ok d =>
        obtain ⟨ha, hb⟩ := ofParts_eq_ok.mp hparts
        refine .inl ⟨d, hparse.trans hparts, ?_⟩
        rw [String.toList_inj.mp ha, String.toList_inj.mp hb, text]
    | error e =>
        refine .inr ⟨e, hparse.trans hparts, ?_⟩
        rcases ofParts_eq_error.mp hparts with ⟨hinvalid, rfl⟩ | ⟨hvalid, hinvalid, rfl⟩
        · exact .invalidAlgorithm hcolon hinvalid
        · exact .invalidEncoded hvalid hinvalid

/-- **A text is read as a digest exactly if it is its written form.** -/
theorem parse_eq_ok (h : IsStripped s t) : parse s = .ok d ↔ t = d.text := by
  constructor
  · intro hd
    rcases ok_or_refused h with ⟨found, hfound, htext⟩ | ⟨e, he, -⟩
    · rw [hd] at hfound
      cases hfound
      exact htext
    · rw [hd] at he
      cases he
  · rintro rfl
    have hcolon : ':' ∉ d.algorithm.toList :=
      colon_notMem_of_isOver ((isWord_algorithm_iff _).mp d.algorithm_word)
    rw [parse_of_divided h hcolon]
    exact ofParts_eq_ok.mpr ⟨rfl, rfl⟩

/-- **Every other text is refused**, for the first reason there is. -/
theorem parse_eq_error (h : IsStripped s t) : parse s = .error e ↔ Refused t e := by
  constructor
  · intro he
    rcases ok_or_refused h with ⟨d, hd, -⟩ | ⟨found, hfound, hrefused⟩
    · rw [he] at hd
      cases hd
    · rw [he] at hfound
      cases hfound
      exact hrefused
  · intro hrefused
    cases hrefused with
    | empty => exact parse_of_empty h
    | missingAlgorithm filled undivided => exact parse_of_undivided h filled undivided
    | invalidAlgorithm first invalid =>
        rw [parse_of_divided h first]
        exact ofParts_eq_error.mpr (.inl ⟨invalid, rfl⟩)
    | invalidEncoded valid invalid =>
        rw [parse_of_divided h (colon_notMem_of_isOver valid)]
        exact ofParts_eq_error.mpr (.inr ⟨valid, invalid, rfl⟩)

/-! ## Strings of a document -/

/-- The digest in a document that is one string. -/
def ofText? (text : List UInt8) : Option Digest :=
  (Json.parse? text).bind ofJson?

theorem ofText?_ofString :
    ofText? (bytes (Json.ofString s).text) = some d ↔ parse s = .ok d := by
  have htext : (Json.ofString s).text? = some s := Json.bodyText?_escape s
  rw [ofText?, (Json.Built.ofString s).parse?_text, Option.bind_some, ofJson?, htext]
  cases hparse : parse s <;> simp [hparse]

/-! ## Reading and writing -/

theorem isStripped_text (d : Digest) : IsStripped d.text d.text :=
  isStripped_iff.mpr <| Text.trimmed_eq_self_iff.mpr
    ⟨fun _ hc => isBlank_eq_false_of_mem_text (List.mem_of_mem_head? hc),
      fun _ hc => isBlank_eq_false_of_mem_text (List.mem_of_getLast? hc)⟩

theorem parse_eq_ok_iff_isStripped : parse s = .ok d ↔ IsStripped s d.text := by
  have hstripped : IsStripped s (Text.trimmed s) := isStripped_iff.mpr rfl
  rw [parse_eq_ok hstripped, isStripped_iff]

/-- The digest with these two parts is read exactly where they stand with a colon between them. -/
theorem exists_parse_eq_ok_iff :
    (∃ d, parse s = .ok d ∧ d.algorithm = algorithm ∧ d.encoded = encoded)
      ↔ IsOver algorithmAlphabet algorithm ∧ IsOver encodedAlphabet encoded
        ∧ IsStripped s (algorithm ++ ":" ++ encoded) := by
  constructor
  · rintro ⟨d, hd, rfl, rfl⟩
    exact ⟨(isWord_algorithm_iff _).mp d.algorithm_word, (isWord_encoded_iff _).mp d.encoded_word,
      parse_eq_ok_iff_isStripped.mp hd⟩
  · rintro ⟨halgorithm, hencoded, hstripped⟩
    refine ⟨⟨algorithm, encoded, (isWord_algorithm_iff _).mpr halgorithm,
      (isWord_encoded_iff _).mpr hencoded⟩, ?_, rfl, rfl⟩
    exact parse_eq_ok_iff_isStripped.mpr hstripped

/-- **Digests are exactly the words of their grammar.** A text is a digest if, without the blanks
around it, it is an algorithm and an encoded value with a colon between them, and these are then the
parts of the digest. So it is read as a digest, by itself or from the string of a document, exactly
if it is the written form with blanks around it, and the written form is read back both ways. Any
other text is refused for the first reason there is. -/
theorem parse_by_grammar (s : String) :
    (∀ algorithm encoded, (∃ d, parse s = .ok d ∧ d.algorithm = algorithm ∧ d.encoded = encoded)
        ↔ IsOver algorithmAlphabet algorithm ∧ IsOver encodedAlphabet encoded
          ∧ IsStripped s (algorithm ++ ":" ++ encoded))
      ∧ (∀ d, parse s = .ok d ↔ IsStripped s d.text)
      ∧ (∀ d, ofText? (bytes (Json.ofString s).text) = some d ↔ IsStripped s d.text)
      ∧ (∀ d, parse d.text = .ok d ∧ ofText? (bytes (Json.ofString d.text).text) = some d)
      ∧ ∀ e, parse s = .error e ↔ ∃ t, IsStripped s t ∧ Refused t e := by
  refine ⟨fun _ _ => exists_parse_eq_ok_iff, fun _ => parse_eq_ok_iff_isStripped, fun d => ?_,
    fun d => ?_, fun e => ?_⟩
  · rw [ofText?_ofString]
    exact parse_eq_ok_iff_isStripped
  · have hread := d.parse_written
    exact ⟨hread, ofText?_ofString.mpr hread⟩
  · constructor
    · intro he
      have hstripped : IsStripped s (Text.trimmed s) := isStripped_iff.mpr rfl
      exact ⟨_, hstripped, (parse_eq_error hstripped).mp he⟩
    · rintro ⟨t, hstripped, hrefused⟩
      exact (parse_eq_error hstripped).mpr hrefused

/-- The first colon divides, so a second one is no letter of an encoded value. -/
example : parse "\u2003sha256:a1:b2\n" = .error (.invalidEncoded "a1:b2") := by decide +kernel

end ImagePull.Digest
