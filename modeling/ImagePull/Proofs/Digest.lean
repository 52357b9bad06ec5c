import ImagePull.Digest
import ImagePull.Proofs.Text.Blank
import ImagePull.Proofs.Text.Utf8

/-!
# Laws of digests

A digest is written in one way only: there is no colon in an algorithm, so the written form is cut
where its parts were joined, and read as the digest (`parse_written`). The encoded value is ASCII, so
that it can be cut between any two of its bytes (`bytes_short`).
-/

namespace ImagePull.Digest

/-- The written form of a digest is cut where it was joined. -/
theorem cutFirst?_text (d : Digest) :
    Text.cutFirst? ':' d.text.toList = some (d.algorithm.toList, d.encoded.toList) := by
  refine Text.cutFirst?_eq_some.mpr ⟨by simp [text], fun hcolon => ?_⟩
  have hclass := List.all_eq_true.mp d.algorithm_word.2 ':' hcolon
  exact absurd hclass (by decide)

/-! ## Characters -/

theorem toNat_of_isAlgorithmChar {c : Char} (h : isAlgorithmChar c = true) :
    0x20 < c.toNat ∧ c.toNat < 0x80 := by
  simp only [isAlgorithmChar, Bool.or_eq_true, beq_iff_eq] at h
  rcases h with ((((hlower | hdigit) | rfl) | rfl) | rfl) | rfl
  · have := Text.toNat_of_isLower hlower
    omega
  · have := Text.toNat_of_isDigit hdigit
    omega
  all_goals decide

theorem toNat_of_isEncodedChar {c : Char} (h : isEncodedChar c = true) :
    0x20 < c.toNat ∧ c.toNat < 0x80 := by
  simp only [isEncodedChar, Bool.or_eq_true, beq_iff_eq] at h
  rcases h with ((halphanum | rfl) | rfl) | rfl
  · have := Text.toNat_of_isAlphanum halphanum
    omega
  all_goals decide

theorem isBlank_eq_false_of_mem_text {d : Digest} {c : Char} (h : c ∈ d.text.toList) :
    Text.isBlank c = false := by
  simp only [text, String.toList_append, List.mem_append] at h
  rcases h with (halgorithm | hcolon) | hencoded
  · obtain ⟨hlow, hhigh⟩ :=
      toNat_of_isAlgorithmChar (List.all_eq_true.mp d.algorithm_word.2 c halgorithm)
    exact Text.isBlank_eq_false hlow hhigh
  · cases List.mem_singleton.mp hcolon
    rfl
  · obtain ⟨hlow, hhigh⟩ :=
      toNat_of_isEncodedChar (List.all_eq_true.mp d.encoded_word.2 c hencoded)
    exact Text.isBlank_eq_false hlow hhigh

/-! ## Reading back -/

/-- **A digest is read back from its written form.** -/
theorem parse_written (d : Digest) : parse d.text = .ok d := by
  have hcut := d.cutFirst?_text
  have hne : d.text.toList ≠ [] := by
    intro hnil
    rw [hnil] at hcut
    cases hcut
  have htrim : Text.trim Text.isBlank d.text.toList = d.text.toList :=
    Text.trim_eq_self_of_forall fun _ => isBlank_eq_false_of_mem_text
  simp only [parse, htrim, if_neg hne, hcut, ofParts, dif_pos d.algorithm_word,
    dif_pos d.encoded_word, String.ofList_toList]

theorem text_inj {d e : Digest} : d.text = e.text ↔ d = e := by
  constructor
  · intro h
    have hread := d.parse_written
    rw [h, e.parse_written] at hread
    exact (Except.ok.inj hread).symm
  · intro h
    rw [h]

/-! ## Beginnings of the encoded value -/

theorem toNat_lt_of_mem_encoded {d : Digest} {c : Char} (h : c ∈ d.encoded.toList) :
    c.toNat < 0x80 :=
  (toNat_of_isEncodedChar (List.all_eq_true.mp d.encoded_word.2 c h)).2

theorem bytes_encoded (d : Digest) :
    Text.Utf8.bytes d.encoded = d.encoded.toList.map fun c => UInt8.ofNat c.toNat :=
  Text.Utf8.encode_of_forall_lt fun _ => toNat_lt_of_mem_encoded

theorem length_bytes_encoded (d : Digest) :
    (Text.Utf8.bytes d.encoded).length = d.encoded.length := by
  rw [bytes_encoded, List.length_map, String.length_toList]

/-- **The first bytes of the value are those of its first characters**, however many are taken. -/
theorem bytes_short (d : Digest) (length : Nat) :
    Text.Utf8.bytes (d.short length) = (Text.Utf8.bytes d.encoded).take length := by
  have hshort : ∀ c ∈ d.encoded.toList.take length, c.toNat < 0x80 := by
    intro c hc
    exact toNat_lt_of_mem_encoded (List.mem_of_mem_take hc)
  rw [bytes_encoded, ← List.map_take, Text.Utf8.bytes, short, String.toList_ofList]
  exact Text.Utf8.encode_of_forall_lt hshort

/-! ## The usual algorithm -/

theorem isWord_sha256 : IsWord isAlgorithmChar "sha256".toList := by
  decide

/-- The digest with this value under the usual algorithm. -/
def sha256 (encoded : String) (h : IsWord isEncodedChar encoded.toList) : Digest :=
  ⟨"sha256", encoded, isWord_sha256, h⟩

end ImagePull.Digest
