import ImagePull.ImageRef
import ImagePull.Proofs.Outcome
import ImagePull.Proofs.Text.Blank
import ImagePull.Proofs.Text.Utf8

/-!
# The written form of an image reference

A reference is written as its repository with the tag and the digest behind it. What reading takes
apart is what writing joins: the digest stands behind the first `@` (`splitDigest_eq_ok`), the tag
behind a colon that no slash and no other colon follows (`splitTag_eq_some`), and a registry is
divided from its name and joined to it again (`splitRegistry_joined`). So a reference that was read
is read back from its written form (`parse_text`).
-/

namespace ImagePull.ImageRef

variable {chars rest repository name : List Char} {registry tag digest : Option (List Char)}

/-- A part with its mark in front, if there is one. -/
def behind (mark : Char) : Option (List Char) → List Char
  | none => []
  | some part => mark :: part

/-! ## Taking apart -/

theorem cutFirst?_behind {mark : Char} (h : mark ∉ rest) (part : Option (List Char)) :
    Text.cutFirst? mark (rest ++ behind mark part) = part.map (rest, ·) := by
  cases part with
  | none =>
      rw [behind, List.append_nil]
      exact Text.cutFirst?_eq_none.mpr h
  | some part => exact Text.cutFirst?_eq_some.mpr ⟨rfl, h⟩

/-- **The digest** stands behind the first `@`. -/
theorem splitDigest_eq_ok :
    splitDigest chars = .ok (rest, digest)
      ↔ chars = rest ++ behind '@' digest ∧ '@' ∉ rest ∧ digest ≠ some [] := by
  constructor
  · intro h
    rw [splitDigest] at h
    cases hcut : Text.cutFirst? '@' chars with
    | none =>
        simp only [hcut] at h
        cases h
        exact ⟨(List.append_nil _).symm, Text.cutFirst?_eq_none.mp hcut, nofun⟩
    | some parts =>
        simp only [hcut] at h
        split at h
        · cases h
        · next hne =>
            cases h
            obtain ⟨htext, hbefore⟩ := Text.cutFirst?_eq_some.mp hcut
            exact ⟨htext, hbefore, fun hempty => hne (Option.some.inj hempty)⟩
  · rintro ⟨rfl, hrest, hne⟩
    rw [splitDigest, cutFirst?_behind hrest]
    cases digest with
    | none => rw [behind, List.append_nil]; rfl
    | some d => exact if_neg fun hempty => hne (congrArg some hempty)

/-- **The tag** stands behind the last colon, if no slash follows that. -/
theorem splitTag_eq_some {t : List Char} :
    splitTag chars = (rest, some t) ↔ chars = rest ++ ':' :: t ∧ ':' ∉ t ∧ '/' ∉ t := by
  constructor
  · intro h
    rw [splitTag] at h
    cases hcut : Text.cutLast? ':' chars with
    | none => simp [hcut] at h
    | some parts =>
        simp only [hcut] at h
        split at h
        · cases h
        · next hslash =>
            cases h
            obtain ⟨htext, hcolon⟩ := Text.cutLast?_eq_some.mp hcut
            exact ⟨htext, hcolon, by simpa using hslash⟩
  · rintro ⟨htext, hcolon, hslash⟩
    rw [splitTag, Text.cutLast?_eq_some.mpr ⟨htext, hcolon⟩]
    exact if_neg (by simpa using hslash)

/-- Without a tag nothing is taken off. -/
theorem eq_of_splitTag_eq_none (h : splitTag chars = (rest, none)) : chars = rest := by
  rw [splitTag] at h
  split at h
  · exact (Prod.mk.inj h).1
  · split at h
    · exact (Prod.mk.inj h).1
    · cases h

/-- The parts before and behind a tag, put together, are the text. -/
theorem splitTag_joined (h : splitTag chars = (rest, tag)) : chars = rest ++ behind ':' tag := by
  cases tag with
  | none => rw [eq_of_splitTag_eq_none h, behind, List.append_nil]
  | some t => exact (splitTag_eq_some.mp h).1

/-- **A registry and its name**, joined by a slash, are what they were divided from. -/
theorem splitRegistry_joined (h : splitRegistry chars = .ok (registry, name)) :
    chars = (registry.map (· ++ ['/'])).getD [] ++ name := by
  rw [splitRegistry] at h
  cases hcut : Text.cutFirst? '/' chars with
  | none =>
      simp only [hcut] at h
      cases h
      rfl
  | some parts =>
      simp only [hcut] at h
      split at h
      · cases h
      · split at h
        · cases h
          simpa using (Text.cutFirst?_eq_some.mp hcut).1
        · cases h
          rfl

/-- The tag that is meant: without tag and digest it is `latest`. -/
def impliedTag (tag digest : Option (List Char)) : Option (List Char) :=
  if tag = none ∧ digest = none then some "latest".toList else tag

/-- What a text holds that is read as a reference. -/
structure Holds (chars : List Char) (r : ImageRef) (repository : List Char)
    (tag digest : Option (List Char)) : Prop where
  allowed : ∀ c ∈ chars, isAllowed c = true
  divided : splitDigest chars = .ok (repository ++ behind ':' tag, digest)
  tagged : splitTag (repository ++ behind ':' tag) = (repository, tag)
  named : repository ≠ []
  filled : tag ≠ some []
  registry : splitRegistry repository = .ok (r.registry.map String.toList, r.name.toList)
  tag_eq : r.tag = (impliedTag tag digest).map String.ofList
  digest_eq : r.digest = digest.map String.ofList

theorem map_toList_ofList (part : Option (List Char)) :
    (part.map String.ofList).map String.toList = part := by
  cases part with
  | none => rfl
  | some cs => exact congrArg some String.toList_ofList

theorem map_ofList_toList (part : Option String) :
    (part.map String.toList).map String.ofList = part := by
  cases part with
  | none => rfl
  | some s => exact congrArg some String.ofList_toList

theorem find?_not_allowed_eq_none :
    chars.find? (fun c => !isAllowed c) = none ↔ ∀ c ∈ chars, isAllowed c = true := by
  simp [List.find?_eq_none]

/-- **A text is read as a reference** exactly when it holds the parts of one. -/
theorem ofChars_eq_ok {r : ImageRef} :
    ofChars chars = .ok r ↔ ∃ repository tag digest, Holds chars r repository tag digest := by
  constructor
  · intro h
    rw [ofChars] at h
    split at h
    · cases h
    split at h
    · cases h
    next hallowed =>
    obtain ⟨⟨rest, digest⟩, hdigest, h⟩ := bind_eq_ok.mp h
    cases htag : splitTag rest with
    | mk repository tag =>
        simp only [htag] at h
        split at h
        · cases h
        · next hparts =>
            obtain ⟨⟨registry, name⟩, hregistry, h⟩ := bind_eq_ok.mp h
            cases h
            rw [not_or] at hparts
            have hjoined := splitTag_joined htag
            exact ⟨repository, tag, digest, {
              allowed := find?_not_allowed_eq_none.mp hallowed
              divided := hjoined ▸ hdigest
              tagged := hjoined ▸ htag
              named := hparts.1
              filled := hparts.2
              registry := by rw [map_toList_ofList, String.toList_ofList]; exact hregistry
              tag_eq := rfl
              digest_eq := rfl }⟩
  · rintro ⟨repository, tag, digest, h⟩
    have hne : chars ≠ [] := by
      rintro rfl
      obtain ⟨htext, -⟩ := splitDigest_eq_ok.mp h.divided
      simp [h.named] at htext
    have hparts : ¬(repository = [] ∨ tag = some []) := not_or.mpr ⟨h.named, h.filled⟩
    rw [ofChars, if_neg hne, find?_not_allowed_eq_none.mpr h.allowed]
    refine bind_eq_ok.mpr ⟨_, h.divided, ?_⟩
    simp only [h.tagged, if_neg hparts]
    refine bind_eq_ok.mpr ⟨_, h.registry, ?_⟩
    show Except.ok (ImageRef.mk ((r.registry.map String.toList).map String.ofList)
      (String.ofList r.name.toList) ((impliedTag tag digest).map String.ofList)
      (digest.map String.ofList)) = .ok r
    rw [← h.tag_eq, ← h.digest_eq, map_ofList_toList, String.ofList_toList]

/-! ## Putting together -/

variable {r : ImageRef}

theorem toList_repository : r.repository.toList
    = ((r.registry.map String.toList).map (· ++ ['/'])).getD [] ++ r.name.toList := by
  rw [repository]
  cases r.registry <;> simp

/-- The written form has the tag and the digest behind the repository. -/
theorem toList_text (r : ImageRef) : r.text.toList
    = r.repository.toList ++ behind ':' (r.tag.map String.toList)
        ++ behind '@' (r.digest.map String.toList) := by
  rw [text]
  cases r.tag <;> cases r.digest <;> simp [behind]

theorem impliedTag_idem : impliedTag (impliedTag tag digest) digest = impliedTag tag digest := by
  rw [impliedTag, impliedTag]
  split <;> rfl

/-- Where there was no tag the one that is meant is a tag. -/
theorem splitTag_impliedTag (h : splitTag (repository ++ behind ':' tag) = (repository, tag)) :
    splitTag (repository ++ behind ':' (impliedTag tag digest))
      = (repository, impliedTag tag digest) := by
  rw [impliedTag]
  split
  · exact splitTag_eq_some.mpr ⟨rfl, by decide, by decide⟩
  · exact h

/-- What holds of the characters of the tag and of `latest` holds of those of the tag that is
meant. -/
theorem forall_mem_impliedTag {P : Char → Prop} (htag : ∀ c ∈ behind ':' tag, P c)
    (hlatest : ∀ c ∈ ":latest".toList, P c) :
    ∀ c ∈ behind ':' (impliedTag tag digest), P c := by
  rw [impliedTag]
  split
  · exact hlatest
  · exact htag

/-- **The written form of a reference** that was read holds its parts. -/
theorem Holds.written (h : Holds chars r repository tag digest) :
    Holds r.text.toList r repository (impliedTag tag digest) digest := by
  obtain ⟨hchars, hat, hdigest⟩ := splitDigest_eq_ok.mp h.divided
  have hrepository : r.repository.toList = repository := by
    rw [toList_repository, ← splitRegistry_joined h.registry]
  have htext : r.text.toList
      = repository ++ behind ':' (impliedTag tag digest) ++ behind '@' digest := by
    rw [toList_text, hrepository, h.tag_eq, h.digest_eq, map_toList_ofList, map_toList_ofList]
  have hallowed := h.allowed
  rw [hchars, List.forall_mem_append, List.forall_mem_append] at hallowed
  obtain ⟨⟨hbefore, htag⟩, hbehind⟩ := hallowed
  rw [List.mem_append, not_or] at hat
  refine {
    allowed := ?_
    divided := splitDigest_eq_ok.mpr ⟨htext, ?_, hdigest⟩
    tagged := splitTag_impliedTag h.tagged
    named := h.named
    filled := fun hempty => ?_
    registry := h.registry
    tag_eq := by rw [impliedTag_idem]; exact h.tag_eq
    digest_eq := h.digest_eq }
  · rw [htext, List.forall_mem_append, List.forall_mem_append]
    exact ⟨⟨hbefore, forall_mem_impliedTag htag (by simp [isAllowed])⟩, hbehind⟩
  · -- the tag that is meant brings no `@` with it, so the digest is still behind the first one
    rw [List.mem_append, not_or]
    have hne : ∀ c ∈ behind ':' tag, c ≠ '@' := fun c hc heq => hat.2 (heq ▸ hc)
    exact ⟨hat.1, fun hmem => forall_mem_impliedTag hne (by simp) '@' hmem rfl⟩
  · rw [impliedTag] at hempty
    split at hempty
    · cases hempty
    · exact h.filled hempty

/-- A reference that was read has a tag or a digest. -/
theorem Holds.asked (h : Holds chars r repository tag digest) : r.tag ≠ none ∨ r.digest ≠ none := by
  rw [h.tag_eq, h.digest_eq, impliedTag]
  cases tag <;> cases digest <;> simp

/-! ## Blanks -/

theorem isBlank_eq_false_of_isAllowed {c : Char} (h : isAllowed c = true) :
    Text.isBlank c = false := by
  simp only [isAllowed, Bool.or_eq_true, beq_iff_eq] at h
  rcases h with (((((halphanum | rfl) | rfl) | rfl) | rfl) | rfl) | rfl
  · have := Text.toNat_of_isAlphanum halphanum
    exact Text.isBlank_eq_false (by omega) (by omega)
  all_goals rfl

theorem parse_eq_ofChars {s : String} (h : ∀ c ∈ s.toList, isAllowed c = true) :
    parse s = ofChars s.toList := by
  rw [parse, Text.trim_eq_self_of_forall fun c hc => isBlank_eq_false_of_isAllowed (h c hc)]

/-- **The written form of a reference is read as that reference.** -/
theorem parse_written {s : String} (h : parse s = .ok r) : parse r.text = .ok r := by
  obtain ⟨repository, tag, digest, hholds⟩ := ofChars_eq_ok.mp h
  rw [parse_eq_ofChars hholds.written.allowed]
  exact ofChars_eq_ok.mpr ⟨_, _, _, hholds.written⟩

/-- A reference with a tag or a digest asks for the digest, if there is one. -/
theorem exists_pullTag (h : r.tag ≠ none ∨ r.digest ≠ none) :
    ∃ asked, r.pullTag = some asked ∧ ∀ d, r.digest = some d → asked = d := by
  rw [pullTag]
  cases hdigest : r.digest with
  | none =>
      obtain ⟨t, ht⟩ := Option.ne_none_iff_exists'.mp (h.resolve_right (not_not.mpr hdigest))
      exact ⟨t, by rw [ht]; rfl, nofun⟩
  | some d => exact ⟨d, rfl, fun _ hd => Option.some.inj hd⟩

/-- **References survive writing.** The written form of a reference that was read is read as the
same reference, so it is the written form of no other one. The reference has a tag or a digest, a
pull asks for the digest if there is one, and the written form is the repository with the tag and
the digest, as far as they are there, behind it. -/
theorem parse_text {s : String} (h : parse s = .ok r) :
    parse r.text = .ok r
      ∧ (r.tag ≠ none ∨ r.digest ≠ none)
      ∧ (∃ asked, r.pullTag = some asked ∧ ∀ d, r.digest = some d → asked = d)
      ∧ r.text = r.repository ++ r.tag.elim "" (":" ++ ·) ++ r.digest.elim "" ("@" ++ ·)
      ∧ ∀ s' r', parse s' = .ok r' → r'.text = r.text → r' = r := by
  obtain ⟨repository, tag, digest, hholds⟩ := ofChars_eq_ok.mp h
  refine ⟨parse_written h, hholds.asked, exists_pullTag hholds.asked, ?_, fun s' r' h' htext => ?_⟩
  · rw [text]
    cases r.tag <;> cases r.digest <;> rfl
  · have hsame := parse_written h'
    rw [htext, parse_written h] at hsame
    exact (Except.ok.inj hsame).symm

/-- A colon with a slash behind it is no tag, and the first component is no registry. -/
theorem parse_text_colonInName :
    let r : ImageRef := ⟨none, "x/y:z/w", some "latest", none⟩
    parse "\tx/y:z/w " = .ok r ∧ r.text = "x/y:z/w:latest"
      ∧ parse r.text = .ok r
      ∧ (r.tag ≠ none ∨ r.digest ≠ none)
      ∧ (∃ asked, r.pullTag = some asked ∧ ∀ d, r.digest = some d → asked = d)
      ∧ r.text = r.repository ++ r.tag.elim "" (":" ++ ·) ++ r.digest.elim "" ("@" ++ ·)
      ∧ ∀ s' r', parse s' = .ok r' → r'.text = r.text → r' = r := by
  intro r
  have h : parse "\tx/y:z/w " = .ok r := rfl
  exact ⟨h, rfl, parse_text h⟩

end ImagePull.ImageRef
