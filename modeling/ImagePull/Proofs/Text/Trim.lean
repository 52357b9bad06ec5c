import ImagePull.Text.Trim
import Mathlib.Data.List.DropRight

/-!
# Laws of trimming and cutting

What trimming leaves stands between blanks (`exists_trim`) and begins and ends with none. So two
notions of a blank, one wider than the other, trim a sequence alike unless the narrower one leaves
an end that only the wider one takes off (`exists_end_of_trim_ne`). Trimming a coded sequence is
the same before and after the coding, if the code of every symbol is blank as a whole or nowhere
(`trim_flatMap`). A sequence is cut at the first separator in it (`cutFirst?_eq_some`). Copies of a
beginning are taken off one by one (`dropStarts_append`).
-/

namespace ImagePull.Text

variable {α β : Type}

/-! ## What is taken off -/

theorem exists_trim (blank : α → Bool) (xs : List α) :
    ∃ before after, xs = before ++ trim blank xs ++ after
      ∧ (∀ x ∈ before, blank x = true) ∧ ∀ x ∈ after, blank x = true := by
  refine ⟨xs.takeWhile blank, (xs.dropWhile blank).rtakeWhile blank, ?_, ?_, ?_⟩
  · show xs = xs.takeWhile blank ++ (xs.dropWhile blank).rdropWhile blank ++ _
    rw [List.append_assoc, List.rdropWhile_append_rtakeWhile, List.takeWhile_append_dropWhile]
  · exact fun x hx => List.mem_takeWhile_imp hx
  · exact fun x hx => List.mem_rtakeWhile_imp hx

theorem trimEnd_append {blank : α → Bool} {after : List α} (h : ∀ x ∈ after, blank x = true)
    (xs : List α) : trimEnd blank (xs ++ after) = trimEnd blank xs := by
  have hreverse : ∀ x ∈ after.reverse, blank x = true := fun x hx => h x (List.mem_reverse.mp hx)
  rw [trimEnd, List.reverse_append, List.dropWhile_append_of_pos hreverse, trimEnd]

/-- Blanks around a sequence do not matter to what trimming leaves of it. -/
theorem trim_append_append {blank : α → Bool} {before after : List α}
    (hbefore : ∀ x ∈ before, blank x = true) (hafter : ∀ x ∈ after, blank x = true)
    (xs : List α) : trim blank (before ++ xs ++ after) = trim blank xs := by
  have hnothing : after.dropWhile blank = [] := List.dropWhile_eq_nil_iff.mpr hafter
  rw [trim, List.append_assoc, List.dropWhile_append_of_pos hbefore, List.dropWhile_append, trim]
  split
  · next hempty => rw [hnothing, List.isEmpty_iff.mp hempty]
  · exact trimEnd_append hafter _

/-! ## The ends of what is left -/

theorem trim_eq_self {blank : α → Bool} {xs : List α}
    (hfirst : ∀ x ∈ xs.head?, blank x = false) (hlast : ∀ x ∈ xs.getLast?, blank x = false) :
    trim blank xs = xs := by
  have hstart : xs.dropWhile blank = xs := by
    cases xs with
    | nil => rfl
    | cons x rest => exact List.dropWhile_cons_of_neg (by simp [hfirst x rfl])
  rw [trim, hstart]
  show xs.rdropWhile blank = xs
  refine List.rdropWhile_eq_self_iff.mpr fun hne => ?_
  simp [hlast _ (List.getLast?_eq_some_getLast hne)]

/-- Where nothing is blank, nothing is trimmed. -/
theorem trim_eq_self_of_forall {blank : α → Bool} {xs : List α}
    (h : ∀ x ∈ xs, blank x = false) : trim blank xs = xs :=
  trim_eq_self (fun x hx => h x (List.mem_of_mem_head? hx))
    (fun x hx => h x (List.mem_of_getLast? hx))

/-- Behind an element that is not blank only what follows is trimmed. -/
theorem trimEnd_append_of_getLast? {blank : α → Bool} {xs : List α}
    (h : ∀ x ∈ xs.getLast?, blank x = false) (ys : List α) :
    trimEnd blank (xs ++ ys) = xs ++ trimEnd blank ys := by
  have hback : xs.reverse.dropWhile blank = xs.reverse := by
    cases hreverse : xs.reverse with
    | nil => rfl
    | cons x rest =>
        have hlast : xs.getLast? = some x := by rw [← List.head?_reverse, hreverse]; rfl
        exact List.dropWhile_cons_of_neg (by simp [h x hlast])
  rw [trimEnd, List.reverse_append, List.dropWhile_append, trimEnd]
  split
  · next hempty =>
      rw [hback, List.isEmpty_iff.mp hempty]
      simp
  · simp

theorem trim_append_of_forall {blank : α → Bool} {xs : List α} (hne : xs ≠ [])
    (h : ∀ x ∈ xs, blank x = false) (ys : List α) :
    trim blank (xs ++ ys) = xs ++ trimEnd blank ys := by
  have hstart : (xs ++ ys).dropWhile blank = xs ++ ys := by
    cases xs with
    | nil => exact absurd rfl hne
    | cons x rest => exact List.dropWhile_cons_of_neg (by simp [h x List.mem_cons_self])
  rw [trim, hstart]
  exact trimEnd_append_of_getLast? (fun x hx => h x (List.mem_of_getLast? hx)) ys

theorem head?_trim (blank : α → Bool) (xs : List α) :
    ∀ x ∈ (trim blank xs).head?, blank x = false := by
  intro x hx
  have hbegins : trim blank xs <+: xs.dropWhile blank := List.rdropWhile_prefix _ _
  obtain ⟨rest, hrest⟩ := List.head?_eq_some_iff.mp hx
  have hne : trim blank xs ≠ [] := by simp [hrest]
  have hhead := hbegins.head hne
  have hnot := List.head_dropWhile_not blank (hbegins.ne_nil hne)
  simp only [← hhead, hrest, List.head_cons] at hnot
  exact hnot

theorem getLast?_trim (blank : α → Bool) (xs : List α) :
    ∀ x ∈ (trim blank xs).getLast?, blank x = false := by
  intro x hx
  obtain ⟨rest, hrest⟩ := List.getLast?_eq_some_iff.mp hx
  have hne : trim blank xs ≠ [] := by simp [hrest]
  have hnot : ¬blank ((trim blank xs).getLast hne) := List.rdropWhile_last_not _ _ hne
  simp only [hrest, List.getLast_append_singleton, Bool.not_eq_true] at hnot
  exact hnot

/-- **Trimming leaves exactly what has no blank at an end.** -/
theorem trim_eq_self_iff {blank : α → Bool} {xs : List α} :
    trim blank xs = xs
      ↔ (∀ x ∈ xs.head?, blank x = false) ∧ ∀ x ∈ xs.getLast?, blank x = false := by
  refine ⟨fun h => ?_, fun h => trim_eq_self h.1 h.2⟩
  rw [← h]
  exact ⟨head?_trim blank xs, getLast?_trim blank xs⟩

/-- **Where two notions of a blank trim differently**, the wider one takes off an end that the
narrower one leaves. -/
theorem exists_end_of_trim_ne {narrow wide : α → Bool} {xs : List α}
    (himp : ∀ x, narrow x = true → wide x = true) (h : trim wide xs ≠ trim narrow xs) :
    ∃ x, (x ∈ (trim narrow xs).head? ∨ x ∈ (trim narrow xs).getLast?)
      ∧ wide x = true ∧ narrow x = false := by
  obtain ⟨before, after, hxs, hbefore, hafter⟩ := exists_trim narrow xs
  have hsame : trim wide xs = trim wide (trim narrow xs) := by
    conv_lhs => rw [hxs]
    exact trim_append_append (fun x hx => himp x (hbefore x hx))
      (fun x hx => himp x (hafter x hx)) _
  by_contra hnone
  apply h
  rw [hsame]
  refine trim_eq_self (fun x hx => ?_) fun x hx => ?_
  · by_contra hwide
    exact hnone ⟨x, .inl hx, by simpa using hwide, head?_trim narrow xs x hx⟩
  · by_contra hwide
    exact hnone ⟨x, .inr hx, by simpa using hwide, getLast?_trim narrow xs x hx⟩

/-! ## Codes -/

/-- Every symbol has a code, whose parts are all blank, or all not blank, as the symbol is. -/
def Keeps (code : α → List β) (blank : α → Bool) (blankPart : β → Bool) : Prop :=
  ∀ x, code x ≠ [] ∧ ∀ b ∈ code x, blankPart b = blank x

theorem Keeps.reverse {code : α → List β} {blank : α → Bool} {blankPart : β → Bool}
    (h : Keeps code blank blankPart) : Keeps (List.reverse ∘ code) blank blankPart :=
  fun x => ⟨by simpa using (h x).1, fun b hb => (h x).2 b (List.mem_reverse.mp hb)⟩

theorem dropWhile_flatMap {code : α → List β} {blank : α → Bool} {blankPart : β → Bool}
    (h : Keeps code blank blankPart) (xs : List α) :
    (xs.flatMap code).dropWhile blankPart = (xs.dropWhile blank).flatMap code := by
  induction xs with
  | nil => rfl
  | cons x rest ih =>
      obtain ⟨hne, hparts⟩ := h x
      rw [List.flatMap_cons]
      cases hx : blank x with
      | true =>
          rw [hx] at hparts
          rw [List.dropWhile_append_of_pos hparts, List.dropWhile_cons_of_pos hx, ih]
      | false =>
          rw [hx] at hparts
          rw [List.dropWhile_cons_of_neg (by simp [hx]), List.flatMap_cons]
          cases hcode : code x with
          | nil => exact absurd hcode hne
          | cons b parts =>
              have hb : blankPart b = false := hparts b (by simp [hcode])
              rw [List.cons_append, List.dropWhile_cons_of_neg (by simp [hb])]

theorem trimEnd_flatMap {code : α → List β} {blank : α → Bool} {blankPart : β → Bool}
    (h : Keeps code blank blankPart) (xs : List α) :
    trimEnd blankPart (xs.flatMap code) = (trimEnd blank xs).flatMap code := by
  rw [trimEnd, List.reverse_flatMap, dropWhile_flatMap h.reverse, List.reverse_flatMap, trimEnd]
  congr 1
  funext x
  exact List.reverse_reverse (code x)

/-- **A coded sequence is trimmed as the sequence is.** -/
theorem trim_flatMap {code : α → List β} {blank : α → Bool} {blankPart : β → Bool}
    (h : Keeps code blank blankPart) (xs : List α) :
    trim blankPart (xs.flatMap code) = (trim blank xs).flatMap code := by
  rw [trim, dropWhile_flatMap h, trimEnd_flatMap h, trim]

/-! ## Cutting -/

/-- **The first separator is where a sequence is cut**: there is none before it. -/
theorem cutFirst?_eq_some [BEq α] [LawfulBEq α] {separator : α} {xs before after : List α} :
    cutFirst? separator xs = some (before, after)
      ↔ xs = before ++ separator :: after ∧ separator ∉ before := by
  induction xs generalizing before with
  | nil => simp [cutFirst?]
  | cons x rest ih =>
      by_cases hx : x = separator
      · subst hx
        cases before with
        | nil => simp [cutFirst?]
        | cons b before =>
            have hcut : cutFirst? x (x :: rest) = some ([], rest) := by simp [cutFirst?]
            rw [hcut]
            constructor
            · intro h
              cases h
            · rintro ⟨h, hnot⟩
              obtain ⟨rfl, _⟩ := List.cons.inj h
              exact absurd List.mem_cons_self hnot
      · have hcut : cutFirst? separator (x :: rest)
            = (cutFirst? separator rest).map fun parts => (x :: parts.1, parts.2) := by
          simp only [cutFirst?, bne_iff_ne, ne_eq, hx, not_false_eq_true,
            List.dropWhile_cons_of_pos, List.takeWhile_cons_of_pos]
          split <;> rfl
        cases before with
        | nil => simp [hcut, hx]
        | cons b before =>
            simp only [hcut, Option.map_eq_some_iff, Prod.exists, Prod.mk.injEq, List.cons.injEq,
              List.cons_append, List.mem_cons, not_or]
            constructor
            · rintro ⟨_, _, h, ⟨rfl, rfl⟩, rfl⟩
              obtain ⟨hrest, hnot⟩ := ih.mp h
              exact ⟨⟨rfl, hrest⟩, Ne.symm hx, hnot⟩
            · rintro ⟨⟨rfl, hrest⟩, _, hnot⟩
              exact ⟨_, _, ih.mpr ⟨hrest, hnot⟩, ⟨rfl, rfl⟩, rfl⟩

theorem cutFirst?_eq_none [BEq α] [LawfulBEq α] {separator : α} {xs : List α} :
    cutFirst? separator xs = none ↔ separator ∉ xs := by
  rw [← Option.not_isSome_iff_eq_none, Option.isSome_iff_exists, not_iff_not]
  constructor
  · rintro ⟨parts, h⟩
    rw [(cutFirst?_eq_some.mp h).1]
    exact List.mem_append_right _ List.mem_cons_self
  · intro h
    obtain ⟨before, after, hxs, hbefore⟩ := List.eq_append_cons_of_mem h
    exact ⟨(before, after), cutFirst?_eq_some.mpr ⟨hxs, hbefore⟩⟩

/-- **The last separator** has none behind it. -/
theorem cutLast?_eq_some [BEq α] [LawfulBEq α] {separator : α} {xs before after : List α} :
    cutLast? separator xs = some (before, after)
      ↔ xs = before ++ separator :: after ∧ separator ∉ after := by
  rw [cutLast?, Option.map_eq_some_iff]
  constructor
  · rintro ⟨⟨back, front⟩, h, hparts⟩
    obtain ⟨hxs, hback⟩ := cutFirst?_eq_some.mp h
    cases hparts
    rw [List.reverse_eq_iff] at hxs
    exact ⟨by simpa using hxs, by simpa using hback⟩
  · rintro ⟨rfl, hafter⟩
    refine ⟨(after.reverse, before.reverse), cutFirst?_eq_some.mpr ⟨by simp, ?_⟩, by simp⟩
    simpa using hafter

/-! ## Beginnings -/

theorem dropStarts_of_none [BEq α] {start xs : List α} (h : afterStart? start xs = none) :
    dropStarts start xs = xs := by
  rw [dropStarts]
  split
  · rfl
  · next rest heq =>
      rw [h] at heq
      cases heq

theorem dropStarts_append [BEq α] [LawfulBEq α] {start : List α} (hne : start ≠ [])
    (xs : List α) : dropStarts start (start ++ xs) = dropStarts start xs := by
  conv_lhs => rw [dropStarts]
  split
  · next heq =>
      rw [afterStart?_append] at heq
      cases heq
  · next rest heq =>
      rw [afterStart?_append] at heq
      cases heq
      rw [dif_neg hne]

end ImagePull.Text
