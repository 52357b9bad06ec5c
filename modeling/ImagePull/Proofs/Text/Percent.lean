import ImagePull.Proofs.Text.Utf8
import ImagePull.Text.Digits
import ImagePull.Text.Url

/-!
# Laws of percent-encoding

The written form of a text holds nothing but unreserved characters and escapes
(`isWritten_encode`), so nothing that divides a query stands in it. It is read as the text it was
written for (`decode?_encode`), so no two texts are written alike.
-/

namespace ImagePull.Text.Percent

/-! ## Reading -/

/-- The bytes that a text stands for. An escape stands for the byte with its number, any other
character for its own bytes; a `%` that begins no escape is refused. -/
def unescape? : List Char → Option (List UInt8)
  | [] => some []
  | '%' :: high :: low :: rest => do
    let x ← digitIn? 16 high
    let y ← digitIn? 16 low
    let bytes ← unescape? rest
    some (UInt8.ofNat (16 * x + y) :: bytes)
  | c :: rest => if c = '%' then none else (unescape? rest).map (Utf8.encodeChar c ++ ·)

/-- The text that is written this way, if it is one. -/
def decode? (cs : List Char) : Option String :=
  (unescape? cs).bind Utf8.text?

/-! ## Characters -/

theorem digitIn?_hexDigit {n : Nat} (h : n < 16) : digitIn? 16 (hexDigit n) = some n := by
  have hall : ∀ n < 16, digitIn? 16 (hexDigit n) = some n := by decide
  exact hall n h

theorem isUnreserved_hexDigit {n : Nat} (h : n < 16) : isUnreserved (hexDigit n) = true := by
  have hall : ∀ n < 16, isUnreserved (hexDigit n) = true := by decide
  exact hall n h

/-- What stands for itself is one byte, and no escape. -/
theorem of_isUnreserved {c : Char} (h : isUnreserved c = true) : c.toNat < 0x80 ∧ c ≠ '%' := by
  have hpercent : c ≠ '%' := by
    rintro rfl
    cases h
  refine ⟨?_, hpercent⟩
  simp only [isUnreserved, Bool.or_eq_true, beq_iff_eq] at h
  rcases h with (((halphanum | rfl) | rfl) | rfl) | rfl
  · have := toNat_of_isAlphanum halphanum
    omega
  all_goals decide

theorem unescape?_plain {c : Char} (h : isUnreserved c = true) (rest : List Char) :
    unescape? (c :: rest) = (unescape? rest).map (UInt8.ofNat c.toNat :: ·) := by
  obtain ⟨hlt, hne⟩ := of_isUnreserved h
  rw [unescape?]
  · rw [if_neg hne, Utf8.encodeChar_of_lt hlt]
    rfl
  · intro high low rest' hc
    exact absurd hc hne

theorem unescape?_escape {high low : Nat} (hhigh : high < 16) (hlow : low < 16)
    (rest : List Char) :
    unescape? ('%' :: hexDigit high :: hexDigit low :: rest)
      = (unescape? rest).map (UInt8.ofNat (16 * high + low) :: ·) := by
  rw [unescape?, digitIn?_hexDigit hhigh, digitIn?_hexDigit hlow]
  cases unescape? rest <;> rfl

/-! ## Written texts -/

/-- A text of unreserved characters and escapes, among which marks may stand for themselves. -/
inductive IsWritten (marks : List Char) : List Char → Prop
  | nil : IsWritten marks []
  | plain {c : Char} {rest : List Char} (h : isUnreserved c = true)
    (more : IsWritten marks rest) : IsWritten marks (c :: rest)
  | escape {high low : Nat} {rest : List Char} (hhigh : high < 16) (hlow : low < 16)
    (more : IsWritten marks rest) :
    IsWritten marks ('%' :: hexDigit high :: hexDigit low :: rest)
  | mark {c : Char} {rest : List Char} (h : c ∈ marks) (more : IsWritten marks rest) :
    IsWritten marks (c :: rest)

variable {marks xs ys : List Char}

theorem IsWritten.append (hx : IsWritten marks xs) (hy : IsWritten marks ys) :
    IsWritten marks (xs ++ ys) := by
  induction hx with
  | nil => exact hy
  | plain h more ih => exact .plain h ih
  | escape hhigh hlow more ih => exact .escape hhigh hlow ih
  | mark h more ih => exact .mark h ih

theorem IsWritten.mono {marks' : List Char} (h : IsWritten marks xs)
    (hsub : ∀ c ∈ marks, c ∈ marks') : IsWritten marks' xs := by
  induction h with
  | nil => exact .nil
  | plain h more ih => exact .plain h ih
  | escape hhigh hlow more ih => exact .escape hhigh hlow ih
  | mark h more ih => exact .mark (hsub _ h) ih

theorem isWritten_of_all (h : ∀ c ∈ xs, isUnreserved c = true ∨ c ∈ marks) :
    IsWritten marks xs := by
  induction xs with
  | nil => exact .nil
  | cons c rest ih =>
      obtain ⟨hc, hrest⟩ := List.forall_mem_cons.mp h
      rcases hc with hc | hc
      · exact .plain hc (ih hrest)
      · exact .mark hc (ih hrest)

/-- Only unreserved characters and the `%` of escapes stand in a text without marks. -/
theorem IsWritten.isUnreserved_of_mem (h : IsWritten [] xs) {c : Char} (hc : c ∈ xs) :
    isUnreserved c = true ∨ c = '%' := by
  induction h with
  | nil => cases hc
  | plain h more ih =>
      rcases List.mem_cons.mp hc with rfl | hc
      · exact .inl h
      · exact ih hc
  | escape hhigh hlow more ih =>
      simp only [List.mem_cons] at hc
      rcases hc with rfl | rfl | rfl | hc
      · exact .inr rfl
      · exact .inl (isUnreserved_hexDigit hhigh)
      · exact .inl (isUnreserved_hexDigit hlow)
      · exact ih hc
  | mark h more ih => cases h

/-! ## Writing and reading -/

theorem toNat_ofNat_byte (b : UInt8) : (Char.ofNat b.toNat).toNat = b.toNat := by
  have hlt := b.toNat_lt
  exact Utf8.toNat_ofNat (by omega)

/-- A byte is written as an unreserved character or as an escape. -/
theorem isWritten_encodeByte (b : UInt8) : IsWritten [] (encodeByte b) := by
  have hlt := b.toNat_lt
  rw [encodeByte]
  split
  · next h => exact .plain h .nil
  · exact .escape (by omega) (by omega) .nil

theorem isWritten_encode (s : String) : IsWritten [] (encode s).toList := by
  rw [encode, String.toList_ofList]
  induction Utf8.bytes s with
  | nil => exact .nil
  | cons b rest ih =>
      rw [List.flatMap_cons]
      exact (isWritten_encodeByte b).append ih

theorem unescape?_encodeByte (b : UInt8) (rest : List Char) :
    unescape? (encodeByte b ++ rest) = (unescape? rest).map (b :: ·) := by
  have hlt := b.toNat_lt
  simp only [encodeByte]
  split
  · next h =>
      rw [List.singleton_append, unescape?_plain h, toNat_ofNat_byte, UInt8.ofNat_toNat]
  · have hdigits : 16 * (b.toNat / 16) + b.toNat % 16 = b.toNat := by omega
    simp only [List.cons_append, List.nil_append]
    rw [unescape?_escape (by omega) (by omega), hdigits, UInt8.ofNat_toNat]

theorem unescape?_encode (bs : List UInt8) : unescape? (bs.flatMap encodeByte) = some bs := by
  induction bs with
  | nil => rfl
  | cons b rest ih =>
      rw [List.flatMap_cons, unescape?_encodeByte, ih]
      rfl

/-- **The written form of a text is read as that text.** -/
theorem decode?_encode (s : String) : decode? (encode s).toList = some s := by
  rw [decode?, encode, String.toList_ofList, unescape?_encode, Option.bind_some]
  exact Utf8.text?_bytes s

end ImagePull.Text.Percent
