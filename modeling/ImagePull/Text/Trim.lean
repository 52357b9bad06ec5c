/-!
# Trimming and cutting sequences

Texts and byte lines are cut in the same three ways: blanks are taken off both
ends, a sequence is divided at its first or last separator, and a sequence is
divided at every separator. The operations are stated once for lists over any
alphabet.
-/

namespace ImagePull.Text

variable {α : Type}

/-- The sequence without the elements of `blank` at its end. -/
def trimEnd (blank : α → Bool) (xs : List α) : List α :=
  (xs.reverse.dropWhile blank).reverse

/-- The sequence without the elements of `blank` at either end. -/
def trim (blank : α → Bool) (xs : List α) : List α :=
  trimEnd blank (xs.dropWhile blank)

/-- The parts before and after the first separator, if there is one. -/
def cutFirst? [BEq α] (separator : α) (xs : List α) : Option (List α × List α) :=
  match xs.dropWhile (· != separator) with
  | [] => none
  | _ :: rest => some (xs.takeWhile (· != separator), rest)

/-- The parts before and after the last separator, if there is one. -/
def cutLast? [BEq α] (separator : α) (xs : List α) : Option (List α × List α) :=
  (cutFirst? separator xs.reverse).map fun parts => (parts.2.reverse, parts.1.reverse)

/-- Every maximal piece without a separator, in order; a sequence with `n`
separators has `n + 1` pieces. -/
def pieces [BEq α] (separator : α) (xs : List α) : List (List α) :=
  xs.foldr
    (fun x found =>
      if x == separator then [] :: found
      else match found with
        | [] => [[x]]
        | piece :: later => (x :: piece) :: later)
    [[]]

/-- The rest of a sequence after a given beginning, if it begins that way. -/
def afterStart? [BEq α] : (start xs : List α) → Option (List α)
  | [], xs => some xs
  | _ :: _, [] => none
  | s :: start, x :: xs => if s == x then afterStart? start xs else none

/-- The text without the first place at which another stands in it. -/
def withoutFirst [BEq α] (part : List α) : List α → List α
  | [] => []
  | x :: xs =>
    match afterStart? part (x :: xs) with
    | some rest => rest
    | none => x :: withoutFirst part xs

theorem afterStart?_length [BEq α] {start xs rest : List α}
    (h : afterStart? start xs = some rest) : rest.length + start.length = xs.length := by
  induction start generalizing xs with
  | nil => simp_all [afterStart?]
  | cons s start ih =>
    cases xs with
    | nil => simp [afterStart?] at h
    | cons x xs =>
      simp only [afterStart?] at h
      split at h
      · have := ih h
        simp only [List.length_cons]
        omega
      · simp at h

/-- The sequence without any number of copies of `start` at its beginning. -/
def dropStarts [BEq α] (start xs : List α) : List α :=
  match h : afterStart? start xs with
  | none => xs
  | some rest =>
    have := afterStart?_length h
    if _ : start = [] then xs else dropStarts start rest
termination_by xs.length
decreasing_by
  have := List.length_pos_iff.mpr ‹¬start = []›
  omega

/-! ## Laws -/

theorem afterStart?_append [BEq α] [LawfulBEq α] (start rest : List α) :
    afterStart? start (start ++ rest) = some rest := by
  induction start with
  | nil => rfl
  | cons s start ih => simp [afterStart?, ih]

theorem afterStart?_eq_some [BEq α] [LawfulBEq α] {start xs rest : List α} :
    afterStart? start xs = some rest ↔ xs = start ++ rest := by
  induction start generalizing xs with
  | nil => simp [afterStart?]
  | cons s start ih =>
    cases xs with
    | nil => simp [afterStart?]
    | cons x xs =>
      by_cases h : s = x
      · subst h; simp [afterStart?, ih]
      · simp [afterStart?, h, Ne.symm h]

end ImagePull.Text
