import ImagePull.Stream.Producer
import Mathlib.Data.List.DropRight

/-!
# The records of a byte stream

What a whole stream holds, said of its bytes at once and without a framer: it is cut at every
newline, blanks are taken off both ends of each piece, and pieces that are blank are left out
(`records`). A stream that breaks off loses its last piece (`recordsBefore`). `next_some` and
`next_none` say that a framer takes off the first record and nothing else, whatever bytes follow
those that it holds.
-/

namespace ImagePull.Stream

/-! ## Cutting a whole stream -/

/-- A piece of a stream without the blanks at its ends. -/
def stripped (piece : List UInt8) : List UInt8 :=
  (piece.dropWhile isLineBlank).rdropWhile isLineBlank

/-- What is left of the pieces of a stream that are not blank. -/
def recordsAmong (pieces : List (List UInt8)) : List (List UInt8) :=
  (pieces.map stripped).filter (· ≠ [])

/-- The records of a stream; no newline has to end the last one. -/
def records (bytes : List UInt8) : List (List UInt8) :=
  recordsAmong (bytes.splitOn newline)

/-- The records of a stream that ends, or that breaks off with a failure. The unfinished piece
of a broken stream is no record. -/
def recordsBefore (failure : Option String) (bytes : List UInt8) : List (List UInt8) :=
  match failure with
  | none => records bytes
  | some _ => recordsAmong (bytes.splitOn newline).dropLast

theorem trim_eq_stripped (line : List UInt8) : Text.trim isLineBlank line = stripped line :=
  rfl

theorem trimmedLine?_toList (line : List UInt8) :
    (trimmedLine? line).toList = recordsAmong [line] := by
  simp only [trimmedLine?, trim_eq_stripped, recordsAmong, List.map_cons, List.map_nil]
  cases h : stripped line with
  | nil => rfl
  | cons b rest => simp

theorem recordsAmong_append (xs ys : List (List UInt8)) :
    recordsAmong (xs ++ ys) = recordsAmong xs ++ recordsAmong ys := by
  simp [recordsAmong]

/-- **A finished piece gives its record**, and the records of what follows come after it. -/
theorem recordsBefore_cut (failure : Option String) {piece : List UInt8}
    (hpiece : newline ∉ piece) (rest : List UInt8) :
    recordsBefore failure (piece ++ newline :: rest)
      = (trimmedLine? piece).toList ++ recordsBefore failure rest := by
  have hsplit : (piece ++ newline :: rest).splitOn newline = piece :: rest.splitOn newline :=
    List.splitOn_append_cons_self_of_not_mem hpiece rest
  rw [trimmedLine?_toList]
  cases failure with
  | none =>
      rw [recordsBefore, recordsBefore, records, records, hsplit, ← recordsAmong_append]
      rfl
  | some reason =>
      have hne : rest.splitOn newline ≠ [] := List.splitOn_ne_nil newline rest
      rw [recordsBefore, recordsBefore, hsplit, List.dropLast_cons_of_ne_nil hne,
        ← recordsAmong_append]
      rfl

theorem records_of_unfinished {piece : List UInt8} (hpiece : newline ∉ piece) :
    records piece = (trimmedLine? piece).toList := by
  rw [records, List.splitOn_eq_singleton hpiece, trimmedLine?_toList]

theorem recordsBefore_failure_of_unfinished (reason : String) {piece : List UInt8}
    (hpiece : newline ∉ piece) : recordsBefore (some reason) piece = [] := by
  rw [recordsBefore, List.splitOn_eq_singleton hpiece]
  rfl

/-! ## Framing -/

/-- The framer's search, from a line that has been begun: the record that it finds is the first
one of the stream. -/
theorem scan_some (failure : Option String) {bytes begun line : List UInt8} {f : Framer}
    (hbegun : newline ∉ begun) (h : Framer.scan begun bytes = (some line, f))
    (more : List UInt8) :
    recordsBefore failure (begun.reverse ++ (bytes ++ more))
      = line :: recordsBefore failure (f.buffer ++ more) := by
  induction bytes generalizing begun with
  | nil => simp [Framer.scan] at h
  | cons b rest ih =>
      have hrev : newline ∉ begun.reverse := by simpa using hbegun
      simp only [Framer.scan] at h
      by_cases hb : b = newline
      · subst hb
        rw [List.cons_append, recordsBefore_cut failure hrev]
        rw [if_pos rfl] at h
        cases hline : trimmedLine? begun.reverse with
        | none =>
            -- the piece is blank and the search goes on behind it
            rw [hline] at h
            simpa using ih (by simp) h
        | some found =>
            rw [hline] at h
            cases h
            rfl
      · rw [if_neg hb] at h
        have := ih (by simpa using ⟨Ne.symm hb, hbegun⟩) h
        simpa using this

/-- The framer's search finds nothing exactly when only blank pieces are finished; it keeps the
unfinished one. -/
theorem scan_none (failure : Option String) {bytes begun : List UInt8} {f : Framer}
    (hbegun : newline ∉ begun) (h : Framer.scan begun bytes = (none, f)) :
    newline ∉ f.buffer ∧ ∀ more : List UInt8,
      recordsBefore failure (begun.reverse ++ (bytes ++ more))
        = recordsBefore failure (f.buffer ++ more) := by
  induction bytes generalizing begun with
  | nil =>
      simp only [Framer.scan, Prod.mk.injEq, true_and] at h
      subst h
      exact ⟨by simpa using hbegun, fun more => by simp⟩
  | cons b rest ih =>
      have hrev : newline ∉ begun.reverse := by simpa using hbegun
      simp only [Framer.scan] at h
      by_cases hb : b = newline
      · subst hb
        rw [if_pos rfl] at h
        cases hline : trimmedLine? begun.reverse with
        | none =>
            rw [hline] at h
            obtain ⟨hf, hmore⟩ := ih (by simp) h
            refine ⟨hf, fun more => ?_⟩
            rw [List.cons_append, recordsBefore_cut failure hrev, hline]
            simpa using hmore more
        | some found => simp [hline] at h
      · rw [if_neg hb] at h
        obtain ⟨hf, hmore⟩ := ih (by simpa using ⟨Ne.symm hb, hbegun⟩) h
        exact ⟨hf, fun more => by simpa using hmore more⟩

/-- **The next line is the first record**, whatever follows the bytes held. -/
theorem Framer.next_some (failure : Option String) {f f' : Framer} {line : List UInt8}
    (h : f.next = (some line, f')) (more : List UInt8) :
    recordsBefore failure (f.buffer ++ more)
      = line :: recordsBefore failure (f'.buffer ++ more) := by
  simpa using scan_some failure (by simp) h more

/-- **Without a next line no record is finished**, and only blank pieces are lost. -/
theorem Framer.next_none (failure : Option String) {f f' : Framer}
    (h : f.next = (none, f')) :
    newline ∉ f'.buffer ∧ ∀ more : List UInt8,
      recordsBefore failure (f.buffer ++ more) = recordsBefore failure (f'.buffer ++ more) := by
  simpa using scan_none failure (by simp) h

/-- The search never adds bytes, and a line that it finds uses up one byte at least. -/
theorem scan_length {begun bytes : List UInt8} {found : Option (List UInt8)} {f : Framer}
    (h : Framer.scan begun bytes = (found, f)) :
    f.buffer.length + found.toList.length ≤ begun.length + bytes.length := by
  induction bytes generalizing begun with
  | nil =>
      simp only [Framer.scan, Prod.mk.injEq] at h
      obtain ⟨rfl, rfl⟩ := h
      simp
  | cons b rest ih =>
      simp only [Framer.scan] at h
      simp only [List.length_cons]
      by_cases hb : b = newline
      · rw [if_pos hb] at h
        cases hline : trimmedLine? begun.reverse with
        | none =>
            have := ih (by rwa [hline] at h)
            simp only [List.length_nil] at this
            omega
        | some line =>
            rw [hline] at h
            cases h
            simp only [Option.toList_some, List.length_singleton]
            omega
      · rw [if_neg hb] at h
        have := ih h
        simp only [List.length_cons] at this
        omega

theorem Framer.next_length {f f' : Framer} {found : Option (List UInt8)}
    (h : f.next = (found, f')) :
    f'.buffer.length + found.toList.length ≤ f.buffer.length := by
  simpa using scan_length h

end ImagePull.Stream
