import ImagePull.Duration.Parser
import ImagePull.Text.Digits

/-!
# Durations read back

A count and the name of a unit are read as so many units (`parse_span`), which make a duration
exactly if they fit 64 bits in the measure of the unit. A text of spans with a blank between every
two of them is read span by span, each of which is added to what the others before it come to
(`Adds.readSpans`). The spans that a duration is written with add up to that duration
(`adds_parts`), so it is read back from its text (`parse_written`), and no two durations are written
alike (`text_inj`).
-/

namespace ImagePull.Duration

variable {total next d : Duration} {count : Nat} {name : String} {u : TimeUnit}

theorem eq_of_nanoseconds {d e : Duration} (h : d.nanoseconds = e.nanoseconds) : d = e := by
  cases d
  cases e
  cases h
  rfl

/-! ## Adding units -/

theorem fit_of_lt {n : Nat} (h : n < UInt64.size) : fit n = .ok n :=
  if_pos h

theorem add_of_eq {seconds nanoseconds : Nat}
    (hfit : total.subsecond + nanoseconds < UInt64.size)
    (h : d.nanoseconds = total.nanoseconds + seconds * 1000000000 + nanoseconds) :
    total.add seconds nanoseconds = .ok d := by
  have hsum := ofNanoseconds?_eq_some.mpr h
  simp only [add, fit_of_lt hfit, hsum]
  rfl

/-- Whole seconds stay below their bound as long as a duration does. -/
theorem mul_length_lt (hlong : u.isSubsecond = false) (d : Duration)
    (h : count * u.nanoseconds ≤ d.nanoseconds) : count * u.length < UInt64.size := by
  rw [TimeUnit.nanoseconds, hlong, if_neg Bool.false_ne_true, ← Nat.mul_assoc] at h
  exact Nat.lt_of_mul_lt_mul_right (Nat.lt_of_le_of_lt h d.bounded)

theorem addUnits_of_lt (h : count * u.length < UInt64.size) :
    total.addUnits count u
      = if u.isSubsecond then total.add 0 (count * u.length)
        else total.add (count * u.length) 0 := by
  rw [addUnits, fit_of_lt h]
  rfl

/-- **Units are added exactly**, as long as the sum is a duration and the nanoseconds fit. -/
theorem addUnits_of_eq
    (hfit : u.isSubsecond = true → total.subsecond + count * u.length < UInt64.size)
    (h : d.nanoseconds = total.nanoseconds + count * u.nanoseconds) :
    total.addUnits count u = .ok d := by
  cases hunit : u.isSubsecond with
  | true =>
      have hsum := hfit hunit
      have hcount : count * u.length < UInt64.size :=
        Nat.lt_of_le_of_lt (Nat.le_add_left _ _) hsum
      rw [TimeUnit.nanoseconds, if_pos hunit] at h
      rw [addUnits_of_lt hcount, if_pos hunit]
      exact add_of_eq hsum (by omega)
  | false =>
      have hcount := mul_length_lt hunit d (h ▸ Nat.le_add_left _ _)
      have hsum : total.subsecond + 0 < UInt64.size := by
        rw [Nat.add_zero]
        exact Nat.lt_trans total.subsecond_lt (by decide)
      rw [TimeUnit.nanoseconds, hunit, if_neg Bool.false_ne_true, ← Nat.mul_assoc] at h
      rw [addUnits_of_lt hcount, hunit, if_neg Bool.false_ne_true]
      exact add_of_eq hsum (by rw [Nat.add_zero, h])

theorem addUnits_of_le (h : UInt64.size ≤ count * u.length) :
    total.addUnits count u = .error .overflow := by
  rw [addUnits, fit, if_neg (Nat.not_lt.mpr h)]
  rfl

/-- What fits 64 bits in the measure of the unit, nanoseconds or seconds, is a duration. -/
theorem mul_nanoseconds_lt (h : count * u.length < UInt64.size) :
    count * u.nanoseconds < UInt64.size * 1000000000 := by
  rw [TimeUnit.nanoseconds]
  split
  · exact Nat.lt_of_lt_of_le h (Nat.le_mul_of_pos_right _ (by decide))
  · rw [← Nat.mul_assoc]
    exact Nat.mul_lt_mul_of_pos_right h (by decide)

theorem length_le_nanoseconds (u : TimeUnit) : u.length ≤ u.nanoseconds := by
  cases u <;> decide

theorem addUnits_zero_of_lt (h : count * u.length < UInt64.size) :
    zero.addUnits count u = .ok ⟨count * u.nanoseconds, mul_nanoseconds_lt h⟩ := by
  have hsubsecond : zero.subsecond = 0 := rfl
  apply addUnits_of_eq
  · intro _
    rw [hsubsecond, Nat.zero_add]
    exact h
  · exact (Nat.zero_add _).symm

/-! ## Reading a span -/

/-- A letter that goes on with the name of a unit. -/
def IsLetter (c : Char) : Prop :=
  Text.digit? c = none ∧ Text.isBlank c = false ∧ isUnitLetter c = true

instance (c : Char) : Decidable (IsLetter c) :=
  inferInstanceAs (Decidable (_ ∧ _))

/-- A unit goes by its names and by no other unit's. -/
theorem ofName?_eq_some : TimeUnit.ofName? name = some u ↔ name ∈ u.names := by
  constructor
  · intro h
    have hfound : TimeUnit.all.find? (fun u => u.names.contains name) = some u := h
    exact List.contains_iff_mem.mp
      (List.find?_some (p := fun u : TimeUnit => u.names.contains name) hfound)
  · intro h
    have hall : ∀ name ∈ u.names, TimeUnit.ofName? name = some u := by
      cases u <;> decide +kernel
    exact hall name h

theorem isLetter_of_ofName? (h : TimeUnit.ofName? name = some u) :
    name ≠ "" ∧ ∀ c ∈ name.toList, IsLetter c := by
  have hall : ∀ name ∈ u.names,
      name ≠ "" ∧ (name.toList.all fun c => IsLetter c) = true := by
    cases u <;> decide +kernel
  obtain ⟨hne, hletters⟩ := hall name (ofName?_eq_some.mp h)
  exact ⟨hne, fun c hc => of_decide_eq_true (List.all_eq_true.mp hletters c hc)⟩

theorem readSpans_cons {c : Char} {place place' : Place} {offset : Nat}
    (h : total.step offset c place = .ok (next, place')) (rest : List Char) :
    readSpans total offset place (c :: rest)
      = readSpans next (offset + c.utf8Size) place' rest := by
  rw [readSpans, h]

theorem le_digitsFrom (n : Nat) (digits : List Char) : n ≤ Text.digitsFrom n digits := by
  induction digits generalizing n with
  | nil => exact Nat.le_refl n
  | cons c rest ih =>
      have hrest := ih (10 * n + (c.toNat - 48))
      show n ≤ Text.digitsFrom (10 * n + (c.toNat - 48)) rest
      omega

theorem readSpans_digits (total : Duration) {n : Nat} {digits : List Char}
    (hdigits : ∀ c ∈ digits, c.isDigit = true) (hfit : Text.digitsFrom n digits < UInt64.size)
    (offset : Nat) (rest : List Char) :
    ∃ offset', readSpans total offset (.whole n) (digits ++ rest)
      = readSpans total offset' (.whole (Text.digitsFrom n digits)) rest := by
  induction digits generalizing n offset with
  | nil => exact ⟨offset, rfl⟩
  | cons c more ih =>
      obtain ⟨hc, hmore⟩ := List.forall_mem_cons.mp hdigits
      have hnext : 10 * n + (c.toNat - 48) < UInt64.size :=
        Nat.lt_of_le_of_lt (le_digitsFrom _ more) hfit
      have hstep : total.step offset c (.whole n)
          = .ok (total, .whole (10 * n + (c.toNat - 48))) := by
        simp only [step, Text.digit?, if_pos hc, fit_of_lt hnext]
        rfl
      rw [List.cons_append, readSpans_cons hstep]
      exact ih hmore hfit _

/-- A number is read digit by digit. -/
theorem readSpans_numeral (total : Duration) (hcount : count < UInt64.size)
    (offset mark : Nat) (begun : Bool) (rest : List Char) :
    ∃ offset', readSpans total offset (.before begun mark) (Text.numeralChars count ++ rest)
      = readSpans total offset' (.whole count) rest := by
  have hvalue : Text.digitsFrom 0 (Text.numeralChars count) = count := Nat.ofDigitChars_ten_toDigits
  have hdigits : ∀ c ∈ Text.numeralChars count, c.isDigit = true :=
    fun _ hc => Nat.isDigit_of_mem_toDigits (by decide) (by decide) hc
  cases hchars : Text.numeralChars count with
  | nil => exact absurd hchars Nat.toDigits_ne_nil
  | cons c more =>
      rw [hchars] at hvalue hdigits
      obtain ⟨hc, hmore⟩ := List.forall_mem_cons.mp hdigits
      have hfirst : Text.digitsFrom (c.toNat - 48) more = count := by
        rw [← hvalue]
        show _ = Text.digitsFrom (10 * 0 + (c.toNat - 48)) more
        rw [Nat.mul_zero, Nat.zero_add]
      have hstep : total.step offset c (.before begun mark) = .ok (total, .whole (c.toNat - 48)) := by
        simp only [step, Text.digit?, if_pos hc]
      have hmore := readSpans_digits total hmore (hfirst ▸ hcount) (offset + c.utf8Size) rest
      rw [hfirst] at hmore
      rw [List.cons_append, readSpans_cons hstep]
      exact hmore

theorem readSpans_letters (total : Duration) {letters more : List Char}
    (hmore : ∀ c ∈ more, IsLetter c) (offset : Nat) (rest : List Char) :
    ∃ offset', readSpans total offset (.unit count none letters) (more ++ rest)
      = readSpans total offset' (.unit count none (more.reverse ++ letters)) rest := by
  induction more generalizing letters offset with
  | nil => exact ⟨offset, rfl⟩
  | cons c more ih =>
      obtain ⟨⟨hdigit, hblank, hletter⟩, hmore⟩ := List.forall_mem_cons.mp hmore
      have hstep : total.step offset c (.unit count none letters)
          = .ok (total, .unit count none (c :: letters)) := by
        simp [step, hdigit, hblank, hletter]
      rw [List.cons_append, readSpans_cons hstep, List.reverse_cons, List.append_assoc]
      exact ih hmore _

/-- **A number and the name of a unit are read up to the end of the name.** -/
theorem readSpans_span (total : Duration) (hcount : count < UInt64.size)
    (hname : TimeUnit.ofName? name = some u) (offset mark : Nat) (begun : Bool)
    (rest : List Char) :
    ∃ offset', readSpans total offset (.before begun mark)
        ((Text.numeral count ++ name).toList ++ rest)
      = readSpans total offset' (.unit count none name.toList.reverse) rest := by
  obtain ⟨hne, hletters⟩ := isLetter_of_ofName? hname
  rw [String.toList_append, Text.numeral, String.toList_ofList, List.append_assoc]
  obtain ⟨behind, hnumeral⟩ := readSpans_numeral total hcount offset mark begun
    (name.toList ++ rest)
  rw [hnumeral]
  cases hchars : name.toList with
  | nil => exact absurd (String.toList_eq_nil_iff.mp hchars) hne
  | cons c more =>
      rw [hchars] at hletters
      obtain ⟨⟨hdigit, hblank, hletter⟩, hmore⟩ := List.forall_mem_cons.mp hletters
      have hstep : total.step behind c (.whole count) = .ok (total, .unit count none [c]) := by
        simp [step, hdigit, hblank, hletter]
      rw [List.cons_append, readSpans_cons hstep, List.reverse_cons]
      exact readSpans_letters total hmore _ rest

theorem addSpan_of_ofName? (hname : TimeUnit.ofName? name = some u) :
    total.addSpan count none name = total.addUnits count u := by
  simp only [addSpan, hname]
  cases total.addUnits count u <;> rfl

/-- The name of a unit is there, and `0` is no letter of it. -/
theorem append_ne_zero (hname : TimeUnit.ofName? name = some u) (before : String) :
    before ++ name ≠ "0" := by
  obtain ⟨hne, hletters⟩ := isLetter_of_ofName? hname
  obtain ⟨c, hc⟩ := List.exists_mem_of_ne_nil _ (mt String.toList_eq_nil_iff.mp hne)
  intro h
  have hzero : c ∈ "0".toList := by
    rw [← h, String.toList_append]
    exact List.mem_append_right _ hc
  have hletter := hletters c hc
  rw [List.mem_singleton.mp hzero] at hletter
  exact absurd hletter (by decide)

/-- **A single span is read as its units.** -/
theorem parse_span (hcount : count < UInt64.size) (hname : TimeUnit.ofName? name = some u) :
    parse (Text.numeral count ++ name) = zero.addUnits count u := by
  obtain ⟨behind, hread⟩ := readSpans_span zero hcount hname 0 0 false []
  rw [List.append_nil] at hread
  rw [parse, if_neg (append_ne_zero hname _), hread, readSpans, finish, List.reverse_reverse,
    String.ofList_toList, addSpan_of_ofName? hname]

/-! ## Reading spans one after the other -/

/-- The words are spans, and added to the total in their order they come to the duration. -/
inductive Adds : Duration → List String → Duration → Prop
  | nil (d : Duration) : Adds d [] d
  | cons {total next d : Duration} {count : Nat} {name : String} {u : TimeUnit}
    {words : List String} (hcount : count < UInt64.size)
    (hname : TimeUnit.ofName? name = some u) (hadd : total.addUnits count u = .ok next)
    (more : Adds next words d) : Adds total ((Text.numeral count ++ name) :: words) d

theorem Adds.append {words more : List String} (h : Adds total words next)
    (h' : Adds next more d) : Adds total (words ++ more) d := by
  induction h with
  | nil => exact h'
  | cons hcount hname hadd _ ih => exact .cons hcount hname hadd (ih h')

/-- **Spans with a blank between every two of them are read as what they come to.** -/
theorem Adds.readSpans {words : List String} (h : Adds total words d) (hne : words ≠ [])
    (offset mark : Nat) (begun : Bool) :
    readSpans total offset (.before begun mark) (String.intercalate " " words).toList = .ok d := by
  induction h generalizing offset mark begun with
  | nil => exact absurd rfl hne
  | @cons total next d count name u words hcount hname hadd more ih =>
      -- the span is added where its name ends: at the end of the text or at the blank behind it
      have hspan := (addSpan_of_ofName? hname).trans hadd
      cases words with
      | nil =>
          cases more
          obtain ⟨behind, hread⟩ := readSpans_span total hcount hname offset mark begun []
          rw [List.append_nil] at hread
          rw [String.intercalate_singleton, hread, Duration.readSpans, finish, List.reverse_reverse,
            String.ofList_toList, hspan]
      | cons word words =>
          rw [String.intercalate_cons_cons, String.toList_append, String.toList_append,
            List.append_assoc]
          obtain ⟨behind, hread⟩ := readSpans_span total hcount hname offset mark begun
            (" ".toList ++ (String.intercalate " " (word :: words)).toList)
          have hstep : total.step behind ' ' (.unit count none name.toList.reverse)
              = .ok (next, .before true (behind + 1)) := by
            simp only [step, List.reverse_reverse, String.ofList_toList, hspan]
            rfl
          rw [hread]
          show Duration.readSpans total behind (.unit count none name.toList.reverse)
            (' ' :: (String.intercalate " " (word :: words)).toList) = .ok d
          rw [readSpans_cons hstep]
          exact ih (List.cons_ne_nil _ _) _ _ _

/-! ## The spans of a text -/

/-- A count of units under one of their names, which may take a plural ending. -/
structure Span where
  count : Nat
  unit : TimeUnit
  name : String
  plural : Bool

/-- The part of a text for a span. -/
def Span.part (s : Span) : List String :=
  Duration.part s.count s.name s.plural

/-- The name is read as the unit, also with its ending, and nanoseconds stay below a second. -/
structure Span.Fits (s : Span) : Prop where
  named : TimeUnit.ofName? s.name = some s.unit
  ending : s.plural = true → TimeUnit.ofName? (s.name ++ "s") = some s.unit
  small : s.unit.isSubsecond = true → s.count * s.unit.length < 1000000000

/-- What spans come to. The unit stands first: as a second factor its length would be counted up one
by one wherever two such products are compared. -/
def spanned (spans : List Span) : Nat :=
  spans.foldr (fun s total => s.unit.nanoseconds * s.count + total) 0

/-- What a duration is written with. -/
def spans (d : Duration) : List Span :=
  let inYear := d.seconds % secondsPerYear
  let inMonth := inYear % secondsPerMonth
  let inDay := inMonth % secondsPerDay
  [⟨d.seconds / secondsPerYear, .year, "year", true⟩,
    ⟨inYear / secondsPerMonth, .month, "month", true⟩,
    ⟨inMonth / secondsPerDay, .day, "day", true⟩,
    ⟨inDay / 3600, .hour, "h", false⟩,
    ⟨inDay % 3600 / 60, .minute, "m", false⟩,
    ⟨inDay % 60, .second, "s", false⟩,
    ⟨d.subsecond / 1000000, .millisecond, "ms", false⟩,
    ⟨d.subsecond / 1000 % 1000, .microsecond, "us", false⟩,
    ⟨d.subsecond % 1000, .nanosecond, "ns", false⟩]

theorem parts_eq (d : Duration) : d.parts = d.spans.flatMap Span.part := by
  simp only [parts, spans, Span.part, List.flatMap_cons, List.flatMap_nil, List.append_nil,
    List.append_assoc]

theorem Span.fits_of_short {plural : Bool} (hunit : TimeUnit.ofName? name = some u)
    (hplural : plural = false) (hsmall : count * u.length < 1000000000) :
    Span.Fits ⟨count, u, name, plural⟩ where
  named := hunit
  ending h := absurd (hplural.symm.trans h) Bool.false_ne_true
  small _ := hsmall

theorem Span.fits_of_long {plural : Bool} (hunit : TimeUnit.ofName? name = some u)
    (hplural : plural = true → TimeUnit.ofName? (name ++ "s") = some u)
    (hlong : u.isSubsecond = false) : Span.Fits ⟨count, u, name, plural⟩ where
  named := hunit
  ending := hplural
  small h := absurd (hlong.symm.trans h) Bool.false_ne_true

theorem fits_of_mem_spans {s : Span} (hs : s ∈ d.spans) : s.Fits := by
  have hsub := d.subsecond_lt
  simp only [spans, List.mem_cons, List.not_mem_nil, or_false] at hs
  rcases hs with rfl | rfl | rfl | rfl | rfl | rfl | rfl | rfl | rfl
  case inr.inr.inr.inr.inr.inr.inl =>
    refine Span.fits_of_short (by decide +kernel) rfl ?_
    show d.subsecond / 1000000 * 1000000 < 1000000000
    omega
  case inr.inr.inr.inr.inr.inr.inr.inl =>
    refine Span.fits_of_short (by decide +kernel) rfl ?_
    show d.subsecond / 1000 % 1000 * 1000 < 1000000000
    omega
  case inr.inr.inr.inr.inr.inr.inr.inr =>
    refine Span.fits_of_short (by decide +kernel) rfl ?_
    show d.subsecond % 1000 * 1 < 1000000000
    omega
  all_goals exact Span.fits_of_long (by decide +kernel) (by decide +kernel) rfl

/-- Whole seconds are divided among the units from the year down. -/
theorem seconds_eq (s : Nat) :
    31557600 * (s / secondsPerYear) + (2630016 * (s % secondsPerYear / secondsPerMonth)
      + (86400 * (s % secondsPerYear % secondsPerMonth / secondsPerDay)
      + (3600 * (s % secondsPerYear % secondsPerMonth % secondsPerDay / 3600)
      + (60 * (s % secondsPerYear % secondsPerMonth % secondsPerDay % 3600 / 60)
      + 1 * (s % secondsPerYear % secondsPerMonth % secondsPerDay % 60))))) = s := by
  unfold secondsPerYear secondsPerMonth secondsPerDay
  omega

theorem subsecond_eq (n : Nat) :
    1000000 * (n / 1000000) + (1000 * (n / 1000 % 1000) + 1 * (n % 1000)) = n := by
  omega

theorem spanned_cons (count : Nat) (u : TimeUnit) (name : String) (plural : Bool)
    (spans : List Span) :
    spanned (⟨count, u, name, plural⟩ :: spans) = u.nanoseconds * count + spanned spans :=
  rfl

theorem spanned_spans (d : Duration) : spanned d.spans = d.nanoseconds := by
  have hseconds := seconds_eq d.seconds
  have hsub := subsecond_eq d.subsecond
  have hnil : spanned [] = 0 := rfl
  rw [d.nanoseconds_eq]
  unfold spans
  simp only [spanned_cons, hnil, TimeUnit.nanoseconds, TimeUnit.isSubsecond, TimeUnit.length,
    if_true, if_false, Bool.false_eq_true]
  omega

theorem length_pos (u : TimeUnit) : 0 < u.length := by
  cases u <;> decide

/-- A part that is zero is left out and adds nothing, any other is a span. -/
theorem adds_part {s : Span} (hs : s.Fits)
    (h : d.nanoseconds = total.nanoseconds + s.count * s.unit.nanoseconds) :
    Adds total s.part d := by
  unfold Span.part part
  by_cases hzero : s.count = 0
  · rw [hzero, Nat.zero_mul, Nat.add_zero] at h
    rw [if_pos hzero, eq_of_nanoseconds h]
    exact .nil total
  · have hlength : s.count * s.unit.length < UInt64.size := by
      cases hunit : s.unit.isSubsecond with
      | true => exact Nat.lt_trans (hs.small hunit) (by decide)
      | false => exact mul_length_lt hunit d (h ▸ Nat.le_add_left _ _)
    have hcount : s.count < UInt64.size :=
      Nat.lt_of_le_of_lt (Nat.le_mul_of_pos_right _ (length_pos _)) hlength
    have hfit (hunit : s.unit.isSubsecond = true) :
        total.subsecond + s.count * s.unit.length < UInt64.size :=
      Nat.lt_trans (Nat.add_lt_add total.subsecond_lt (hs.small hunit)) (by decide)
    rw [if_neg hzero, String.append_assoc]
    refine .cons hcount ?_ (addUnits_of_eq hfit h) (.nil d)
    split
    · next hmany => exact hs.ending (Bool.and_eq_true_iff.mp hmany).1
    · rw [String.append_empty]
      exact hs.named

theorem adds_flatMap_part {spans : List Span} (hspans : ∀ s ∈ spans, s.Fits)
    (h : d.nanoseconds = total.nanoseconds + spanned spans) :
    Adds total (spans.flatMap Span.part) d := by
  induction spans generalizing total with
  | nil =>
      rw [eq_of_nanoseconds (d := d) (e := total) h]
      exact .nil total
  | cons s spans ih =>
      obtain ⟨hs, hspans⟩ := List.forall_mem_cons.mp hspans
      have hsum : spanned (s :: spans) = s.count * s.unit.nanoseconds + spanned spans := by
        rw [Nat.mul_comm]
        exact spanned_cons ..
      obtain ⟨next, hnext⟩ : ∃ next : Duration,
          next.nanoseconds = total.nanoseconds + s.count * s.unit.nanoseconds :=
        ⟨⟨_, Nat.lt_of_le_of_lt (by rw [h, hsum]; omega) d.bounded⟩, rfl⟩
      rw [List.flatMap_cons]
      exact (adds_part hs hnext).append (ih hspans (by omega))

/-- **The spans that a duration is written with add up to it.** -/
theorem adds_parts (d : Duration) : Adds zero d.parts d := by
  rw [parts_eq]
  apply adds_flatMap_part
  · intro s hs
    exact fits_of_mem_spans hs
  · rw [spanned_spans]
    exact (Nat.zero_add _).symm

/-- **A duration is read back from its text.** -/
theorem parse_written (d : Duration) : parse d.text = .ok d := by
  unfold text
  by_cases hzero : d.nanoseconds = 0
  · rw [if_pos hzero, eq_of_nanoseconds (d := d) (e := zero) hzero]
    rfl
  · have hparts : d.parts ≠ [] := by
      intro hnil
      have hadds := d.adds_parts
      rw [hnil] at hadds
      cases hadds
      exact hzero rfl
    have hread := d.adds_parts.readSpans hparts 0 0 false
    have hne : String.intercalate " " d.parts ≠ "0" := by
      intro h
      rw [h] at hread
      cases hread
    rw [if_neg hzero, parse, if_neg hne]
    exact hread

theorem text_inj {d e : Duration} : d.text = e.text ↔ d = e := by
  constructor
  · intro h
    have hd := d.parse_written
    rw [h, e.parse_written] at hd
    exact (Except.ok.inj hd).symm
  · intro h
    rw [h]

end ImagePull.Duration
