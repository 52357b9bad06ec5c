import ImagePull.Proofs.Duration
import ImagePull.Proofs.Event.Classification

/-!
# The time of an extraction

An extraction whose counts have a unit of time reports how long it has taken. The count is printed
in front of the name of the unit, and read from there it is the same count (`extraction_of_units`).
So it stands for exactly so many units, or is refused where these do not fit 64 bits in the measure
of the unit, nanoseconds or seconds (`classify_of_timed`).
-/

namespace ImagePull

open Duration (TimeUnit)

variable {r : ProgressRecord} {id name : String} {u : TimeUnit}

namespace ProgressRecord

/-- How far the layer is, in units of its counts. -/
def count (r : ProgressRecord) : Nat :=
  r.progressDetail.current.toNat

theorem count_lt (r : ProgressRecord) : r.count < UInt64.size :=
  r.progressDetail.current.toNat_lt

theorem extraction_of_units (hunits : r.progressDetail.units = some name)
    (hname : name ∈ u.names) :
    r.extraction = match Duration.zero.addUnits r.count u with
      | .ok time => .ok (.elapsed time)
      | .error cause => .error (.invalidDuration (Text.numeral r.count ++ name) cause) := by
  have hunit := Duration.ofName?_eq_some.mpr hname
  have hfilled : r.progressDetail.units.filter (· ≠ "") = some name := by
    simp [hunits, (Duration.isLetter_of_ofName? hunit).1]
  have hparse : Duration.parse (Text.numeral r.progressDetail.current.toNat ++ name)
      = Duration.zero.addUnits r.count u := Duration.parse_span r.count_lt hunit
  rw [extraction, hfilled]
  simp only [hparse]
  cases Duration.zero.addUnits r.count u <;> rfl

theorem extraction_of_lt (hunits : r.progressDetail.units = some name) (hname : name ∈ u.names)
    (hfit : r.count * u.length < UInt64.size) :
    r.extraction
      = .ok (.elapsed ⟨r.count * u.nanoseconds, Duration.mul_nanoseconds_lt hfit⟩) := by
  rw [extraction_of_units hunits hname, Duration.addUnits_zero_of_lt hfit]

theorem extraction_of_le (hunits : r.progressDetail.units = some name) (hname : name ∈ u.names)
    (hfit : UInt64.size ≤ r.count * u.length) :
    r.extraction = .error (.invalidDuration (Text.numeral r.count ++ name) .overflow) := by
  rw [extraction_of_units hunits hname, Duration.addUnits_of_le hfit]

theorem extraction_withTotal (hunits : r.progressDetail.units = some name)
    (hname : name ∈ u.names) (total : UInt64) (hideCounts : Bool) :
    { r with progressDetail := { r.progressDetail with total, hideCounts } }.extraction
      = r.extraction := by
  rw [extraction_of_units hunits hname]
  exact extraction_of_units hunits hname

end ProgressRecord

namespace PullEvent

theorem classify_of_tells_extracting (htells : r.Tells "Extracting") (hid : r.NamesLayer id) :
    classify r = r.extraction.map fun detail => .layer id (.extracting detail) := by
  have hevent : r.layerEvent? = r.extraction.map fun detail => some (.extracting detail) := by
    rw [ProgressRecord.layerEvent?, htells.1]
    rfl
  rw [classify, ProgressRecord.errorMessage_eq_none.mpr htells.2]
  simp only [hevent, ProgressRecord.layerId_eq_some.mpr hid]
  cases r.extraction <;> rfl

/-- **The time of an extraction is exact.** A count of units of time stands for exactly that time,
its whole seconds and the nanoseconds beyond them, as long as it fits 64 bits in the measure of the
unit, and so whenever it does in nanoseconds. Any other count is refused, and the error names it
with its unit. Neither the total nor whether to hide the counts makes a difference. -/
theorem classify_of_timed (htells : r.Tells "Extracting") (hid : r.NamesLayer id)
    (hunits : r.progressDetail.units = some name) (hname : name ∈ u.names) :
    (r.count * u.length < UInt64.size
        ∧ (∃ time, classify r = .ok (.layer id (.extracting (.elapsed time)))
          ∧ 1000000000 * time.seconds + time.subsecond = r.count * u.nanoseconds
          ∧ time.subsecond < 1000000000)
      ∨ UInt64.size ≤ r.count * u.length
        ∧ classify r = .error (.invalidDuration (Text.numeral r.count ++ name) .overflow))
      ∧ (r.count * u.nanoseconds < UInt64.size →
        ∃ time, classify r = .ok (.layer id (.extracting (.elapsed time))))
      ∧ ∀ total hideCounts,
        classify { r with progressDetail := { r.progressDetail with total, hideCounts } }
          = classify r := by
  have hevent := classify_of_tells_extracting htells hid
  have hlength : r.count * u.length ≤ r.count * u.nanoseconds :=
    Nat.mul_le_mul_left _ (Duration.length_le_nanoseconds u)
  refine ⟨?_, fun hsmall => ?_, fun total hideCounts => ?_⟩
  · rcases Nat.lt_or_ge (r.count * u.length) UInt64.size with hfit | hfit
    · rw [ProgressRecord.extraction_of_lt hunits hname hfit] at hevent
      exact .inl ⟨hfit, _, hevent, (Duration.nanoseconds_eq _).symm, Duration.subsecond_lt _⟩
    · rw [ProgressRecord.extraction_of_le hunits hname hfit] at hevent
      exact .inr ⟨hfit, hevent⟩
  · rw [ProgressRecord.extraction_of_lt hunits hname (Nat.lt_of_le_of_lt hlength hsmall)] at hevent
    exact ⟨_, hevent⟩
  · have hother := classify_of_tells_extracting
      (r := { r with progressDetail := { r.progressDetail with total, hideCounts } }) htells hid
    rw [hother, hevent, ProgressRecord.extraction_withTotal hunits hname]

/-- The greatest count is an exact time in nanoseconds and too great in microseconds. -/
theorem classify_of_timed_greatest :
    let r (units : String) : ProgressRecord :=
      { id := some "a", status := "Extracting",
        progressDetail := { current := 18446744073709551615, units := some units } }
    (∀ units, (r units).Tells "Extracting" ∧ (r units).NamesLayer "a")
      ∧ "ns" ∈ TimeUnit.nanosecond.names ∧ "µs" ∈ TimeUnit.microsecond.names
      ∧ (∃ time, classify (r "ns") = .ok (.layer "a" (.extracting (.elapsed time)))
        ∧ time.seconds = 18446744073 ∧ time.subsecond = 709551615)
      ∧ classify (r "µs")
        = .error (.invalidDuration "18446744073709551615µs" .overflow) := by
  intro r
  have htells (units : String) : (r units).Tells "Extracting" :=
    ⟨rfl, ProgressRecord.errorMessage_eq_none.mp rfl⟩
  have hid (units : String) : (r units).NamesLayer "a" := ⟨rfl, by decide⟩
  have hshort : "ns" ∈ TimeUnit.nanosecond.names := by decide
  have hlong : "µs" ∈ TimeUnit.microsecond.names := by decide
  have hcount (units : String) : (r units).count = 18446744073709551615 := rfl
  have hsize : UInt64.size = 18446744073709551616 := rfl
  refine ⟨fun units => ⟨htells units, hid units⟩, hshort, hlong, ?_, ?_⟩
  · obtain ⟨htime, -, -⟩ := classify_of_timed (htells "ns") (hid "ns") rfl hshort
    have hunit : TimeUnit.nanosecond.length = 1 ∧ TimeUnit.nanosecond.nanoseconds = 1 := ⟨rfl, rfl⟩
    rw [hcount, hunit.1, hunit.2, hsize] at htime
    rcases htime with ⟨-, time, hevent, hsum, hsubsecond⟩ | ⟨hover, -⟩
    · exact ⟨time, hevent, by omega, by omega⟩
    · omega
  · obtain ⟨htime, -, -⟩ := classify_of_timed (htells "µs") (hid "µs") rfl hlong
    have hunit : TimeUnit.microsecond.length = 1000 := rfl
    have htext : Text.numeral 18446744073709551615 ++ "µs" = "18446744073709551615µs" := by
      decide +kernel
    rw [hcount, hunit, htext, hsize] at htime
    rcases htime with ⟨hfit, -⟩ | ⟨-, hrefused⟩
    · omega
    · exact hrefused

end PullEvent

end ImagePull
