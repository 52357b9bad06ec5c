import ImagePull.Size
import ImagePull.Duration.Basic
import ImagePull.Json.Basic

/-!
# Progress of a layer

A download counts bytes. An extraction counts bytes too, or reports the time it
has taken so far.
-/

namespace ImagePull

/-- Bytes done out of a total; `hide` asks not to show the counts. -/
structure Progress where
  current : UInt64
  total : UInt64
  hide : Bool
deriving DecidableEq, Repr

namespace Progress

/-- Nothing done of nothing. -/
def none : Progress := ⟨0, 0, false⟩

/-- The counts for people, such as `12.5MB/40MB`. -/
def text (p : Progress) : String :=
  Size.text p.current ++ "/" ++ Size.text p.total

/-- The fraction done, at most one; zero when the total is not known. -/
def ratio (p : Progress) : Number.Binary64 :=
  if p.total = 0 then ⟨0, 0⟩
  else
    let quotient :=
      (Number.Binary64.ofNat p.current.toNat).div (Number.Binary64.ofNat p.total.toNat)
    if quotient.atLeast 1 then Number.Binary64.ofNat 1 else quotient

/-- The counts as a JSON object. -/
def toJson (p : Progress) : Json :=
  .ofMembers [("current", .ofWord p.current), ("total", .ofWord p.total), ("hide", .bool p.hide)]

end Progress

/-- What an extraction reports. -/
inductive Extraction where
  | elapsed (time : Duration)
  | bytes (progress : Progress)
deriving DecidableEq, Repr

namespace Extraction

/-- The report for people. -/
def text : Extraction → String
  | .elapsed time => time.text
  | .bytes progress => progress.text

/-- The report as a JSON object that names its kind. -/
def toJson : Extraction → Json
  | .elapsed time => .ofMembers [("elapsed", .ofString time.text)]
  | .bytes progress => .ofMembers [("progress", progress.toJson)]

end Extraction

end ImagePull
