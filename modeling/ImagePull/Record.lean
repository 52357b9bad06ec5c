import ImagePull.Json.Parser
import ImagePull.Json.Printer

/-!
# Progress records

A daemon reports a pull as one JSON object a line. A record holds the fields of
such an object; every field may be missing. An empty layer id counts as none, and
the error text of a record is its `error`, or the message of its `errorDetail`
when that is missing or empty.
-/

namespace ImagePull

/-- The counts of a record. -/
structure ProgressDetail where
  current : UInt64 := 0
  total : UInt64 := 0
  hideCounts : Bool := false
  units : Option String := none
deriving DecidableEq, Repr

/-- The details of an error. -/
structure ErrorDetail where
  message : String := ""
deriving DecidableEq, Repr

/-- One record of a progress stream. -/
structure ProgressRecord where
  id : Option String := none
  status : String := ""
  error : Option String := none
  errorDetail : Option ErrorDetail := none
  progressDetail : ProgressDetail := {}
deriving DecidableEq, Repr

namespace ProgressDetail

/-- The counts that a JSON value holds. -/
def ofJson? (j : Json) : Option ProgressDetail := do
  let fields ← j.fields? ["current", "total", "hidecounts", "units"]
  let current ← Json.field? fields "current" 0 Json.word?
  let total ← Json.field? fields "total" 0 Json.word?
  let hideCounts ← Json.field? fields "hidecounts" false Json.flag?
  let units ← Json.field? fields "units" none (Json.nullable? Json.text?)
  some { current, total, hideCounts, units }

/-- The counts as a JSON object. -/
def toJson (d : ProgressDetail) : Json :=
  .ofMembers
    ([("current", .ofWord d.current), ("total", .ofWord d.total),
      ("hidecounts", .bool d.hideCounts)] ++ Json.member? "units" (d.units.map .ofString))

end ProgressDetail

namespace ErrorDetail

/-- The details that a JSON value holds. -/
def ofJson? (j : Json) : Option ErrorDetail := do
  let fields ← j.fields? ["message"]
  let message ← Json.field? fields "message" "" Json.text?
  some { message }

/-- The details as a JSON object. -/
def toJson (d : ErrorDetail) : Json :=
  .ofMembers [("message", .ofString d.message)]

end ErrorDetail

namespace ProgressRecord

/-- The record that a JSON value holds. -/
def ofJson? (j : Json) : Option ProgressRecord := do
  let fields ← j.fields? ["id", "status", "error", "errorDetail", "progressDetail"]
  let id ← Json.field? fields "id" none (Json.nullable? Json.text?)
  let status ← Json.field? fields "status" "" Json.text?
  let error ← Json.field? fields "error" none (Json.nullable? Json.text?)
  let errorDetail ← Json.field? fields "errorDetail" none (Json.nullable? ErrorDetail.ofJson?)
  let progressDetail ← Json.field? fields "progressDetail" {} ProgressDetail.ofJson?
  some { id, status, error, errorDetail, progressDetail }

/-- The record as a JSON object; what is absent is left out. -/
def toJson (r : ProgressRecord) : Json :=
  .ofMembers
    (Json.member? "id" (r.id.map .ofString) ++
     [("status", .ofString r.status)] ++
     Json.member? "error" (r.error.map .ofString) ++
     Json.member? "errorDetail" (r.errorDetail.map ErrorDetail.toJson) ++
     [("progressDetail", r.progressDetail.toJson)])

/-- The record on a line. -/
def ofLine? (line : List UInt8) : Option ProgressRecord :=
  (Json.parse? line).bind ofJson?

/-- The line of a record, without its end. -/
def toLine (r : ProgressRecord) : List UInt8 :=
  r.toJson.render

/-- The layer that the record is about. -/
def layerId (r : ProgressRecord) : Option String :=
  r.id.filter (· ≠ "")

/-- The error that the record reports. -/
def errorMessage (r : ProgressRecord) : Option String :=
  r.error.filter (· ≠ "") <|> (r.errorDetail.map ErrorDetail.message).filter (· ≠ "")

end ProgressRecord

end ImagePull
