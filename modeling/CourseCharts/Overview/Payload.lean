/-
  CourseCharts — responses for an overview chart.

  A response is an array of records, or an object with such an array in
  `chart-data`.  The first record that lacks a field or cannot be read decides.
-/
import CourseCharts.Overview.Datum
import CourseCharts.Response

namespace CourseCharts.Overview.Payload

/-- The fields that every record has. -/
def recordFields : List String := ["key", "submissions", "snapshots", "launches"]

/-- The records of a response. -/
def records : Json.Value → Except ChartError (List Json.Value)
  | .array records => .ok records
  | .object members => do
    match ← Response.field (.object members) "chart-data" with
    | .array records => return records
    | _ => throw (.invalidData (.recordsNotInArray "chart-data"))
  | .null => .error (.missingData "chart-data")
  | _ => .error (.invalidData .noRecordContainer)

/-- A record; all its fields have to be there before one of them is read. -/
def datum (v : Json.Value) : Except ChartError Datum := do
  recordFields.forM fun name => do
    let _ ← Response.field v name
  Flaw.malformedRecord.orElse (Datum.read? v)

/-- The records that a response has. -/
def ofValue (v : Json.Value) : Except ChartError (List Datum) := do
  (← records v).mapM datum

/-- The records that a response text has. -/
def ofText (text : String) : Except ChartError (List Datum) := do
  ofValue (← Response.parse text)

end CourseCharts.Overview.Payload
