/-
  CourseCharts — writing records as JSON.

  The values that records are written as: `Value.ofScalar`, `Value.ofNat` and
  `Value.record`.
-/
import CourseCharts.Json.Document

namespace CourseCharts.Json.Value

/-- A double; what is not finite has no numeral and is written as null. -/
def ofScalar (x : Float) : Value := if x.isFinite then .number (.float x) else .null

/-- A count. -/
def ofNat (n : Nat) : Value := .number (.int n)

/-- A value that may be missing. -/
def ofOption {β : Type} (write : β → Value) : Option β → Value
  | some b => write b
  | none => .null

/-- A record of doubles. -/
def record (fields : List (String × Float)) : Value :=
  .object (fields.map fun (name, x) => (name, ofScalar x))

end CourseCharts.Json.Value
