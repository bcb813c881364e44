/-
  CourseCharts — what charts are about.

  * `RecordKey` identifies a record of the server; it is only echoed, into
    links and labels;
  * `Grouping` says what a chart groups its records by;
  * `AxisLabel` is the title of an axis and the unit of its values.
-/
import CourseCharts.Json.Reading

namespace CourseCharts

/-- The identifier of a record. -/
structure RecordKey where
  text : String
  deriving DecidableEq, Repr

/-- A key is sent as a text or as a number, which counts as its text. -/
def RecordKey.read? {τ : Type} [Json.Readable τ] (t : τ) : Option RecordKey :=
  match Json.view? t with
  | some (.string s) => some ⟨s⟩
  | some (.number n) => some ⟨n.keyText⟩
  | _ => none

/-- What the records of a chart belong to. -/
inductive Grouping where
  | project
  | user
  deriving DecidableEq, Repr

namespace Grouping

/-- The name in queries and responses. -/
def name : Grouping → String
  | project => "project"
  | user => "user"

/-- The name on a chart. -/
def title : Grouping → String
  | project => "Project"
  | user => "User"

end Grouping

/-- The title of an axis and the unit of its values; the unit may be empty. -/
structure AxisLabel where
  label : String
  unit : String
  deriving DecidableEq, Repr

namespace AxisLabel

/-- The title, with the unit in parentheses. -/
def title (a : AxisLabel) : String :=
  if a.unit.isEmpty then a.label else a.label ++ " (" ++ a.unit ++ ")"

/-- A value of the axis, with its unit. -/
def valueText {α : Type} [Scalar α] (a : AxisLabel) (x : α) : String :=
  if a.unit.isEmpty then Scalar.text x else Scalar.text x ++ " " ++ a.unit

end AxisLabel

end CourseCharts
