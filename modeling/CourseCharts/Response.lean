/-
  CourseCharts — responses of the server.

  What the readers of both charts share: a response is a JSON text, a field
  that is null is missing, and what is there but cannot be read is a flaw.
-/
import CourseCharts.Error
import CourseCharts.Json.Document

namespace CourseCharts

/-- What a reader reads, or a flaw if it reads nothing. -/
def Flaw.orElse {β : Type} (flaw : Flaw) : Option β → Except ChartError β
  | some b => .ok b
  | none => .error (.invalidData flaw)

namespace Response

/-- The value of a response. -/
def parse (text : String) : Except ChartError Json.Value :=
  Flaw.unreadablePayload.orElse (Json.Value.ofText? text)

/-- A field that has to be present. -/
def field (v : Json.Value) (name : String) : Except ChartError Json.Value :=
  match v.member? name with
  | none | some .null => .error (.missingData name)
  | some w => .ok w

end Response

end CourseCharts
