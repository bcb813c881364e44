/-
  CourseCharts — settings in JSON.

  How viewports, margins, easing curves and arrangements are written in a
  configuration, and the defaults that all configurations have in common.
-/
import CourseCharts.Json.Reading
import CourseCharts.Json.Writing
import CourseCharts.Motion.Easing
import CourseCharts.Plot
import CourseCharts.Presentation

namespace CourseCharts

variable {τ α : Type} [Json.Readable τ] [Scalar α]

open Json

/-- A count of 32 bits. -/
def Json.count32? (t : τ) : Option Nat := nat? UInt32.size t

/-- A count of 64 bits. -/
def Json.count64? (t : τ) : Option Nat := nat? UInt64.size t

/-- The size of a chart. -/
def Viewport.read? (t : τ) : Option Viewport := do
  let fs ← record? ["width", "height"] t
  return ⟨← fs.required? "width" count32?, ← fs.required? "height" count32?⟩

/-- The size of a chart, written. -/
def Viewport.write (v : Viewport) : Value :=
  .object [("width", .ofNat v.width), ("height", .ofNat v.height)]

/-- The margins of a chart; all four are needed. -/
def Margins.read? (t : τ) : Option (Margins α) := do
  let fs ← record? ["top", "right", "bottom", "left"] t
  return ⟨← fs.required? "top" scalar?, ← fs.required? "right" scalar?,
    ← fs.required? "bottom" scalar?, ← fs.required? "left" scalar?⟩

/-- The margins of a chart, written. -/
def Margins.write (m : Margins Float) : Value :=
  .record [("top", m.top), ("right", m.right), ("bottom", m.bottom), ("left", m.left)]

/-- The name of an easing curve. -/
def Easing.name : Easing → String
  | linear => "Linear"
  | quadInOut => "QuadInOut"

/-- An easing curve by its name. -/
def Easing.read? : τ → Option Easing :=
  variant? ([.linear, .quadInOut].map fun e => (e.name, e))

/-- The name of an arrangement. -/
def Arrangement.name : Arrangement → String
  | stacked => "Stacked"
  | grouped => "Grouped"

/-- An arrangement by its name. -/
def Arrangement.read? : τ → Option Arrangement :=
  variant? ([.stacked, .grouped].map fun a => (a.name, a))

/-- The size of the texts at ticks, if none is given. -/
def defaultTickFontSize : α := 10.0

/-- The size of titles, if none is given. -/
def defaultTitleFontSize : α := 20.0

end CourseCharts
