/-
  CourseCharts — what the user chooses.

  A `Presentation` holds the choices apart from the data, so that a frame is a
  function of the two; a click (`UserInput`) changes one of them.
-/
namespace CourseCharts

/-- The arrangement of the three bars of an overview record. -/
inductive Arrangement where
  /-- On top of each other. -/
  | stacked
  /-- Side by side. -/
  | grouped
  deriving DecidableEq, Repr

/-- The other arrangement. -/
def Arrangement.toggled : Arrangement → Arrangement
  | stacked => grouped
  | grouped => stacked

/-- The choices of the user. -/
structure Presentation where
  showOutliers : Bool
  arrangement : Arrangement
  deriving DecidableEq, Repr

namespace Presentation

/-- Outliers hidden, bars stacked. -/
def standard : Presentation := ⟨false, .stacked⟩

/-- Shows the outliers if they are hidden, and hides them otherwise. -/
def toggleOutliers (p : Presentation) : Presentation :=
  { p with showOutliers := !p.showOutliers }

/-- Changes to the other arrangement. -/
def toggleArrangement (p : Presentation) : Presentation :=
  { p with arrangement := p.arrangement.toggled }

end Presentation

/-- What a user can click. -/
inductive UserInput where
  /-- The outlier checkbox beside the scatter chart. -/
  | outlierCheckbox
  /-- The body of the overview chart. -/
  | chartBody
  deriving DecidableEq, Repr

end CourseCharts
