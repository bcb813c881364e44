/-
  CourseCharts — the points of a scatter chart.

  A `Point` is one submission.  Besides its `y` it may have an `outlier`, which
  is shown instead while outliers are shown.
-/
import CourseCharts.Record
import CourseCharts.Drawing.Color
import CourseCharts.Json.Writing

namespace CourseCharts.Scatter

/-- A submission of a user for a project. -/
structure Point (α : Type) where
  key : RecordKey
  x : α
  y : α
  /-- The value shown instead of `y` while outliers are shown. -/
  outlier : Option α
  user : String
  project : String
  deriving Repr

namespace Point

variable {α : Type}

/-- Whether the point has an outlying value. -/
def isOutlier (p : Point α) : Bool := p.outlier.isSome

/-- The value that the point is placed at. -/
def shownY (p : Point α) (showOutliers : Bool) : α :=
  if showOutliers then p.outlier.getD p.y else p.y

/-- The color of the marker; outliers are red even where they are hidden. -/
def color [Scalar α] (p : Point α) : Color α :=
  if p.isOutlier then .pureRed else .black

/-- The text above the marker: what the chart is not grouped by. -/
def caption (p : Point α) : Grouping → String
  | .project => p.user
  | .user => p.project

open Json in
/-- A point as it is sent. -/
def read? {τ : Type} [Readable τ] [Scalar α] (t : τ) : Option (Point α) := do
  let fs ← record? ["x", "y", "outlier", "key", "user", "project"] t
  return {
    key := ← fs.required? "key" RecordKey.read?
    x := ← fs.required? "x" scalar?
    y := ← fs.required? "y" scalar?
    outlier := ← fs.orDefault? "outlier" none (nullable? scalar?)
    user := ← fs.orDefault? "user" "" text?
    project := ← fs.orDefault? "project" "" text? }

open Json in
/-- A point as it is saved. -/
def write (p : Point Float) : Value :=
  .object [("x", .ofScalar p.x), ("y", .ofScalar p.y),
    ("outlier", .ofOption .ofScalar p.outlier), ("key", .string p.key.text),
    ("user", .string p.user), ("project", .string p.project)]

end Point

end CourseCharts.Scatter
