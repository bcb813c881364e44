import CourseCharts.Json.Snapshot
import CourseCharts.Request.Loader
import CourseCharts.Proofs.Drawing.Svg
import CourseCharts.Proofs.Overview.Display
import CourseCharts.Proofs.Request.Order
import CourseCharts.Proofs.Scatter.Agreement
import CourseCharts.Proofs.Scatter.Config
import CourseCharts.Proofs.Scatter.Display
import CourseCharts.Proofs.Scatter.Surfaces
import CourseCharts.Proofs.Scatter.Zoom
import CourseCharts.Proofs.Scatter.ZoomStep
import CourseCharts.Proofs.Number.Magnitude
import CourseCharts.Proofs.Number.TickText
import CourseCharts.Proofs.Scale.Extent
import CourseCharts.Proofs.Scatter.Toggle
import CourseCharts.Proofs.Scatter.ZoomRegular
import CourseCharts.Proofs.Scatter.FrameValid
import CourseCharts.Proofs.Overview.Bands
import CourseCharts.Proofs.Continuity
import CourseCharts.Proofs.Failures
import CourseCharts.Proofs.Overview.Surfaces
import CourseCharts.Proofs.Responses
import CourseCharts.Proofs.Surfaces
import CourseCharts.Proofs.Overview.Areas
import CourseCharts.Proofs.Scatter.Redraw
import CourseCharts.Proofs.Number.Rounding
import CourseCharts.Proofs.Number.Arithmetic
import CourseCharts.Proofs.Number.Spacing
import CourseCharts.Proofs.Scale.Fitting
import CourseCharts.Proofs.Scatter.Fitting
import CourseCharts.Proofs.Scale.Ticks
import CourseCharts.Proofs.Scale.RawExtent
import CourseCharts.Proofs.Overview.Payload
import CourseCharts.Proofs.Scatter.Payload
import CourseCharts.Proofs.Motion.Clock
import CourseCharts.Proofs.Scale.TickLabels
import CourseCharts.Proofs.Drawing.Numbers
import CourseCharts.Proofs.Scale.Partition
import CourseCharts.Proofs.Motion.Nested
import CourseCharts.Proofs.Scatter.Blend
import CourseCharts.Proofs.Settings
