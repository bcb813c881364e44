/-
  CourseCharts — queries to the server.

  A query is an endpoint with named parameters; there is one kind of query for
  each chart.
-/
import CourseCharts.Record

namespace CourseCharts.Request

/-- Queries of one kind. -/
class Query (q : Type) where
  /-- The endpoint. -/
  endpoint : q → String
  /-- The parameters in order. -/
  parameters : q → List (String × String)

/-- The endpoint of both charts. -/
def chartDataEndpoint : String := "chart-data"

/-- The submissions of one project or user, with a measure for each axis. -/
structure AssignmentQuery where
  id : String
  xField : String
  yField : String
  grouping : Grouping
  deriving DecidableEq, Repr

/-- The activity of all projects or users. -/
structure OverviewQuery where
  grouping : Grouping
  deriving DecidableEq, Repr

instance : Query AssignmentQuery where
  endpoint _ := chartDataEndpoint
  parameters q := [("type", "assignment"), ("id", q.id), ("x", q.xField), ("y", q.yField),
    ("assignment-type", q.grouping.name)]

instance : Query OverviewQuery where
  endpoint _ := chartDataEndpoint
  parameters q := [("type", "overview"), ("view", q.grouping.name)]

end CourseCharts.Request
