/-
  CourseCharts — loading charts.

  A `Loader` keeps a chart in step with the latest request: the response of an
  earlier one is stale and does not reach the chart.

  * `Loader.begin` and `Loader.complete` are for responses that arrive later;
  * `Loader.load` asks a `Source` and waits for the response.
-/
import CourseCharts.Overview.Chart
import CourseCharts.Request.Query
import CourseCharts.Request.Sequencer
import CourseCharts.Scatter.Chart

namespace CourseCharts.Request

/-- Charts that show responses to queries of a kind. -/
class Target (σ q : Type) where
  /-- Shows a response. -/
  present : q → Json.Value → σ → Except ChartError Unit × σ

/-- What answers queries. -/
class Source (σ : Type) where
  /-- The response for an endpoint with parameters. -/
  fetch : String → List (String × String) → σ → Except ChartError Json.Value × σ

section
variable {α σ : Type} [Scalar α] [Surface σ α]

instance : Target (Scatter.Chart α σ) AssignmentQuery where
  present q v c := c.renderPayload v q.grouping

instance : Target (Overview.Chart α σ) OverviewQuery where
  present q v c := c.renderPayload v q.grouping

end

/-- What became of a response. -/
inductive Outcome where
  /-- It reached the chart. -/
  | drawn
  /-- A later request had been made. -/
  | stale
  deriving DecidableEq, Repr

/-- Requests on the way to one chart. -/
structure Loader where
  sequencer : Sequencer
  deriving DecidableEq, Repr

namespace Loader

variable {σ ρ q : Type}

/-- No requests yet. -/
def initial : Loader := ⟨.initial⟩

/-- Makes a request. -/
def begin (l : Loader) : Token × Loader :=
  let (t, sequencer) := l.sequencer.issue
  (t, { l with sequencer })

/-- The latest request. -/
def latest (l : Loader) : Option Token := l.sequencer.latest

/-- Shows the response to a request, unless it is stale. -/
def complete [Target σ q] (l : Loader) (t : Token) (query : q) (response : Json.Value)
    (target : σ) : Except ChartError Outcome × Loader × σ :=
  match l.sequencer.complete t with
  | (false, sequencer) => (.ok .stale, { l with sequencer }, target)
  | (true, sequencer) =>
    let (result, target) := Target.present query response target
    (result.map fun _ => .drawn, { l with sequencer }, target)

/-- Makes a request, waits for the response and shows it. -/
def load [Query q] [Target σ q] [Source ρ] (l : Loader) (query : q) (source : ρ) (target : σ) :
    Except ChartError Outcome × Loader × ρ × σ :=
  let (t, l) := l.begin
  match Source.fetch (Query.endpoint query) (Query.parameters query) source with
  | (.error e, source) => (.error e, l, source, target)
  | (.ok response, source) =>
    let (result, l, target) := l.complete t query response target
    (result, l, source, target)

end Loader

end CourseCharts.Request
