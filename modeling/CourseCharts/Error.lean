/-
  CourseCharts — what can go wrong.

  An error is a cause; its wording is in `ChartError.message` and the functions
  it uses.

  * `Quantity` names what is measured and `Requirement` what is asked of it;
    `Quantity.require` is the check, and a failed one is a `Flaw`;
  * `Flaw` lists what makes data, a configuration or a frame unusable;
  * `ChartError` adds viewports without area, responses that lack a field and
    failed requests.
-/
import CourseCharts.Number.Scalar

namespace CourseCharts

/-- A side of the plot that has a margin. -/
inductive Side where
  | top | right | bottom | left
  deriving DecidableEq, Repr

/-- A channel of a color. -/
inductive Channel where
  | red | green | blue | alpha
  deriving DecidableEq, Repr

/-- A number, or a group of numbers, that has to meet a requirement. -/
inductive Quantity where
  | extentValues
  | scaleDomain
  | scaleRange
  | value
  | pixel
  | bandScaleWidth
  | zoomFactor
  | zoomTranslation
  | transitionDuration
  | margin (side : Side)
  | markerRadius
  | captionFontSize
  | tickFontSize
  | titleFontSize
  | labelFontSize
  | legendFontSize
  | zoomDuration
  | toggleDuration
  | clipPadding
  | groupBuffer
  | labelGap
  | colorChannel (channel : Channel)
  | lineCoordinates
  | lineStrokeWidth
  | rectOrigin
  | rectSize
  | circleCenter
  | circleRadius
  | textCoordinates
  | fontSize
  deriving DecidableEq, Repr

/-- What is asked of a quantity.  Everything has to be finite. -/
inductive Requirement where
  | finite
  | positive
  | nonnegative
  | nonzero
  | unitInterval
  deriving DecidableEq, Repr

/-- Why data, a configuration or a frame cannot be used. -/
inductive Flaw where
  /-- A quantity fails its requirement. -/
  | unmet (quantity : Quantity) (requirement : Requirement)
  /-- An extent was asked for without values. -/
  | emptyExtent
  /-- The margins take the whole viewport. -/
  | noRoomForPlot
  /-- An axis is to have no ticks. -/
  | noTicks
  /-- A label without text. -/
  | emptyText
  /-- A scatter chart configuration is not readable. -/
  | unreadableScatterConfig
  /-- An overview chart configuration is not readable. -/
  | unreadableOverviewConfig
  /-- A response is not a JSON text. -/
  | unreadablePayload
  /-- A field of a response has the wrong form. -/
  | malformedField (field : String)
  /-- A record of an overview response has the wrong form. -/
  | malformedRecord
  /-- The records of an overview response are not in an array. -/
  | recordsNotInArray (field : String)
  /-- An overview response is neither an array nor an object. -/
  | noRecordContainer
  /-- A drawing surface has a reason of its own. -/
  | surface (reason : String)
  deriving DecidableEq, Repr

/-- Errors of the charts. -/
inductive ChartError where
  /-- The viewport has no area. -/
  | invalidViewport (width height : Nat)
  /-- Something cannot be used. -/
  | invalidData (flaw : Flaw)
  /-- A response lacks a field.  A chart then shows nothing. -/
  | missingData (field : String)
  /-- A request failed. -/
  | fetchFailed (reason : String)
  deriving DecidableEq, Repr

/-! ## Wording -/

/-- The name of a side. -/
def Side.name : Side → String
  | top => "top"
  | right => "right"
  | bottom => "bottom"
  | left => "left"

/-- The name of a channel. -/
def Channel.name : Channel → String
  | red => "red"
  | green => "green"
  | blue => "blue"
  | alpha => "alpha"

/-- The words for a quantity. -/
def Quantity.name : Quantity → String
  | extentValues => "extent values"
  | scaleDomain => "scale domain"
  | scaleRange => "scale range"
  | value => "value"
  | pixel => "pixel"
  | bandScaleWidth => "band scale width"
  | zoomFactor => "zoom factor"
  | zoomTranslation => "zoom translation"
  | transitionDuration => "transition duration"
  | margin side => side.name ++ " margin"
  | markerRadius => "marker radius"
  | captionFontSize => "caption font size"
  | tickFontSize => "tick font size"
  | titleFontSize => "title font size"
  | labelFontSize => "label font size"
  | legendFontSize => "legend font size"
  | zoomDuration => "zoom duration"
  | toggleDuration => "toggle duration"
  | clipPadding => "clip padding"
  | groupBuffer => "group buffer"
  | labelGap => "label gap"
  | colorChannel channel => "color channel `" ++ channel.name ++ "`"
  | lineCoordinates => "line coordinates"
  | lineStrokeWidth => "line stroke width"
  | rectOrigin => "rect origin"
  | rectSize => "rect size"
  | circleCenter => "circle center"
  | circleRadius => "circle radius"
  | textCoordinates => "text coordinates"
  | fontSize => "font size"

/-- What a requirement asks besides being finite. -/
def Requirement.addition : Requirement → String
  | finite => ""
  | positive => " and > 0"
  | nonnegative => " and >= 0"
  | nonzero => " and non-zero"
  | unitInterval => " and in [0, 1]"

/-- The text of a flaw. -/
def Flaw.message : Flaw → String
  | unmet q r => q.name ++ " must be finite" ++ r.addition
  | emptyExtent => "extent of empty data set"
  | noRoomForPlot => "margins leave no room for the plot"
  | noTicks => "tick counts must be > 0"
  | emptyText => "text primitive must not be empty"
  | unreadableScatterConfig => "failed to parse scatter chart config"
  | unreadableOverviewConfig => "failed to parse overview chart config"
  | unreadablePayload => "failed to parse chart payload"
  | malformedField field => "malformed `" ++ field ++ "`"
  | malformedRecord => "malformed overview record"
  | recordsNotInArray field => "`" ++ field ++ "` must be an array"
  | noRecordContainer => "overview payload must be an array or object"
  | surface reason => reason

/-- The text of an error. -/
def ChartError.message : ChartError → String
  | invalidViewport w h =>
    "invalid viewport size: width=" ++ toString w ++ ", height=" ++ toString h
  | invalidData flaw => "invalid data: " ++ flaw.message
  | missingData field => "missing data: `" ++ field ++ "`"
  | fetchFailed reason => "fetch failed: " ++ reason

/-! ## Checks -/

section
variable {α : Type} [Scalar α]

/-- Whether a number meets a requirement. -/
def Requirement.holds (r : Requirement) (x : α) : Bool :=
  Scalar.isFinite x && match r with
    | finite => true
    | positive => 0.0 < x
    | nonnegative => 0.0 ≤ x
    | nonzero => !(x == 0.0)
    | unitInterval => 0.0 ≤ x && x ≤ 1.0

/-- Passes if `holds`, fails with the flaw otherwise. -/
def Flaw.unless (flaw : Flaw) (holds : Bool) : Except ChartError Unit :=
  if holds then .ok () else .error (.invalidData flaw)

/-- Checks that all the numbers of a quantity meet a requirement. -/
def Quantity.require (q : Quantity) (r : Requirement) (xs : List α) : Except ChartError Unit :=
  (Flaw.unmet q r).unless (xs.all r.holds)

end

end CourseCharts
