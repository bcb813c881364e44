/-
  CourseCharts — frames as SVG documents.

  * `Svg.number` writes a length in hundredths of a pixel;
  * `Svg.document` is the document of a frame: the chrome, and then the body
    in a group of its own.  A shape with a link is wrapped in an anchor, and
    one that only has a tooltip in a group, with the tooltip as its title.
-/
import CourseCharts.Drawing.Frame
import CourseCharts.Drawing.Xml

namespace CourseCharts.Svg

variable {α : Type} [Scalar α]

/-- A length, rounded to hundredths.  Zero has no sign. -/
def number (x : α) : String :=
  let rounded := Scalar.round (x * 100.0) / 100.0
  if rounded == 0.0 then "0" else Scalar.text rounded

/-- The opacity of a color that is not opaque. -/
def opacity (name : String) (c : Color α) : List (String × String) :=
  if 1.0 ≤ c.alpha then [] else [(name, number c.alpha)]

/-- The fill of a shape. -/
def fill (c : Color α) : List (String × String) :=
  ("fill", c.hex) :: opacity "fill-opacity" c

/-- A rectangle. -/
def rect (r : Rect α) : Xml :=
  .leaf "rect" <|
    [("x", number r.x), ("y", number r.y), ("width", number r.width),
      ("height", number r.height)] ++ fill r.color

/-- A circle. -/
def circle (c : Circle α) : Xml :=
  .leaf "circle" <|
    [("cx", number c.x), ("cy", number c.y), ("r", number c.radius)] ++ fill c.color

/-- A line. -/
def line (l : Line α) : Xml :=
  .leaf "line" <|
    [("x1", number l.x1), ("y1", number l.y1), ("x2", number l.x2), ("y2", number l.y2),
      ("stroke", l.color.hex), ("stroke-width", number l.width)] ++
    opacity "stroke-opacity" l.color

/-- The anchor of a text. -/
def anchor : Alignment → String
  | .left => "start"
  | .center => "middle"
  | .right => "end"

/-- The rotation of a label that is turned. -/
def rotation (l : Label α) : List (String × String) :=
  if l.rotation == 0.0 then []
  else
    [("transform",
      "rotate(" ++ number l.rotation ++ " " ++ number l.x ++ " " ++ number l.y ++ ")")]

/-- A label. -/
def label (l : Label α) : Xml :=
  .element "text"
    ([("x", number l.x), ("y", number l.y), ("font-size", number l.fontSize ++ "px"),
      ("text-anchor", anchor l.align)] ++ fill l.color ++ rotation l)
    [.text l.text]

/-- A tooltip as the title of what it belongs to. -/
def title (tooltip : String) : Xml := .element "title" [] [.text tooltip]

/-- A shape with its link. -/
def linked (link : Link) (shape : Xml) : Xml :=
  match link.href, link.tooltip with
  | none, none => shape
  | none, some tooltip => .element "g" [] [title tooltip, shape]
  | some href, none => .element "a" [("xlink:href", href)] [shape]
  | some href, some tooltip => .element "a" [("xlink:href", href)] [title tooltip, shape]

/-- The shapes of a body. -/
def bodyShapes (b : Body α) : List Xml :=
  b.rects.map (fun r => linked r.link (rect r)) ++
    b.circles.map (fun c => linked c.link (circle c)) ++ b.labels.map label

/-- The group of a body, if it has shapes; the rectangle it is cut to comes
    first. -/
def bodyGroup (id : String) (b : Body α) : List Xml :=
  if b.size = 0 then []
  else
    match b.clip with
    | none => [.element "g" [] (bodyShapes b)]
    | some c =>
      let clipId := id ++ "-clip"
      let area := [("x", number c.x), ("y", number c.y), ("width", number c.width),
        ("height", number c.height)]
      [.element "defs" [] [.element "clipPath" [("id", clipId)] [.leaf "rect" area]],
        .element "g" [("clip-path", "url(#" ++ clipId ++ ")")] (bodyShapes b)]

/-- The document of a frame; `id` tells the charts of a page apart. -/
def document (id : String) (f : Frame α) : Xml :=
  .element "svg"
    [("xmlns", "http://www.w3.org/2000/svg"), ("xmlns:xlink", "http://www.w3.org/1999/xlink"),
      ("id", id), ("width", toString f.viewport.width), ("height", toString f.viewport.height)]
    (f.chrome.rects.map rect ++ f.chrome.lines.map line ++ f.chrome.labels.map label ++
      bodyGroup id f.body)

end CourseCharts.Svg
