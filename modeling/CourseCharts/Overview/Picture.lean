/-
  CourseCharts — the frame of an overview chart.

  A `Picture` is what the chart shows; `Picture.frame` draws it with given
  geometry.
-/
import CourseCharts.Drawing.Axis
import CourseCharts.Overview.Config
import CourseCharts.Overview.Layout

namespace CourseCharts.Overview

/-- Records with what they are grouped by, and the centers of their bands. -/
structure Picture (α : Type) where
  data : List Datum
  grouping : Grouping
  bandCenters : List (String × α)
  deriving Repr

variable {α : Type} [Scalar α]

/-- A swatch and a title for every category, beside the plot. -/
def legend (c : Config α) : Chrome α where
  lines := []
  rects := Category.all.map fun k =>
    ⟨0.0, c.margins.top + 50.0 + Scalar.ofNat k.index * 20.0, 15.0, 15.0, k.color, .none⟩
  labels := Category.all.map fun k =>
    ⟨k.title, 0.0 + 20.0, c.margins.top + 50.0 + Scalar.ofNat k.index * 20.0 + 10.0,
      c.legendFontSize, .black, .left, 0.0⟩

namespace Picture

/-- The background, the axis with the keys, its title and the legend. -/
def chrome (p : Picture α) (c : Config α) : Chrome α :=
  let plot := c.plotArea
  .background plot
    ++ .bottomAxis plot (p.bandCenters.map fun (key, x) => ⟨x, key⟩) c.tickFontSize
    ++ .bottomTitle plot p.grouping.title c.titleFontSize
    ++ legend c

/-- The rectangle of a bar. -/
def rect (p : Picture α) (c : Config α) (d : Datum) (k : Category) (b : Bar α) : Rect α where
  x := c.plotArea.left + b.x
  y := c.plotArea.top + b.y
  width := b.width
  height := b.height
  color := k.color
  link := {
    href := some (c.entityLink p.grouping d.key.text)
    tooltip := some (d.tooltip k) }

/-- The count of a bar. -/
def label (c : Config α) (d : Datum) (k : Category) (a : LabelAnchor α) : Label α where
  text := toString (d.count k)
  x := c.plotArea.left + a.x
  y := c.plotArea.top + a.y
  fontSize := c.labelFontSize
  color := .rgb 0.2 0.2 0.2
  align := .center
  rotation := 0.0

/-- The rectangles of a record. -/
def rects (p : Picture α) (c : Config α) (d : Datum) (e : EntityGeometry α) : List (Rect α) :=
  Category.all.map fun k => p.rect c d k (e.bars.get k)

/-- The counts of a record. -/
def labels (c : Config α) (d : Datum) (e : EntityGeometry α) : List (Label α) :=
  Category.all.map fun k => label c d k (e.labels.get k)

/-- The rectangles and the counts of all records. -/
def body (p : Picture α) (c : Config α) (es : List (EntityGeometry α)) : Body α where
  clip := none
  rects := (List.zipWith (p.rects c) p.data es).flatten
  circles := []
  labels := (List.zipWith (labels c) p.data es).flatten

/-- The frame of the records. -/
def frame (p : Picture α) (c : Config α) (es : List (EntityGeometry α)) : Frame α where
  viewport := c.viewport
  chrome := p.chrome c
  body := p.body c es

end Picture

end CourseCharts.Overview
