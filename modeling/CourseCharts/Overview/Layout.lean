/-
  CourseCharts — the geometry of an overview chart.

  * `Layout` fits a band to every key and a height to the greatest count of
    every category;
  * `Layout.geometry?` places the bars of the records in an arrangement.  In
    both arrangements the bars of a count have the same area: a stacked bar is
    three times as wide as a grouped one and a third as high.
-/
import CourseCharts.Motion.Blend
import CourseCharts.Overview.Datum
import CourseCharts.Scale.Band
import CourseCharts.Scale.Linear

namespace CourseCharts.Overview

/-- A bar in pixels of the plot; `y` is its upper edge. -/
structure Bar (α : Type) where
  x : α
  y : α
  width : α
  height : α
  deriving Repr

/-- The middle of the baseline of a count. -/
structure LabelAnchor (α : Type) where
  x : α
  y : α
  deriving Repr

/-- The bars of a record and the places of their counts. -/
structure EntityGeometry (α : Type) where
  bars : PerCategory (Bar α)
  labels : PerCategory (LabelAnchor α)
  deriving Repr

/-- The greatest count of every category. -/
structure CategoryDomains (α : Type) where
  maxima : PerCategory α
  deriving Repr

/-- Bands for the keys and domains for the categories of some records, over a
    plot. -/
structure Layout (α : Type) where
  bands : BandScale α
  domains : CategoryDomains α
  plotHeight : α
  groupBuffer : α
  labelGap : α
  deriving Repr

variable {α : Type} [Scalar α]

/-! ## Bars -/

/-- The area of a bar. -/
def Bar.area (b : Bar α) : α := b.width * b.height

/-- The middle of a bar. -/
def Bar.centerX (b : Bar α) : α := b.x + b.width / 2.0

/-- Where the count of a bar stands, `gap` pixels above it. -/
def Bar.anchor (b : Bar α) (gap : α) : LabelAnchor α := ⟨b.centerX, b.y - gap⟩

/-- The area of the three bars. -/
def EntityGeometry.area (e : EntityGeometry α) : α :=
  e.bars.submissions.area + e.bars.snapshots.area + e.bars.launches.area

instance : Blend (Bar α) α where
  blend a b t := ⟨blend a.x b.x t, blend a.y b.y t, blend a.width b.width t,
    blend a.height b.height t⟩

instance : Blend (LabelAnchor α) α where
  blend a b t := ⟨blend a.x b.x t, blend a.y b.y t⟩

instance : Blend (EntityGeometry α) α where
  blend a b t := ⟨blend a.bars b.bars t, blend a.labels b.labels t⟩

/-! ## Heights -/

namespace CategoryDomains

/-- The domains of some records. -/
def ofData (data : List Datum) : CategoryDomains α :=
  ⟨.ofFn fun c => (Extent.ofCounts (data.map (·.count c)) : Extent α).max⟩

/-- The height of a count, where the greatest count has the height `span`.  In
    a category without any activity all bars have height zero. -/
def height? (d : CategoryDomains α) (c : Category) (count : Nat) (span : α) :
    Except ChartError α := do
  let max := d.maxima.get c
  if max ≤ 0.0 then return 0.0
  let s ← LinearScale.make? (0.0, max) (0.0, span)
  s.toPixel? (Scalar.ofNat count)

end CategoryDomains

/-! ## Layouts -/

namespace Layout

/-- The layout of some records. -/
def make? (data : List Datum) (plot : PlotArea α) (groupBuffer labelGap : α) :
    Except ChartError (Layout α) := do
  return {
    bands := ← BandScale.make? (data.map (·.key.text)) plot.width
    domains := .ofData data
    plotHeight := plot.height
    groupBuffer, labelGap }

/-- The width of a band that bars can use. -/
def innerWidth (l : Layout α) : α :=
  Scalar.larger (l.bands.bandwidth - 2.0 * l.groupBuffer) 0.0

/-- The height of the greatest count. -/
def span (l : Layout α) : Arrangement → α
  | .stacked => l.plotHeight / 3.0
  | .grouped => l.plotHeight

/-- Bars of the given heights on top of each other. -/
def stackedBars (l : Layout α) (left : α) (heights : PerCategory α) : PerCategory (Bar α) :=
  let y₁ := l.plotHeight - heights.submissions
  let y₂ := y₁ - heights.snapshots
  let y₃ := y₂ - heights.launches
  { submissions := ⟨left, y₁, l.innerWidth, heights.submissions⟩
    snapshots := ⟨left, y₂, l.innerWidth, heights.snapshots⟩
    launches := ⟨left, y₃, l.innerWidth, heights.launches⟩ }

/-- Bars of the given heights side by side. -/
def groupedBars (l : Layout α) (left : α) (heights : PerCategory α) : PerCategory (Bar α) :=
  let width := l.innerWidth / 3.0
  .ofFn fun c =>
    ⟨left + Scalar.ofNat c.index * width, l.plotHeight - heights.get c, width, heights.get c⟩

/-- The bars of a record and the places of its counts. -/
def entity? (l : Layout α) (a : Arrangement) (d : Datum) :
    Except ChartError (EntityGeometry α) := do
  let left := (l.bands.position? d.key.text).getD 0.0 + l.groupBuffer
  let heights : PerCategory α := {
    submissions := ← l.domains.height? .submissions (d.count .submissions) (l.span a)
    snapshots := ← l.domains.height? .snapshots (d.count .snapshots) (l.span a)
    launches := ← l.domains.height? .launches (d.count .launches) (l.span a) }
  let bars := match a with
    | .stacked => l.stackedBars left heights
    | .grouped => l.groupedBars left heights
  return ⟨bars, bars.map (·.anchor l.labelGap)⟩

/-- The geometry of some records, in their order. -/
def geometry? (l : Layout α) (a : Arrangement) (data : List Datum) :
    Except ChartError (List (EntityGeometry α)) :=
  data.mapM (l.entity? a)

end Layout

end CourseCharts.Overview
