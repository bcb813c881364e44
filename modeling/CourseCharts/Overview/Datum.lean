/-
  CourseCharts — the records of an overview chart.

  A `Datum` counts the activity of one project or user in each `Category`.
-/
import CourseCharts.Drawing.Color
import CourseCharts.Json.Settings
import CourseCharts.Motion.Blend
import CourseCharts.Record

namespace CourseCharts.Overview

/-- The three kinds of activity, from the bottom of the bars to the top. -/
inductive Category where
  | submissions
  | snapshots
  | launches
  deriving DecidableEq, Repr

namespace Category

/-- The categories in order. -/
def all : List Category := [submissions, snapshots, launches]

/-- The place in the order. -/
def index : Category → Nat
  | submissions => 0
  | snapshots => 1
  | launches => 2

/-- The name in the legend. -/
def title : Category → String
  | submissions => "Submissions"
  | snapshots => "Snapshots"
  | launches => "Launches"

/-- The name after a count. -/
def noun : Category → String
  | submissions => "submissions"
  | snapshots => "snapshots"
  | launches => "launches"

/-- The color of the bars. -/
def color {α : Type} [Scalar α] : Category → Color α
  | submissions => .rgb8 0x1f 0x77 0xb4
  | snapshots => .rgb8 0xff 0x7f 0x0e
  | launches => .rgb8 0x2c 0xa0 0x2c

end Category

/-- Something for each category. -/
structure PerCategory (β : Type) where
  submissions : β
  snapshots : β
  launches : β
  deriving DecidableEq, Repr

namespace PerCategory

variable {α β γ : Type}

/-- What belongs to a category. -/
def get (p : PerCategory β) : Category → β
  | .submissions => p.submissions
  | .snapshots => p.snapshots
  | .launches => p.launches

/-- A function of the category. -/
def ofFn (f : Category → β) : PerCategory β :=
  ⟨f .submissions, f .snapshots, f .launches⟩

/-- The three in order. -/
def toList (p : PerCategory β) : List β := [p.submissions, p.snapshots, p.launches]

/-- A function applied to each. -/
def map (f : β → γ) (p : PerCategory β) : PerCategory γ :=
  ⟨f p.submissions, f p.snapshots, f p.launches⟩

instance [Blend β α] : Blend (PerCategory β) α where
  blend a b t :=
    ⟨blend a.submissions b.submissions t, blend a.snapshots b.snapshots t,
      blend a.launches b.launches t⟩

end PerCategory

/-- The counts of one project or user. -/
structure Datum where
  key : RecordKey
  counts : PerCategory Nat
  deriving DecidableEq, Repr

namespace Datum

/-- The count of a category. -/
def count (d : Datum) (c : Category) : Nat := d.counts.get c

/-- The tooltip of a bar. -/
def tooltip (d : Datum) (c : Category) : String :=
  d.key.text ++ "\n" ++ toString (d.count c) ++ " " ++ c.noun

open Json in
/-- A record as it is sent. -/
def read? {τ : Type} [Readable τ] (t : τ) : Option Datum := do
  let fs ← record? ["key", "submissions", "snapshots", "launches"] t
  return {
    key := ← fs.required? "key" RecordKey.read?
    counts := ⟨← fs.required? "submissions" count64?, ← fs.required? "snapshots" count64?,
      ← fs.required? "launches" count64?⟩ }

open Json in
/-- A record as it is saved. -/
def write (d : Datum) : Value :=
  .object [("key", .string d.key.text), ("submissions", .ofNat d.counts.submissions),
    ("snapshots", .ofNat d.counts.snapshots), ("launches", .ofNat d.counts.launches)]

end Datum

end CourseCharts.Overview
