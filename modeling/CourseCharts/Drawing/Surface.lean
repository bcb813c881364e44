/-
  CourseCharts — drawing surfaces.

  A surface is asked to show a frame instead of what it showed before, and may
  refuse it.

  * `HeadlessSurface` keeps the last frame, `SvgSurface` its markup; both
    accept exactly the valid frames, and stay as they are otherwise.
-/
import CourseCharts.Drawing.Svg

namespace CourseCharts

/-- Surfaces for frames with numbers of `α`. -/
class Surface (σ α : Type) where
  /-- Shows a frame, or refuses it. -/
  draw : Frame α → σ → Except ChartError Unit × σ

/-- A surface that shows nothing and remembers what it was asked to show. -/
structure HeadlessSurface (α : Type) where
  /-- The number of frames accepted. -/
  draws : Nat
  /-- The number of shapes of the last one. -/
  shapes : Nat
  /-- The last frame. -/
  frame : Option (Frame α)
  deriving Repr

/-- Nothing has been shown. -/
def HeadlessSurface.initial {α : Type} : HeadlessSurface α := ⟨0, 0, none⟩

/-- A surface that writes an SVG document. -/
structure SvgSurface where
  /-- The name of the surface on its page. -/
  id : String
  /-- The document of the last frame; empty before the first. -/
  markup : String
  deriving DecidableEq, Repr

/-- Nothing has been shown. -/
def SvgSurface.initial (id : String) : SvgSurface := ⟨id, ""⟩

/-- Shows a valid frame as `shown` says, and refuses others. -/
def drawValid {α σ : Type} [Scalar α] (shown : Frame α → σ → σ) (f : Frame α) (s : σ) :
    Except ChartError Unit × σ :=
  match f.validate with
  | .ok () => (.ok (), shown f s)
  | .error e => (.error e, s)

variable {α : Type} [Scalar α]

instance : Surface (HeadlessSurface α) α where
  draw := drawValid fun f s => ⟨s.draws + 1, f.size, some f⟩

instance : Surface SvgSurface α where
  draw := drawValid fun f s => { s with markup := (Svg.document s.id f).render }

end CourseCharts
