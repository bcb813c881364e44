/-
  CourseCharts — what a surface shows.

  Both surfaces take exactly the valid frames, and what they show afterwards is
  known from the last one they took.

  * `Surface.Strict`: no other frame is taken;
  * `Surface.AnswerAlike` relates surfaces that take the same frames;
  * `SvgSurface.answerAlike`: a document and a frame that is kept do, and the
    document stays that of the frame;
  * a `Recorder` is a surface with the frames it was asked to show, and answers as
    that surface does; the frame that is kept is the last one it accepted.
-/
import CourseCharts.Drawing.Surface

namespace CourseCharts

variable {α σ : Type} [Scalar α]

/-- A valid frame is shown. -/
theorem drawValid_valid {shown : Frame α → σ → σ} {f : Frame α} (h : f.validate = .ok ())
    (s : σ) : drawValid shown f s = (.ok (), shown f s) := by
  simp [drawValid, h]

/-- A frame that is taken is shown. -/
theorem drawValid_taken {shown : Frame α → σ → σ} {f : Frame α} {s : σ} {u : Unit}
    (h : (drawValid shown f s).1 = .ok u) : (drawValid shown f s).2 = shown f s := by
  unfold drawValid at h ⊢
  split
  next => rfl
  next e he =>
    rw [he] at h
    cases h

/-- A frame that is not valid is refused, and changes nothing. -/
theorem drawValid_invalid {shown : Frame α → σ → σ} {f : Frame α} {e : ChartError}
    (h : f.validate = .error e) (s : σ) : drawValid shown f s = (.error e, s) := by
  simp [drawValid, h]

theorem drawValid_refused {shown : Frame α → σ → σ} {f : Frame α} {e : ChartError}
    (h : f.validate = .error e) (s : σ) : (drawValid shown f s).1 = .error e :=
  congrArg Prod.fst (drawValid_invalid h s)

/-- The surface refuses every frame that is not valid. -/
def Surface.Strict (σ α : Type) [Scalar α] [Surface σ α] : Prop :=
  ∀ (f : Frame α) (s : σ) (e : ChartError), f.validate = .error e →
    (Surface.draw f s).1 = .error e

namespace HeadlessSurface

theorem strict : Surface.Strict (HeadlessSurface α) α := fun _ s _ h => drawValid_refused h s

theorem draw_valid {f : Frame α} (h : f.validate = .ok ()) (s : HeadlessSurface α) :
    Surface.draw f s = (.ok (), ⟨s.draws + 1, f.size, some f⟩) :=
  drawValid_valid h s

theorem draw_refused {f : Frame α} {e : ChartError} (h : f.validate = .error e)
    (s : HeadlessSurface α) : Surface.draw f s = (.error e, s) :=
  drawValid_invalid h s

theorem frame_of_draw {f : Frame α} {s : HeadlessSurface α} {u : Unit}
    (h : (Surface.draw f s).1 = .ok u) : (Surface.draw f s).2.frame = some f :=
  congrArg HeadlessSurface.frame (drawValid_taken h)

end HeadlessSurface

namespace SvgSurface

theorem strict : Surface.Strict SvgSurface α := fun _ s _ h => drawValid_refused h s

theorem draw_valid {f : Frame α} (h : f.validate = .ok ()) (s : SvgSurface) :
    Surface.draw f s = (.ok (), { s with markup := (Svg.document s.id f).render }) :=
  drawValid_valid h s

theorem draw_refused {f : Frame α} {e : ChartError} (h : f.validate = .error e)
    (s : SvgSurface) : Surface.draw f s = (.error e, s) :=
  drawValid_invalid h s

end SvgSurface

/-! ## Surfaces that answer alike -/

/-- Surfaces in this relation give the same answers, and stay in it. -/
def Surface.AnswerAlike (α : Type) {σ τ : Type} [Surface σ α] [Surface τ α]
    (R : σ → τ → Prop) : Prop :=
  ∀ (f : Frame α) (s : σ) (t : τ), R s t →
    (Surface.draw f t).1 = (Surface.draw f s).1 ∧ R (Surface.draw f s).2 (Surface.draw f t).2

/-- A surface with all the frames it was asked to show, and its answers. -/
structure Recorder (σ α : Type) where
  surface : σ
  calls : List (Frame α × Except ChartError Unit)

instance {α σ : Type} [Surface σ α] : Surface (Recorder σ α) α where
  draw f r :=
    let (answer, surface) := Surface.draw f r.surface
    (answer, ⟨surface, r.calls ++ [(f, answer)]⟩)

/-- A surface gives the same answers while it is recorded. -/
theorem Recorder.answerAlike {α σ : Type} [Surface σ α] :
    Surface.AnswerAlike α fun (s : σ) (r : Recorder σ α) => r.surface = s := by
  rintro f _ r rfl
  exact ⟨rfl, rfl⟩

/-- The frames that the surface accepted. -/
def Recorder.accepted {α σ : Type} (r : Recorder σ α) : List (Frame α) :=
  r.calls.filterMap fun (f, answer) => answer.toOption.map fun _ => f

/-- The frame that is kept is the last one that was accepted. -/
theorem HeadlessSurface.answerAlike_accepted :
    Surface.AnswerAlike α fun (s : HeadlessSurface α) (r : Recorder (HeadlessSurface α) α) =>
      r.surface = s ∧ s.frame = r.accepted.getLast? := by
  rintro f _ r ⟨rfl, hframe⟩
  refine ⟨rfl, rfl, ?_⟩
  cases h : f.validate with
  | ok =>
    have hdraw := HeadlessSurface.draw_valid h r.surface
    have haccepted : (Surface.draw f r).2.accepted = r.accepted ++ [f] := by
      simp [Surface.draw, Recorder.accepted, drawValid_valid h, Except.toOption]
    rw [haccepted, hdraw, List.getLast?_concat]
  | error e =>
    have haccepted : (Surface.draw f r).2.accepted = r.accepted := by
      simp [Surface.draw, Recorder.accepted, drawValid_refused h, Except.toOption]
    have hdraw := HeadlessSurface.draw_refused h r.surface
    rw [haccepted, hdraw, ← hframe]

/-- The document of the frame that is kept; nothing before the first one. -/
def SvgSurface.showing (id : String) (s : HeadlessSurface α) : SvgSurface where
  id := id
  markup :=
    match s.frame with
    | none => ""
    | some f => (Svg.document id f).render

/-- A surface that writes a document answers as one that keeps the frame, and its document is
    always that of the frame. -/
theorem SvgSurface.answerAlike (id : String) :
    Surface.AnswerAlike α fun (s : HeadlessSurface α) (t : SvgSurface) => t = .showing id s := by
  rintro f s _ rfl
  cases h : f.validate with
  | ok =>
    rw [HeadlessSurface.draw_valid h, SvgSurface.draw_valid h]
    exact ⟨rfl, rfl⟩
  | error e =>
    rw [HeadlessSurface.draw_refused h, SvgSurface.draw_refused h]
    exact ⟨rfl, rfl⟩

end CourseCharts
