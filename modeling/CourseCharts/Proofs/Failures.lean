/-
  CourseCharts — how computations fail.

  * `FailsWith P` says of a computation that it fails with errors of the kind
    `P` only; its lemmas take a computation apart, as those of `Proofs.Checks`
    do for one that succeeds;
  * `Frame.fails_validate`: a frame can only be refused for a flaw or for its
    viewport; fitting data to a chart can only fail with a flaw;
  * `Scatter.Payload.fails_ofValue` and `Overview.Payload.fails_ofValue`: reading a
    response finds a missing field or a flaw, and nothing else.
-/
import CourseCharts.Drawing.Surface
import CourseCharts.Overview.Chart
import CourseCharts.Proofs.Checks
import CourseCharts.Scatter.Chart

namespace CourseCharts

/-- If the computation fails, then with an error of the kind `P`. -/
def FailsWith {β : Type} (P : ChartError → Prop) (r : Except ChartError β) : Prop :=
  ∀ e, r = .error e → P e

/-! ## Computations -/

section
variable {β γ : Type} {P Q : ChartError → Prop}

@[simp] theorem failsWith_ok {b : β} : FailsWith P (.ok b) := by
  intro e he
  cases he

@[simp] theorem failsWith_pure {b : β} : FailsWith P (pure b) := failsWith_ok

@[simp] theorem failsWith_error {e : ChartError} :
    FailsWith P (.error e : Except ChartError β) ↔ P e := by
  simp [FailsWith]

@[simp] theorem failsWith_throw {e : ChartError} :
    FailsWith P (throw e : Except ChartError β) ↔ P e := failsWith_error

@[simp] theorem failsWith_bind {x : Except ChartError β} {f : β → Except ChartError γ} :
    FailsWith P (x >>= f) ↔ FailsWith P x ∧ ∀ b, x = .ok b → FailsWith P (f b) := by
  cases x with
  | error e =>
    have hbind : ((.error e : Except ChartError β) >>= f) = .error e := rfl
    simp [hbind]
  | ok b =>
    have hbind : ((.ok b : Except ChartError β) >>= f) = f b := rfl
    simp [hbind]

@[simp] theorem failsWith_map {x : Except ChartError β} {f : β → γ} :
    FailsWith P (x.map f) ↔ FailsWith P x := by
  cases x <;> simp [Except.map]

@[simp] theorem failsWith_functor_map {x : Except ChartError β} {f : β → γ} :
    FailsWith P (f <$> x) ↔ FailsWith P x := failsWith_map

theorem FailsWith.mono {x : Except ChartError β} (h : FailsWith P x) (hPQ : ∀ e, P e → Q e) :
    FailsWith Q x := fun e he => hPQ e (h e he)

theorem FailsWith.mapM {f : β → Except ChartError γ} {xs : List β}
    (h : ∀ x ∈ xs, FailsWith P (f x)) : FailsWith P (xs.mapM f) := by
  induction xs with
  | nil => simp
  | cons x xs ih =>
    rw [List.forall_mem_cons] at h
    rw [List.mapM_cons, failsWith_bind]
    exact ⟨h.1, fun _ _ => failsWith_bind.2 ⟨ih h.2, fun _ _ => failsWith_pure⟩⟩

theorem FailsWith.forM {f : β → Except ChartError Unit} {xs : List β}
    (h : ∀ x ∈ xs, FailsWith P (f x)) : FailsWith P (xs.forM f) := by
  induction xs with
  | nil => exact failsWith_pure
  | cons x xs ih =>
    rw [List.forall_mem_cons] at h
    exact failsWith_bind.2 ⟨h.1, fun _ _ => ih h.2⟩

end

/-! ## Checks -/

/-- The error is a flaw of data, a configuration or a frame. -/
def ChartError.IsFlaw (e : ChartError) : Prop := ∃ flaw, e = .invalidData flaw

section
variable {α β : Type} [Scalar α]

@[simp] theorem ChartError.isFlaw_invalidData {flaw : Flaw} :
    (ChartError.invalidData flaw).IsFlaw := ⟨flaw, rfl⟩

@[simp] theorem Flaw.fails_unless {flaw : Flaw} {holds : Bool} :
    FailsWith ChartError.IsFlaw (flaw.unless holds) := by
  cases holds <;> simp [Flaw.unless]

@[simp] theorem Flaw.fails_orElse {flaw : Flaw} {o : Option β} :
    FailsWith ChartError.IsFlaw (flaw.orElse o) := by
  cases o <;> simp [Flaw.orElse]

@[simp] theorem Quantity.fails_require {q : Quantity} {r : Requirement} {xs : List α} :
    FailsWith ChartError.IsFlaw (q.require r xs) := Flaw.fails_unless

/-! ## Frames -/

@[simp] theorem Color.fails_validate {c : Color α} : FailsWith ChartError.IsFlaw c.validate := by
  simp [Color.validate]

theorem Line.fails_validate {l : Line α} : FailsWith ChartError.IsFlaw l.validate := by
  simp [Line.validate]

theorem Rect.fails_validate {r : Rect α} : FailsWith ChartError.IsFlaw r.validate := by
  simp [Rect.validate]

theorem Circle.fails_validate {c : Circle α} : FailsWith ChartError.IsFlaw c.validate := by
  simp [Circle.validate]

theorem Label.fails_validate {l : Label α} : FailsWith ChartError.IsFlaw l.validate := by
  simp [Label.validate]

/-- The error is not that a field is missing. -/
def ChartError.NotMissing (e : ChartError) : Prop := ∀ field, e ≠ .missingData field

theorem ChartError.IsFlaw.notMissing {e : ChartError} (h : e.IsFlaw) : e.NotMissing := by
  obtain ⟨flaw, rfl⟩ := h
  intro field he
  cases he

/-- A frame misses no field. -/
theorem Frame.fails_validate {f : Frame α} : FailsWith ChartError.NotMissing f.validate := by
  have hshapes {ι : Type} {check : ι → Except ChartError Unit} {xs : List ι}
      (h : ∀ x, FailsWith ChartError.IsFlaw (check x)) :
      FailsWith ChartError.NotMissing (xs.forM check) :=
    .forM fun x _ => (h x).mono fun _ he => he.notMissing
  have hviewport : FailsWith ChartError.NotMissing f.viewport.validate := by
    unfold Viewport.validate
    split
    next => exact failsWith_ok
    next =>
      refine failsWith_error.2 fun field he => ?_
      cases he
  simp only [Frame.validate, failsWith_bind]
  exact ⟨hviewport, fun _ _ => ⟨hshapes fun _ => Line.fails_validate, fun _ _ =>
    ⟨hshapes fun _ => Rect.fails_validate, fun _ _ => ⟨hshapes fun _ => Rect.fails_validate,
    fun _ _ => ⟨hshapes fun _ => Circle.fails_validate, fun _ _ =>
    ⟨hshapes fun _ => Label.fails_validate, fun _ _ => hshapes fun _ => Label.fails_validate⟩⟩⟩⟩⟩⟩

theorem drawValid_notMissing {σ : Type} {shown : Frame α → σ → σ} {f : Frame α} {s : σ} :
    FailsWith ChartError.NotMissing (drawValid shown f s).1 := by
  have h : FailsWith ChartError.NotMissing f.validate := f.fails_validate
  unfold drawValid
  split
  next => exact failsWith_ok
  next e he => exact failsWith_error.2 (h e he)

/-! ## Scales -/

@[simp] theorem LinearScale.fails_make? {domain range : α × α} :
    FailsWith ChartError.IsFlaw (make? domain range) := by
  simp [make?]

@[simp] theorem LinearScale.fails_toPixel? {s : LinearScale α} {x : α} :
    FailsWith ChartError.IsFlaw (s.toPixel? x) := by
  simp [toPixel?]

@[simp] theorem Extent.fails_fit? {xs : List α} : FailsWith ChartError.IsFlaw (fit? xs) := by
  cases xs <;> simp [fit?, raw?]

/-! ## Charts -/

/-- Points can only fail to fit for a flaw. -/
theorem Scatter.Chart.fails_fit? {σ : Type} {c : Scatter.Chart α σ} {d : Scatter.Dataset α} :
    FailsWith ChartError.IsFlaw (c.fit? d) := by
  have hmarkers (s : Scatter.Scales α) (show? : Bool) :
      FailsWith ChartError.IsFlaw (Scatter.Projection.markers? d.points s show?) :=
    .mapM fun p _ => by simp [Scatter.Marker.ofPoint?]
  have hticks (s : LinearScale α) (values : List α) :
      FailsWith ChartError.IsFlaw (Scatter.Projection.ticks? s values) :=
    .mapM fun x _ => by simp [Scatter.AxisTick.ofValue?]
  simp [fit?, Scatter.Scales.fit?, LinearScale.ofExtent?, Scatter.Projection.ofPoints?, hmarkers,
    hticks]

@[simp] theorem Overview.CategoryDomains.fails_height? {d : CategoryDomains α} {k : Category}
    {count : Nat} {span : α} : FailsWith ChartError.IsFlaw (d.height? k count span) := by
  unfold height?
  dsimp only
  split
  next => exact failsWith_pure
  next => simp

/-- Records can only fail to fit for a flaw. -/
theorem Overview.Chart.fails_fit? {σ : Type} {c : Overview.Chart α σ} {data : List Datum} :
    FailsWith ChartError.IsFlaw (c.fit? data) := by
  have hgeometry (l : Layout α) (a : Arrangement) :
      FailsWith ChartError.IsFlaw (l.geometry? a data) :=
    .mapM fun d _ => by simp [Layout.entity?]
  simp [fit?, Layout.make?, BandScale.make?, hgeometry]

/-! ## Responses -/

/-- The error is that a field is missing, or a flaw. -/
def ChartError.OfResponse (e : ChartError) : Prop := (∃ field, e = .missingData field) ∨ e.IsFlaw

theorem Flaw.ofResponse_orElse {β : Type} {flaw : Flaw} {o : Option β} :
    FailsWith ChartError.OfResponse (flaw.orElse o) := Flaw.fails_orElse.mono fun _ he => .inr he

theorem Response.fails_field {v : Json.Value} {name : String} :
    FailsWith ChartError.OfResponse (Response.field v name) := by
  unfold Response.field
  split
  next => exact failsWith_error.2 (.inl ⟨name, rfl⟩)
  next => exact failsWith_error.2 (.inl ⟨name, rfl⟩)
  next => exact failsWith_ok

theorem Scatter.Payload.fails_ofValue {v : Json.Value} :
    FailsWith ChartError.OfResponse (ofValue v : Except ChartError (Payload α)) := by
  simp [ofValue, Response.fails_field, Flaw.ofResponse_orElse]

end

theorem Overview.Payload.fails_ofValue {v : Json.Value} :
    FailsWith ChartError.OfResponse (ofValue v) := by
  have hrecords : FailsWith ChartError.OfResponse (records v) := by
    unfold records
    split
    next => exact failsWith_ok
    next members =>
      refine failsWith_bind.2 ⟨Response.fails_field, fun w _ => ?_⟩
      split
      next => exact failsWith_pure
      next => exact failsWith_throw.2 (.inr ⟨_, rfl⟩)
    next => exact failsWith_error.2 (.inl ⟨_, rfl⟩)
    next => exact failsWith_error.2 (.inr ⟨_, rfl⟩)
  have hdatum (w : Json.Value) : FailsWith ChartError.OfResponse (datum w) := by
    refine failsWith_bind.2 ⟨.forM fun name _ => ?_, fun _ _ => ?_⟩
    · exact failsWith_bind.2 ⟨Response.fails_field, fun _ _ => failsWith_pure⟩
    · exact Flaw.ofResponse_orElse
  exact failsWith_bind.2 ⟨hrecords, fun _ _ => .mapM fun w _ => hdatum w⟩

end CourseCharts
