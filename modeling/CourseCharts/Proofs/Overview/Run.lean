/-
  CourseCharts — runs of an overview chart.

  * `Operation.perform` is one operation, `Chart.after` the chart after some,
    whatever they returned and whatever the surface refused;
  * overview charts are `Animated`, so that the clocks of their animations are
    known to move as in all such charts;
  * `lastRendered` are the records that were rendered last;
  * `Step` lists what an operation can do to a chart: nothing, render some
    records, toggle the arrangement, or move the clock; `Operation.step` says
    that it does nothing else.
-/
import CourseCharts.Overview.Chart
import CourseCharts.Proofs.Animated
import CourseCharts.Proofs.Overview.Layout

namespace CourseCharts.Overview

/-! ## Operations -/

/-- What a host does with a chart. -/
inductive Operation (α : Type) where
  | render (data : List Datum) (grouping : Grouping)
  | renderPayload (response : Json.Value) (grouping : Grouping)
  | toggle
  | handle (input : UserInput)
  | advance (time : α)
  | finish

namespace Operation

section
variable {α : Type}

/-- Whether the operation changes the arrangement. -/
def toggles : Operation α → Bool
  | toggle => true
  | handle .chartBody => true
  | _ => false

/-- The records that the operation renders. -/
def rendered? : Operation α → Option (List Datum × Grouping)
  | render data grouping => some (data, grouping)
  | renderPayload response grouping =>
    match Payload.ofValue response with
    | .ok data => some (data, grouping)
    | .error (.missingData _) => some ([], grouping)
    | .error _ => none
  | _ => none

/-- The counts of the records that are rendered have 64 bits. -/
def Counted : Operation α → Prop
  | render data _ => ∀ d ∈ data, d.Counted
  | _ => True

/-- Runs whose records are counted, operation by operation. -/
theorem counted_induction {P : List (Operation α) → Prop} (nil : P [])
    (concat : ∀ ops op, (∀ o ∈ ops, o.Counted) → op.Counted → P ops → P (ops ++ [op]))
    {ops : List (Operation α)} (hops : ∀ op ∈ ops, op.Counted) : P ops := by
  induction ops using List.reverseRecOn with
  | nil => exact nil
  | append_singleton ops op ih =>
    rw [List.forall_mem_append, List.forall_mem_singleton] at hops
    exact concat ops op hops.1 hops.2 (ih hops.1)

theorem Counted.rendered {op : Operation α} (h : op.Counted) {data : List Datum}
    {grouping : Grouping} (hr : op.rendered? = some (data, grouping)) :
    ∀ d ∈ data, d.Counted := by
  cases op with
  | render data' grouping' =>
    cases hr
    exact h
  | renderPayload response grouping' =>
    simp only [rendered?] at hr
    split at hr
    next hpayload =>
      cases hr
      exact Payload.counted_of_ofValue hpayload
    next =>
      cases hr
      intro d hd
      cases hd
    next => cases hr
  | _ => cases hr

end

variable {α σ : Type} [Scalar α] [Surface σ α]

/-- The result of an operation that gives what it is told to, and the chart
    after it. -/
def perform (op : Operation α) (c : Chart α σ) :
    Except ChartError (Option (Arrangement ⊕ Bool)) × Chart α σ :=
  match op with
  | render data grouping => silent (c.render data grouping)
  | renderPayload response grouping => silent (c.renderPayload response grouping)
  | toggle => (c.toggle.1.map (some ∘ .inl), c.toggle.2)
  | handle input => silent (c.handle input)
  | advance time => ((c.advance time).1.map (some ∘ .inr), (c.advance time).2)
  | finish => silent c.finish
where
  silent (r : Except ChartError Unit × Chart α σ) := (r.1.map fun _ => none, r.2)

end Operation

/-- The records that were rendered last. -/
def lastRendered {α : Type} (ops : List (Operation α)) : Option (List Datum × Grouping) :=
  (ops.filterMap Operation.rendered?).getLast?

theorem lastRendered_concat {α : Type} (ops : List (Operation α)) (op : Operation α) :
    lastRendered (ops ++ [op]) = op.rendered?.or (lastRendered ops) := by
  unfold lastRendered
  rw [List.filterMap_append]
  cases h : op.rendered? with
  | none => simp [h]
  | some r => simp [h]

namespace Chart

instance {α : Type} [Scalar α] : Animated (Chart α) α (List (EntityGeometry α)) where
  surface := Chart.surface
  animation := Chart.animation
  update c a t := ⟨t, c.config, c.presentation, c.data, c.grouping, c.layout, c.geometry, a⟩
  frameAt c a := c.frameOf a.current
  surface_update _ _ _ := rfl
  animation_update _ _ _ := rfl
  frameAt_update _ _ _ := rfl
  update_update _ _ _ _ _ := rfl
  update_self _ := rfl

variable {α σ : Type} [Scalar α]

theorem make?_eq_ok {surface : σ} {config : Config α} {c : Chart α σ} :
    make? surface config = .ok c ↔ config.validate = .ok () ∧ c =
      ⟨surface, config, ⟨false, config.initialArrangement⟩, [], .project, none, [], none⟩ := by
  simp only [make?, bind_eq_ok, pure_eq_ok]
  constructor
  · rintro ⟨u, hu, rfl⟩
    exact ⟨hu, rfl⟩
  · rintro ⟨hu, rfl⟩
    exact ⟨(), hu, rfl⟩

/-- The chart with the default configuration, in exact arithmetic. -/
theorem make?_standard_rat {σ : Type} (surface : σ) :
    make? surface (Config.standard : Config Rat) =
      .ok ⟨surface, .standard, ⟨false, .stacked⟩, [], .project, none, [], none⟩ := by
  have hvalid : (Config.standard : Config Rat).validate = .ok () := by decide +kernel
  exact make?_eq_ok.2 ⟨hvalid, rfl⟩

theorem fit?_eq_ok {c : Chart α σ} {data : List Datum} {l : Layout α}
    {es : List (EntityGeometry α)} :
    c.fit? data = .ok (l, es) ↔
      Layout.make? data c.config.plotArea c.config.groupBuffer c.config.labelGap = .ok l ∧
        l.geometry? c.arrangement data = .ok es := by
  simp only [fit?, bind_eq_ok, pure_eq_ok, Prod.mk.injEq]
  constructor
  · rintro ⟨l, hl, es, hes, rfl, rfl⟩
    exact ⟨hl, hes⟩
  · rintro ⟨hl, hes⟩
    exact ⟨l, hl, es, hes, rfl, rfl⟩

theorem arrange?_eq_ok {c : Chart α σ} {l : Layout α} {es : List (EntityGeometry α)}
    {a : Transition (List (EntityGeometry α)) α} :
    c.arrange? l = .ok (es, a) ↔
      l.geometry? c.arrangement c.data = .ok es ∧
        Transition.make? c.shown es c.config.toggleDuration c.config.toggleEasing = .ok a := by
  simp only [arrange?, bind_eq_ok, pure_eq_ok, Prod.mk.injEq]
  constructor
  · rintro ⟨es, hes, a, ha, rfl, rfl⟩
    exact ⟨hes, ha⟩
  · rintro ⟨hes, ha⟩
    exact ⟨es, hes, a, ha, rfl, rfl⟩

variable [Surface σ α]

/-- The chart after some operations. -/
def after (c : Chart α σ) (ops : List (Operation α)) : Chart α σ := run Operation.perform c ops

@[simp] theorem after_nil (c : Chart α σ) : c.after [] = c := rfl

@[simp] theorem after_concat (c : Chart α σ) (ops : List (Operation α)) (op : Operation α) :
    c.after (ops ++ [op]) = (op.perform (c.after ops)).2 := run_concat _ c ops op

/-! ## Spec lemmas of the operations -/

/-- The clock is moved as in all animated charts. -/
theorem advance_animated (time : α) (c : Chart α σ) :
    c.advance time = Animated.advance time c := by
  obtain ⟨surface, config, presentation, data, grouping, layout, geometry, _ | a⟩ := c <;> rfl

theorem finish_animated (c : Chart α σ) : c.finish = Animated.finish c := by
  obtain ⟨surface, config, presentation, data, grouping, layout, geometry, _ | a⟩ := c <;> rfl

theorem advance_none {c : Chart α σ} (h : c.animation = none) (time : α) :
    (c.advance time).2 = c :=
  advance_animated time c ▸ Animated.advance_none h time

theorem advance_some {c : Chart α σ} {a : Transition (List (EntityGeometry α)) α}
    (h : c.animation = some a) (time : α) :
    ∃ surface, (c.advance time).2 = { c with
      animation := if (a.advance time).isFinished then none else some (a.advance time)
      surface } :=
  advance_animated time c ▸ Animated.advance_some h time

theorem advance_eq (c : Chart α σ) (time : α) :
    ∃ animation surface, (c.advance time).2 = { c with animation, surface } :=
  advance_animated time c ▸ Animated.advance_eq c time

theorem animation_of_advance {c : Chart α σ} {time : α}
    {a : Transition (List (EntityGeometry α)) α} (h : (c.advance time).2.animation = some a) :
    ∃ a₀, c.animation = some a₀ ∧ a = a₀.advance time ∧ a.isFinished = false := by
  rw [advance_animated] at h
  exact Animated.animation_of_advance (c := c) h

/-- Rendered records are laid out, if they can be. -/
theorem render_cases (data : List Datum) (grouping : Grouping) (c : Chart α σ) :
    (data = [] ∧ ∃ surface, (c.render data grouping).2 =
      { c with data, grouping, layout := none, geometry := [], animation := none, surface }) ∨
    (data ≠ [] ∧ ∃ e, c.fit? data = .error e) ∨
    (data ≠ [] ∧ ∃ l es surface, c.fit? data = .ok (l, es) ∧ (c.render data grouping).2 =
      { c with data, grouping, layout := some l, geometry := es, animation := none, surface }) := by
  unfold render
  dsimp only
  split
  next hdata => exact .inl ⟨List.isEmpty_iff.1 hdata, _, rfl⟩
  next hdata =>
    have hdata' : data ≠ [] := fun h => hdata (List.isEmpty_iff.2 h)
    split
    next e hfit => exact .inr (.inl ⟨hdata', e, hfit⟩)
    next l es hfit => exact .inr (.inr ⟨hdata', l, es, _, hfit, rfl⟩)

/-- The records are replaced, also if they cannot be laid out. -/
theorem render_eq (data : List Datum) (grouping : Grouping) (c : Chart α σ) :
    ∃ layout geometry surface, (c.render data grouping).2 =
      { c with data, grouping, layout, geometry, animation := none, surface } := by
  unfold render
  dsimp only
  split
  next => exact ⟨none, [], _, rfl⟩
  next =>
    split
    next => exact ⟨none, [], c.surface, rfl⟩
    next l es _ => exact ⟨some l, es, _, rfl⟩

/-- Without a layout, a toggle only changes the arrangement. -/
theorem toggle_none {c : Chart α σ} (h : c.layout = none) :
    c.toggle.2 = { c with presentation := c.presentation.toggleArrangement } := by
  simp only [toggle, h]

/-- A toggle that can be made starts an animation, and draws its start. -/
theorem toggle_animated {c : Chart α σ} {l : Layout α} (h : c.layout = some l)
    {es : List (EntityGeometry α)} {a : Transition (List (EntityGeometry α)) α}
    (ha : Chart.arrange? { c with presentation := c.presentation.toggleArrangement } l
      = .ok (es, a)) :
    let c' := { c with
      presentation := c.presentation.toggleArrangement
      geometry := es
      animation := some a }
    c.toggle = ((c'.advance 0.0).1.map fun _ => c'.arrangement, (c'.advance 0.0).2) := by
  obtain ⟨surface, config, presentation, data, grouping, layout, geometry, animation⟩ := c
  cases h
  simp only [toggle, ha]

theorem toggle_some {c : Chart α σ} {l : Layout α} (h : c.layout = some l)
    {es : List (EntityGeometry α)} {a : Transition (List (EntityGeometry α)) α}
    (ha : Chart.arrange? { c with presentation := c.presentation.toggleArrangement } l
      = .ok (es, a)) :
    c.toggle.2 = (Chart.advance 0.0 { c with
      presentation := c.presentation.toggleArrangement
      geometry := es
      animation := some a }).2 :=
  congrArg Prod.snd (toggle_animated h ha)

/-- The arrangement is changed, also if the records cannot be laid out in the new one. -/
theorem toggle_eq (c : Chart α σ) :
    ∃ geometry animation surface, c.toggle.2 = { c with
      presentation := c.presentation.toggleArrangement, geometry, animation, surface } := by
  unfold toggle
  dsimp only
  split
  next => exact ⟨c.geometry, c.animation, c.surface, rfl⟩
  next =>
    split
    next => exact ⟨c.geometry, c.animation, c.surface, rfl⟩
    next es a _ =>
      obtain ⟨animation, surface, he⟩ := advance_eq { c with
        presentation := c.presentation.toggleArrangement
        geometry := es
        animation := some a } 0.0
      exact ⟨es, animation, surface, he⟩

end Chart

/-! ## Steps -/

section
variable {α σ : Type} [Scalar α] [Surface σ α]

/-- What an operation can do to a chart; with whether it toggles the arrangement,
    and the records it renders. -/
inductive Step (c : Chart α σ) :
    Bool → Option (List Datum × Grouping) → Chart α σ → Prop where
  /-- Nothing. -/
  | idle : Step c false none c
  /-- It renders some records. -/
  | rendered (data : List Datum) (grouping : Grouping) :
    Step c false (some (data, grouping)) (c.render data grouping).2
  /-- It changes the arrangement. -/
  | toggled : Step c true none c.toggle.2
  /-- It moves the clock. -/
  | advanced (time : α) : Step c false none (c.advance time).2

theorem Chart.finish_step (c : Chart α σ) : Step c false none c.finish.2 := by
  unfold Chart.finish
  split
  · exact .idle
  · exact .advanced _

/-- An operation does nothing else. -/
theorem Operation.step (op : Operation α) (c : Chart α σ) :
    Step c op.toggles op.rendered? (op.perform c).2 := by
  cases op with
  | render data grouping => exact .rendered data grouping
  | renderPayload response grouping =>
    simp only [perform, perform.silent, Chart.renderPayload, rendered?]
    cases Payload.ofValue response with
    | ok data => exact .rendered data grouping
    | error e =>
      cases e with
      | missingData field => exact .rendered [] grouping
      | _ => exact .idle
  | toggle => exact .toggled
  | handle input =>
    cases input with
    | chartBody => exact .toggled
    | outlierCheckbox => exact .idle
  | advance time => exact .advanced time
  | finish => exact c.finish_step

end

end CourseCharts.Overview
