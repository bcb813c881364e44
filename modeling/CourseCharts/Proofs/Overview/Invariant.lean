/-
  CourseCharts — what holds of an overview chart at any time.

  * a chart is `Blank`, or it `Shows` its records in a layout, perhaps with an
    animation that `LeadsTo` their geometry;
  * `Consistent.step`: every operation keeps it so, also one that is refused;
  * `Consistent.frameOf_geometry`: at rest, the frame is that of the records in
    the arrangement, whatever led there;
  * `representation_and_path_independence`: so it is after every run, and
    two runs with the same records and arrangement end in the same frame.
-/
import CourseCharts.Proofs.Motion
import CourseCharts.Proofs.Overview.Run

namespace CourseCharts.Overview

variable {α σ : Type} [Scalar α]

/-! ## The invariant -/

/-- The animation takes one entity per record to `es`. -/
structure LeadsTo (a : Transition (List (EntityGeometry α)) α) (data : List Datum)
    (es : List (EntityGeometry α)) : Prop where
  timed : a.Timed
  target : a.target = es
  origin : a.origin.length = data.length

/-- A configuration that leaves room for the bars, and time for a toggle. -/
structure Config.Usable (config : Config α) : Prop where
  width : Requirement.positive.holds config.plotArea.width = true
  height : Requirement.positive.holds config.plotArea.height = true
  toggleDuration : Requirement.nonnegative.holds config.toggleDuration = true

theorem Config.usable_of_validate {config : Config α} (h : config.validate = .ok ()) :
    config.Usable := by
  simp only [Config.validate, Margins.validateIn, bind_eq_ok, Flaw.unless_eq_ok,
    Quantity.require_eq_ok, List.mem_singleton, forall_eq, PlotArea.isValid,
    Bool.and_eq_true] at h
  obtain ⟨_, ⟨_, -, _, -, _, -, _, -, _, -, hwidth, hheight⟩, _, -, _, -, _, -, _, -, _, -, _, -,
    hduration⟩ := h
  exact ⟨hwidth, hheight, hduration⟩

namespace Chart

/-- Nothing is shown. -/
structure Blank (c : Chart α σ) : Prop where
  data : c.data = []
  layout : c.layout = none
  geometry : c.geometry = []
  animation : c.animation = none

/-- The records are shown in their layout, in the current arrangement. -/
structure Shows (c : Chart α σ) (l : Layout α) : Prop where
  nonempty : c.data ≠ []
  layout : c.layout = some l
  make : Layout.make? c.data c.config.plotArea c.config.groupBuffer c.config.labelGap = .ok l
  geometry : l.geometry? c.arrangement c.data = .ok c.geometry
  animation : ∀ a, c.animation = some a → LeadsTo a c.data c.geometry

/-- An animation that is kept has time left. -/
def Running (c : Chart α σ) : Prop := ∀ a, c.animation = some a → a.elapsed < a.duration

/-- What holds of a chart at any time. -/
structure Consistent (c : Chart α σ) : Prop where
  usable : c.config.Usable
  counted : ∀ d ∈ c.data, d.Counted
  shows : c.Blank ∨ ∃ l, c.Shows l
  running : c.Running

/-- The geometry follows from the records and the arrangement. -/
theorem Consistent.frameOf_geometry {σ' : Type} {c : Chart α σ} {c' : Chart α σ'}
    (h : c.Consistent) (h' : c'.Consistent) (hconfig : c.config = c'.config)
    (hdata : c.data = c'.data) (hgrouping : c.grouping = c'.grouping)
    (harrangement : c.arrangement = c'.arrangement) :
    c.frameOf c.geometry = c'.frameOf c'.geometry := by
  obtain hblank | ⟨l, hshows⟩ := h.shows
  · obtain hblank' | ⟨l', hshows'⟩ := h'.shows
    · simp only [frameOf, hblank.layout, hblank'.layout, hconfig]
    · exact absurd (hdata.symm.trans hblank.data) hshows'.nonempty
  · obtain hblank' | ⟨l', hshows'⟩ := h'.shows
    · exact absurd (hdata.trans hblank'.data) hshows.nonempty
    · have hmake := hshows.make
      rw [hdata, hconfig] at hmake
      obtain rfl : l = l' := Except.ok.inj (hmake.symm.trans hshows'.make)
      have hgeometry := hshows.geometry
      rw [hdata, harrangement] at hgeometry
      have hes : c.geometry = c'.geometry :=
        Except.ok.inj (hgeometry.symm.trans hshows'.geometry)
      simp only [frameOf, hshows.layout, hshows'.layout, hconfig, hdata, hgrouping, hes]

/-! ## Steps -/

/-- Records can always be laid out. -/
theorem fit?_isOk [LawfulScalar α] {c : Chart α σ} (h : c.config.Usable) {data : List Datum}
    (hdata : ∀ d ∈ data, d.Counted) : ∃ l es, c.fit? data = .ok (l, es) := by
  obtain ⟨l, hl⟩ : ∃ l, Layout.make? data c.config.plotArea c.config.groupBuffer
      c.config.labelGap = .ok l := ⟨_, Layout.make?_eq_ok.2 ⟨h.width, rfl⟩⟩
  obtain ⟨es, hes⟩ :=
    Layout.geometry?_isOk hdata (Requirement.finite_of_holds h.height) hl c.arrangement
  exact ⟨l, es, fit?_eq_ok.2 ⟨hl, hes⟩⟩

/-- What is shown has one entity per record. -/
theorem Shows.length_shown {c : Chart α σ} {l : Layout α} (h : c.Shows l) :
    c.shown.length = c.data.length := by
  have hgeometry := mapM_length h.geometry
  cases ha : c.animation with
  | none => rwa [shown, ha]
  | some a =>
    rw [shown, ha]
    dsimp only
    cases hf : a.isFinished with
    | true => rw [Transition.current_of_finished hf, (h.animation a ha).target, hgeometry]
    | false =>
      rw [Transition.current_of_unfinished hf, length_blend, (h.animation a ha).target,
        hgeometry]

/-- A toggle has a geometry to go to. -/
theorem Shows.arrange?_isOk [LawfulScalar α] {c : Chart α σ} {l : Layout α} (h : c.Shows l)
    (husable : c.config.Usable) (hcounted : ∀ d ∈ c.data, d.Counted) (p : Presentation) :
    ∃ es a, Chart.arrange? { c with presentation := p } l = .ok (es, a) := by
  obtain ⟨es, hes⟩ := Layout.geometry?_isOk hcounted
    (Requirement.finite_of_holds husable.height) h.make p.arrangement
  obtain ⟨a, ha⟩ : ∃ a, Transition.make? c.shown es c.config.toggleDuration
      c.config.toggleEasing = .ok a := ⟨_, Transition.make?_eq_ok.2 ⟨husable.toggleDuration, rfl⟩⟩
  exact ⟨es, a, arrange?_eq_ok.2 ⟨hes, ha⟩⟩

variable [Surface σ α]

theorem Shows.advance {c : Chart α σ} {l : Layout α} (h : c.Shows l) (time : α) :
    (c.advance time).2.Shows l := by
  have hanimation : ∀ a, (c.advance time).2.animation = some a →
      LeadsTo a c.data c.geometry := by
    intro a ha
    obtain ⟨a₀, ha₀, rfl, -⟩ := animation_of_advance ha
    obtain ⟨timed, target, origin⟩ := h.animation a₀ ha₀
    exact ⟨timed.advance time, by simpa, by simpa⟩
  obtain ⟨_, _, he⟩ := c.advance_eq time
  rw [he] at hanimation ⊢
  exact ⟨h.nonempty, h.layout, h.make, h.geometry, hanimation⟩

/-- After a move of the clock, a finished animation is gone. -/
theorem Shows.running_advance [LawfulScalar α] {c : Chart α σ} {l : Layout α} (h : c.Shows l)
    (time : α) : (c.advance time).2.Running := by
  intro a ha
  obtain ⟨a₀, ha₀, rfl, hf⟩ := animation_of_advance ha
  exact ((h.animation a₀ ha₀).timed.advance time).elapsed_lt hf

theorem Shows.consistent_advance [LawfulScalar α] {c : Chart α σ} {l : Layout α}
    (h : c.Shows l) (husable : c.config.Usable) (hcounted : ∀ d ∈ c.data, d.Counted) (time : α) :
    (c.advance time).2.Consistent := by
  have hrunning := h.running_advance time
  have hshows := h.advance time
  obtain ⟨_, _, he⟩ := c.advance_eq time
  rw [he] at hrunning hshows ⊢
  exact ⟨husable, hcounted, .inr ⟨l, hshows⟩, hrunning⟩

theorem Consistent.advance [LawfulScalar α] {c : Chart α σ} (h : c.Consistent) (time : α) :
    (c.advance time).2.Consistent := by
  obtain hblank | ⟨l, hshows⟩ := h.shows
  · rwa [advance_none hblank.animation]
  · exact hshows.consistent_advance h.usable h.counted time

theorem Consistent.render [LawfulScalar α] {c : Chart α σ} (h : c.Consistent)
    {data : List Datum} (hdata : ∀ d ∈ data, d.Counted) (grouping : Grouping) :
    (c.render data grouping).2.Consistent := by
  obtain ⟨rfl, _, he⟩ | ⟨-, e, hfit⟩ | ⟨hne, l, es, _, hfit, he⟩ := c.render_cases data grouping
  · rw [he]
    exact ⟨h.usable, hdata, .inl ⟨rfl, rfl, rfl, rfl⟩, fun a ha => nomatch ha⟩
  · obtain ⟨l, es, hfit'⟩ := fit?_isOk h.usable hdata
    cases hfit.symm.trans hfit'
  · rw [he]
    obtain ⟨hl, hes⟩ := fit?_eq_ok.1 hfit
    exact ⟨h.usable, hdata, .inr ⟨l, hne, rfl, hl, hes, fun a ha => nomatch ha⟩,
      fun a ha => nomatch ha⟩

theorem Consistent.toggle [LawfulScalar α] {c : Chart α σ} (h : c.Consistent) :
    c.toggle.2.Consistent := by
  obtain hblank | ⟨l, hshows⟩ := h.shows
  · rw [toggle_none hblank.layout]
    exact ⟨h.usable, h.counted, .inl ⟨hblank.data, hblank.layout, hblank.geometry,
      hblank.animation⟩, h.running⟩
  · obtain ⟨es, a, harrange⟩ := hshows.arrange?_isOk h.usable h.counted
      c.presentation.toggleArrangement
    rw [toggle_some hshows.layout harrange]
    -- the new animation starts from what is shown, also in the middle of an old one
    obtain ⟨hes, ha⟩ := arrange?_eq_ok.1 harrange
    have htimed : a.Timed := .of_make? ha
    obtain ⟨-, rfl⟩ := Transition.make?_eq_ok.1 ha
    refine Shows.consistent_advance (l := l) ?_ ?_ ?_ 0.0
    · refine ⟨hshows.nonempty, hshows.layout, hshows.make, hes, ?_⟩
      rintro _ ⟨⟩
      exact ⟨htimed, rfl, hshows.length_shown⟩
    · exact h.usable
    · exact h.counted

/-- Every operation keeps a chart consistent. -/
theorem Consistent.step [LawfulScalar α] {c c' : Chart α σ} (h : c.Consistent) {toggles : Bool}
    {rendered? : Option (List Datum × Grouping)} (hs : Step c toggles rendered? c')
    (hcounted : ∀ data grouping, rendered? = some (data, grouping) → ∀ d ∈ data, d.Counted) :
    c'.Consistent := by
  cases hs with
  | idle => exact h
  | rendered data grouping => exact h.render (hcounted data grouping rfl) grouping
  | toggled => exact h.toggle
  | advanced time => exact h.advance time

/-! ## Charts at rest -/

/-- At its end, an animation is gone, and nothing else has changed. -/
theorem Consistent.finish_eq [LawfulScalar α] {c : Chart α σ} (h : c.Consistent) :
    ∃ surface, c.finish.2 = { c with animation := none, surface } := by
  unfold Chart.finish
  split
  next ha => exact ⟨c.surface, by rw [← ha]⟩
  next a ha =>
    obtain hblank | ⟨l, hshows⟩ := h.shows
    · cases hblank.animation.symm.trans ha
    · obtain ⟨surface, he⟩ := advance_some ha a.duration
      have hfinished := (hshows.animation a ha).timed.finished_advance (h.running a ha)
      rw [if_pos hfinished] at he
      exact ⟨surface, he⟩

/-- Then it shows its geometry. -/
theorem Consistent.frame_finish [LawfulScalar α] {c : Chart α σ} (h : c.Consistent) :
    c.finish.2.frame = c.frameOf c.geometry := by
  obtain ⟨surface, he⟩ := h.finish_eq
  rw [he]
  rfl

end Chart

/-! ## Runs -/

section
variable {c c' : Chart α σ} [Surface σ α] {toggles : Bool}
  {rendered? : Option (List Datum × Grouping)}

theorem Step.config (h : Step c toggles rendered? c') : c'.config = c.config := by
  cases h with
  | idle => rfl
  | rendered data grouping =>
    obtain ⟨_, _, _, he⟩ := c.render_eq data grouping
    rw [he]
  | toggled =>
    obtain ⟨_, _, _, he⟩ := c.toggle_eq
    rw [he]
  | advanced time =>
    obtain ⟨_, _, he⟩ := c.advance_eq time
    rw [he]

theorem Step.arrangement (h : Step c toggles rendered? c') :
    c'.arrangement = if toggles then c.arrangement.toggled else c.arrangement := by
  cases h with
  | idle => rfl
  | rendered data grouping =>
    obtain ⟨_, _, _, he⟩ := c.render_eq data grouping
    rw [he]
    rfl
  | toggled =>
    obtain ⟨_, _, _, he⟩ := c.toggle_eq
    rw [he]
    rfl
  | advanced time =>
    obtain ⟨_, _, he⟩ := c.advance_eq time
    rw [he]
    rfl

theorem Step.records (h : Step c toggles rendered? c') :
    (c'.data, c'.grouping) = rendered?.getD (c.data, c.grouping) := by
  cases h with
  | idle => rfl
  | rendered data grouping =>
    obtain ⟨_, _, _, he⟩ := c.render_eq data grouping
    rw [he]
    rfl
  | toggled =>
    obtain ⟨_, _, _, he⟩ := c.toggle_eq
    rw [he]
    rfl
  | advanced time =>
    obtain ⟨_, _, he⟩ := c.advance_eq time
    rw [he]
    rfl

end

theorem Arrangement.toggled_eq (a : Arrangement) :
    a.toggled = if a = .stacked then .grouped else .stacked := by
  cases a with
  | stacked => rfl
  | grouped => rfl

theorem Arrangement.toggled_toggled (a : Arrangement) : a.toggled.toggled = a := by
  cases a with
  | stacked => rfl
  | grouped => rfl

section
variable {surface : σ} {config : Config α} {c : Chart α σ} [Surface σ α]

theorem Chart.consistent_after [LawfulScalar α] (hc : Chart.make? surface config = .ok c)
    {ops : List (Operation α)} (hops : ∀ op ∈ ops, op.Counted) : (c.after ops).Consistent := by
  refine Operation.counted_induction (P := fun ops => (c.after ops).Consistent) ?_
    (fun ops op _ hop hbefore => ?_) hops
  · obtain ⟨hvalid, rfl⟩ := Chart.make?_eq_ok.1 hc
    refine ⟨Config.usable_of_validate hvalid, ?_, .inl ⟨rfl, rfl, rfl, rfl⟩, ?_⟩
    · intro d hd
      cases hd
    · intro a ha
      cases ha
  · rw [Chart.after_concat]
    exact hbefore.step (op.step _) fun data grouping hr => hop.rendered hr

theorem Chart.config_after (c : Chart α σ) (ops : List (Operation α)) :
    (c.after ops).config = c.config := by
  induction ops using List.reverseRecOn with
  | nil => rfl
  | append_singleton ops op ih => rw [after_concat, (op.step _).config, ih]

/-- Every toggle changes the arrangement once, so only their parity counts. -/
theorem Chart.arrangement_after (c : Chart α σ) (ops : List (Operation α)) :
    (c.after ops).arrangement =
      if ops.countP (·.toggles) % 2 = 0 then c.arrangement else c.arrangement.toggled := by
  induction ops using List.reverseRecOn with
  | nil => rfl
  | append_singleton ops op ih =>
    rw [after_concat, (op.step _).arrangement, ih, List.countP_append, List.countP_singleton]
    cases op.toggles with
    | false => rfl
    | true =>
      rw [if_pos rfl, if_pos rfl]
      rcases Nat.mod_two_eq_zero_or_one (ops.countP (·.toggles)) with heven | hodd
      · rw [if_pos heven, if_neg (by omega)]
      · rw [if_neg (by omega), if_pos (by omega), Arrangement.toggled_toggled]

theorem Chart.records_after (c : Chart α σ) (ops : List (Operation α)) :
    ((c.after ops).data, (c.after ops).grouping) =
      (lastRendered ops).getD (c.data, c.grouping) := by
  induction ops using List.reverseRecOn with
  | nil => rfl
  | append_singleton ops op ih =>
    rw [after_concat, (op.step _).records, ih, lastRendered_concat]
    cases op.rendered? with
    | none => rfl
    | some r => rfl

end

/-- **What an overview chart holds, and what it comes to.** After any operations on a new
    chart, whatever they returned and whatever the surface refused:
    the arrangement is the initial one after an even number of toggles, and the other one
    after an odd number;
    there is a layout exactly if there are records; then the layout and the geometry are
    those of the records in the arrangement;
    without records there is no geometry and no animation;
    an animation leads to the geometry, starts with one entity per record and has time left;
    and any other run, on any surface, with the same records and parity of toggles ends
    in the same frame. -/
theorem representation_and_path_independence {σ σ' : Type} [Surface σ Float] [Surface σ' Float]
    {surface : σ} {surface' : σ'} {config : Config Float} {c : Chart Float σ}
    {c' : Chart Float σ'} (hc : Chart.make? surface config = .ok c)
    (hc' : Chart.make? surface' config = .ok c') {ops ops' : List (Operation Float)}
    (hops : ∀ op ∈ ops, op.Counted) (hops' : ∀ op ∈ ops', op.Counted) :
    let d := c.after ops
    let d' := c'.after ops'
    d.arrangement = (if ops.countP (·.toggles) % 2 = 0 then config.initialArrangement
      else if config.initialArrangement = .stacked then .grouped else .stacked) ∧
    (d.layout.isSome = true ↔ d.data ≠ []) ∧
    (∀ l, d.layout = some l →
      Layout.make? d.data config.plotArea config.groupBuffer config.labelGap = .ok l ∧
      l.geometry? d.arrangement d.data = .ok d.geometry) ∧
    (d.data = [] → d.geometry = [] ∧ d.animation = none) ∧
    (∀ a, d.animation = some a →
      a.target = d.geometry ∧ a.origin.length = d.data.length ∧ a.elapsed < a.duration) ∧
    (d.data, d.grouping) = (lastRendered ops).getD ([], .project) ∧
    (lastRendered ops = lastRendered ops' →
      ops.countP (·.toggles) % 2 = ops'.countP (·.toggles) % 2 →
      d.finish.2.frame = d'.finish.2.frame) := by
  intro d d'
  have hd : d.Consistent := Chart.consistent_after hc hops
  have hd' : d'.Consistent := Chart.consistent_after hc' hops'
  obtain ⟨-, rfl⟩ := Chart.make?_eq_ok.1 hc
  obtain ⟨-, rfl⟩ := Chart.make?_eq_ok.1 hc'
  have hconfig : d.config = config := Chart.config_after _ ops
  have hconfig' : d'.config = config := Chart.config_after _ ops'
  have harrangement : d.arrangement = _ := Chart.arrangement_after _ ops
  have harrangement' : d'.arrangement = _ := Chart.arrangement_after _ ops'
  rw [Arrangement.toggled_eq] at harrangement harrangement'
  have hrecords : (d.data, d.grouping) = _ := Chart.records_after _ ops
  have hrecords' : (d'.data, d'.grouping) = _ := Chart.records_after _ ops'
  -- both frames follow from what the charts were told, since nothing is animated any more
  have hframe : lastRendered ops = lastRendered ops' →
      ops.countP (·.toggles) % 2 = ops'.countP (·.toggles) % 2 →
      d.finish.2.frame = d'.finish.2.frame := by
    intro hlast hparity
    rw [hlast, ← hrecords', Prod.mk.injEq] at hrecords
    rw [hd.frame_finish, hd'.frame_finish]
    refine hd.frameOf_geometry hd' (hconfig.trans hconfig'.symm) hrecords.1 hrecords.2 ?_
    rw [harrangement, harrangement', hparity]
    rfl
  obtain hblank | ⟨l, hshows⟩ := hd.shows
  · refine ⟨harrangement, ?_, ?_, fun _ => ⟨hblank.geometry, hblank.animation⟩, ?_, hrecords,
      hframe⟩
    · simp [hblank.layout, hblank.data]
    · intro l hl
      cases hblank.layout.symm.trans hl
    · intro a ha
      cases hblank.animation.symm.trans ha
  · refine ⟨harrangement, ?_, ?_, fun hempty => absurd hempty hshows.nonempty, ?_, hrecords,
      hframe⟩
    · simp [hshows.layout, hshows.nonempty]
    · intro l' hl'
      obtain rfl : l = l' := Option.some.inj (hshows.layout.symm.trans hl')
      have hmake := hshows.make
      rw [hconfig] at hmake
      exact ⟨hmake, hshows.geometry⟩
    · intro a ha
      obtain ⟨-, htarget, horigin⟩ := hshows.animation a ha
      exact ⟨htarget, horigin, hd.running a ha⟩

/-- Three records, two of them with the same key: after a toggle the bars are side by side, and
    another one in its animation leaves the frame as it was rendered. -/
theorem representation_and_path_independence_toggled_twice :
    let records : List Datum :=
      [⟨⟨"7"⟩, ⟨12, 4, 0⟩⟩, ⟨⟨"ada"⟩, ⟨3, 0, 5⟩⟩, ⟨⟨"7"⟩, ⟨1, 2, 3⟩⟩]
    let once : List (Operation Float) := [.render records .user, .toggle]
    let twice : List (Operation Float) := once ++ [.advance 300.0, .handle .chartBody]
    ∃ c, Chart.make? (HeadlessSurface.initial : HeadlessSurface Float) Config.standard = .ok c ∧
      (c.after once).arrangement = .grouped ∧ (c.after twice).arrangement = .stacked ∧
      (c.after twice).layout.isSome = true ∧
      (c.after twice).finish.2.frame = (c.after [.render records .user]).finish.2.frame := by
  intro records once twice
  have hvalid : (Config.standard : Config Float).validate = .ok () := by rfl
  have hc : Chart.make? (HeadlessSurface.initial : HeadlessSurface Float) Config.standard =
      .ok ⟨.initial, .standard, ⟨false, .stacked⟩, [], .project, none, [], none⟩ :=
    Chart.make?_eq_ok.2 ⟨hvalid, rfl⟩
  have hcounted : ∀ d ∈ records, d.Counted := by
    simp only [records, List.forall_mem_cons]
    refine ⟨?_, ?_, ?_, List.forall_mem_nil _⟩ <;> intro k <;> cases k <;> decide
  have hrendered : ∀ op ∈ [Operation.render (α := Float) records .user], op.Counted := by
    simpa [Operation.Counted] using hcounted
  have honce : ∀ op ∈ once, op.Counted := by simpa [once, Operation.Counted] using hcounted
  have htwice : ∀ op ∈ twice, op.Counted := by
    simpa [twice, once, Operation.Counted] using hcounted
  have heven : twice.countP (·.toggles) % 2 = 0 := by simp [twice, once, Operation.toggles]
  obtain ⟨hgrouped, -⟩ := representation_and_path_independence hc hc honce hrendered
  obtain ⟨hstacked, hlayout, -, -, -, hrecords, hframe⟩ :=
    representation_and_path_independence hc hc htwice hrendered
  refine ⟨_, hc, hgrouped, hstacked.trans (if_pos heven), hlayout.2 ?_, hframe rfl heven⟩
  exact (congrArg Prod.fst hrecords).trans_ne (List.cons_ne_nil _ _)

end CourseCharts.Overview
