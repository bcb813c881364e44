/-
  CourseCharts — records always find their place.

  * `Datum.Counted` says that the counts have 64 bits, which those of a
    response have;
  * `Layout.make?_eq_ok`: a layout needs nothing but a plot with a width, and
    `Layout.entity?_eq_ok`: a record nothing but heights for its counts;
  * `Layout.geometry?_isOk`: counted records then have a geometry in both
    arrangements, and so have all records in exact arithmetic
    (`Layout.exists_geometry?`).
-/
import CourseCharts.Overview.Layout
import CourseCharts.Proofs.Overview.Payload
import CourseCharts.Proofs.Scale.Band
import CourseCharts.Proofs.Scale.Linear

namespace CourseCharts.Overview

/-! ## Categories -/

theorem Category.index_lt (k : Category) : k.index < 3 := by
  cases k <;> decide

namespace PerCategory

variable {α β γ : Type}

@[simp] theorem get_ofFn (f : Category → β) (k : Category) : (ofFn f).get k = f k := by
  cases k <;> rfl

@[simp] theorem get_map (f : β → γ) (p : PerCategory β) (k : Category) :
    (p.map f).get k = f (p.get k) := by
  cases k <;> rfl

@[simp] theorem get_blend [Blend β α] (p q : PerCategory β) (t : α) (k : Category) :
    (blend p q t).get k = blend (p.get k) (q.get k) t := by
  cases k <;> rfl

end PerCategory

/-! ## Counts -/

/-- The counts of the record have 64 bits. -/
def Datum.Counted (d : Datum) : Prop := ∀ k, d.count k < 2 ^ 64

/-- The counts of a response have 64 bits. -/
theorem Payload.counted_of_ofValue {v : Json.Value} {data : List Datum}
    (h : Payload.ofValue v = .ok data) : ∀ d ∈ data, d.Counted := by
  obtain ⟨rs, -, hsent⟩ := Payload.ofValue_eq_ok.1 h
  clear h
  induction hsent with
  | nil => exact List.forall_mem_nil _
  | cons hd _ ih => exact List.forall_mem_cons.2 ⟨fun k => (hd.counts k).2, ih⟩

/-! ## Layouts -/

variable {α : Type} [Scalar α]

theorem Layout.make?_eq_ok {data : List Datum} {plot : PlotArea α} {groupBuffer labelGap : α}
    {l : Layout α} :
    Layout.make? data plot groupBuffer labelGap = .ok l ↔
      Requirement.positive.holds plot.width = true ∧
        l = ⟨⟨(data.map (·.key.text)).eraseDups, plot.width⟩, .ofData data, plot.height,
          groupBuffer, labelGap⟩ := by
  simp only [Layout.make?, bind_eq_ok, pure_eq_ok, BandScale.make?_eq_ok]
  constructor
  · rintro ⟨_, ⟨hwidth, rfl⟩, rfl⟩
    exact ⟨hwidth, rfl⟩
  · rintro ⟨hwidth, rfl⟩
    exact ⟨_, ⟨hwidth, rfl⟩, rfl⟩

/-- Where the bars of a record start. -/
def Layout.left (l : Layout α) (d : Datum) : α :=
  (l.bands.position? d.key.text).getD 0.0 + l.groupBuffer

/-- Bars of the given heights. -/
def Layout.bars (l : Layout α) (left : α) (heights : PerCategory α) :
    Arrangement → PerCategory (Bar α)
  | .stacked => l.stackedBars left heights
  | .grouped => l.groupedBars left heights

theorem Layout.entity?_eq_ok {l : Layout α} {a : Arrangement} {d : Datum}
    {e : EntityGeometry α} :
    l.entity? a d = .ok e ↔
      ∃ heights : PerCategory α,
        (∀ k, l.domains.height? k (d.count k) (l.span a) = .ok (heights.get k)) ∧
        e = ⟨l.bars (l.left d) heights a,
          (l.bars (l.left d) heights a).map (·.anchor l.labelGap)⟩ := by
  have hbars (heights : PerCategory α) :
      (match a with
        | .stacked => l.stackedBars (l.left d) heights
        | .grouped => l.groupedBars (l.left d) heights) = l.bars (l.left d) heights a := by
    cases a <;> rfl
  simp only [entity?, bind_eq_ok, pure_eq_ok]
  constructor
  · rintro ⟨h₁, hh₁, h₂, hh₂, h₃, hh₃, rfl⟩
    refine ⟨⟨h₁, h₂, h₃⟩, ?_, ?_⟩
    · intro k
      cases k with
      | submissions => exact hh₁
      | snapshots => exact hh₂
      | launches => exact hh₃
    · rw [← hbars]
      rfl
  · rintro ⟨heights, hheights, rfl⟩
    refine ⟨_, hheights .submissions, _, hheights .snapshots, _, hheights .launches, ?_⟩
    rw [← hbars]
    rfl

/-! ## Heights -/

section
variable [LawfulScalar α]

theorem foldl_max_lt {bound : Nat} {counts : List Nat} (h : ∀ n ∈ counts, n < bound)
    {init : Nat} (hinit : init < bound) : counts.foldl Nat.max init < bound := by
  induction counts generalizing init with
  | nil => exact hinit
  | cons n counts ih =>
    rw [List.forall_mem_cons] at h
    exact ih h.2 (Nat.max_lt.2 ⟨hinit, h.1⟩)

/-- The greatest counts are numbers. -/
theorem CategoryDomains.finite_maxima {data : List Datum} (h : ∀ d ∈ data, d.Counted)
    (k : Category) :
    Scalar.isFinite ((CategoryDomains.ofData data : CategoryDomains α).maxima.get k) = true := by
  have hmax : (data.map (·.count k)).foldl Nat.max 0 < 2 ^ 64 := by
    refine foldl_max_lt ?_ (by decide)
    intro n hn
    obtain ⟨d, hd, rfl⟩ := List.mem_map.1 hn
    exact h d hd k
  cases k <;> exact LawfulScalar.finite_ofNat hmax

/-- A count has a height if it, its domain and the span are numbers. -/
theorem CategoryDomains.height?_isOk {d : CategoryDomains α} {k : Category}
    (hd : Scalar.isFinite (d.maxima.get k) = true) {count : Nat}
    (hcount : Scalar.isFinite (Scalar.ofNat count : α) = true) {span : α}
    (hspan : Scalar.isFinite span = true) : ∃ h, d.height? k count span = .ok h := by
  unfold height?
  by_cases hmax : d.maxima.get k ≤ 0.0
  · exact ⟨0.0, by simp [hmax]⟩
  · have hne : ((0.0 : α) == d.maxima.get k) = false := by
      rw [← Bool.not_eq_true]
      intro heq
      exact hmax (LawfulScalar.le_of_beq (LawfulScalar.beq_comm heq))
    obtain ⟨s, hs⟩ : ∃ s, LinearScale.make? (0.0, d.maxima.get k) (0.0, span) = .ok s :=
      ⟨_, LinearScale.make?_eq_ok.2
        ⟨⟨LawfulScalar.finite_zero, hd, hne⟩, ⟨LawfulScalar.finite_zero, hspan⟩, rfl⟩⟩
    refine ⟨s.pixel (Scalar.ofNat count), ?_⟩
    simp only [if_neg hmax, bind_eq_ok, hs, LinearScale.toPixel?_eq_ok]
    exact ⟨s, rfl, hcount, rfl⟩

/-- A record has a place in a layout if its counts and the heights are numbers. -/
theorem Layout.entity?_isOk {l : Layout α}
    (hmaxima : ∀ k, Scalar.isFinite (l.domains.maxima.get k) = true)
    (hheight : Scalar.isFinite l.plotHeight = true) {d : Datum}
    (hd : ∀ k, Scalar.isFinite (Scalar.ofNat (d.count k) : α) = true) (a : Arrangement) :
    ∃ e, l.entity? a d = .ok e := by
  have hspan : Scalar.isFinite (l.span a) = true := by
    cases a with
    | stacked => exact LawfulScalar.finite_third hheight
    | grouped => exact hheight
  choose h hh using fun k => CategoryDomains.height?_isOk (hmaxima k) (hd k) hspan
  exact ⟨_, entity?_eq_ok.2 ⟨.ofFn h, fun k => by rw [hh, PerCategory.get_ofFn], rfl⟩⟩

/-- Counted records have a geometry in their own layout. -/
theorem Layout.geometry?_isOk {data : List Datum} (hdata : ∀ d ∈ data, d.Counted)
    {plot : PlotArea α} (hheight : Scalar.isFinite plot.height = true) {groupBuffer labelGap : α}
    {l : Layout α} (hl : Layout.make? data plot groupBuffer labelGap = .ok l) (a : Arrangement) :
    ∃ es, l.geometry? a data = .ok es := by
  obtain ⟨-, rfl⟩ := Layout.make?_eq_ok.1 hl
  exact mapM_isOk fun d hd =>
    Layout.entity?_isOk (CategoryDomains.finite_maxima hdata) hheight
      (fun k => LawfulScalar.finite_ofNat (hdata d hd k)) a

end

/-- In exact arithmetic all records have a geometry in every layout. -/
theorem Layout.exists_geometry? (l : Layout Rat) (a : Arrangement) (data : List Datum) :
    ∃ es, l.geometry? a data = .ok es :=
  mapM_isOk fun _ _ => Layout.entity?_isOk (fun _ => rfl) rfl (fun _ => rfl) a

end CourseCharts.Overview
