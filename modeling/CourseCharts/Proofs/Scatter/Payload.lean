/-
  CourseCharts — what the responses of a scatter chart say.

  * `Point.SentAs` and `ChartInfo.SentAs` say what points and labels are sent
    as, `WellFormed` what is sent for some point or labels;
  * `Point.read?_eq_some` and `ChartInfo.read?_eq_some`: so they are read;
  * `Payload.Decodes` says what a response decodes to, and
    `Payload.points_decoded_exactly` that responses are decoded so.
-/
import CourseCharts.Proofs.Checks
import CourseCharts.Proofs.Json.Reading
import CourseCharts.Proofs.Number.WholePart
import CourseCharts.Scatter.Payload

namespace CourseCharts.Scatter

open Json

variable {α : Type} [Scalar α] {v : Value}

/-! ## Points -/

namespace Point

/-- The fields of a point, in the order of an array of them. -/
def fieldNames : List String := ["x", "y", "outlier", "key", "user", "project"]

/-- The value is a point: an object with fields of the right kinds, or an array of them. -/
structure WellFormed (v : Value) : Prop where
  form : v.HasForm fieldNames
  x : ∃ n, v.field? fieldNames "x" = some (.number n)
  y : ∃ n, v.field? fieldNames "y" = some (.number n)
  outlier : v.field? fieldNames "outlier" = none ∨ v.field? fieldNames "outlier" = some .null ∨
    ∃ n, v.field? fieldNames "outlier" = some (.number n)
  key : (∃ s, v.field? fieldNames "key" = some (.string s)) ∨
    ∃ n, v.field? fieldNames "key" = some (.number n)
  user : v.field? fieldNames "user" = none ∨ ∃ s, v.field? fieldNames "user" = some (.string s)
  project : v.field? fieldNames "project" = none ∨
    ∃ s, v.field? fieldNames "project" = some (.string s)

/-- The value is the point as it is sent. -/
structure SentAs (p : Point α) (v : Value) : Prop where
  form : v.HasForm fieldNames
  x : ∃ n, v.field? fieldNames "x" = some (.number n) ∧ n.StandsFor p.x
  y : ∃ n, v.field? fieldNames "y" = some (.number n) ∧ n.StandsFor p.y
  outlier : v.field? fieldNames "outlier" = none ∧ p.outlier = none ∨
    v.field? fieldNames "outlier" = some .null ∧ p.outlier = none ∨
    ∃ n o, v.field? fieldNames "outlier" = some (.number n) ∧ p.outlier = some o ∧ n.StandsFor o
  key : p.key.SentAs (v.field? fieldNames "key")
  user : SentText (v.field? fieldNames "user") p.user
  project : SentText (v.field? fieldNames "project") p.project

variable {p : Point α}

/-- A point has no outlier if none is sent, or null for it. -/
theorem SentAs.outlier_eq_none_iff (h : p.SentAs v) : p.outlier = none ↔
    v.field? fieldNames "outlier" = none ∨ v.field? fieldNames "outlier" = some .null := by
  rcases h.outlier with ⟨ho, hp⟩ | ⟨ho, hp⟩ | ⟨n, o, ho, hp, -⟩ <;> simp [ho, hp]

theorem wellFormed_iff : WellFormed v ↔ ∃ p : Point α, p.SentAs v := by
  constructor
  · rintro ⟨hform, ⟨x, hx⟩, ⟨y, hy⟩, houtlier, hkey, huser, hproject⟩
    obtain ⟨x', hx'⟩ := x.exists_standsFor (α := α)
    obtain ⟨y', hy'⟩ := y.exists_standsFor (α := α)
    obtain ⟨outlier, houtlier⟩ : ∃ outlier : Option α,
        v.field? fieldNames "outlier" = none ∧ outlier = none ∨
        v.field? fieldNames "outlier" = some .null ∧ outlier = none ∨
        ∃ n o, v.field? fieldNames "outlier" = some (.number n) ∧ outlier = some o ∧
          n.StandsFor o := by
      rcases houtlier with ho | ho | ⟨n, ho⟩
      · exact ⟨none, .inl ⟨ho, rfl⟩⟩
      · exact ⟨none, .inr (.inl ⟨ho, rfl⟩)⟩
      · obtain ⟨o, hn⟩ := n.exists_standsFor (α := α)
        exact ⟨some o, .inr (.inr ⟨n, o, ho, rfl, hn⟩)⟩
    obtain ⟨key, hkey⟩ := RecordKey.exists_sentAs_iff.2 hkey
    obtain ⟨user, huser⟩ := exists_sentText_iff.2 huser
    obtain ⟨project, hproject⟩ := exists_sentText_iff.2 hproject
    exact ⟨⟨key, x', y', outlier, user, project⟩, hform, ⟨x, hx, hx'⟩, ⟨y, hy, hy'⟩, houtlier,
      hkey, huser, hproject⟩
  · rintro ⟨p, hform, ⟨x, hx, -⟩, ⟨y, hy, -⟩, houtlier, hkey, huser, hproject⟩
    refine ⟨hform, ⟨x, hx⟩, ⟨y, hy⟩, ?_, RecordKey.exists_sentAs_iff.1 ⟨_, hkey⟩,
      exists_sentText_iff.1 ⟨_, huser⟩, exists_sentText_iff.1 ⟨_, hproject⟩⟩
    exact houtlier.imp And.left (Or.imp And.left fun ⟨n, _, ho, _⟩ => ⟨n, ho⟩)

/-- A point is read as it is sent. -/
theorem read?_eq_some : read? v = some p ↔ p.SentAs v := by
  change (record? fieldNames v).bind _ = some p ↔ _
  -- every field of a record of the form is read on its own
  rw [Option.bind_eq_some_iff]
  simp only [record?_eq_some, and_assoc, exists_and_left, exists_eq_left]
  refine Iff.trans (and_congr_right fun hform => ?_) ⟨And.right, fun h => ⟨h.form, h⟩⟩
  simp (disch := decide) only [Option.bind_eq_bind, Option.bind_eq_some_iff, Option.pure_def,
    Option.some.injEq, required?_eq_some hform, orDefault?_eq_some hform,
    RecordKey.exists_read?_iff, exists_scalar?_iff, exists_nullable?_scalar?_iff,
    exists_text?_iff]
  constructor
  · rintro ⟨key, hkey, x, hx, y, hy, outlier, houtlier, user, huser, project, hproject, rfl⟩
    exact ⟨hform, hx, hy, houtlier, hkey, huser, hproject⟩
  · rintro ⟨-, hx, hy, houtlier, hkey, huser, hproject⟩
    exact ⟨_, hkey, _, hx, _, hy, _, houtlier, _, huser, _, hproject, rfl⟩

end Point

/-! ## Labels -/

namespace ChartInfo

/-- The fields of the labels, in the order of an array of them. -/
def fieldNames : List String := ["x", "y", "x-unit", "y-unit"]

/-- The value has labels: an object with texts, or an array of them. -/
structure WellFormed (v : Value) : Prop where
  form : v.HasForm fieldNames
  x : ∃ s, v.field? fieldNames "x" = some (.string s)
  y : ∃ s, v.field? fieldNames "y" = some (.string s)
  xUnit : v.field? fieldNames "x-unit" = none ∨ ∃ s, v.field? fieldNames "x-unit" = some (.string s)
  yUnit : v.field? fieldNames "y-unit" = none ∨ ∃ s, v.field? fieldNames "y-unit" = some (.string s)

/-- The value has the labels as they are sent. -/
structure SentAs (i : ChartInfo) (v : Value) : Prop where
  form : v.HasForm fieldNames
  x : v.field? fieldNames "x" = some (.string i.x)
  y : v.field? fieldNames "y" = some (.string i.y)
  xUnit : SentText (v.field? fieldNames "x-unit") i.xUnit
  yUnit : SentText (v.field? fieldNames "y-unit") i.yUnit

variable {i : ChartInfo}

theorem wellFormed_iff : WellFormed v ↔ ∃ i : ChartInfo, i.SentAs v := by
  constructor
  · rintro ⟨hform, ⟨x, hx⟩, ⟨y, hy⟩, hxUnit, hyUnit⟩
    obtain ⟨xUnit, hxUnit⟩ := exists_sentText_iff.2 hxUnit
    obtain ⟨yUnit, hyUnit⟩ := exists_sentText_iff.2 hyUnit
    exact ⟨⟨x, y, xUnit, yUnit⟩, hform, hx, hy, hxUnit, hyUnit⟩
  · rintro ⟨i, hform, hx, hy, hxUnit, hyUnit⟩
    exact ⟨hform, ⟨_, hx⟩, ⟨_, hy⟩, exists_sentText_iff.1 ⟨_, hxUnit⟩,
      exists_sentText_iff.1 ⟨_, hyUnit⟩⟩

theorem SentAs.ne_null (h : i.SentAs v) : v ≠ .null := by
  rintro rfl
  exact h.form

/-- Labels are read as they are sent. -/
theorem read?_eq_some : read? v = some i ↔ i.SentAs v := by
  change (record? fieldNames v).bind _ = some i ↔ _
  rw [Option.bind_eq_some_iff]
  simp only [record?_eq_some, and_assoc, exists_and_left, exists_eq_left]
  refine Iff.trans (and_congr_right fun hform => ?_) ⟨And.right, fun h => ⟨h.form, h⟩⟩
  simp (disch := decide) only [Option.bind_eq_bind, Option.bind_eq_some_iff, Option.pure_def,
    Option.some.injEq, required?_eq_some hform, orDefault?_eq_some hform, exists_text?_iff]
  constructor
  · rintro ⟨x, hx, y, hy, xUnit, hxUnit, yUnit, hyUnit, rfl⟩
    exact ⟨hform, hx, hy, hxUnit, hyUnit⟩
  · rintro ⟨-, hx, hy, hxUnit, hyUnit⟩
    exact ⟨_, hx, _, hy, _, hxUnit, _, hyUnit, rfl⟩

theorem read?_eq_none : read? v = none ↔ ¬ WellFormed v := by
  rw [wellFormed_iff, eq_none_iff fun _ => read?_eq_some]

end ChartInfo

/-! ## Responses -/

namespace Payload

/-- What a response decodes to: its points and labels, or an error.  Points and labels have to be
    there before either is read, and the points are read first. -/
inductive Decodes (v : Value) : Except ChartError (Payload α) → Prop
  | noObject : (∀ members, v ≠ .object members) → Decodes v (.error (.missingData "chart-data"))
  | noData : v.Lacks "chart-data" → Decodes v (.error (.missingData "chart-data"))
  | noInfo : ¬ v.Lacks "chart-data" → v.Lacks "chart-info" →
    Decodes v (.error (.missingData "chart-info"))
  | noArray {data : Value} : v.member? "chart-data" = some data → data ≠ .null →
    (∀ items, data ≠ .array items) → ¬ v.Lacks "chart-info" →
    Decodes v (.error (.invalidData (.malformedField "chart-data")))
  | badPoint {items : List Value} {item : Value} : v.member? "chart-data" = some (.array items) →
    item ∈ items → ¬ Point.WellFormed item → ¬ v.Lacks "chart-info" →
    Decodes v (.error (.invalidData (.malformedField "chart-data")))
  | badInfo {items : List Value} {info : Value} : v.member? "chart-data" = some (.array items) →
    (∀ item ∈ items, Point.WellFormed item) → v.member? "chart-info" = some info →
    info ≠ .null → ¬ ChartInfo.WellFormed info →
    Decodes v (.error (.invalidData (.malformedField "chart-info")))
  | payload {items : List Value} {info : Value} {p : Payload α} :
    v.member? "chart-data" = some (.array items) → v.member? "chart-info" = some info →
    List.Forall₂ (fun item q => Point.SentAs q item) items p.points → p.info.SentAs info →
    Decodes v (.ok p)

variable {data : Value} {p : Payload α} {e : ChartError}

/-- The points are read from an array of them. -/
theorem points?_eq_some {points : List (Point α)} : list? Point.read? data = some points ↔
    ∃ items, data = .array items ∧
      List.Forall₂ (fun item q => Point.SentAs q item) items points := by
  simp only [list?_eq_some, Point.read?_eq_some]

theorem exists_points_iff {items : List Value} :
    (∃ points : List (Point α), List.Forall₂ (fun item q => Point.SentAs q item) items points) ↔
      ∀ item ∈ items, Point.WellFormed item := by
  simp only [exists_forall₂_iff, ← Point.wellFormed_iff]

/-- No points are read if there is no array, or something else than a point in it. -/
theorem points?_eq_none : list? (Point.read? : Value → Option (Point α)) data = none ↔
    (∀ items, data ≠ .array items) ∨
      ∃ items, data = .array items ∧ ∃ item ∈ items, ¬ Point.WellFormed item := by
  rw [eq_none_iff fun _ => points?_eq_some]
  cases data with
  | array items => simp [exists_points_iff]
  | _ => simp

theorem ofValue_eq_ok : ofValue v = .ok p ↔ Decodes v (.ok p) := by
  simp only [ofValue, bind_eq_ok, Response.field_eq_ok, Flaw.orElse_eq_ok, points?_eq_some,
    ChartInfo.read?_eq_some, pure_eq_ok]
  constructor
  · rintro ⟨data, ⟨hdata, -⟩, info, ⟨hinfo, -⟩, points, ⟨items, rfl, hpoints⟩, i, hi, rfl⟩
    exact .payload hdata hinfo hpoints hi
  · intro h
    cases h with
    | payload hdata hinfo hpoints hi =>
      exact ⟨_, ⟨hdata, Value.array_ne_null _⟩, _, ⟨hinfo, hi.ne_null⟩, _, ⟨_, rfl, hpoints⟩, _,
        hi, rfl⟩

theorem ofValue_eq_error : (ofValue v : Except ChartError (Payload α)) = .error e ↔
    @Decodes α _ v (.error e) := by
  simp only [ofValue, bind_eq_error, Response.field_eq_ok, Response.field_eq_error,
    Flaw.orElse_eq_ok, Flaw.orElse_eq_error, points?_eq_some, points?_eq_none,
    ChartInfo.read?_eq_some, ChartInfo.read?_eq_none]
  constructor
  · rintro (⟨hlacks, rfl⟩ | ⟨data, hdata, h⟩)
    · exact .noData hlacks
    rcases h with ⟨hlacks, rfl⟩ | ⟨info, hinfo, h⟩
    · exact .noInfo (Value.not_lacks_iff.2 ⟨_, hdata⟩) hlacks
    have hthere : ¬ v.Lacks "chart-info" := Value.not_lacks_iff.2 ⟨_, hinfo⟩
    rcases h with ⟨harray | ⟨items, rfl, item, hitem, hbad⟩, rfl⟩ |
      ⟨points, ⟨items, rfl, hpoints⟩, h⟩
    · exact .noArray hdata.1 hdata.2 harray hthere
    · exact .badPoint hdata.1 hitem hbad hthere
    rcases h with ⟨hbad, rfl⟩ | ⟨i, -, h⟩
    · exact .badInfo hdata.1 (exists_points_iff.1 ⟨_, hpoints⟩) hinfo.1 hinfo.2 hbad
    · cases h
  · intro h
    cases h with
    | noObject hno => exact .inl ⟨Value.lacks_of_not_object hno, rfl⟩
    | noData hlacks => exact .inl ⟨hlacks, rfl⟩
    | noInfo hdata hlacks =>
      obtain ⟨data, hdata⟩ := Value.not_lacks_iff.1 hdata
      exact .inr ⟨data, hdata, .inl ⟨hlacks, rfl⟩⟩
    | noArray hdata hnull harray hinfo =>
      obtain ⟨info, hinfo⟩ := Value.not_lacks_iff.1 hinfo
      exact .inr ⟨_, ⟨hdata, hnull⟩, .inr ⟨info, hinfo, .inl ⟨.inl harray, rfl⟩⟩⟩
    | badPoint hdata hitem hbad hinfo =>
      obtain ⟨info, hinfo⟩ := Value.not_lacks_iff.1 hinfo
      exact .inr ⟨_, ⟨hdata, Value.array_ne_null _⟩,
        .inr ⟨info, hinfo, .inl ⟨.inr ⟨_, rfl, _, hitem, hbad⟩, rfl⟩⟩⟩
    | badInfo hdata hitems hinfo hnull hbad =>
      obtain ⟨points, hpoints⟩ := (@exists_points_iff α _ _).2 hitems
      exact .inr ⟨_, ⟨hdata, Value.array_ne_null _⟩, .inr ⟨_, ⟨hinfo, hnull⟩,
        .inr ⟨points, ⟨_, rfl, hpoints⟩, .inl ⟨hbad, rfl⟩⟩⟩⟩

theorem ofValue_eq_iff (result : Except ChartError (Payload α)) :
    ofValue v = result ↔ Decodes v result := by
  cases result with
  | ok p => exact ofValue_eq_ok
  | error e => exact ofValue_eq_error

/-- **Scatter responses are decoded exactly.**  What a response decodes to follows from its points
    and labels, whichever way they are sent.  Of doubles, the one that is sent is taken, and the one
    nearest to an integer.  A point has no outlier exactly if none or null is sent for it, and
    owners and units are empty exactly if they are left out or sent so. -/
theorem points_decoded_exactly (v : Value) :
    (∀ result : Except ChartError (Payload α), ofValue v = result ↔ Decodes v result) ∧
      (∀ x : Float, (∀ f, (Number.float f).StandsFor x ↔ x = f) ∧
        ∀ i, (Number.int i).StandsFor x → x.isFinite = true →
          Double.Nearest i x.toModel.unpack) ∧
      (∀ (p : Point α) (w : Value), p.SentAs w →
        (p.outlier = none ↔ w.field? Point.fieldNames "outlier" = none ∨
          w.field? Point.fieldNames "outlier" = some .null) ∧
        (p.user = "" ↔ w.field? Point.fieldNames "user" = none ∨
          w.field? Point.fieldNames "user" = some (.string "")) ∧
        (p.project = "" ↔ w.field? Point.fieldNames "project" = none ∨
          w.field? Point.fieldNames "project" = some (.string ""))) ∧
      ∀ (i : ChartInfo) (w : Value), i.SentAs w →
        (i.xUnit = "" ↔ w.field? ChartInfo.fieldNames "x-unit" = none ∨
          w.field? ChartInfo.fieldNames "x-unit" = some (.string "")) ∧
        (i.yUnit = "" ↔ w.field? ChartInfo.fieldNames "y-unit" = none ∨
          w.field? ChartInfo.fieldNames "y-unit" = some (.string "")) :=
  ⟨ofValue_eq_iff, fun _ => ⟨fun _ => Iff.rfl, fun _ h => h ▸ Double.ofInt_nearest⟩,
    fun _ _ h => ⟨h.outlier_eq_none_iff, h.user.eq_empty_iff, h.project.eq_empty_iff⟩,
    fun _ _ h => ⟨h.xUnit.eq_empty_iff, h.yUnit.eq_empty_iff⟩⟩

/-- A point in an array, with a double and with null for its outlier, and one in an object. -/
theorem points_decoded_exactly_both_forms :
    let first : Value := .array [.number (.int 1), .number (.float 2.5), .null, .string "a"]
    let second : Value := .object [("key", .number (.int 7)), ("x", .number (.int 3)),
      ("y", .number (.int 4)), ("outlier", .number (.int 9)), ("user", .string "ada")]
    let info : Value := .object [("x", .string "Time"), ("y", .string "Edits")]
    let points : List (Point Rat) :=
      [⟨⟨"a"⟩, 1, 5 / 2, none, "", ""⟩, ⟨⟨"7"⟩, 3, 4, some 9, "ada", ""⟩]
    let labels : ChartInfo := ⟨"Time", "Edits", "", ""⟩
    List.Forall₂ (fun item q => Point.SentAs q item) [first, second] points ∧
      labels.SentAs info ∧
      ofValue (.object [("chart-data", .array [first, second]), ("chart-info", info)])
        = .ok ⟨points, labels⟩ ∧
      (first.field? Point.fieldNames "outlier" = none ∨
        first.field? Point.fieldNames "outlier" = some .null) := by
  intro first second info points labels
  have hdouble : (Number.float 2.5).StandsFor (5 / 2 : Rat) := by
    have hparts : Scalar.ratOfFloat 2.5 = Scalar.ofBinary (5 * 2 ^ 50) (-51) := rfl
    refine Eq.trans ?_ hparts.symm
    rw [Double.ofBinary_eq]
    norm_num
  have hfirst : Point.SentAs (⟨⟨"a"⟩, 1, 5 / 2, none, "", ""⟩ : Point Rat) first :=
    ⟨(by decide : 4 ≤ 6), ⟨.int 1, rfl, rfl⟩, ⟨.float 2.5, rfl, hdouble⟩, .inr (.inl ⟨rfl, rfl⟩),
      .inl rfl, .inl ⟨rfl, rfl⟩, .inl ⟨rfl, rfl⟩⟩
  have hsecond : Point.SentAs (⟨⟨"7"⟩, 3, 4, some 9, "ada", ""⟩ : Point Rat) second :=
    ⟨trivial, ⟨.int 3, rfl, rfl⟩, ⟨.int 4, rfl, rfl⟩, .inr (.inr ⟨.int 9, 9, rfl, rfl, rfl⟩),
      .inr ⟨.int 7, rfl, isDecimal_int 7⟩, .inr rfl, .inl ⟨rfl, rfl⟩⟩
  have hpoints : List.Forall₂ (fun item q => Point.SentAs q item) [first, second] points :=
    .cons hfirst (.cons hsecond .nil)
  have hlabels : labels.SentAs info := ⟨trivial, rfl, rfl, .inl ⟨rfl, rfl⟩, .inl ⟨rfl, rfl⟩⟩
  obtain ⟨hdecodes, -, hdefaults, -⟩ := @points_decoded_exactly Rat _
    (.object [("chart-data", .array [first, second]), ("chart-info", info)])
  exact ⟨hpoints, hlabels, (hdecodes _).2 (.payload rfl rfl hpoints hlabels),
    (hdefaults _ _ hfirst).1.1 rfl⟩

end Payload

end CourseCharts.Scatter
