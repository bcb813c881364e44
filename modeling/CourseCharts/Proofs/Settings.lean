/-
  CourseCharts — the settings that texts give.

  A text need not give all settings of a chart.

  * `Scatter.Config.format` and `Overview.Config.format` list the settings, with
    their names in a text and what they are written as;
  * `Scatter.Config.lawful` and `Overview.Config.lawful`: they are read one by
    one, and there are no others;
  * `given_settings_override_default`: a text is read as the default with the
    given settings in place.
-/
import CourseCharts.Overview.Config
import CourseCharts.Proofs.Json.Setting
import CourseCharts.Scatter.Config

namespace CourseCharts

open Json Json.Document

variable {α : Type} [Scalar α]

/-! ## Scatter charts -/

namespace Scatter.Config

/-- The settings of a scatter chart in a text. -/
def format : ConfigFormat (Config α) where
  settings := [
    ⟨"viewport", viewport, Viewport.WrittenAs⟩,
    ⟨"margins", margins, Margins.WrittenAs⟩,
    ⟨"marker_radius_px", markerRadius, IsNumber⟩,
    ⟨"x_tick_count", xTickCount, IsCount (2 ^ 64)⟩,
    ⟨"y_tick_count", yTickCount, IsCount (2 ^ 64)⟩,
    ⟨"y_axis_offset_px", yAxisOffset, IsNumber⟩,
    ⟨"clip_padding_px", clipPadding, IsNumber⟩,
    ⟨"caption_font_px", captionFontSize, IsNumber⟩,
    ⟨"tick_font_px", tickFontSize, IsNumber⟩,
    ⟨"title_font_px", titleFontSize, IsNumber⟩,
    ⟨"zoom_duration_ms", zoomDuration, IsNumber⟩,
    ⟨"zoom_easing", zoomEasing, IsChoice Easing.name⟩,
    ⟨"submission_link_base", submissionLinkBase, IsText⟩]
  standard := standard
  validate := validate
  unreadable := .unreadableScatterConfig
  ofText? := ofText?

theorem read?_eq_some {members : List (String × Document)} {c : Config α}
    (hnodup : (members.map Prod.fst).Nodup) :
    read? (ofMembers members) = some c ↔ format.IsOverridden members c := by
  rw [read?, record?_of_nodup hnodup, Option.bind_eq_bind, Option.bind_some]
  -- every setting of the record is read on its own; outer binds go first, or each would be
  -- visited again for every one around it
  simp (disch := decide) only [↓bind_eq_some_iff, Option.pure_def, Option.some.injEq,
    orDefault?_eq_some_iff hnodup fun _ _ => Viewport.read?_eq_some_iff,
    orDefault?_eq_some_iff hnodup fun _ _ => Margins.read?_eq_some_iff,
    orDefault?_eq_some_iff hnodup fun _ _ => scalar?_eq_some_iff,
    orDefault?_eq_some_iff hnodup fun _ _ => count64?_eq_some_iff,
    orDefault?_eq_some_iff hnodup fun _ _ => Easing.read?_eq_some_iff,
    orDefault?_eq_some_iff hnodup fun _ _ => text?_eq_some_iff,
    ConfigFormat.IsOverridden, format, List.forall_mem_cons]
  constructor
  · rintro ⟨_, hviewport, _, hmargins, _, hradius, _, hxTicks, _, hyTicks, _, hoffset, _, hclip,
      _, hcaption, _, htick, _, htitle, _, hduration, _, heasing, _, hlink, rfl⟩
    exact ⟨hviewport, hmargins, hradius, hxTicks, hyTicks, hoffset, hclip, hcaption, htick,
      htitle, hduration, heasing, hlink, List.forall_mem_nil _⟩
  · rintro ⟨hviewport, hmargins, hradius, hxTicks, hyTicks, hoffset, hclip, hcaption, htick,
      htitle, hduration, heasing, hlink, -⟩
    exact ⟨_, hviewport, _, hmargins, _, hradius, _, hxTicks, _, hyTicks, _, hoffset, _, hclip,
      _, hcaption, _, htick, _, htitle, _, hduration, _, heasing, _, hlink, rfl⟩

theorem lawful : (format : ConfigFormat (Config α)).Lawful read? where
  ofText?_eq text := by
    change ofText? text = _
    rw [ofText?]
    cases (Document.ofText? text).bind (read? : Document → Option (Config α)) <;> rfl
  read?_eq_some := read?_eq_some
  exists_values P h := by
    simp only [format, List.forall_mem_cons] at h ⊢
    obtain ⟨⟨viewport, hviewport⟩, ⟨margins, hmargins⟩, ⟨radius, hradius⟩, ⟨xTicks, hxTicks⟩,
      ⟨yTicks, hyTicks⟩, ⟨offset, hoffset⟩, ⟨clip, hclip⟩, ⟨caption, hcaption⟩, ⟨tick, htick⟩,
      ⟨title, htitle⟩, ⟨duration, hduration⟩, ⟨easing, heasing⟩, ⟨link, hlink⟩, -⟩ := h
    exact ⟨⟨viewport, margins, radius, xTicks, yTicks, offset, clip, caption, tick, title,
      duration, easing, link⟩, hviewport, hmargins, hradius, hxTicks, hyTicks, hoffset, hclip,
      hcaption, htick, htitle, hduration, heasing, hlink, List.forall_mem_nil _⟩

end Scatter.Config

/-! ## Overview charts -/

namespace Overview.Config

/-- The settings of an overview chart in a text. -/
def format : ConfigFormat (Config α) where
  settings := [
    ⟨"viewport", viewport, Viewport.WrittenAs⟩,
    ⟨"margins", margins, Margins.WrittenAs⟩,
    ⟨"group_buffer_px", groupBuffer, IsNumber⟩,
    ⟨"label_gap_px", labelGap, IsNumber⟩,
    ⟨"label_font_px", labelFontSize, IsNumber⟩,
    ⟨"tick_font_px", tickFontSize, IsNumber⟩,
    ⟨"title_font_px", titleFontSize, IsNumber⟩,
    ⟨"legend_font_px", legendFontSize, IsNumber⟩,
    ⟨"toggle_duration_ms", toggleDuration, IsNumber⟩,
    ⟨"toggle_easing", toggleEasing, IsChoice Easing.name⟩,
    ⟨"initial_layout", initialArrangement, IsChoice Arrangement.name⟩,
    ⟨"project_link_base", projectLinkBase, IsText⟩,
    ⟨"user_link_base", userLinkBase, IsText⟩]
  standard := standard
  validate := validate
  unreadable := .unreadableOverviewConfig
  ofText? := ofText?

theorem read?_eq_some {members : List (String × Document)} {c : Config α}
    (hnodup : (members.map Prod.fst).Nodup) :
    read? (ofMembers members) = some c ↔ format.IsOverridden members c := by
  rw [read?, record?_of_nodup hnodup, Option.bind_eq_bind, Option.bind_some]
  simp (disch := decide) only [↓bind_eq_some_iff, Option.pure_def, Option.some.injEq,
    orDefault?_eq_some_iff hnodup fun _ _ => Viewport.read?_eq_some_iff,
    orDefault?_eq_some_iff hnodup fun _ _ => Margins.read?_eq_some_iff,
    orDefault?_eq_some_iff hnodup fun _ _ => scalar?_eq_some_iff,
    orDefault?_eq_some_iff hnodup fun _ _ => Easing.read?_eq_some_iff,
    orDefault?_eq_some_iff hnodup fun _ _ => Arrangement.read?_eq_some_iff,
    orDefault?_eq_some_iff hnodup fun _ _ => text?_eq_some_iff,
    ConfigFormat.IsOverridden, format, List.forall_mem_cons]
  constructor
  · rintro ⟨_, hviewport, _, hmargins, _, hbuffer, _, hgap, _, hlabel, _, htick, _, htitle,
      _, hlegend, _, hduration, _, heasing, _, harrangement, _, hproject, _, huser, rfl⟩
    exact ⟨hviewport, hmargins, hbuffer, hgap, hlabel, htick, htitle, hlegend, hduration,
      heasing, harrangement, hproject, huser, List.forall_mem_nil _⟩
  · rintro ⟨hviewport, hmargins, hbuffer, hgap, hlabel, htick, htitle, hlegend, hduration,
      heasing, harrangement, hproject, huser, -⟩
    exact ⟨_, hviewport, _, hmargins, _, hbuffer, _, hgap, _, hlabel, _, htick, _, htitle,
      _, hlegend, _, hduration, _, heasing, _, harrangement, _, hproject, _, huser, rfl⟩

theorem lawful : (format : ConfigFormat (Config α)).Lawful read? where
  ofText?_eq text := by
    change ofText? text = _
    rw [ofText?]
    cases (Document.ofText? text).bind (read? : Document → Option (Config α)) <;> rfl
  read?_eq_some := read?_eq_some
  exists_values P h := by
    simp only [format, List.forall_mem_cons] at h ⊢
    obtain ⟨⟨viewport, hviewport⟩, ⟨margins, hmargins⟩, ⟨buffer, hbuffer⟩, ⟨gap, hgap⟩,
      ⟨label, hlabel⟩, ⟨tick, htick⟩, ⟨title, htitle⟩, ⟨legend, hlegend⟩,
      ⟨duration, hduration⟩, ⟨easing, heasing⟩, ⟨arrangement, harrangement⟩,
      ⟨project, hproject⟩, ⟨user, huser⟩, -⟩ := h
    exact ⟨⟨viewport, margins, buffer, gap, label, tick, title, legend, duration, easing,
      arrangement, project, user⟩, hviewport, hmargins, hbuffer, hgap, hlabel, htick, htitle,
      hlegend, hduration, heasing, harrangement, hproject, huser, List.forall_mem_nil _⟩

end Overview.Config

/-! ## Both charts -/

/-- **Given settings override the default.**  Of an object whose members have distinct names,
    the settings it gives are put in place of those of the default.  If one of them has the wrong
    type, the text is not readable; otherwise the result is that configuration, or the error of
    its validation.  Other members have no effect. -/
theorem given_settings_override_default {text : String} {members : List (String × Document)}
    (h : ObjectText text members) :
    (Scatter.Config.format : ConfigFormat (Scatter.Config α)).OverridesDefault text members ∧
      (Overview.Config.format : ConfigFormat (Overview.Config α)).OverridesDefault text members :=
  ⟨Scatter.Config.lawful.overridesDefault h, Overview.Config.lawful.overridesDefault h⟩

/-- Three ticks below the plot, an easing and a member that is no setting; no ticks at all; and
    a number of ticks that is none. -/
theorem given_settings_override_default_ticks :
    let text := "\x7b\"x_tick_count\": 3, \"zoom_easing\": \"QuadInOut\", \"theme\": null\x7d"
    let members := [("x_tick_count", .number ⟨false, [3], none, none⟩),
      ("zoom_easing", .string (some "QuadInOut")), ("theme", .null)]
    let c : Scatter.Config Rat := { Scatter.Config.standard with
      xTickCount := 3
      zoomEasing := .quadInOut }
    ObjectText text members ∧ Scatter.Config.ofText? text = .ok c ∧
      Overview.Config.ofText? text = .ok (Overview.Config.standard : Overview.Config Rat) ∧
      (Scatter.Config.ofText? "\x7b\"x_tick_count\": 0\x7d" : Except _ (Scatter.Config Rat)) =
        .error (.invalidData .noTicks) ∧
      (Scatter.Config.ofText? "\x7b\"x_tick_count\": -1\x7d" : Except _ (Scatter.Config Rat)) =
        .error (.invalidData .unreadableScatterConfig) := by
  intro text members c
  have htext : ObjectText text members :=
    .of_tokens [.beginObject, .string (some "x_tick_count"), .colon,
      .number ⟨false, [3], none, none⟩, .comma, .string (some "zoom_easing"), .colon,
      .string (some "QuadInOut"), .comma, .string (some "theme"), .colon, .null, .endObject]
      (by decide +kernel) rfl (by simp [members])
  have hnone : ObjectText "\x7b\"x_tick_count\": 0\x7d"
      [("x_tick_count", .number ⟨false, [0], none, none⟩)] :=
    .of_tokens [.beginObject, .string (some "x_tick_count"), .colon,
      .number ⟨false, [0], none, none⟩, .endObject] (by decide +kernel) rfl (by simp)
  have hnegative : ObjectText "\x7b\"x_tick_count\": -1\x7d"
      [("x_tick_count", .number ⟨true, [1], none, none⟩)] :=
    .of_tokens [.beginObject, .string (some "x_tick_count"), .colon,
      .number ⟨true, [1], none, none⟩, .endObject] (by decide +kernel) rfl (by simp)
  have hscatter : ∀ {text members}, ObjectText text members →
      (Scatter.Config.format : ConfigFormat (Scatter.Config Rat)).OverridesDefault text members :=
    fun h => (given_settings_override_default h).1
  have hread (text : String) : (Scatter.Config.ofText? text : Except _ (Scatter.Config Rat)) =
      Scatter.Config.format.ofText? text := rfl
  refine ⟨htext, ?_, ?_, ?_, ?_⟩
  · have hticks (bound : Nat) (h : 3 < bound) :
        IsCount bound 3 (.number ⟨false, [3], none, none⟩) :=
      ⟨h, _, rfl, by simp [Numeral.value?, ofDigits, UInt64.size]⟩
    have heasing : IsChoice Easing.name .quadInOut (.string (some "QuadInOut")) := .inl rfl
    have hc : Scatter.Config.format.IsOverridden members c := by
      simp [ConfigFormat.IsOverridden, Scatter.Config.format, GivenOr, members, c, hticks, heasing]
    exact ((hscatter htext).ok_iff c).2
      ⟨(Scatter.Config.lawful.wellTyped_iff htext.nodup).2 ⟨c, hc⟩, hc, by decide +kernel⟩
  · have hc : Overview.Config.format.IsOverridden members
        (Overview.Config.standard : Overview.Config Rat) := by
      simp [ConfigFormat.IsOverridden, Overview.Config.format, GivenOr, members]
    exact ((given_settings_override_default htext).2.ok_iff _).2
      ⟨(Overview.Config.lawful.wellTyped_iff htext.nodup).2 ⟨_, hc⟩, hc, by decide +kernel⟩
  · have hticks (bound : Nat) (h : 0 < bound) :
        IsCount bound 0 (.number ⟨false, [0], none, none⟩) :=
      ⟨h, _, rfl, by simp [Numeral.value?, ofDigits, UInt64.size]⟩
    have hc : Scatter.Config.format.IsOverridden
        [("x_tick_count", .number ⟨false, [0], none, none⟩)]
        { (Scatter.Config.standard : Scatter.Config Rat) with xTickCount := 0 } := by
      simp [ConfigFormat.IsOverridden, Scatter.Config.format, GivenOr, hticks]
    rw [hread]
    exact ((hscatter hnone).error_iff _ _ hc).2 (by decide +kernel)
  · rw [hread]
    refine (hscatter hnegative).unreadable fun hwell => ?_
    have hcount (bound k : Nat) : ¬ IsCount bound k (.number ⟨true, [1], none, none⟩) := by
      simp [IsCount, Numeral.value?, ofDigits, UInt64.size]
    simp [ConfigFormat.WellTyped, Scatter.Config.format, hcount] at hwell

end CourseCharts
