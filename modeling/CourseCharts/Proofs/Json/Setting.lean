/-
  CourseCharts — settings that are given in place of a default.

  A text gives some settings of a configuration; the others are those of the
  default.

  * `GivenOr` says that a value is what is given for a name, or else a default;
    `orDefault?_eq_some_iff`: such fields are read so;
  * `Setting` is one setting of a configuration, and a `ConfigFormat` what texts
    can set; `ConfigFormat.IsOverridden` says that a configuration is the default
    with the given settings in place;
  * `ConfigFormat.OverridesDefault` says what a text is read as, and
    `ConfigFormat.Lawful.overridesDefault` when a format reads all texts so.
-/
import CourseCharts.Proofs.Checks
import CourseCharts.Proofs.Json.Written

namespace CourseCharts

open Json Json.Document

/-! ## One setting -/

namespace Json

section
variable {β : Type} {members : List (String × Document)} {name : String}
  {WrittenAs : β → Document → Prop} {default v : β}

/-- The value is what the members give for the name, and the default if they do not. -/
def GivenOr (members : List (String × Document)) (name : String) (WrittenAs : β → Document → Prop)
    (default v : β) : Prop :=
  (∀ d, (name, d) ∈ members → WrittenAs v d) ∧ ((∀ d, (name, d) ∉ members) → v = default)

theorem givenOr_iff (hnodup : (members.map Prod.fst).Nodup) :
    GivenOr members name WrittenAs default v ↔
      (members.lookup name).elim (v = default) (WrittenAs v) := by
  simp only [GivenOr, ← lookup_eq_some_iff_mem hnodup]
  cases members.lookup name <;> simp

theorem bind_eq_some_iff {γ : Type} {x : Option β} {f : β → Option γ} {c : γ} :
    (x >>= f) = some c ↔ ∃ b, x = some b ∧ f b = some c :=
  Option.bind_eq_some_iff

/-- A field with a default is read as it is given. -/
theorem orDefault?_eq_some_iff {names : List String} {read : Document → Option β}
    (hnodup : (members.map Prod.fst).Nodup) (hread : ∀ v d, read d = some v ↔ WrittenAs v d)
    (hname : name ∈ names) :
    Fields.orDefault? (names.flatMap (named members)) name default read = some v ↔
      GivenOr members name WrittenAs default v := by
  rw [givenOr_iff hnodup, Fields.orDefault?, lookup_flatMap_named, if_pos hname]
  cases members.lookup name <;> simp [hread, eq_comm]

/-- There is a value unless something is given that is none. -/
theorem exists_givenOr (hnodup : (members.map Prod.fst).Nodup)
    (h : ∀ d, (name, d) ∈ members → ∃ v, WrittenAs v d) (default : β) :
    ∃ v, GivenOr members name WrittenAs default v := by
  simp only [givenOr_iff hnodup]
  cases hlookup : members.lookup name with
  | none => exact ⟨default, rfl⟩
  | some d => exact h d ((lookup_eq_some_iff_mem hnodup).1 hlookup)

end

/-- The text is an object with these members, whose names are distinct. -/
structure ObjectText (text : String) (members : List (String × Document)) : Prop where
  parses : Document.ofText? text = some (ofMembers members)
  nodup : (members.map Prod.fst).Nodup

theorem ObjectText.of_tokens {text : String} {members : List (String × Document)} (ts : List Token)
    (htokens : Token.ofText? text = some ts)
    (hvalue : value? (2 * ts.length + 1) ts = some (ofMembers members, []))
    (hnodup : (members.map Prod.fst).Nodup) : ObjectText text members := by
  refine ⟨?_, hnodup⟩
  rw [Document.ofText?, htokens]
  simp [hvalue]

end Json

/-! ## All settings of a configuration -/

/-- A setting: its name in a text, its value in a configuration, and what values are written as. -/
structure Setting (γ : Type) where
  name : String
  {Value : Type}
  value : γ → Value
  WrittenAs : Value → Document → Prop

/-- What texts can set, and how they are read. -/
structure ConfigFormat (γ : Type) where
  settings : List (Setting γ)
  /-- The configuration where nothing is given. -/
  standard : γ
  validate : γ → Except ChartError Unit
  /-- What is wrong with a text that gives no configuration. -/
  unreadable : Flaw
  ofText? : String → Except ChartError γ

namespace ConfigFormat

variable {γ : Type} (F : ConfigFormat γ) (text : String) (members : List (String × Document))

/-- Whatever is given for a setting is a value of it. -/
def WellTyped : Prop := ∀ s ∈ F.settings, ∀ d, (s.name, d) ∈ members → ∃ v, s.WrittenAs v d

/-- The configuration has every setting as it is given, and the others of the default. -/
def IsOverridden (c : γ) : Prop :=
  ∀ s ∈ F.settings, GivenOr members s.name s.WrittenAs (s.value F.standard) (s.value c)

/-- The text is read as the default with the given settings in place. -/
structure OverridesDefault : Prop where
  /-- A configuration that is read is the default with the given settings in place, and valid. -/
  ok_iff : ∀ c, F.ofText? text = .ok c ↔
    F.WellTyped members ∧ F.IsOverridden members c ∧ F.validate c = .ok ()
  existsUnique : F.WellTyped members → ∃! c, F.IsOverridden members c
  unreadable : ¬ F.WellTyped members → F.ofText? text = .error (.invalidData F.unreadable)
  /-- If all that is given has the right type, an error is that of the validation. -/
  error_iff : ∀ c e, F.IsOverridden members c →
    (F.ofText? text = .error e ↔ F.validate c = .error e)
  /-- Members that are no settings have no effect. -/
  unknown : ∀ text' members', ObjectText text' members' →
    (∀ s ∈ F.settings, ∀ d, (s.name, d) ∈ members' ↔ (s.name, d) ∈ members) →
      F.ofText? text' = F.ofText? text

/-- What is read are the settings one by one, which make up the configuration; then it is
    validated. -/
structure Lawful (read? : Document → Option γ) : Prop where
  ofText?_eq : ∀ text, F.ofText? text =
    match (Document.ofText? text).bind read? with
    | none => .error (.invalidData F.unreadable)
    | some c => do
      F.validate c
      return c
  read?_eq_some : ∀ {members c}, (members.map Prod.fst).Nodup →
    (read? (ofMembers members) = some c ↔ F.IsOverridden members c)
  exists_values : ∀ P : (s : Setting γ) → s.Value → Prop, (∀ s ∈ F.settings, ∃ v, P s v) →
    ∃ c, ∀ s ∈ F.settings, P s (s.value c)

namespace Lawful

variable {F text members} {read? : Document → Option γ} {c : γ}

theorem wellTyped_iff (hF : F.Lawful read?) (hnodup : (members.map Prod.fst).Nodup) :
    F.WellTyped members ↔ ∃ c, F.IsOverridden members c := by
  constructor
  · intro h
    exact hF.exists_values (fun s => GivenOr members s.name s.WrittenAs (s.value F.standard))
      fun s hs => exists_givenOr hnodup (h s hs) _
  · rintro ⟨c, hc⟩ s hs d hd
    exact ⟨_, (hc s hs).1 d hd⟩

theorem ofText?_of_isOverridden (hF : F.Lawful read?) (h : ObjectText text members)
    (hc : F.IsOverridden members c) : F.ofText? text = (F.validate c >>= fun _ => pure c) := by
  rw [hF.ofText?_eq, h.parses, Option.bind_some, (hF.read?_eq_some h.nodup).2 hc]

theorem ofText?_of_not_wellTyped (hF : F.Lawful read?) (h : ObjectText text members)
    (hill : ¬ F.WellTyped members) : F.ofText? text = .error (.invalidData F.unreadable) := by
  have hnone : read? (ofMembers members) = none :=
    (eq_none_iff fun _ => hF.read?_eq_some h.nodup).2 (hill ∘ (hF.wellTyped_iff h.nodup).2)
  rw [hF.ofText?_eq, h.parses, Option.bind_some, hnone]

theorem overridesDefault (hF : F.Lawful read?) (h : ObjectText text members) :
    F.OverridesDefault text members where
  ok_iff c := by
    constructor
    · intro hok
      by_cases hwell : F.WellTyped members
      · obtain ⟨c', hc'⟩ := (hF.wellTyped_iff h.nodup).1 hwell
        rw [hF.ofText?_of_isOverridden h hc', bind_eq_ok] at hok
        obtain ⟨⟨⟩, hvalid, hpure⟩ := hok
        obtain rfl := pure_eq_ok.1 hpure
        exact ⟨hwell, hc', hvalid⟩
      · rw [hF.ofText?_of_not_wellTyped h hwell] at hok
        cases hok
    · rintro ⟨-, hc, hvalid⟩
      rw [hF.ofText?_of_isOverridden h hc, hvalid]
      rfl
  existsUnique hwell := by
    obtain ⟨c, hc⟩ := (hF.wellTyped_iff h.nodup).1 hwell
    refine ⟨c, hc, fun c' hc' => ?_⟩
    rw [← hF.read?_eq_some h.nodup] at hc hc'
    exact Option.some.inj (hc'.symm.trans hc)
  unreadable := hF.ofText?_of_not_wellTyped h
  error_iff c e hc := by
    rw [hF.ofText?_of_isOverridden h hc, bind_eq_error]
    simp [pure, Except.pure]
  unknown text' members' h' hknown := by
    have hsame (c : γ) : F.IsOverridden members' c ↔ F.IsOverridden members c :=
      forall₂_congr fun s hs => by simp only [GivenOr, hknown s hs]
    by_cases hwell : F.WellTyped members
    · obtain ⟨c, hc⟩ := (hF.wellTyped_iff h.nodup).1 hwell
      rw [hF.ofText?_of_isOverridden h hc, hF.ofText?_of_isOverridden h' ((hsame c).2 hc)]
    · have hwell' : ¬ F.WellTyped members' := by
        simpa only [hF.wellTyped_iff h'.nodup, hF.wellTyped_iff h.nodup, hsame] using hwell
      rw [hF.ofText?_of_not_wellTyped h hwell, hF.ofText?_of_not_wellTyped h' hwell']

end Lawful

end ConfigFormat

end CourseCharts
