/-
  CourseCharts — what the responses of an overview chart say.

  * `Datum.SentAs` says what a record is sent as, and `Payload.WellFormed` what
    is the record of some datum;
  * `Payload.datum_eq_ok` and `Payload.datum_eq_error`: so one record is read;
    the first field that is not there decides what a bad one misses;
  * `Payload.Decodes` says what a response decodes to, and
    `Payload.records_decoded_exactly` that responses are decoded so.
-/
import CourseCharts.Overview.Payload
import CourseCharts.Proofs.Checks
import CourseCharts.Proofs.Json.Reading

namespace CourseCharts.Overview

open Json

/-! ## Records -/

/-- The value is the record as it is sent: the key as a text or as a number, the counts as integers
    of 64 bits.  Only an object has members, and its other members do not matter. -/
structure Datum.SentAs (d : Datum) (v : Value) : Prop where
  key : d.key.SentAs (v.member? "key")
  counts : ∀ c : Category,
    v.member? c.noun = some (.number (.int (d.count c))) ∧ d.count c < 2 ^ 64

namespace Payload

/-- The value is a record: it has a text or a number as its key and integers of 64 bits as its
    counts. -/
structure WellFormed (v : Value) : Prop where
  key : (∃ s, v.member? "key" = some (.string s)) ∨ ∃ n, v.member? "key" = some (.number n)
  counts : ∀ c : Category, ∃ k < 2 ^ 64, v.member? c.noun = some (.number (.int (k : Nat)))

/-- The first field of a record that is missing or null. -/
def FirstLacking (v : Value) (name : String) : Prop :=
  ∃ before after, recordFields = before ++ name :: after ∧
    (∀ n ∈ before, ¬ v.Lacks n) ∧ v.Lacks name

variable {v : Value} {d : Datum} {e : ChartError}

/-- What is well formed is the record of a datum. -/
theorem wellFormed_iff : WellFormed v ↔ ∃ d : Datum, d.SentAs v := by
  constructor
  · rintro ⟨hkey, hcounts⟩
    obtain ⟨key, hkey⟩ := RecordKey.exists_sentAs_iff.2 hkey
    choose count hsmall hcount using hcounts
    refine ⟨⟨key, .ofFn count⟩, hkey, fun c => ?_⟩
    have hget : Datum.count ⟨key, .ofFn count⟩ c = count c := by cases c <;> rfl
    rw [hget]
    exact ⟨hcount c, hsmall c⟩
  · rintro ⟨d, hkey, hcounts⟩
    exact ⟨RecordKey.exists_sentAs_iff.1 ⟨_, hkey⟩,
      fun c => ⟨d.count c, (hcounts c).2, (hcounts c).1⟩⟩

/-- A record lacks no field. -/
theorem not_lacks_of_sentAs (h : d.SentAs v) : ∀ name ∈ recordFields, ¬ v.Lacks name := by
  have hkey : ¬ v.Lacks "key" := by
    rw [Value.not_lacks_iff]
    rcases h.key with hkey | ⟨n, hkey, -⟩
    · exact ⟨_, hkey, nofun⟩
    · exact ⟨_, hkey, nofun⟩
  have hcount (c : Category) : ¬ v.Lacks c.noun :=
    Value.not_lacks_iff.2 ⟨_, (h.counts c).1, nofun⟩
  simpa [recordFields] using
    ⟨hkey, hcount .submissions, hcount .snapshots, hcount .launches⟩

/-- An object is read as the record that it is. -/
theorem read?_object_eq_some {members : List (String × Value)} :
    Datum.read? (Value.object members) = some d ↔ d.SentAs (.object members) := by
  have hform : (Value.object members).HasForm ["key", "submissions", "snapshots", "launches"] :=
    trivial
  simp (disch := simp) only [Datum.read?, Option.bind_eq_bind, Option.bind_eq_some_iff,
    Option.pure_def, Option.some.injEq, record?_eq_some, and_assoc, exists_and_left,
    exists_eq_left, required?_eq_some hform, RecordKey.exists_read?_iff, exists_count64?_iff]
  constructor
  · rintro ⟨-, key, hkey, submissions, hsubmissions, hsubmissions', snapshots, hsnapshots,
      hsnapshots', launches, hlaunches, hlaunches', rfl⟩
    refine ⟨hkey, fun c => ?_⟩
    cases c with
    | submissions => exact ⟨hsubmissions, hsubmissions'⟩
    | snapshots => exact ⟨hsnapshots, hsnapshots'⟩
    | launches => exact ⟨hlaunches, hlaunches'⟩
  · rintro ⟨hkey, hcounts⟩
    obtain ⟨hsubmissions, hsubmissions'⟩ := hcounts .submissions
    obtain ⟨hsnapshots, hsnapshots'⟩ := hcounts .snapshots
    obtain ⟨hlaunches, hlaunches'⟩ := hcounts .launches
    exact ⟨hform, _, hkey, _, hsubmissions, hsubmissions', _, hsnapshots, hsnapshots', _,
      hlaunches, hlaunches', rfl⟩

/-- What has all the fields is read as the record that it is.  An array of them would be read as
    well, but it has no members. -/
theorem read?_eq_some (hfields : ∀ name ∈ recordFields, ¬ v.Lacks name) :
    Datum.read? v = some d ↔ d.SentAs v := by
  obtain ⟨w, hw, -⟩ := Value.not_lacks_iff.1 (hfields "key" (by decide))
  obtain ⟨members, rfl⟩ := Value.exists_object hw
  exact read?_object_eq_some

/-- The check that a field of a record is there. -/
def checkField (v : Value) (name : String) : Except ChartError Unit :=
  Response.field v name >>= fun _ => pure ()

theorem checkField_eq_ok {name : String} : checkField v name = .ok () ↔ ¬ v.Lacks name := by
  rw [checkField, bind_eq_ok, Value.not_lacks_iff]
  simp only [Response.field_eq_ok, pure_eq_ok, and_true]

theorem checkField_eq_error {name : String} :
    checkField v name = .error e ↔ v.Lacks name ∧ e = .missingData name := by
  rw [checkField, bind_eq_error, Response.field_eq_error, or_iff_left]
  rintro ⟨w, -, h⟩
  cases h

theorem forM_checkField_eq_error : recordFields.forM (checkField v) = .error e ↔
    ∃ name, FirstLacking v name ∧ e = .missingData name := by
  have hok (name : String) : (∃ u, checkField v name = .ok u) ↔ ¬ v.Lacks name :=
    ⟨fun ⟨_, h⟩ => checkField_eq_ok.1 h, fun h => ⟨(), checkField_eq_ok.2 h⟩⟩
  simp only [forM_eq_firstError, FirstError, FirstLacking, hok, checkField_eq_error]
  constructor
  · rintro ⟨before, name, after, hsplit, hbefore, hlacks, rfl⟩
    exact ⟨name, ⟨before, after, hsplit, hbefore, hlacks⟩, rfl⟩
  · rintro ⟨name, ⟨before, after, hsplit, hbefore, hlacks⟩, rfl⟩
    exact ⟨before, name, after, hsplit, hbefore, hlacks, rfl⟩

theorem datum_eq (v : Value) : datum v =
    (recordFields.forM (checkField v) >>= fun _ => Flaw.malformedRecord.orElse (Datum.read? v)) :=
  rfl

/-- A record is decoded to what it is the record of. -/
theorem datum_eq_ok : datum v = .ok d ↔ d.SentAs v := by
  simp only [datum_eq, bind_eq_ok, forM_eq_ok, checkField_eq_ok, Flaw.orElse_eq_ok, exists_const]
  constructor
  · rintro ⟨hfields, hread⟩
    exact (read?_eq_some hfields).1 hread
  · intro h
    have hfields := not_lacks_of_sentAs h
    exact ⟨hfields, (read?_eq_some hfields).2 h⟩

theorem exists_datum_eq_ok : (∃ d, datum v = .ok d) ↔ WellFormed v := by
  simp only [datum_eq_ok, wellFormed_iff]

/-! ## Errors -/

/-- What is wrong with a value that is no record.  Only a value that has all the fields is
    malformed. -/
inductive BadRecord (v : Value) : ChartError → Prop
  | noObject : (∀ members, v ≠ .object members) → BadRecord v (.missingData "key")
  | lacking {name} : FirstLacking v name → BadRecord v (.missingData name)
  | malformed : (∀ name ∈ recordFields, ¬ v.Lacks name) → ¬ WellFormed v →
    BadRecord v (.invalidData .malformedRecord)

/-- What is no object lacks the first field. -/
theorem firstLacking_of_not_object (h : ∀ members, v ≠ .object members) :
    FirstLacking v "key" :=
  ⟨[], _, rfl, List.forall_mem_nil _, Value.lacks_of_not_object h⟩

/-- Only bad records are refused, for what is wrong with them. -/
theorem datum_eq_error : datum v = .error e ↔ BadRecord v e := by
  have hrefused (hfields : ∀ name ∈ recordFields, ¬ v.Lacks name) :
      Datum.read? v = none ↔ ¬ WellFormed v := by
    rw [wellFormed_iff, eq_none_iff fun _ => read?_eq_some hfields]
  rw [datum_eq, bind_eq_error, forM_checkField_eq_error]
  simp only [forM_eq_ok, checkField_eq_ok, Flaw.orElse_eq_error, exists_const]
  constructor
  · rintro (⟨name, hlacks, rfl⟩ | ⟨hfields, hread, rfl⟩)
    · exact .lacking hlacks
    · exact .malformed hfields ((hrefused hfields).1 hread)
  · rintro (hno | hlacks | ⟨hfields, hbad⟩)
    · exact .inl ⟨_, firstLacking_of_not_object hno, rfl⟩
    · exact .inl ⟨_, hlacks, rfl⟩
    · exact .inr ⟨hfields, (hrefused hfields).2 hbad, rfl⟩

/-! ## Responses -/

/-- The response has these records: it is the array of them, or has it in `chart-data`. -/
inductive HasRecords (v : Value) (rs : List Value) : Prop
  | bare : v = .array rs → HasRecords v rs
  | wrapped : v.member? "chart-data" = some (.array rs) → HasRecords v rs

/-- What is wrong with a response that has no records. -/
inductive NoRecords (v : Value) : ChartError → Prop
  | nothing : v = .null → NoRecords v (.missingData "chart-data")
  | lacking {members} : v = .object members → v.Lacks "chart-data" →
    NoRecords v (.missingData "chart-data")
  | noArray {w} : v.member? "chart-data" = some w → w ≠ .null → (∀ rs, w ≠ .array rs) →
    NoRecords v (.invalidData (.recordsNotInArray "chart-data"))
  | noContainer : v ≠ .null → (∀ rs, v ≠ .array rs) → (∀ members, v ≠ .object members) →
    NoRecords v (.invalidData .noRecordContainer)

/-- What a response decodes to: its data, or the error of the first record that is bad. -/
inductive Decodes (v : Value) : Except ChartError (List Datum) → Prop
  | data {rs : List Value} {ds : List Datum} : HasRecords v rs →
    List.Forall₂ (fun r d => Datum.SentAs d r) rs ds → Decodes v (.ok ds)
  | badRecord {good rest : List Value} {r : Value} {e : ChartError} :
    HasRecords v (good ++ r :: rest) → (∀ g ∈ good, WellFormed g) → BadRecord r e →
    Decodes v (.error e)
  | noRecords {e : ChartError} : NoRecords v e → Decodes v (.error e)

section
variable {rs : List Value}

theorem records_eq_ok : records v = .ok rs ↔ HasRecords v rs := by
  constructor
  · intro h
    cases v with
    | array items =>
      cases h
      exact .bare rfl
    | object members =>
      obtain ⟨w, hw, hrest⟩ := bind_eq_ok.1 h
      cases w with
      | array items =>
        cases hrest
        exact .wrapped (Response.field_eq_ok.1 hw).1
      | _ => cases hrest
    | _ => cases h
  · rintro (rfl | hdata)
    · rfl
    · obtain ⟨members, rfl⟩ := Value.exists_object hdata
      exact bind_eq_ok.2 ⟨_, Response.field_eq_ok.2 ⟨hdata, Value.array_ne_null rs⟩, rfl⟩

theorem records_eq_error : records v = .error e ↔ NoRecords v e := by
  constructor
  · intro h
    cases v with
    | null =>
      cases h
      exact .nothing rfl
    | object members =>
      rcases bind_eq_error.1 h with hfield | ⟨w, hw, hrest⟩
      · obtain ⟨hlacks, rfl⟩ := Response.field_eq_error.1 hfield
        exact .lacking rfl hlacks
      · obtain ⟨hw, hnull⟩ := Response.field_eq_ok.1 hw
        cases w with
        | array items => cases hrest
        | _ =>
          cases hrest
          exact .noArray hw hnull nofun
    | array items => cases h
    | _ =>
      cases h
      exact .noContainer nofun nofun nofun
  · rintro (rfl | ⟨rfl, hlacks⟩ | ⟨hw, hnull, harray⟩ | ⟨hnull, harray, hobject⟩)
    · rfl
    · exact bind_eq_error.2 (.inl (Response.field_eq_error.2 ⟨hlacks, rfl⟩))
    · obtain ⟨members, rfl⟩ := Value.exists_object hw
      refine bind_eq_error.2 (.inr ⟨_, Response.field_eq_ok.2 ⟨hw, hnull⟩, ?_⟩)
      split
      next items => exact absurd rfl (harray items)
      next => rfl
    · cases v with
      | null => exact absurd rfl hnull
      | array items => exact absurd rfl (harray items)
      | object members => exact absurd rfl (hobject members)
      | _ => rfl

end

theorem ofValue_eq_ok {ds : List Datum} : ofValue v = .ok ds ↔
    ∃ rs, HasRecords v rs ∧ List.Forall₂ (fun r d => Datum.SentAs d r) rs ds := by
  simp only [ofValue, bind_eq_ok, records_eq_ok, mapM_eq_ok, datum_eq_ok]

theorem ofValue_eq_error : ofValue v = .error e ↔ NoRecords v e ∨
    ∃ rs, HasRecords v rs ∧ FirstError datum rs e := by
  simp only [ofValue, bind_eq_error, records_eq_ok, records_eq_error, mapM_eq_error]

theorem ofValue_eq_iff (result : Except ChartError (List Datum)) :
    ofValue v = result ↔ Decodes v result := by
  cases result with
  | ok ds =>
    rw [ofValue_eq_ok]
    constructor
    · rintro ⟨rs, hrs, hds⟩
      exact .data hrs hds
    · rintro ⟨hrs, hds⟩
      exact ⟨_, hrs, hds⟩
  | error e =>
    rw [ofValue_eq_error]
    simp only [FirstError, exists_datum_eq_ok, datum_eq_error]
    constructor
    · rintro (hno | ⟨rs, hrs, good, r, rest, rfl, hgood, hbad⟩)
      · exact .noRecords hno
      · exact .badRecord hrs hgood hbad
    · rintro (_ | ⟨hrs, hgood, hbad⟩ | hno)
      · exact .inr ⟨_, hrs, _, _, _, rfl, hgood, hbad⟩
      · exact .inl hno

/-! ## Other fields -/

/-- The values agree on the fields of records. -/
def SameFields (v w : Value) : Prop := ∀ name ∈ recordFields, v.member? name = w.member? name

section
variable {w : Value}

theorem SameFields.sentAs (h : SameFields v w) (hd : d.SentAs v) : d.SentAs w := by
  have hcount (c : Category) : v.member? c.noun = w.member? c.noun :=
    h c.noun (by cases c <;> decide)
  refine ⟨?_, fun c => ?_⟩
  · rw [← h "key" (by decide)]
    exact hd.key
  · rw [← hcount c]
    exact hd.counts c

theorem SameFields.symm (h : SameFields v w) : SameFields w v :=
  fun name hname => (h name hname).symm

/-- Records with the same fields are decoded alike. -/
theorem SameFields.datum_eq (h : SameFields v w) : datum v = datum w := by
  have hcheck : ∀ name ∈ recordFields, checkField v name = checkField w name := fun name hname => by
    rw [checkField, checkField, Response.field, Response.field, h name hname]
  have hchecks : recordFields.forM (checkField v) = recordFields.forM (checkField w) := by
    simp only [recordFields, List.forall_mem_cons] at hcheck
    simp [recordFields, hcheck]
  rw [Payload.datum_eq, Payload.datum_eq, hchecks]
  -- past the checks both are read as the same records
  cases hw : recordFields.forM (checkField w) with
  | error e => rfl
  | ok u =>
    have hfields {r : Value} (hr : recordFields.forM (checkField r) = .ok u) :
        ∀ name ∈ recordFields, ¬ r.Lacks name := fun name hname =>
      checkField_eq_ok.1 (forM_eq_ok.1 hr name hname)
    have hread : Datum.read? v = Datum.read? w := Option.ext fun d =>
      (read?_eq_some (hfields (hchecks.trans hw))).trans
        ((⟨h.sentAs, h.symm.sentAs⟩ : d.SentAs v ↔ d.SentAs w).trans
          (read?_eq_some (hfields hw)).symm)
    rw [hread]

theorem mapM_datum_congr {rs rs' : List Value} (h : List.Forall₂ SameFields rs rs') :
    rs.mapM datum = rs'.mapM datum := by
  induction h with
  | nil => rfl
  | cons hr _ ih => rw [List.mapM_cons, List.mapM_cons, hr.datum_eq, ih]

end

/-- **Overview responses are decoded exactly.**  What a response decodes to follows from its
    records, and these are the array that it is or has in `chart-data`; the first bad record, and in
    it the first field that is not there, decides which error it is.  Nothing but the fields of the
    records matters.  The text of a key that is a double is a numeral that is read back as it. -/
theorem records_decoded_exactly (v : Value) :
    (∀ result, ofValue v = result ↔ Decodes v result) ∧
      (∀ rs rs', HasRecords v rs → List.Forall₂ SameFields rs rs' →
        ofValue v = ofValue (.array rs')) ∧
      ∀ (x : Float) (s : String), x.isFinite = true → (Number.float x).PrintedAs s →
        ∃ n, Numeral.ofText? s = some n ∧ Double.ReadFrom x n := by
  refine ⟨ofValue_eq_iff, fun rs rs' hrs hsame => ?_, fun x s hx hs => hs.read hx⟩
  have hv : ofValue v = rs.mapM datum := by
    rw [ofValue, records_eq_ok.2 hrs]
    rfl
  rw [hv, mapM_datum_congr hsame]
  rfl

/-- Records with an integer, a text and a double as their keys; then one that lacks a field and one
    with a count that is negative, in both orders. -/
theorem records_decoded_exactly_wrapped :
    let record (key snapshots : Value) : Value := .object [("key", key),
      ("submissions", .number (.int 1)), ("snapshots", snapshots), ("launches", .number (.int 3))]
    let colored (key : Value) : Value := .object [("color", .string "red"), ("key", key),
      ("submissions", .number (.int 1)), ("snapshots", .number (.int 2)),
      ("launches", .number (.int 3))]
    let keys : List Value := [.number (.int 7), .string "a", .number (.float 7.5)]
    let records := keys.map (record · (.number (.int 2)))
    let lacking := record (.string "b") .null
    let negative := record (.string "c") (.number (.int (-2)))
    let response : Value :=
      .object [("chart-data", .array (keys.map colored)), ("chart-info", .null)]
    let data : List Datum := [⟨⟨"7"⟩, ⟨1, 2, 3⟩⟩, ⟨⟨"a"⟩, ⟨1, 2, 3⟩⟩, ⟨⟨"7.5"⟩, ⟨1, 2, 3⟩⟩]
    HasRecords response (keys.map colored) ∧
      List.Forall₂ SameFields (keys.map colored) records ∧
      ofValue (.array records) = .ok data ∧ ofValue response = .ok data ∧
      ofValue (.array (records ++ [lacking, negative])) = .error (.missingData "snapshots") ∧
      ofValue (.array (records ++ [negative, lacking])) =
        .error (.invalidData .malformedRecord) := by
  intro record colored keys records lacking negative response data
  have hrecords : HasRecords response (keys.map colored) := .wrapped rfl
  have hsame (key : Value) : SameFields (colored key) (record key (.number (.int 2))) := by
    rw [SameFields, recordFields]
    simp only [List.forall_mem_cons]
    exact ⟨rfl, rfl, rfl, rfl, List.forall_mem_nil _⟩
  have hsames : List.Forall₂ SameFields (keys.map colored) records :=
    .cons (hsame _) (.cons (hsame _) (.cons (hsame _) .nil))
  have hdouble : (Number.float 7.5).PrintedAs "7.5" := Number.printedAs_iff.2 (by decide +kernel)
  have hsent {key : Value} {text : String} (hkey : RecordKey.SentAs ⟨text⟩ (some key)) :
      Datum.SentAs ⟨⟨text⟩, ⟨1, 2, 3⟩⟩ (record key (.number (.int 2))) := by
    refine ⟨hkey, fun c => ?_⟩
    cases c with
    | submissions => exact ⟨rfl, (by decide : 1 < 2 ^ 64)⟩
    | snapshots => exact ⟨rfl, (by decide : 2 < 2 ^ 64)⟩
    | launches => exact ⟨rfl, (by decide : 3 < 2 ^ 64)⟩
  have hdata : List.Forall₂ (fun r d => Datum.SentAs d r) records data :=
    .cons (hsent (.inr ⟨.int 7, rfl, isDecimal_int 7⟩))
      (.cons (hsent (.inl rfl)) (.cons (hsent (.inr ⟨.float 7.5, rfl, hdouble⟩)) .nil))
  have hgood : ∀ r ∈ records, WellFormed r := fun r hr =>
    wellFormed_iff.2 (exists_forall₂_iff.1 ⟨data, hdata⟩ r hr)
  have hlacking : BadRecord lacking (.missingData "snapshots") := by
    refine .lacking ⟨["key", "submissions"], ["launches"], rfl, ?_, .inr rfl⟩
    simp only [List.forall_mem_cons, Value.not_lacks_iff]
    exact ⟨⟨_, rfl, nofun⟩, ⟨_, rfl, nofun⟩, List.forall_mem_nil _⟩
  have hnegative : BadRecord negative (.invalidData .malformedRecord) := by
    refine .malformed ?_ fun hformed => ?_
    · simp only [recordFields, List.forall_mem_cons, Value.not_lacks_iff]
      exact ⟨⟨_, rfl, nofun⟩, ⟨_, rfl, nofun⟩, ⟨_, rfl, nofun⟩, ⟨_, rfl, nofun⟩,
        List.forall_mem_nil _⟩
    · obtain ⟨k, -, hk⟩ := hformed.counts .snapshots
      have hmember : negative.member? "snapshots" = some (.number (.int (-2))) := rfl
      cases hmember.symm.trans hk
  have hbare : ofValue (.array records) = .ok data :=
    ((records_decoded_exactly (.array records)).1 _).2 (.data (.bare rfl) hdata)
  refine ⟨hrecords, hsames, hbare, ?_, ?_, ?_⟩
  · exact ((records_decoded_exactly response).2.1 _ _ hrecords hsames).trans hbare
  · exact ((records_decoded_exactly _).1 _).2 (.badRecord (.bare rfl) hgood hlacking)
  · exact ((records_decoded_exactly _).1 _).2 (.badRecord (.bare rfl) hgood hnegative)

end Payload

end CourseCharts.Overview
