/-
  CourseCharts — what is read from JSON values.

  * `Value.field?` is a field of a record, by its name in an object and by its
    place in an array; `record?_eq_some` and `lookup_fields` say that records are
    read so;
  * `text?_eq_some`, `scalar?_eq_some` and the like: what the readers of single
    values accept, and what they make of it;
  * `Number.StandsFor` and `Number.PrintedAs` say what numbers are computed with
    and what their texts are, `SentText` and `RecordKey.SentAs` what texts that
    may be left out and keys are sent as;
  * `Response.field_eq_ok` and `Response.field_eq_error`: a field of a response
    is there, or lacking.
-/
import CourseCharts.Json.Settings
import CourseCharts.Proofs.Number.KeyText
import CourseCharts.Record
import CourseCharts.Response
import Mathlib.Algebra.Group.Nat.Defs
import Mathlib.Data.List.Forall2
import Mathlib.Data.List.Nodup

namespace CourseCharts.Json

/-! ## Members -/

section
variable {τ : Type} {name : String} {members : List (String × τ)}

theorem mem_names_of_lastOfEach (h : name ∈ (lastOfEach members).map Prod.fst) :
    name ∈ members.map Prod.fst := by
  induction members with
  | nil => exact h
  | cons m ms ih =>
    rw [lastOfEach] at h
    split at h
    next => exact List.mem_cons_of_mem _ (ih h)
    next =>
      rcases List.mem_cons.1 h with rfl | h
      · exact List.mem_cons_self
      · exact List.mem_cons_of_mem _ (ih h)

/-- No name is left twice. -/
theorem nodup_lastOfEach (members : List (String × τ)) :
    ((lastOfEach members).map Prod.fst).Nodup := by
  induction members with
  | nil => exact List.nodup_nil
  | cons m ms ih =>
    rw [lastOfEach]
    split
    next => exact ih
    next hnone =>
      refine List.nodup_cons.2 ⟨fun hmem => hnone ?_, ih⟩
      obtain ⟨m', hm', hname⟩ := List.mem_map.1 (mem_names_of_lastOfEach hmem)
      exact List.any_eq_true.2 ⟨m', hm', beq_iff_eq.2 hname⟩

/-- The member of a name, if it is given. -/
def givenMember (name : String) (v : Option τ) : List (String × τ) := v.toList.map (name, ·)

theorem filter_of_nodup (h : (members.map Prod.fst).Nodup) :
    members.filter (·.1 == name) = givenMember name (members.lookup name) := by
  induction members with
  | nil => rfl
  | cons m ms ih =>
    obtain ⟨n, v⟩ := m
    obtain ⟨hfresh, hnodup⟩ := List.nodup_cons.1 h
    rcases eq_or_ne n name with rfl | hne
    · have hrest : ms.filter (·.1 == n) = [] := by
        refine List.filter_eq_nil_iff.2 fun m hm heq => hfresh ?_
        exact List.mem_map.2 ⟨m, hm, beq_iff_eq.1 heq⟩
      rw [List.filter_cons_of_pos (by simp), hrest, List.lookup_cons_self]
      rfl
    · have hbeq : (name == n) = false := beq_eq_false_iff_ne.2 hne.symm
      rw [List.filter_cons_of_neg (by simpa using hne), ih hnodup, List.lookup_cons, hbeq]

theorem uniqueMember?_of_nodup (h : (members.map Prod.fst).Nodup) (name : String) :
    uniqueMember? members name = some (givenMember name (members.lookup name)) := by
  rw [uniqueMember?, filter_of_nodup h]
  cases members.lookup name <;> rfl

/-- Where the fields are grouped by their names, each is in the group of its name. -/
theorem lookup_flatMap {given : String → List (String × τ)} (hgiven : ∀ n, ∀ m ∈ given n, m.1 = n)
    (names : List String) : (names.flatMap given).lookup name
      = if name ∈ names then (given name).lookup name else none := by
  induction names with
  | nil => rfl
  | cons n ns ih =>
    rw [List.flatMap_cons, List.lookup_append, ih]
    rcases eq_or_ne name n with rfl | hne
    · cases (given name).lookup name <;> simp
    · have hnone : (given n).lookup name = none := List.lookup_eq_none_iff.2 fun m hm =>
        bne_iff_ne.2 (hgiven n m hm ▸ hne)
      simp [hnone, hne]

/-- Of the fields that are given for some names, each is that of its name. -/
theorem lookup_flatMap_given (given : String → Option τ) (names : List String) :
    (names.flatMap fun n => givenMember n (given n)).lookup name
      = if name ∈ names then given name else none := by
  rw [lookup_flatMap (by simp [givenMember])]
  cases given name <;> simp [givenMember]

/-- Fields in order have their places. -/
theorem lookup_zip {names : List String} (items : List τ) (h : name ∈ names) :
    (names.zip items).lookup name = items[names.idxOf name]? := by
  induction names generalizing items with
  | nil => cases h
  | cons n ns ih =>
    cases items with
    | nil => simp
    | cons x xs =>
      rw [List.zip_cons_cons, List.lookup_cons, List.idxOf_cons]
      rcases eq_or_ne name n with rfl | hne
      · simp
      · have hmem : name ∈ ns := (List.mem_cons.1 h).resolve_left hne
        simp [beq_eq_false_iff_ne.2 hne, beq_eq_false_iff_ne.2 hne.symm, ih xs hmem]

end

/-! ## Records -/

namespace Value

/-- The member is missing, or null. -/
def Lacks (v : Value) (name : String) : Prop := v.member? name = none ∨ v.member? name = some .null

theorem array_ne_null (items : List Value) : Value.array items ≠ .null := nofun

/-- The value can be a record of these fields. -/
def HasForm (names : List String) : Value → Prop
  | .object _ => True
  | .array items => items.length ≤ names.length
  | _ => False

/-- A field of a record: by its name in an object, by its place in an array. -/
def field? (names : List String) (name : String) : Value → Option Value
  | .object members => (Value.object members).member? name
  | .array items => items[names.idxOf name]?
  | _ => none

/-- The fields that are given. -/
def fields (names : List String) : Value → Fields Value
  | .object members => names.flatMap fun n => givenMember n ((Value.object members).member? n)
  | .array items => names.zip items
  | _ => []

end Value

section
variable {names : List String} {name : String} {v : Value} {fs : Fields Value} {β : Type}

theorem record?_eq_some : record? names v = some fs ↔ v.HasForm names ∧ fs = v.fields names := by
  cases v with
  | object members =>
    have hunique : uniqueMember? (lastOfEach members)
        = fun n => some (givenMember n ((Value.object members).member? n)) :=
      funext (uniqueMember?_of_nodup (nodup_lastOfEach members))
    have hmembers : names.mapM (uniqueMember? (lastOfEach members))
        = some (names.map fun n => givenMember n ((Value.object members).member? n)) := by
      rw [hunique]
      exact List.mapM_pure
    have hrecord : record? names (.object members)
        = (names.mapM (uniqueMember? (lastOfEach members))).map List.flatten := rfl
    rw [hrecord, hmembers, Option.map_some, ← List.flatMap_def, Option.some_inj]
    exact ⟨fun h => ⟨trivial, h.symm⟩, fun h => h.2.symm⟩
  | array items =>
    have hrecord : record? names (Value.array items)
        = if items.length ≤ names.length then some (names.zip items) else none := rfl
    rw [hrecord, Option.ite_none_right_eq_some, Option.some_inj]
    exact and_congr_right fun _ => eq_comm
  | _ => exact ⟨nofun, fun h => h.1.elim⟩

theorem lookup_fields (h : v.HasForm names) (hname : name ∈ names) :
    (v.fields names).lookup name = v.field? names name := by
  cases v with
  | object members => exact (lookup_flatMap_given _ names).trans (if_pos hname)
  | array items => exact lookup_zip items hname
  | _ => cases h

variable {read : Value → Option β} {b default : β}

/-- A field that has to be given. -/
theorem required?_eq_some (h : v.HasForm names) (hname : name ∈ names) :
    (v.fields names).required? name read = some b ↔
      ∃ w, v.field? names name = some w ∧ read w = some b := by
  rw [Fields.required?, lookup_fields h hname]
  cases v.field? names name <;> simp

/-- A field with a default. -/
theorem orDefault?_eq_some (h : v.HasForm names) (hname : name ∈ names) :
    (v.fields names).orDefault? name default read = some b ↔
      v.field? names name = none ∧ b = default ∨
        ∃ w, v.field? names name = some w ∧ read w = some b := by
  rw [Fields.orDefault?, lookup_fields h hname]
  cases v.field? names name <;> simp [eq_comm]

end

/-! ## Single values -/

section
variable {α β : Type} [Scalar α] {v : Value}

/-- The number to compute with: the nearest one to an integer, and the double that is sent. -/
def Number.StandsFor : Number → α → Prop
  | int i, x => x = Scalar.ofInt i
  | float f, x => x = Scalar.ofFloat f

theorem Number.standsFor_iff {n : Number} {x : α} : n.StandsFor x ↔ x = n.toScalar := by
  cases n <;> exact Iff.rfl

theorem Number.exists_standsFor (n : Number) : ∃ x : α, n.StandsFor x :=
  ⟨_, standsFor_iff.2 rfl⟩

/-- The text of the number: the decimal numeral of an integer, and the shortest one that is read as
    the double that is sent. -/
def Number.PrintedAs : Number → String → Prop
  | int i, s => IsDecimal s 0 i
  | float f, s => Double.PrintedAs f s

theorem Number.printedAs_iff {n : Number} {s : String} : n.PrintedAs s ↔ s = n.keyText := by
  cases n with
  | int i => exact ⟨fun h => h.text_unique (isDecimal_int i), fun h => h ▸ isDecimal_int i⟩
  | float f => exact Double.printedAs_iff

/-- A text, if it is the value. -/
theorem text?_eq_some {s : String} : text? v = some s ↔ v = .string s := by
  cases v <;> simp [text?, Readable.view?]

theorem scalar?_eq_some {x : α} : scalar? v = some x ↔ ∃ n, v = .number n ∧ n.StandsFor x := by
  cases v <;> simp [scalar?, Readable.view?, Number.standsFor_iff, eq_comm]

/-- A value that may be null; no number is. -/
theorem nullable?_scalar?_eq_some {o : Option α} :
    nullable? scalar? v = some o ↔
      v = .null ∧ o = none ∨ ∃ n x, v = .number n ∧ o = some x ∧ n.StandsFor x := by
  cases v <;> simp [nullable?, scalar?, Readable.view?, Number.standsFor_iff, eq_comm]

/-- A count is sent as an integer from zero up to `2^64`, and not as any other number. -/
theorem count64?_eq_some {k : Nat} : count64? v = some k ↔ v = .number (.int k) ∧ k < 2 ^ 64 := by
  have hsize : UInt64.size = 2 ^ 64 := rfl
  cases v with
  | number n =>
    cases n with
    | int i =>
      have hread : count64? (Value.number (.int i))
          = if 0 ≤ i ∧ i < UInt64.size then some i.toNat else none := rfl
      rw [hread, Option.ite_none_right_eq_some, Option.some_inj, Value.number.injEq,
        Number.int.injEq, hsize]
      omega
    | float x => simp [count64?, nat?, Readable.view?]
  | _ => simp [count64?, nat?, Readable.view?]

/-! What is read from a member, or from the field of a record. -/

variable {o : Option Value}

theorem exists_text?_iff {s : String} :
    (∃ w, o = some w ∧ text? w = some s) ↔ o = some (.string s) := by
  simp only [text?_eq_some, exists_eq_right]

theorem exists_scalar?_iff {x : α} : (∃ w, o = some w ∧ scalar? w = some x) ↔
    ∃ n, o = some (.number n) ∧ n.StandsFor x := by
  cases o <;> simp [scalar?_eq_some]

theorem exists_nullable?_scalar?_iff {y : Option α} :
    (∃ w, o = some w ∧ nullable? scalar? w = some y) ↔
      o = some .null ∧ y = none ∨ ∃ n x, o = some (.number n) ∧ y = some x ∧ n.StandsFor x := by
  cases o <;> simp [nullable?_scalar?_eq_some]

theorem exists_count64?_iff {k : Nat} :
    (∃ w, o = some w ∧ count64? w = some k) ↔ o = some (.number (.int k)) ∧ k < 2 ^ 64 := by
  cases o <;> simp [count64?_eq_some]

/-- A text that may be left out if it is empty. -/
def SentText (o : Option Value) (s : String) : Prop := o = none ∧ s = "" ∨ o = some (.string s)

theorem SentText.eq_empty_iff {s : String} (h : SentText o s) :
    s = "" ↔ o = none ∨ o = some (.string "") := by
  rcases h with ⟨rfl, rfl⟩ | rfl <;> simp

theorem exists_sentText_iff : (∃ s, SentText o s) ↔ o = none ∨ ∃ s, o = some (.string s) := by
  simp [SentText, exists_or]

/-! ### Lists -/

/-- Nothing is read if nothing can be. -/
theorem eq_none_iff {b? : Option β} {P : β → Prop} (h : ∀ b, b? = some b ↔ P b) :
    b? = none ↔ ¬ ∃ b, P b := by
  rw [Option.eq_none_iff_forall_ne_some, not_exists]
  exact forall_congr' fun b => not_congr (h b)

theorem mapM_eq_some {γ : Type} {f : β → Option γ} {xs : List β} {ys : List γ} :
    xs.mapM f = some ys ↔ List.Forall₂ (fun x y => f x = some y) xs ys := by
  induction xs generalizing ys with
  | nil => simp [eq_comm]
  | cons x xs ih =>
    simp only [List.mapM_cons, Option.bind_eq_bind, Option.bind_eq_some_iff, Option.pure_def,
      Option.some_inj, ih, List.forall₂_cons_left_iff]
    constructor
    · rintro ⟨y, hy, ys, hys, rfl⟩
      exact ⟨y, ys, hy, hys, rfl⟩
    · rintro ⟨y, ys, hy, hys, rfl⟩
      exact ⟨y, hy, ys, hys, rfl⟩

/-- A list of results exists if there is one for each element. -/
theorem exists_forall₂_iff {γ : Type} {R : β → γ → Prop} {xs : List β} :
    (∃ ys, List.Forall₂ R xs ys) ↔ ∀ x ∈ xs, ∃ y, R x y := by
  induction xs with
  | nil => exact ⟨fun _ => List.forall_mem_nil _, fun _ => ⟨[], .nil⟩⟩
  | cons x xs ih =>
    rw [List.forall_mem_cons, ← ih]
    constructor
    · rintro ⟨_, h⟩
      cases h with
      | cons hx hxs => exact ⟨⟨_, hx⟩, _, hxs⟩
    · rintro ⟨⟨y, hx⟩, ys, hxs⟩
      exact ⟨y :: ys, .cons hx hxs⟩

theorem list?_eq_some {read : Value → Option β} {bs : List β} :
    list? read v = some bs ↔
      ∃ items, v = .array items ∧ List.Forall₂ (fun w b => read w = some b) items bs := by
  cases v <;> simp [list?, Readable.view?, mapM_eq_some]

end

end CourseCharts.Json

namespace CourseCharts

/-! ## Keys and fields of responses -/

/-- What a key is sent as: a text, or a number with this text. -/
def RecordKey.SentAs (key : RecordKey) (o : Option Json.Value) : Prop :=
  o = some (.string key.text) ∨ ∃ n, o = some (.number n) ∧ n.PrintedAs key.text

section
variable {o : Option Json.Value}

theorem RecordKey.exists_read?_iff {key : RecordKey} :
    (∃ w, o = some w ∧ RecordKey.read? w = some key) ↔ key.SentAs o := by
  obtain ⟨text⟩ := key
  cases o with
  | none => simp [SentAs]
  | some v =>
    cases v <;>
      simp [SentAs, RecordKey.read?, Json.Readable.view?, Json.Number.printedAs_iff, eq_comm]

/-- Every text and every number is some key. -/
theorem RecordKey.exists_sentAs_iff : (∃ key : RecordKey, key.SentAs o) ↔
    (∃ s, o = some (.string s)) ∨ ∃ n, o = some (.number n) := by
  constructor
  · rintro ⟨key, ho | ⟨n, ho, -⟩⟩
    · exact .inl ⟨_, ho⟩
    · exact .inr ⟨n, ho⟩
  · rintro (⟨s, ho⟩ | ⟨n, ho⟩)
    · exact ⟨⟨s⟩, .inl ho⟩
    · exact ⟨⟨n.keyText⟩, .inr ⟨n, ho, Json.Number.printedAs_iff.2 rfl⟩⟩

end

section
variable {v w : Json.Value} {name : String} {e : ChartError}

/-- What is neither missing nor null is there. -/
theorem Json.Value.not_lacks_iff :
    ¬ v.Lacks name ↔ ∃ w, v.member? name = some w ∧ w ≠ .null := by
  unfold Json.Value.Lacks
  cases v.member? name <;> simp

/-- Only objects have members. -/
theorem Json.Value.exists_object (h : v.member? name = some w) :
    ∃ members, v = .object members := by
  cases v with
  | object members => exact ⟨members, rfl⟩
  | _ => cases h

theorem Json.Value.lacks_of_not_object (h : ∀ members, v ≠ .object members) : v.Lacks name := by
  cases v with
  | object members => exact absurd rfl (h members)
  | _ => exact .inl rfl

theorem Response.field_eq_ok :
    Response.field v name = .ok w ↔ v.member? name = some w ∧ w ≠ .null := by
  unfold Response.field
  split
  next h => simp [h]
  next h => simp [h, eq_comm]
  next u hnull h =>
    rw [h, Except.ok.injEq, Option.some_inj]
    exact ⟨fun hw => ⟨hw, hw ▸ hnull⟩, And.left⟩

theorem Response.field_eq_error :
    Response.field v name = .error e ↔ v.Lacks name ∧ e = .missingData name := by
  unfold Response.field Json.Value.Lacks
  split
  next h => simp [h, eq_comm]
  next h => simp [h, eq_comm]
  next u hnull h =>
    have hne : u ≠ .null := hnull
    simp [h, hne]

end

end CourseCharts
