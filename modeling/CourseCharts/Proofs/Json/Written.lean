/-
  CourseCharts — what is written in JSON texts.

  What the readers make of a document as it is written, where names may be
  given several times and numerals may have no value.

  * `Document.ofMembers` is an object, whose members have texts as names;
    `Document.view?_eq_object` and the like: what is seen of a document;
  * `Document.IsNumber`, `Document.IsCount` and `Document.IsChoice` say what
    single values are written as, `Document.IsRecord` so of records that have to
    be complete;
  * `scalar?_eq_some_iff` and the like: they are read as they are written;
  * `record?_ofMembers`: of an object the members of some names are read, if none
    of these is given twice; `isRecord_iff`: complete records are read so;
  * `Viewport.WrittenAs` and `Margins.WrittenAs` say what these are written as.
-/
import CourseCharts.Proofs.Json.Reading

namespace CourseCharts.Json

namespace Document

/-! ## Views -/

/-- An object whose members have texts as names. -/
def ofMembers (members : List (String × Document)) : Document :=
  .object (members.map fun m => (some m.1, m.2))

section
variable {d : Document}

theorem view?_eq_null : view? d = some .null ↔ d = .null := by
  cases d <;> simp [Readable.view?]

theorem view?_eq_string {s : String} : view? d = some (.string s) ↔ d = .string (some s) := by
  cases d <;> simp [Readable.view?]

theorem view?_eq_number {n : Number} :
    view? d = some (.number n) ↔ ∃ s : Numeral, d = .number s ∧ s.value? = some n := by
  cases d <;> simp [Readable.view?]

theorem view?_eq_array {items : List Document} :
    view? d = some (.array items) ↔ d = .array items := by
  cases d <;> simp [Readable.view?]

theorem namedMember?_eq_some {m : Option String × Document} {n : String × Document} :
    namedMember? m = some n ↔ m = (some n.1, n.2) := by
  obtain ⟨name, d⟩ := m
  cases name <;> simp [namedMember?, Prod.ext_iff, eq_comm]

theorem view?_eq_object {members : List (String × Document)} :
    view? d = some (.object members) ↔ d = ofMembers members := by
  cases d with
  | object ms =>
    simp only [Readable.view?, Option.map_eq_some_iff, View.object.injEq, exists_eq_right,
      mapM_eq_some, namedMember?_eq_some, ofMembers, Document.object.injEq]
    rw [← List.forall₂_map_right_iff, List.forall₂_eq_eq_eq]
  | _ => simp [Readable.view?, ofMembers]

end

/-! ## Single values -/

/-- The document is this text. -/
def IsText (s : String) (d : Document) : Prop := d = .string (some s)

/-- The document is a number, and `x` the number to compute with. -/
def IsNumber {α : Type} [Scalar α] (x : α) (d : Document) : Prop :=
  ∃ (s : Numeral) (n : Number), d = .number s ∧ s.value? = some n ∧ n.StandsFor x

/-- The document is the integer `k`, and that is below the bound. -/
def IsCount (bound k : Nat) (d : Document) : Prop :=
  k < bound ∧ ∃ s : Numeral, d = .number s ∧ s.value? = some (.int k)

/-- The document names the choice, or gives null for its name. -/
def IsChoice {β : Type} (name : β → String) (b : β) (d : Document) : Prop :=
  d = .string (some (name b)) ∨ d = ofMembers [(name b, .null)]

/-- The document has these fields, each of them once: by their names in an object, where other
    members do not matter, or in order in an array. -/
def IsRecord (fields : List (String × Document)) (d : Document) : Prop :=
  (∃ members, d = ofMembers members ∧ ∀ f ∈ fields, members.filter (·.1 == f.1) = [f]) ∨
    d = .array (fields.map Prod.snd)

end Document

open Document

/-- Of distinct names, every member is found by its name. -/
theorem lookup_eq_some_iff_mem {τ : Type} {members : List (String × τ)} {name : String} {v : τ}
    (h : (members.map Prod.fst).Nodup) :
    members.lookup name = some v ↔ (name, v) ∈ members := by
  have hmem : (name, v) ∈ members ↔ (name, v) ∈ givenMember name (members.lookup name) := by
    rw [← filter_of_nodup h, List.mem_filter, beq_self_eq_true]
    exact (and_iff_left rfl).symm
  rw [hmem]
  cases members.lookup name <;> simp [givenMember, eq_comm]

section
variable {α β : Type} [Scalar α] {d : Document}

theorem text?_eq_some_iff {s : String} : text? d = some s ↔ IsText s d := by
  rw [IsText, ← view?_eq_string, text?]
  cases view? d with
  | none => simp
  | some v => cases v <;> simp

theorem scalar?_eq_some_iff {x : α} : scalar? d = some x ↔ IsNumber x d := by
  have hview : scalar? d = some x ↔ ∃ n : Number, view? d = some (.number n) ∧ n.StandsFor x := by
    rw [scalar?]
    cases view? d with
    | none => simp
    | some v => cases v <;> simp [Number.standsFor_iff, eq_comm]
  simp only [hview, view?_eq_number, IsNumber]
  constructor
  · rintro ⟨n, ⟨s, hd, hs⟩, hx⟩
    exact ⟨s, n, hd, hs, hx⟩
  · rintro ⟨s, n, hd, hs, hx⟩
    exact ⟨n, ⟨s, hd, hs⟩, hx⟩

theorem nat?_eq_some_iff {bound k : Nat} : nat? bound d = some k ↔ IsCount bound k d := by
  rw [IsCount, ← view?_eq_number, nat?]
  cases view? d with
  | none => simp
  | some v =>
    cases v with
    | number n =>
      cases n with
      | int i =>
        simp only [Option.ite_none_right_eq_some, Option.some.injEq, View.number.injEq,
          Number.int.injEq]
        omega
      | float x => simp
    | _ => simp

theorem count32?_eq_some_iff {k : Nat} : count32? d = some k ↔ IsCount (2 ^ 32) k d :=
  nat?_eq_some_iff

theorem count64?_eq_some_iff {k : Nat} : count64? d = some k ↔ IsCount (2 ^ 64) k d :=
  nat?_eq_some_iff

/-- If every choice has a name of its own, it is read by that name. -/
theorem variant?_eq_some_iff {choices : List β} {name : β → String}
    (hnodup : (choices.map name).Nodup) (hchoices : ∀ b, b ∈ choices) {b : β} :
    variant? (choices.map fun b => (name b, b)) d = some b ↔ IsChoice name b d := by
  have hlookup (s : String) (b : β) :
      (choices.map fun b => (name b, b)).lookup s = some b ↔ s = name b := by
    rw [lookup_eq_some_iff_mem (by rwa [List.map_map])]
    simp [hchoices, eq_comm]
  rw [IsChoice, ← view?_eq_string, ← view?_eq_object, variant?]
  cases view? d with
  | none => simp
  | some v =>
    cases v with
    | string s => simp [hlookup]
    | object members =>
      match members with
      | [] => simp
      | [(n, v)] =>
        rcases eq_or_ne v .null with rfl | hv
        · have hnull : view? Document.null = some .null := rfl
          simp [hnull, hlookup]
        · have hnull : view? v ≠ some .null := hv ∘ view?_eq_null.1
          simp [hv]
      | _ :: _ :: _ => simp
    | _ => simp

end

/-! ## Fields of an object -/

section
variable {members : List (String × Document)} {names : List String} {name : String}

/-- The members of a name. -/
def named (members : List (String × Document)) (name : String) : Fields Document :=
  members.filter (·.1 == name)

theorem fst_of_mem_named {m : String × Document} (h : m ∈ named members name) : m.1 = name :=
  beq_iff_eq.1 (List.mem_filter.1 h).2

theorem uniqueMember?_eq_some {fs : Fields Document} :
    uniqueMember? members name = some fs ↔
      (named members name).length ≤ 1 ∧ fs = named members name := by
  rw [uniqueMember?, named]
  cases members.filter (·.1 == name) with
  | nil => simp [eq_comm]
  | cons m ms => cases ms <;> simp [eq_comm]

/-- The fields of an object are the members of their names, if none is given twice. -/
theorem record?_ofMembers {fs : Fields Document} :
    record? names (ofMembers members) = some fs ↔
      (∀ n ∈ names, (named members n).length ≤ 1) ∧ fs = names.flatMap (named members) := by
  rw [record?, view?_eq_object.2 rfl]
  simp only [Option.map_eq_some_iff, mapM_eq_some, uniqueMember?_eq_some, List.forall₂_and_left,
    eq_comm (b := named members _)]
  simp only [← List.forall₂_map_left_iff (f := named members), List.forall₂_eq_eq_eq]
  constructor
  · rintro ⟨_, ⟨hunique, rfl⟩, rfl⟩
    exact ⟨hunique, List.flatMap_def.symm⟩
  · rintro ⟨hunique, rfl⟩
    exact ⟨_, ⟨hunique, rfl⟩, List.flatMap_def.symm⟩

theorem record?_of_nodup (hnodup : (members.map Prod.fst).Nodup) :
    record? names (ofMembers members) = some (names.flatMap (named members)) := by
  refine record?_ofMembers.2 ⟨fun n _ => ?_, rfl⟩
  rw [named, filter_of_nodup hnodup]
  cases members.lookup n <;> simp [givenMember]

theorem lookup_named : (named members name).lookup name = members.lookup name := by
  rw [named]
  induction members with
  | nil => rfl
  | cons m ms ih =>
    obtain ⟨n, d⟩ := m
    rcases eq_or_ne n name with rfl | hne
    · rw [List.filter_cons_of_pos (by simp), List.lookup_cons_self, List.lookup_cons_self]
    · rw [List.filter_cons_of_neg (by simpa using hne), ih, List.lookup_cons,
        beq_eq_false_iff_ne.2 hne.symm]

/-- Of the fields of an object, each is the first member of its name. -/
theorem lookup_flatMap_named : (names.flatMap (named members)).lookup name =
    if name ∈ names then members.lookup name else none := by
  rw [lookup_flatMap fun _ _ => fst_of_mem_named, lookup_named]

theorem named_eq_singleton {d : Document} (hunique : (named members name).length ≤ 1)
    (hd : members.lookup name = some d) : named members name = [(name, d)] := by
  have hlookup : (named members name).lookup name = some d := lookup_named.trans hd
  have hname : ∀ m ∈ named members name, m.1 = name := fun _ => fst_of_mem_named
  match named members name, hunique, hlookup, hname with
  | [(n, d')], _, hlookup, hname =>
    obtain rfl : n = name := hname _ List.mem_cons_self
    rw [List.lookup_cons_self, Option.some.injEq] at hlookup
    rw [hlookup]

end

/-! ## Records -/

section
variable {fields : List (String × Document)} {d : Document}

/-- Items in order that are the fields of their names. -/
theorem eq_of_lookup_zip {items : List Document} (hnodup : (fields.map Prod.fst).Nodup)
    (hlength : items.length ≤ fields.length)
    (h : ∀ f ∈ fields, ((fields.map Prod.fst).zip items).lookup f.1 = some f.2) :
    items = fields.map Prod.snd := by
  induction fields generalizing items with
  | nil => exact List.length_eq_zero_iff.1 (Nat.le_zero.1 hlength)
  | cons f fs ih =>
    obtain ⟨hfresh, hnodup⟩ := List.nodup_cons.1 hnodup
    cases items with
    | nil => cases h f List.mem_cons_self
    | cons x xs =>
      rw [List.map_cons, List.zip_cons_cons, List.forall_mem_cons, List.lookup_cons_self] at h
      have hrest := ih hnodup (Nat.le_of_succ_le_succ hlength) fun g hg => by
        have hne : g.1 ≠ f.1 := fun heq => hfresh (heq ▸ List.mem_map_of_mem hg)
        simpa [List.lookup_cons, beq_eq_false_iff_ne.2 hne] using h.2 g hg
      rw [List.map_cons, hrest, Option.some.inj h.1]

/-- A record that is complete is read with all its fields. -/
theorem isRecord_iff (hnodup : (fields.map Prod.fst).Nodup) :
    IsRecord fields d ↔ ∃ fs, record? (fields.map Prod.fst) d = some fs ∧
      ∀ f ∈ fields, fs.lookup f.1 = some f.2 := by
  constructor
  · rintro (⟨members, rfl, h⟩ | rfl)
    · refine ⟨_, record?_ofMembers.2 ⟨fun n hn => ?_, rfl⟩, fun f hf => ?_⟩
      · obtain ⟨f, hf, rfl⟩ := List.mem_map.1 hn
        rw [named, h f hf]
        exact Nat.le_refl 1
      · rw [lookup_flatMap_named, if_pos (List.mem_map_of_mem hf), ← lookup_named, named, h f hf]
        exact List.lookup_cons_self
    · refine ⟨fields, ?_, fun f hf => (lookup_eq_some_iff_mem hnodup).2 hf⟩
      have hlength : (fields.map Prod.snd).length ≤ (fields.map Prod.fst).length := by simp
      rw [record?, view?_eq_array.2 rfl]
      exact (if_pos hlength).trans (congrArg some (List.zip_of_prod rfl rfl).symm)
  · rintro ⟨fs, hfs, h⟩
    have hrecord := hfs
    rw [record?] at hfs
    split at hfs
    next items hview =>
      obtain rfl := view?_eq_array.1 hview
      obtain ⟨hlength, hzip⟩ := Option.ite_none_right_eq_some.1 hfs
      rw [List.length_map] at hlength
      rw [← Option.some.inj hzip] at h
      exact .inr (congrArg Document.array (eq_of_lookup_zip hnodup hlength h))
    next members hview =>
      obtain rfl := view?_eq_object.1 hview
      obtain ⟨hunique, rfl⟩ := record?_ofMembers.1 hrecord
      refine .inl ⟨members, rfl, fun f hf => ?_⟩
      have hname : f.1 ∈ fields.map Prod.fst := List.mem_map_of_mem hf
      have hlookup := h f hf
      rw [lookup_flatMap_named, if_pos hname] at hlookup
      exact named_eq_singleton (hunique _ hname) hlookup
    next => cases hfs

theorem required?_eq_some_iff {β : Type} {fs : Fields Document} {name : String}
    {read : Document → Option β} {b : β} : fs.required? name read = some b ↔
      ∃ w, fs.lookup name = some w ∧ read w = some b := by
  rw [Fields.required?]
  cases fs.lookup name <;> simp

end

end CourseCharts.Json

namespace CourseCharts

open Json Json.Document

variable {α : Type} [Scalar α] {d : Document}

/-! ## Viewports, margins and choices -/

/-- Width and height are both given, as counts of 32 bits. -/
def Viewport.WrittenAs (v : Viewport) (d : Document) : Prop :=
  ∃ width height, IsRecord [("width", width), ("height", height)] d ∧
    IsCount (2 ^ 32) v.width width ∧ IsCount (2 ^ 32) v.height height

theorem Viewport.read?_eq_some_iff {v : Viewport} : Viewport.read? d = some v ↔ v.WrittenAs d := by
  simp only [Viewport.read?, Option.bind_eq_bind, Option.bind_eq_some_iff, Option.pure_def,
    Option.some.injEq, required?_eq_some_iff, count32?_eq_some_iff]
  constructor
  · rintro ⟨fs, hfs, _, ⟨w, hw, hwidth⟩, _, ⟨h, hh, hheight⟩, rfl⟩
    exact ⟨w, h, (isRecord_iff (by simp)).2 ⟨fs, hfs, by simp [hw, hh]⟩, hwidth, hheight⟩
  · rintro ⟨w, h, hrecord, hwidth, hheight⟩
    obtain ⟨fs, hfs, hfields⟩ := (isRecord_iff (by simp)).1 hrecord
    simp only [List.forall_mem_cons] at hfields
    exact ⟨fs, hfs, _, ⟨w, hfields.1, hwidth⟩, _, ⟨h, hfields.2.1, hheight⟩, rfl⟩

/-- All four margins are given, as numbers. -/
def Margins.WrittenAs (m : Margins α) (d : Document) : Prop :=
  ∃ top right bottom left,
    IsRecord [("top", top), ("right", right), ("bottom", bottom), ("left", left)] d ∧
      IsNumber m.top top ∧ IsNumber m.right right ∧ IsNumber m.bottom bottom ∧
      IsNumber m.left left

theorem Margins.read?_eq_some_iff {m : Margins α} : Margins.read? d = some m ↔ m.WrittenAs d := by
  simp only [Margins.read?, Option.bind_eq_bind, Option.bind_eq_some_iff, Option.pure_def,
    Option.some.injEq, required?_eq_some_iff, scalar?_eq_some_iff]
  constructor
  · rintro ⟨fs, hfs, _, ⟨t, ht, htop⟩, _, ⟨r, hr, hright⟩, _, ⟨b, hb, hbottom⟩, _,
      ⟨l, hl, hleft⟩, rfl⟩
    exact ⟨t, r, b, l, (isRecord_iff (by simp)).2 ⟨fs, hfs, by simp [ht, hr, hb, hl]⟩, htop,
      hright, hbottom, hleft⟩
  · rintro ⟨t, r, b, l, hrecord, htop, hright, hbottom, hleft⟩
    obtain ⟨fs, hfs, hfields⟩ := (isRecord_iff (by simp)).1 hrecord
    simp only [List.forall_mem_cons] at hfields
    obtain ⟨ht, hr, hb, hl, -⟩ := hfields
    exact ⟨fs, hfs, _, ⟨t, ht, htop⟩, _, ⟨r, hr, hright⟩, _, ⟨b, hb, hbottom⟩, _, ⟨l, hl, hleft⟩,
      rfl⟩

theorem Easing.read?_eq_some_iff {e : Easing} :
    Easing.read? d = some e ↔ IsChoice Easing.name e d :=
  variant?_eq_some_iff (by decide) fun e => by cases e <;> decide

theorem Arrangement.read?_eq_some_iff {a : Arrangement} :
    Arrangement.read? d = some a ↔ IsChoice Arrangement.name a d :=
  variant?_eq_some_iff (by decide) fun a => by cases a <;> decide

end CourseCharts
