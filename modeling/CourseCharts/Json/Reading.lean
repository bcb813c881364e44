/-
  CourseCharts — reading records from JSON.

  Records are read from documents as well as from values, so the readers only
  use the `View` of one level that both of them offer.

  * `record?` reads the fields of a record, from an object with members of
    these names or from an array with the fields in order;
  * `Fields.required?` and `Fields.orDefault?` read one field;
  * `variant?` reads a choice by its name.
-/
import CourseCharts.Json.Document

namespace CourseCharts.Json

/-- The outermost level of a JSON tree. -/
inductive View (τ : Type) where
  | null
  | bool (b : Bool)
  | number (n : Number)
  | string (s : String)
  | array (items : List τ)
  | object (members : List (String × τ))

/-- Trees whose outermost level can be viewed, unless it stands for nothing. -/
class Readable (τ : Type) where
  /-- The outermost level. -/
  view? : τ → Option (View τ)

export Readable (view?)

/-- A member of an object whose name is a text. -/
def namedMember? {τ : Type} (m : Option String × τ) : Option (String × τ) :=
  m.1.map (·, m.2)

instance : Readable Document where
  view?
    | .null => some .null
    | .bool b => some (.bool b)
    | .number n => n.value?.map .number
    | .string s => s.map .string
    | .array items => some (.array items)
    | .object members => (members.mapM namedMember?).map .object

instance : Readable Value where
  view?
    | .null => some .null
    | .bool b => some (.bool b)
    | .number n => some (.number n)
    | .string s => some (.string s)
    | .array items => some (.array items)
    | .object members => some (.object (lastOfEach members))

section
variable {τ α β : Type} [Readable τ]

/-! ## Single values -/

/-- A text. -/
def text? (t : τ) : Option String :=
  match view? t with
  | some (.string s) => some s
  | _ => none

/-- A truth value. -/
def bool? (t : τ) : Option Bool :=
  match view? t with
  | some (.bool b) => some b
  | _ => none

/-- A number, whichever way it is written. -/
def scalar? [Scalar α] (t : τ) : Option α :=
  match view? t with
  | some (.number n) => some n.toScalar
  | _ => none

/-- An integer from zero up to a bound. -/
def nat? (bound : Nat) (t : τ) : Option Nat :=
  match view? t with
  | some (.number (.int i)) => if 0 ≤ i ∧ i < bound then some i.toNat else none
  | _ => none

/-- A value that may be null. -/
def nullable? (read : τ → Option β) (t : τ) : Option (Option β) :=
  match view? t with
  | some .null => some none
  | _ => (read t).map some

/-- A list. -/
def list? (read : τ → Option β) (t : τ) : Option (List β) :=
  match view? t with
  | some (.array items) => items.mapM read
  | _ => none

/-- One of several choices: its name, or an object that gives null for its
    name. -/
def variant? (choices : List (String × β)) (t : τ) : Option β :=
  match view? t with
  | some (.string s) => choices.lookup s
  | some (.object [(name, v)]) =>
    match view? v with
    | some .null => choices.lookup name
    | _ => none
  | _ => none

/-! ## Records -/

/-- The fields of a record that are given. -/
abbrev Fields (τ : Type) := List (String × τ)

/-- The member of a name, if there are not several. -/
def uniqueMember? (members : List (String × τ)) (name : String) : Option (Fields τ) :=
  match members.filter (·.1 == name) with
  | [] => some []
  | [m] => some [m]
  | _ => none

/-- The fields of a record with these names.  Other members of an object do not
    matter; the later fields may be missing from an array. -/
def record? (names : List String) (t : τ) : Option (Fields τ) :=
  match view? t with
  | some (.array items) => if items.length ≤ names.length then some (names.zip items) else none
  | some (.object members) => (names.mapM (uniqueMember? members)).map List.flatten
  | _ => none

/-- A field that has to be given. -/
def Fields.required? (fs : Fields τ) (name : String) (read : τ → Option β) : Option β :=
  match fs.lookup name with
  | some t => read t
  | none => none

/-- A field with a default. -/
def Fields.orDefault? (fs : Fields τ) (name : String) (default : β) (read : τ → Option β) :
    Option β :=
  match fs.lookup name with
  | some t => read t
  | none => some default

end

end CourseCharts.Json
