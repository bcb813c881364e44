/-
  CourseCharts — JSON documents and values.

  A `Document` is a JSON text as it is written: numerals of any size, every
  member of an object, broken strings.  A `Value` is what a text stands for.

  * `Document.ofText?` reads a document;
  * `Document.toValue?` is its value, unless a number or a string has none or
    the arrays and objects are nested too deep.
-/
import CourseCharts.Json.Token

namespace CourseCharts.Json

/-- A JSON text as it is written. -/
inductive Document where
  | null
  | bool (b : Bool)
  | number (n : Numeral)
  | string (s : Option String)
  | array (items : List Document)
  | object (members : List (Option String × Document))

/-- What a JSON text stands for.  Of the members of one name the last
    counts. -/
inductive Value where
  | null
  | bool (b : Bool)
  | number (n : Number)
  | string (s : String)
  | array (items : List Value)
  | object (members : List (String × Value))

namespace Document

/-! ## Reading -/

mutual

/-- The document at the start of `ts`, and what follows it. -/
def value? : Nat → List Token → Option (Document × List Token)
  | _ + 1, .null :: ts => some (.null, ts)
  | _ + 1, .bool b :: ts => some (.bool b, ts)
  | _ + 1, .number n :: ts => some (.number n, ts)
  | _ + 1, .string s :: ts => some (.string s, ts)
  | _ + 1, .beginArray :: .endArray :: ts => some (.array [], ts)
  | fuel + 1, .beginArray :: ts => (items? fuel ts).map fun (vs, rest) => (.array vs, rest)
  | _ + 1, .beginObject :: .endObject :: ts => some (.object [], ts)
  | fuel + 1, .beginObject :: ts => (members? fuel ts).map fun (ms, rest) => (.object ms, rest)
  | _, _ => none

/-- The items up to the end of an array. -/
def items? : Nat → List Token → Option (List Document × List Token)
  | 0, _ => none
  | fuel + 1, ts =>
    match value? fuel ts with
    | some (v, .endArray :: rest) => some ([v], rest)
    | some (v, .comma :: rest) => (items? fuel rest).map fun (vs, rest) => (v :: vs, rest)
    | _ => none

/-- The members up to the end of an object. -/
def members? : Nat → List Token → Option (List (Option String × Document) × List Token)
  | fuel + 1, .string name :: .colon :: ts =>
    match value? fuel ts with
    | some (v, .endObject :: rest) => some ([(name, v)], rest)
    | some (v, .comma :: rest) =>
      (members? fuel rest).map fun (ms, rest) => ((name, v) :: ms, rest)
    | _ => none
  | _, _ => none

end

/-- The document that a text is.  Between two tokens there are at most two
    steps of the reader. -/
def ofText? (text : String) : Option Document := do
  let ts ← Token.ofText? text
  match value? (2 * ts.length + 1) ts with
  | some (d, []) => some d
  | _ => none

/-! ## Values -/

mutual

/-- The value of a document whose arrays and objects are nested at most `depth`
    deep. -/
def toValueWithin? (depth : Nat) : Document → Option Value
  | .null => some .null
  | .bool b => some (.bool b)
  | .number n => n.value?.map .number
  | .string s => s.map .string
  | .array items =>
    if depth = 0 then none else (itemsWithin? (depth - 1) items).map .array
  | .object members =>
    if depth = 0 then none else (membersWithin? (depth - 1) members).map .object

/-- The values of the items of an array. -/
def itemsWithin? (depth : Nat) : List Document → Option (List Value)
  | [] => some []
  | d :: ds => do return (← toValueWithin? depth d) :: (← itemsWithin? depth ds)

/-- The values of the members of an object. -/
def membersWithin? (depth : Nat) :
    List (Option String × Document) → Option (List (String × Value))
  | [] => some []
  | (name, d) :: ms => do
    return (← name, ← toValueWithin? depth d) :: (← membersWithin? depth ms)

end

/-- The value of a document, which may be nested 127 deep. -/
def toValue? (d : Document) : Option Value := toValueWithin? 127 d

end Document

/-- The members that count: of each name the last. -/
def lastOfEach {τ : Type} : List (String × τ) → List (String × τ)
  | [] => []
  | m :: ms => if ms.any (·.1 == m.1) then lastOfEach ms else m :: lastOfEach ms

/-- The value that a text stands for. -/
def Value.ofText? (text : String) : Option Value := do
  (← Document.ofText? text).toValue?

/-- The member of an object. -/
def Value.member? (name : String) : Value → Option Value
  | .object members => (lastOfEach members).lookup name
  | _ => none

end CourseCharts.Json
