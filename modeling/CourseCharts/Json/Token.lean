/-
  CourseCharts — the words of JSON texts.

  `Token.ofText?` cuts a text into tokens.  A string is kept as what it stands
  for, or as broken if one of its escapes is half of a surrogate pair: such a
  string is well formed but stands for no text.
-/
import CourseCharts.Json.Number

namespace CourseCharts.Json

/-- A word of a JSON text; the text of a broken string is `none`. -/
inductive Token where
  | beginArray
  | endArray
  | beginObject
  | endObject
  | colon
  | comma
  | null
  | bool (b : Bool)
  | number (n : Numeral)
  | string (s : Option String)
  deriving DecidableEq, Repr

/-! ## Strings -/

/-- A part of a string: a character, or a UTF-16 unit given by an escape. -/
inductive Fragment where
  | plain (c : Char)
  | unit (u : Nat)
  deriving DecidableEq, Repr

/-- The value of a hexadecimal digit. -/
def hexDigit? (c : Char) : Option Nat :=
  if '0' ≤ c ∧ c ≤ '9' then some (c.toNat - '0'.toNat)
  else if 'a' ≤ c ∧ c ≤ 'f' then some (c.toNat - 'a'.toNat + 10)
  else if 'A' ≤ c ∧ c ≤ 'F' then some (c.toNat - 'A'.toNat + 10)
  else none

/-- The unit of four hexadecimal digits. -/
def unit? (a b c d : Char) : Option Nat := do
  return 4096 * (← hexDigit? a) + 256 * (← hexDigit? b) + 16 * (← hexDigit? c) + (← hexDigit? d)

/-- The character of a one-letter escape. -/
def escape? : Char → Option Char
  | '"' => some '"'
  | '\\' => some '\\'
  | '/' => some '/'
  | 'b' => some '\x08'
  | 'f' => some '\x0c'
  | 'n' => some '\n'
  | 'r' => some '\r'
  | 't' => some '\t'
  | _ => none

/-- The fragments up to the closing quote, and what follows it.  Control
    characters have to be escaped. -/
def scanString? : List Char → Option (List Fragment × List Char)
  | [] => none
  | '"' :: cs => some ([], cs)
  | '\\' :: 'u' :: a :: b :: c :: d :: cs => do
    let u ← unit? a b c d
    let (fs, rest) ← scanString? cs
    return (.unit u :: fs, rest)
  | '\\' :: c :: cs => do
    let c ← escape? c
    let (fs, rest) ← scanString? cs
    return (.plain c :: fs, rest)
  | c :: cs =>
    if c < ' ' ∨ c = '\\' then none
    else do
      let (fs, rest) ← scanString? cs
      return (.plain c :: fs, rest)

/-- The first half of a surrogate pair. -/
def isHigh (u : Nat) : Bool := 0xD800 ≤ u && u < 0xDC00

/-- The second half of a surrogate pair. -/
def isLow (u : Nat) : Bool := 0xDC00 ≤ u && u < 0xE000

/-- The characters that fragments stand for, unless half a pair stands
    alone. -/
def joinFragments? : List Fragment → Option (List Char)
  | [] => some []
  | .plain c :: fs => (joinFragments? fs).map (c :: ·)
  | .unit u :: .unit v :: fs =>
    if isHigh u then
      if isLow v then
        (joinFragments? fs).map (Char.ofNat (0x10000 + 1024 * (u - 0xD800) + (v - 0xDC00)) :: ·)
      else none
    else if isLow u then none
    else (joinFragments? (.unit v :: fs)).map (Char.ofNat u :: ·)
  | .unit u :: fs =>
    if isHigh u || isLow u then none else (joinFragments? fs).map (Char.ofNat u :: ·)

/-! ## Tokens -/

/-- Space between tokens. -/
def isSpace (c : Char) : Bool := c == ' ' || c == '\t' || c == '\n' || c == '\r'

/-- The token at the start of a text that begins with `c`, and what follows
    it. -/
def Token.scan? (c : Char) (cs : List Char) : Option (Token × List Char) :=
  match c, cs with
  | '[', cs => some (.beginArray, cs)
  | ']', cs => some (.endArray, cs)
  | '\x7b', cs => some (.beginObject, cs)
  | '\x7d', cs => some (.endObject, cs)
  | ':', cs => some (.colon, cs)
  | ',', cs => some (.comma, cs)
  | 'n', 'u' :: 'l' :: 'l' :: cs => some (.null, cs)
  | 't', 'r' :: 'u' :: 'e' :: cs => some (.bool true, cs)
  | 'f', 'a' :: 'l' :: 's' :: 'e' :: cs => some (.bool false, cs)
  | '"', cs => (scanString? cs).map fun (fs, rest) =>
    (.string ((joinFragments? fs).map String.ofList), rest)
  | c, cs => (Numeral.scan? (c :: cs)).map fun (n, rest) => (.number n, rest)

/-- The tokens of a text, at most `fuel` of them with the spaces between. -/
def Token.scanAll? : Nat → List Char → Option (List Token)
  | _, [] => some []
  | 0, _ => none
  | fuel + 1, c :: cs =>
    if isSpace c then scanAll? fuel cs
    else do
      let (t, rest) ← Token.scan? c cs
      return t :: (← scanAll? fuel rest)

/-- The tokens of a text. -/
def Token.ofText? (text : String) : Option (List Token) :=
  scanAll? text.toList.length text.toList

end CourseCharts.Json
