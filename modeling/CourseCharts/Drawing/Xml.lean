/-
  CourseCharts — XML.

  An `Xml` node is a tree of elements and texts.  Writing it escapes the
  characters that have a meaning in XML, so that every attribute value and
  every text can be read back.
-/
namespace CourseCharts

/-- An XML tree.  An element without content is written as one tag. -/
inductive Xml where
  | text (s : String)
  | leaf (name : String) (attributes : List (String × String))
  | element (name : String) (attributes : List (String × String)) (content : List Xml)
  deriving Repr

namespace Xml

/-- A character in a text or an attribute value. -/
def escapeChar : Char → List Char
  | '<' => "&lt;".toList
  | '>' => "&gt;".toList
  | '&' => "&amp;".toList
  | '\'' => "&apos;".toList
  | '"' => "&quot;".toList
  | c => [c]

/-- A text or an attribute value as it is written. -/
def escape (s : String) : List Char := s.toList.flatMap escapeChar

/-- An attribute, after a space. -/
def writeAttribute (a : String × String) : List Char :=
  ' ' :: a.1.toList ++ ['=', '"'] ++ escape a.2 ++ ['"']

/-- The name of a tag with its attributes. -/
def writeTag (name : String) (attributes : List (String × String)) : List Char :=
  '<' :: name.toList ++ attributes.flatMap writeAttribute

mutual

/-- The characters of a tree. -/
def write : Xml → List Char
  | .text s => escape s
  | .leaf name attributes => writeTag name attributes ++ ['/', '>']
  | .element name attributes content =>
    writeTag name attributes ++ ['>'] ++ writeAll content ++ ['<', '/'] ++ name.toList ++ ['>']

/-- The characters of a list of trees. -/
def writeAll : List Xml → List Char
  | [] => []
  | x :: xs => write x ++ writeAll xs

end

/-- A tree as a text. -/
def render (x : Xml) : String := String.ofList x.write

end Xml

end CourseCharts
