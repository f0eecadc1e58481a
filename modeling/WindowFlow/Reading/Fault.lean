import WindowFlow.Json.Canonical
import WindowFlow.Text
/-!
Why a JSON value could not be read, and the words in which each cause is reported. A fault of a part
is reported as a fault of the document that holds it.
-/
namespace WindowFlow

/-- What a place in a document calls for. -/
inductive Expected where
  | string
  | boolean
  | number
  | bound
  | sequence
  | map
  | stringOrMap
  | unit
  | frame
  | record (name : String)
  deriving DecidableEq, Repr

def Expected.text : Expected → String
  | .string => "a string"
  | .boolean => "a boolean"
  | .number => "a JSON number"
  | .bound => "i64"
  | .sequence => "a sequence"
  | .map => "a map"
  | .stringOrMap => "string or map"
  | .unit => "unit"
  | .frame => "tuple struct Frame"
  | .record name => "struct " ++ name

inductive Fault where
  /-- A value of another kind than the place calls for. -/
  | wrongType (found : Json) (expected : Expected)
  /-- A whole number beyond the words that hold frame bounds. -/
  | boundOutOfRange (value : Int)
  /-- An object in place of a variant, with more or fewer than one member. -/
  | notOneMember
  | unknownVariant (given : String) (variants : List String)
  | missingMember (name : String)
  /-- An array that ends before a place that has to be filled. -/
  | tooShort (length : Nat) (expected : Expected) (size : Nat)
  | tooLong (length : Nat)
  | unreadableSort (found : Json)
  deriving Repr

namespace Fault

/-- A name between backquotes. -/
def quoted (s : String) : String := "`" ++ s ++ "`"

/-- The kind of a value, and the value itself where it is short. -/
def kind : Json → String
  | .null => "null"
  | .bool b => "boolean " ++ quoted (Json.bool b).canonical
  | .num (.whole n h) => "integer " ++ quoted (Json.num (.whole n h)).canonical
  | .num (.float x) => "floating point " ++ quoted (Json.num (.float x)).canonical
  | .str s => "string " ++ Text.shown s
  | .arr _ => "sequence"
  | .obj _ => "map"

/-- Two variants are joined by a word, more are listed. -/
def choice : List String → String
  | [a, b] => quoted a ++ " or " ++ quoted b
  | variants => "one of " ++ ", ".intercalate (variants.map quoted)

def message : Fault → String
  | .wrongType found expected => "invalid type: " ++ kind found ++ ", expected " ++ expected.text
  | .boundOutOfRange n =>
    "invalid value: integer " ++ quoted (String.ofList (Num.intChars n)) ++ ", expected " ++
      Expected.bound.text
  | .notOneMember => "invalid value: map, expected map with a single key"
  | .unknownVariant given variants =>
    "unknown variant " ++ quoted given ++ ", expected " ++ choice variants
  | .missingMember name => "missing field " ++ quoted name
  | .tooShort length expected size =>
    "invalid length " ++ toString length ++ ", expected " ++ expected.text ++ " with " ++
      toString size ++ " elements"
  | .tooLong length =>
    "invalid length " ++ toString length ++ ", expected fewer elements in array"
  | .unreadableSort found =>
    "expected a sort order, a list of values, or a sort object, found " ++ quoted found.canonical

end Fault

/-- A reader of one place in a document. -/
abbrev Reader (α : Type) := Json → Except Fault α

/-- Each kind of document has faults of its own. -/
inductive DocumentError where
  | transform (fault : Fault)
  | facet (fault : Fault)
  deriving Repr

def DocumentError.message : DocumentError → String
  | .transform fault => "invalid window transform: " ++ fault.message
  | .facet fault => "invalid facet mapping: " ++ fault.message

end WindowFlow
