import CSharpAudit.Diagnostic.Code
import CSharpAudit.Json.Basic
import CSharpAudit.Json.Overlay

/-!
# Shapes of documents

Configuration files come in several formats. What a format makes of a value depends on what is
expected in its place: a word may be meant as a text or as a truth value. The shape of a document
tells what is expected where, so that every format can turn a document into the same JSON.

A JSON value of a wrong type is told with the place where it stands. A word that is no severity is
graver: it is told before all others.

## Main definitions

* `Leaf`, `Shape` — what is expected in a document
* `Shape.typeName` — how messages call what is expected
* `Shape.zero` — what a value is if nothing is said of it
* `Mismatch` — a value that cannot stand where it does
* `Shape.mismatches` — all of them in a document, in its order
* `Shape.firstMismatch?` — the one that is told
-/

namespace CSharpAudit

/-! ### Shapes -/

/-- A value without parts. -/
inductive Leaf where
  | int | bool | text | severity
  deriving DecidableEq, Repr, Inhabited

/-- What is expected in a document. -/
inductive Shape where
  | leaf (kind : Leaf)
  | list (item : Shape)
  /-- Names of any kind, all with values of one shape. -/
  | table (value : Shape)
  /-- Known names, each with a value of its own shape; messages call the whole by its name. -/
  | record (name : String) (fields : List (String × Shape))
  deriving Inhabited

namespace Shape

/-- How messages call what is expected. -/
def typeName : Shape → String
  | leaf .int => "int"
  | leaf .bool => "bool"
  | leaf .text => "string"
  | leaf .severity => "models.Severity"
  | list item => "[]" ++ item.typeName
  | table value => "map[string]" ++ value.typeName
  | record name _ => name

/-- What a value of a shape is if nothing is said of it. -/
def zero : Shape → Json
  | leaf .int => .nat 0
  | leaf .bool => .bool false
  | leaf .text => .string ""
  | leaf .severity => .string "info"
  | list _ => .array []
  | table _ | record .. => .object []

end Shape

/-! ### Values of a wrong type -/

/-- Where a value stands: in a field of a record, perhaps deep in the value of that field. -/
structure RecordPlace where
  /-- How messages call the record; nothing stands outside of one but the document. -/
  record : String := ""
  /-- The names of the fields on the way. -/
  path : List String := []
  deriving DecidableEq, Repr, Inhabited

/-- A value that cannot stand where it does. -/
inductive Mismatch where
  | wrongType (found : String) (place : RecordPlace) (expected : String)
  | noSeverity (word : String)
  deriving DecidableEq, Repr, Inhabited

namespace Mismatch

/-- The wording of a mismatch. -/
def text : Mismatch → String
  | wrongType found place expected =>
    let target := if place.path.isEmpty then "value"
      else "struct field " ++ place.record ++ "." ++ ".".intercalate place.path
    "json: cannot unmarshal " ++ found ++ " into Go " ++ target ++ " of type " ++ expected
  | noSeverity word => Severity.unknownText word

/-- Whether a mismatch is told before others. -/
def isGrave : Mismatch → Bool
  | noSeverity _ => true
  | _ => false

end Mismatch

namespace Shape

mutual

/-- The values in a document of a shape that cannot stand where they do. -/
def mismatches (place : RecordPlace) (shape : Shape) : Json → List Mismatch
  | .null => []
  | .bool _ => match shape with
    | leaf .bool => []
    | _ => [.wrongType "bool" place shape.typeName]
  | .number literal => match shape with
    | leaf .int => if (Overlay.intOfLiteral? literal).isSome then [] else
        [.wrongType ("number " ++ literal) place shape.typeName]
    | _ => [.wrongType "number" place shape.typeName]
  | .string s => match shape with
    | leaf .text => []
    | leaf .severity => if (Severity.ofText? s).isSome then [] else [.noSeverity s]
    | _ => [.wrongType "string" place shape.typeName]
  | .array items => match shape with
    | list item => itemMismatches place item items
    | _ => [.wrongType "array" place shape.typeName]
  | .object fields => match shape with
    | table value => valueMismatches place value fields
    | record name known => fieldMismatches place name known fields
    | _ => [.wrongType "object" place shape.typeName]

/-- The same for the items of a list. -/
def itemMismatches (place : RecordPlace) (item : Shape) : List Json → List Mismatch
  | [] => []
  | v :: vs => mismatches place item v ++ itemMismatches place item vs

/-- The same for the values of a table. -/
def valueMismatches (place : RecordPlace) (value : Shape) : List (String × Json) → List Mismatch
  | [] => []
  | (_, v) :: fs => mismatches place value v ++ valueMismatches place value fs

/-- The same for the fields of a record. -/
def fieldMismatches (place : RecordPlace) (name : String) (known : List (String × Shape)) :
    List (String × Json) → List Mismatch
  | [] => []
  | (key, v) :: fs =>
    (match known.find? fun f => Overlay.foldName f.1 == Overlay.foldName key with
      | some (field, shape) =>
        mismatches ⟨((name.splitOn ".").getLast?).getD name, place.path ++ [field]⟩ shape v
      | none => [])
      ++ fieldMismatches place name known fs

end

/-- The value that is told to be out of place: the first that is grave, or else the first. -/
def firstMismatch? (shape : Shape) (v : Json) : Option Mismatch :=
  let all := shape.mismatches {} v
  (all.find? (·.isGrave)).or all.head?

end Shape

end CSharpAudit
