import CSharpAudit.Config.Mismatch
import CSharpAudit.Diagnostic.Code
import CSharpAudit.Json.Overlay
import CSharpAudit.Toml.Table

/-!
# Reading documents from TOML

Every value must be of the expected kind, except that anything but a table is ignored where names of
any kind may stand. Names of fields match whatever their case, but one that matches exactly counts
first.

## Main definitions

* `Toml.ReadError` — why a document cannot be read
* `Toml.read` — a document of a shape, read from a text
-/

namespace CSharpAudit.Toml

/-- The field that a name stands for. -/
def known? {α : Type} (known : List (String × α)) (name : String) : Option (String × α) :=
  (known.find? (·.1 == name)).or
    (known.find? fun f => Overlay.foldName f.1 == Overlay.foldName name)

/-- Why a document cannot be read. -/
inductive ReadError where
  /-- It is not written in this format, or defines something twice. -/
  | malformed
  | incompatible (found expected : String)
  | noTable (found expected : String)
  | noSeverity (word : String)
  deriving DecidableEq, Repr, Inhabited

/-- The wording of an error. -/
def ReadError.text : ReadError → String
  | malformed => "toml: malformed document"
  | incompatible found expected =>
    "toml: incompatible types: TOML value has type " ++ found ++ "; destination has type "
      ++ expected
  | noTable found expected =>
    "toml: type mismatch for " ++ expected ++ ": expected table but found " ++ found
  | noSeverity word => "toml: " ++ Severity.unknownText word

/-- How messages call the type of a value. -/
def Value.typeName : Value → String
  | string _ => "string"
  | int _ => "int64"
  | float => "float64"
  | bool _ => "bool"
  | date => "time.Time"
  | array _ => "[]interface \x7b\x7d"
  | table _ => "map[string]interface \x7b\x7d"
  | tables _ => "[]map[string]interface \x7b\x7d"

/-- How messages call what is expected without parts. -/
def leafName : Leaf → String
  | .int => "integer"
  | .bool => "boolean"
  | .text => "string"
  | .severity => "primitive (string-like)"

/-- The value of a term without parts. -/
def leaf : Leaf → Value → Except ReadError Json
  | .text, .string s => .ok (.string s)
  | .int, .int n => .ok (.int n)
  | .bool, .bool b => .ok (.bool b)
  | .severity, .string s =>
    if (Severity.ofText? s).isSome then .ok (.string s) else .error (.noSeverity s)
  | kind, v => .error (.incompatible v.typeName (leafName kind))

mutual

/-- A value of a shape. -/
def decode : Shape → Value → Except ReadError Json
  | .leaf kind, v => leaf kind v
  | .list item, .array vs => do return .array (← vs.mapM (decode item))
  | .list item, .tables ts => do return .array (← ts.mapM fun fs => decode item (.table fs))
  | .list _, v => .error (.incompatible v.typeName "slice")
  | .table item, .table fs => do
    return .object (← fs.mapM fun (name, v) => do return (name, ← decode item v))
  | .table _, _ => .ok (.object [])
  | .record _ fields, .table fs => do
    let known := decoders fields
    let found ← fs.mapM fun (name, v) => match known? known name with
      | none => .ok none
      | some (name, decode) => do return some (name, ← decode v)
    return .object (found.filterMap id)
  | .record name _, v => .error (.noTable v.typeName name)

/-- How the fields of a record are decoded. -/
def decoders : List (String × Shape) → List (String × (Value → Except ReadError Json))
  | [] => []
  | (name, shape) :: rest => (name, decode shape) :: decoders rest

end

/-- A document of a shape, read from a text. -/
def read (shape : Shape) (bytes : List UInt8) : Except ReadError Json :=
  match (parse? bytes).bind ofStatements? with
  | none => .error .malformed
  | some fs => decode shape (.table fs)

end CSharpAudit.Toml
