import CSharpAudit.Json.Basic

/-!
# Writing TOML

The fields of a table that are no tables themselves come first, each on a line; the tables among its
fields follow under headings of their own, two blanks further right.

## Main definitions

* `Toml.render` — a document as TOML
-/

namespace CSharpAudit.Toml

/-- A character between quotation marks. -/
def escaped (c : Char) : String :=
  match c with
  | '"' => "\\\""
  | '\\' => "\\\\"
  | '\x08' => "\\b"
  | '\t' => "\\t"
  | '\n' => "\\n"
  | '\x0c' => "\\f"
  | '\r' => "\\r"
  | c => if c.toNat < 0x20 || c.toNat == 0x7F then "\\u" ++ Text.Quoted.hex 4 c.toNat
    else c.toString

/-- A text. -/
def quoted (s : String) : String := "\"" ++ String.join (s.toList.map escaped) ++ "\""

/-- Whether a character may stand in a name without quotation marks. -/
def isBare (c : Char) : Bool := c.isAlphanum || c == '_' || c == '-'

/-- A name. -/
def name (s : String) : String := if s.isEmpty || !s.toList.all isBare then quoted s else s

/-- Whether a value is a table. -/
def isTable : Json → Bool
  | .object _ => true
  | _ => false

mutual

/-- A value on a line. -/
def inline : Json → String
  | .null => "\"\""
  | .bool b => if b then "true" else "false"
  | .number literal => literal
  | .string s => quoted s
  | .array items => "[" ++ ", ".intercalate (inlineItems items) ++ "]"
  | .object fields => "\x7b" ++ ", ".intercalate (inlineFields fields) ++ "\x7d"

/-- The items of a list. -/
def inlineItems : List Json → List String
  | [] => []
  | v :: rest => inline v :: inlineItems rest

/-- The fields of a table on a line. -/
def inlineFields : List (String × Json) → List String
  | [] => []
  | (key, v) :: rest => (name key ++ " = " ++ inline v) :: inlineFields rest

end

/-- The indentation of the fields of a table at a path. -/
def indent (path : List String) : String := String.ofList (List.replicate (2 * path.length) ' ')

/-- The fields of a table that are no tables. -/
def directLines (path : List String) (fields : List (String × Json)) : String :=
  String.join ((fields.filter fun f => !isTable f.2).map fun (key, v) =>
    indent path ++ name key ++ " = " ++ inline v ++ "\n")

mutual

/-- The heading and the fields of a table at a path. -/
def tableLines (path : List String) : Json → String
  | .object fields =>
    (if path.length == 1 then "\n" else "") ++ indent path.dropLast
      ++ "[" ++ ".".intercalate (path.map name) ++ "]\n"
      ++ directLines path fields ++ subtableLines path fields
  | _ => ""

/-- The tables among the fields of a table. -/
def subtableLines (path : List String) : List (String × Json) → String
  | [] => ""
  | (key, v) :: rest => tableLines (path ++ [key]) v ++ subtableLines path rest

end

/-- A document as TOML. -/
def render : Json → String
  | .object fields => directLines [] fields ++ subtableLines [] fields
  | _ => ""

end CSharpAudit.Toml
