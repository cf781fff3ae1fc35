import CSharpAudit.Text.Quoted

/-!
# JSON values

Reports, configuration and workspace descriptions are exchanged as JSON. A number keeps the literal
it was written with, so that a reader can tell an integer from any other number.

## Main definitions

* `Json` — a JSON value
* `Json.compact` — the value on one line
* `Json.indented` — the value with one entry per line, two blanks deeper on each level
* `Json.field?` — a field of an object
-/

namespace CSharpAudit

/-- A JSON value. The fields of an object keep their order. -/
inductive Json where
  | null
  | bool (b : Bool)
  | number (literal : String)
  | string (s : String)
  | array (items : List Json)
  | object (fields : List (String × Json))
  deriving Inhabited

namespace Json

/-- The number with the given value. -/
def int (n : Int) : Json := .number (toString n)

/-- The number with the given value. -/
def nat (n : Nat) : Json := .number (toString n)

/-- A list of texts. -/
def strings (ss : List String) : Json := .array (ss.map .string)

/-- The value of a field; of several fields of one name the last one counts. -/
def field? (name : String) : Json → Option Json
  | .object fields => (fields.reverse.find? (·.1 == name)).map (·.2)
  | _ => none

/-- A character inside a JSON text. With `markup` set, the characters that matter to markup
languages and the two Unicode line separators are written by number. -/
def escapeChar (markup : Bool) (c : Char) : String :=
  if c == '"' then "\\\""
  else if c == '\\' then "\\\\"
  else if markup && (c == '<' || c == '>' || c == '&' || c == '\u2028' || c == '\u2029') then
    "\\u" ++ Text.Quoted.hex 4 c.toNat
  else match c.toNat with
    | 0x08 => "\\b"
    | 0x0C => "\\f"
    | 0x0A => "\\n"
    | 0x0D => "\\r"
    | 0x09 => "\\t"
    | n => if n < 0x20 then "\\u" ++ Text.Quoted.hex 4 n else c.toString

/-- A text as JSON writes it. -/
def quote (markup : Bool) (s : String) : String :=
  "\"" ++ String.join (s.toList.map (escapeChar markup)) ++ "\""

mutual

/-- A value on one line, without blanks. -/
def compact : Json → String
  | null => "null"
  | bool b => if b then "true" else "false"
  | number literal => literal
  | string s => quote false s
  | array items => "[" ++ ",".intercalate (compactItems items) ++ "]"
  | object fields => "\x7b" ++ ",".intercalate (compactFields fields) ++ "\x7d"

/-- The items of an array, each on one line. -/
def compactItems : List Json → List String
  | [] => []
  | v :: vs => v.compact :: compactItems vs

/-- The fields of an object, each on one line. -/
def compactFields : List (String × Json) → List String
  | [] => []
  | (name, v) :: fields => (quote false name ++ ":" ++ v.compact) :: compactFields fields

end

mutual

/-- A value with one entry per line. `margin` is the line break with the indentation of the value
itself. Empty arrays and objects stay on one line, and markup characters are escaped. -/
def indentedFrom (margin : String) : Json → String
  | null => "null"
  | bool b => if b then "true" else "false"
  | number literal => literal
  | string s => quote true s
  | array [] => "[]"
  | array (v :: vs) =>
    let inner := margin ++ "  "
    "[" ++ inner ++ ("," ++ inner).intercalate (indentedItems inner (v :: vs)) ++ margin ++ "]"
  | object [] => "\x7b\x7d"
  | object (f :: fs) =>
    let inner := margin ++ "  "
    "\x7b" ++ inner ++ ("," ++ inner).intercalate (indentedFields inner (f :: fs)) ++ margin
      ++ "\x7d"

/-- The items of an array, one per line. -/
def indentedItems (margin : String) : List Json → List String
  | [] => []
  | v :: vs => indentedFrom margin v :: indentedItems margin vs

/-- The fields of an object, one per line. -/
def indentedFields (margin : String) : List (String × Json) → List String
  | [] => []
  | (name, v) :: fields =>
    (quote true name ++ ": " ++ indentedFrom margin v) :: indentedFields margin fields

end

/-- A value with one entry per line, two blanks deeper on each level. -/
def indented (v : Json) : String := indentedFrom "\n" v

end Json

end CSharpAudit
