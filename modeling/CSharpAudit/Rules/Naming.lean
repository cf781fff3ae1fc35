import CSharpAudit.Pipeline.Rule
import CSharpAudit.Scope.Basic
import CSharpAudit.Text.Case

/-!
# Naming rules

Types and visible members are written in Pascal case, interfaces with an `I` in front; parameters
and local variables are written in camel case.

## Main definitions

* `isPascalCase`, `isCamelCase` — the two conventions
* `toCamelCase` — a name in camel case
* `Rules.naming` — the three naming rules
-/

namespace CSharpAudit

/-- Whether a name starts with an upper-case letter and has no underscore. -/
def isPascalCase (name : String) : Bool :=
  match name.toList.dropWhile (· == '@') with
  | [] => false
  | c :: _ => Text.isUpper c && !name.toList.contains '_'

/-- Whether a name, underscores in front aside, starts with a lower-case letter and has no
underscore. -/
def isCamelCase (name : String) : Bool :=
  match name.toList.dropWhile (fun c => c == '@' || c == '_') with
  | [] => false
  | c :: cs => Text.isLower c && !(c :: cs).contains '_'

/-- Reads the rest of a name: an underscore is dropped and raises the letter behind it. -/
def camelTail (raise : Bool) : List Char → List Char
  | [] => []
  | c :: cs =>
    if c == '_' then camelTail true cs
    else (if raise then Text.toUpper c else c) :: camelTail false cs

/-- A name in camel case: underscores are dropped, the first letter is lowered and those behind an
underscore are raised. -/
def toCamelCase (name : String) : String :=
  match name.toList.dropWhile (· == '_') with
  | [] => ""
  | c :: cs => String.ofList (Text.toLower c :: camelTail false cs)

namespace Rules

/-- Whether a name starts with an `I` in front of a Pascal-case name. -/
def hasInterfaceMark (name : String) : Bool :=
  match name.toList with
  | 'I' :: rest => isPascalCase (String.ofList rest)
  | _ => false

/-- Type names: Pascal case, and an `I` in front of interfaces. -/
def typeNaming : Rule := .stateless "type_naming" fun s c =>
  match c.node with
  | .typeDecl d =>
    if d.kind == .interface && !hasInterfaceMark d.name then
      [s.finding .namingConvention d.nameSpan s!"Interface '{d.name}' should start with 'I'"]
    else if !isPascalCase d.name then
      [s.finding .pascalCase d.nameSpan s!"{d.kind.text} '{d.name}' should be PascalCase"]
    else []
  | .delegate d =>
    if isPascalCase d.name then []
    else [s.finding .pascalCase d.nameSpan s!"Delegate '{d.name}' should be PascalCase"]
  | _ => []

/-- Whether the member that a node belongs to is the node itself. -/
def isOwnMember (c : Cursor) : Bool := (c.memberNode.map (·.1)) == some c.address

/-- Names of members: Pascal case for all but private fields, operators and destructors. -/
def memberNaming : Rule := .stateless "member_naming" fun s c =>
  let check (kind name : String) (span : Span) : List Diagnostic :=
    if isPascalCase name then []
    else [s.finding .pascalCase span s!"{kind} '{name}' should be PascalCase"]
  match c.node with
  | .method d =>
    if !isOwnMember c || d.isOperator || d.isDestructor then []
    else check "Method" d.name d.nameSpan
  | .property d => if d.name == "this" then [] else check "Property" d.name d.nameSpan
  | .event d => check "Event" d.name d.nameSpan
  | .enumMember span name _ _ => check "Enum member" name span
  | .field d =>
    let each (kind : String) := d.vars.flatMap fun v => check kind v.name v.nameSpan
    if d.modifiers.has .constant then each "Constant"
    else if d.modifiers.has .publicAccess || d.modifiers.has .protectedAccess then each "Field"
    else []
  | _ => []

/-- Names of parameters and local variables: camel case. The parameters of a type declaration become
properties and are left alone. -/
def localNaming : Rule := .stateless "local_naming" fun s c =>
  let check (kind name : String) (span : Span) : List Diagnostic :=
    if isDiscard name || isCamelCase name then []
    else
      let suggested := toCamelCase name
      [{ s.finding .camelCase span s!"{kind} '{name}' should be camelCase" with
        suggestion := s!"Rename to '{suggested}'" }]
  match c.node with
  | .param p =>
    match c.parent with
    | some (.typeDecl _) => []
    | _ => check "Parameter" p.name p.nameSpan
  | .localDecl _ _ isConst _ vars =>
    if isConst then [] else vars.flatMap fun v => check "Local variable" v.name v.nameSpan
  | .foreachStmt _ _ name span _ _ _ => check "Loop variable" name span
  | _ => []

/-- The naming rules. -/
def naming : List Rule := [typeNaming, memberNaming, localNaming]

end Rules

end CSharpAudit
