import CSharpAudit.Syntax.Walk

/-!
# Reading expressions

## Main definitions

* `Node.qualifiedName` — the dotted name that an expression writes
* `Node.unparen` — an expression without parentheses around it
* `Node.identName?` — the name that an expression consists of
* `Node.isNullLiteral` — the literal `null`
-/

namespace CSharpAudit

namespace Node

/-- The dotted name written by a chain of member accesses on a name, or the empty text when the
expression is anything else. -/
def qualifiedName : Node → String
  | .ident _ name _ => name
  | .predefinedType _ name => name
  | .memberAccess _ x name _ _ =>
    let left := x.qualifiedName
    if left.isEmpty then "" else left ++ "." ++ name
  | _ => ""

/-- An expression without parentheses around it. -/
def unparen : Node → Node
  | .paren _ x => x.unparen
  | n => n

/-- The name that an expression consists of, parentheses aside. -/
def identName? (n : Node) : Option String :=
  match n.unparen with
  | .ident _ name _ => some name
  | _ => none

/-- Whether an expression is the literal `null`, parentheses aside. -/
def isNullLiteral (n : Node) : Bool :=
  match n.unparen with
  | .literal _ .null _ => true
  | _ => false

end Node

end CSharpAudit
