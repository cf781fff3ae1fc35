import CSharpAudit.Syntax.Declarations

/-!
# Parts of declarations

Declarations of different kinds have parts in common: a name, modifiers, attributes, parameters and
bodies. The functions here read these parts of any node.

## Main definitions

* `Node.declaredName`, `Node.nameSpan` — the name of a declaration and its place
* `Node.modifiers`, `Node.attributes`, `Node.params`, `Node.bodies` — its other parts
-/

namespace CSharpAudit

namespace Node

/-- The name of a declaration; a field goes by its first variable. -/
def declaredName : Node → String
  | typeDecl d => d.name
  | delegate d => d.name
  | method d => d.name
  | constructor d => d.name
  | property d => d.name
  | event d => d.name
  | field d => (d.vars.head?.map (·.name)).getD ""
  | _ => ""

/-- Where the name of a declaration is written; the whole node if it has no name. -/
def nameSpan (n : Node) : Span :=
  let s := match n with
    | typeDecl d => d.nameSpan
    | delegate d => d.nameSpan
    | method d => d.nameSpan
    | constructor d => d.nameSpan
    | property d => d.nameSpan
    | event d => d.nameSpan
    | field d => (d.vars.head?.map (·.nameSpan)).getD Span.none
    | param p => p.nameSpan
    | varDeclarator v => v.nameSpan
    | _ => Span.none
  if s.length == 0 then n.span else s

/-- The modifiers of a declaration. -/
def modifiers : Node → Modifiers
  | typeDecl d => d.modifiers
  | delegate d => d.modifiers
  | method d => d.modifiers
  | constructor d => d.modifiers
  | property d => d.modifiers
  | event d => d.modifiers
  | field d => d.modifiers
  | _ => .empty

/-- The attributes of a declaration. -/
def attributes : Node → List (Attribute Node)
  | typeDecl d => d.attributes
  | delegate d => d.attributes
  | method d => d.attributes
  | constructor d => d.attributes
  | property d => d.attributes
  | event d => d.attributes
  | field d => d.attributes
  | _ => []

/-- The parameters of a declaration or of a lambda. -/
def params : Node → List (Param Node)
  | method d => d.params
  | constructor d => d.params
  | delegate d => d.params
  | property d => d.indexParams
  | lambda _ params _ _ => params
  | _ => []

/-- The body of a member: a block, or else an expression. -/
def bodyOf (body exprBody : Option Node) : List Node := (body.or exprBody).toList

/-- The bodies of a member: one of a method or constructor, one of each accessor with a body of a
property or event. -/
def bodies : Node → List Node
  | method d => bodyOf d.body d.exprBody
  | constructor d => bodyOf d.body d.exprBody
  | property d => d.exprBody.toList ++ d.accessors.flatMap accessorBody
  | event d => d.accessors.flatMap accessorBody
  | _ => []
where
  /-- The body of an accessor. -/
  accessorBody : Node → List Node
    | accessor _ _ _ body exprBody => bodyOf body exprBody
    | _ => []

end Node

/-- The types and modifiers of some parameters, without their names. -/
def signature (ps : List (Param Node)) : String :=
  ",".intercalate (ps.map fun p =>
    let t := (p.type.map TypeRef.text).getD ""
    if p.modifier.isEmpty then t else p.modifier ++ " " ++ t)

end CSharpAudit
