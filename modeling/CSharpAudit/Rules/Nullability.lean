import CSharpAudit.Binding.Basic
import CSharpAudit.Pipeline.Rule
import CSharpAudit.Syntax.Expression

/-!
# Null values

In files that distinguish nullable types, `null` may not be given to a variable of any other
reference type. Only literal nulls are seen.

## Main definitions

* `Rules.typeKindOf` — the kind of a type of the file
* `Rules.nullAssignment` — nulls given to variables that do not admit them
-/

namespace CSharpAudit.Rules

/-- The kind of a type of the file, as far as null values go: a delegate counts as a class. -/
def typeKindOf (index : Option SymbolIndex) (name : String) : Option TypeKind :=
  (index.bind (·.resolveType name)).map fun s =>
    if s.kind == .structType then .struct
    else if s.kind == .enumType then .enum
    else if s.kind == .interfaceType then .interface
    else if s.kind == .recordType then .record
    else .classType

/-- The written type of a field or property of a type. -/
def memberType? (owner : TypeDecl Node) (name : String) : Option TypeRef :=
  owner.members.findSome? fun
    | .field d => if d.vars.any (·.name == name) then some d.type else none
    | .property d => if d.name == name then some d.type else none
    | _ => none

/-- The typed locals seen so far, latest first, each with the address of its member. -/
abbrev TypedLocals := List ((Option Address × String) × TypeRef)

/-- What the left side of an assignment declares: the word for it, its name and its type. -/
def assignmentTarget? (locals : TypedLocals) (c : Cursor) (lhs : Node) :
    Option (String × String × TypeRef) :=
  let ofOwner (name : String) :=
    (c.owner.bind (memberType? · name)).map fun t => ("field", name, t)
  match lhs.unparen with
  | .ident _ name _ =>
    match locals.lookup (c.memberNode.map (·.1), name) with
    | some t => some ("local", name, t)
    | none => ofOwner name
  | .memberAccess _ (.thisExpr _) name _ _ => ofOwner name
  | _ => none

/-- Nulls given to variables whose types do not admit them. -/
def nullAssignment : Rule where
  id := "null_to_non_nullable"
  State := TypedLocals
  start := []
  visit s locals c :=
    let kindOf := typeKindOf s.artifacts.symbols
    let check (kind name : String) (t : TypeRef) (value : Option Node) (span : Span) :=
      let written := t.text
      if value.any (·.isNullLiteral) && isReferenceType t kindOf then
        [s.finding .nullToNonNullable span
          s!"Cannot assign null to non-nullable {kind} '{name}' of type '{written}'"]
      else []
    match c.node with
    | .field d => (locals, d.vars.flatMap fun v => check "field" v.name d.type v.init v.nameSpan)
    | .property d => (locals, check "property" d.name d.type d.initializer d.nameSpan)
    | .param p =>
      (locals, p.type.toList.flatMap fun t => check "parameter" p.name t p.default p.nameSpan)
    | .localDecl _ (some t) _ _ vars =>
      let member := c.memberNode.map (·.1)
      (vars.foldl (fun ls v => ((member, v.name), t) :: ls) locals,
        vars.flatMap fun v => check "local" v.name t v.init v.nameSpan)
    | .assign span "=" lhs rhs =>
      match assignmentTarget? locals c lhs with
      | some (kind, name, t) => (locals, check kind name t (some rhs) span)
      | none => (locals, [])
    | _ => (locals, [])

end CSharpAudit.Rules
