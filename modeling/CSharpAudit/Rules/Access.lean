import CSharpAudit.Pipeline.Session
import CSharpAudit.Syntax.Member
import CSharpAudit.Rules.Declaration

/-!
# Rules on the members of a type

Access modifiers have to fit the kind of the type and the other modifiers, no two members may have
the same signature, and extension methods belong into static classes.

## Main definitions

* `Rules.memberAccess` — the access modifiers of members
* `Rules.overloads` — members with the same signature
* `Rules.extensions` — the places of extension methods
-/

namespace CSharpAudit.Rules

/-- Whether a member of an interface has an implementation. -/
def hasImplementation : Node → Bool
  | .method d => d.hasBody
  | .property d => d.exprBody.isSome || d.accessors.any fun
      | .accessor _ _ _ body exprBody => body.isSome || exprBody.isSome
      | _ => false
  | .event d => !d.accessors.isEmpty
  | _ => false

/-- The access modifiers of a member, nested types aside. -/
def memberAccess (s : Session) (t : TypeDecl Node) (m : Node) : List Diagnostic :=
  let ms := m.modifiers
  let name := m.declaredName
  let found (wrong : Bool) (code : Code) (message : String) :=
    if wrong then [s.finding code m.nameSpan message] else []
  let general :=
    let inType := match t.kind with
      | .interface =>
        found (ms.has .privateAccess && !hasImplementation m) .privateInInterface
          s!"Private interface member '{name}' must have an implementation"
      | .struct | .recordStruct =>
        found (ms.has .protectedAccess) .protectedInStruct
          s!"Struct member '{name}' cannot be protected: structs cannot be inherited"
      | .classType | .record =>
        found (ms.has .abstractMember && !t.modifiers.has .abstractMember) .abstractInNonAbstract
          s!"Abstract member '{name}' declared in non-abstract {t.kind.text} '{t.name}'"
      | .enum => []
    let hidden := ms.has .privateAccess && !ms.has .protectedAccess
    inType
      ++ found (hidden && ms.has .abstractMember) .privateAbstract
        s!"Abstract member '{name}' cannot be private"
      ++ found (hidden && ms.has .virtualMember) .privateVirtual
        s!"Virtual member '{name}' cannot be private"
      ++ found (ms.has .sealedMember && !ms.has .overrideMember) .sealedNotOverride
        s!"Member '{name}' cannot be sealed because it is not an override"
  match m with
  | .typeDecl _ | .delegate _ => []
  | .constructor d =>
    if ms.has .staticMember then
      if ms.hasAccess then
        [s.finding .staticCtorModifiers d.nameSpan
          s!"Static constructor '{d.name}' cannot have access modifiers"]
      else []
    else general
  | _ => general

/-- What tells a method from the other methods of its type: interface, name, number of type
parameters and signature. -/
def methodKey (m : Method Node) : String :=
  let types := signature m.params
  s!"{m.explicitInterface}.{m.name}`{m.typeParams.length}({types})"

/-- What tells a constructor from the others of its type. -/
def constructorKey (d : Constructor Node) : String :=
  (if d.modifiers.has .staticMember then "static " else "") ++ "ctor(" ++ signature d.params ++ ")"

/-- What tells a member from its overloads. -/
def overloadKey? : Node → Option String
  | .constructor d => some (constructorKey d)
  | .method m => some (methodKey m)
  | _ => none

/-- The members of a type that have the signature of an earlier one. -/
def overloads (s : Session) (t : TypeDecl Node) : List Diagnostic :=
  let keyed := t.members.filter fun m => (overloadKey? m).isSome
  (repeated (fun m => (overloadKey? m).getD "") [] keyed).flatMap fun m =>
    let types := signature m.params
    match m with
    | .constructor d =>
      [s.finding .duplicateConstructor d.nameSpan
        s!"Type '{t.name}' already declares a constructor with parameters ({types})"]
    | .method d =>
      [s.finding .duplicateMethod d.nameSpan
        s!"Type '{t.name}' already declares '{d.name}({types})'"]
    | _ => []

/-- Why an extension method may not stand where it does. -/
def misplacedExtension? (path : DeclPath) (owner : TypeDecl Node) (m : Method Node) :
    Option String :=
  if owner.kind != .classType || !owner.modifiers.has .staticMember then
    some s!"must be declared in a static class, not in {owner.kind.text} '{owner.name}'"
  else if path.types.length > 1 then
    some s!"must be declared in a top-level class, '{owner.name}' is nested"
  else if !owner.typeParams.isEmpty then some "must be declared in a non-generic class"
  else if !m.modifiers.has .staticMember then some "must be static"
  else none

/-- Whether a method extends the type of its first parameter. -/
def isExtension (m : Method Node) : Bool := m.params.head?.any (·.modifier == "this")

/-- Extension methods in the wrong place. -/
def extensions (s : Session) (d : Declared) : List Diagnostic :=
  match d.node, d.path.owner with
  | .method m, some owner =>
    if !isExtension m then []
    else (misplacedExtension? d.path owner m).toList.map fun reason =>
      s.finding .extensionOutsideStatic m.nameSpan s!"Extension method '{m.name}' {reason}"
  | _, _ => []

end CSharpAudit.Rules
