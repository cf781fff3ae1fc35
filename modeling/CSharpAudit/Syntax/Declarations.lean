import CSharpAudit.Syntax.Node
import CSharpAudit.Syntax.Walk

/-!
# The declarations of a file

The declarations of a file are its namespaces, types, delegates and members: the nodes that are
reached from the root through namespaces and types alone. Local functions are none of them.

The path of a declaration is the namespace and the types around it. Full names are made of the path
and the name: a type is separated from its namespace by a dot, a member from its type by two colons.

## Main definitions

* `DeclPath` — the namespace and the types around a declaration
* `DeclPath.typeName` — the full name of the innermost type
* `DeclPath.memberName` — the full name of a member of the innermost type
* `DeclPath.declName` — the full name of a member declaration
* `Declared` — a declaration with its path and its address
* `CompilationUnit.declarations` — the declarations of a file in order
* `CompilationUnit.types` — the type declarations of a file in order
-/

namespace CSharpAudit

/-! ### Where a declaration stands -/

/-- The namespace and the types around a declaration. -/
structure DeclPath where
  /-- The dotted namespace, empty outside all namespaces. -/
  namespaceName : String := ""
  /-- The types around, outermost first. -/
  types : List (TypeDecl Node) := []
  deriving Inhabited

namespace DeclPath

/-- Two names joined by a dot, or the second one alone when the first is empty. -/
def dotted (outer name : String) : String := if outer.isEmpty then name else outer ++ "." ++ name

/-- The namespace and the names of the types, joined by dots. -/
def typeName (p : DeclPath) : String :=
  ".".intercalate
    ((if p.namespaceName.isEmpty then [] else [p.namespaceName]) ++ p.types.map (·.name))

/-- The innermost type. -/
def owner (p : DeclPath) : Option (TypeDecl Node) := p.types.getLast?

/-- The path inside a nested namespace, which drops the types around. -/
def withNamespace (p : DeclPath) (name : String) : DeclPath :=
  { namespaceName := dotted p.namespaceName name }

/-- The path inside a type. -/
def withType (p : DeclPath) (t : TypeDecl Node) : DeclPath := { p with types := p.types ++ [t] }

/-- The path of the nodes below a node. -/
def enter (p : DeclPath) : Node → DeclPath
  | .namespaceDecl d => p.withNamespace d.name
  | .typeDecl d => p.withType d
  | _ => p

/-- The full name of a member of the innermost type. -/
def memberName (p : DeclPath) (name : String) : String :=
  if p.typeName.isEmpty then name else p.typeName ++ "::" ++ name

/-- The full name of a member declaration, empty for any other node. A field goes by its first
variable; a delegate is a type and is joined by a dot. -/
def declName (p : DeclPath) : Node → String
  | .method d => p.memberName d.name
  | .constructor d => p.memberName d.name
  | .property d => p.memberName d.name
  | .event d => p.memberName d.name
  | .field d => (d.vars.head?.map fun v => p.memberName v.name).getD ""
  | .delegate d => dotted p.typeName d.name
  | _ => ""

end DeclPath

/-! ### Declarations -/

namespace Node

/-- Whether a node declares a member of a type, or a delegate. -/
def isMember : Node → Bool
  | method _ | constructor _ | property _ | event _ | field _ | delegate _ => true
  | _ => false

/-- Whether a node is a declaration that its namespace or type lists. -/
def isDeclaration : Node → Bool
  | namespaceDecl _ | typeDecl _ => true
  | n => n.isMember

/-- Whether declarations are looked for below a node. -/
def holdsDeclarations : Node → Bool
  | unit _ | namespaceDecl _ | typeDecl _ => true
  | _ => false

end Node

/-- A declaration of a file. The path of a namespace or a type includes the declaration itself. -/
structure Declared where
  path : DeclPath
  address : Address
  node : Node

namespace CompilationUnit

/-- The declarations of a file; those below a skipped one are left out. -/
def declarationsExcept (skip : Node → Bool) (u : CompilationUnit Node) : List Declared :=
  let enter (v : Visit DeclPath) :=
    if v.node.holdsDeclarations && !(v.node.isDeclaration && skip v.node) then
      some (v.inherited.enter v.node)
    else none
  ((Node.unit u).visits enter {}).filterMap fun v =>
    if v.node.isDeclaration then some ⟨v.inherited.enter v.node, v.address, v.node⟩ else none

/-- The declarations of a file, in source order. -/
def declarations (u : CompilationUnit Node) : List Declared := u.declarationsExcept fun _ => false

/-- The type declarations of a file, nested ones included, in source order. -/
def types (u : CompilationUnit Node) : List (TypeDecl Node) :=
  u.declarations.filterMap fun d => match d.node with
    | .typeDecl t => some t
    | _ => none

end CompilationUnit

end CSharpAudit
