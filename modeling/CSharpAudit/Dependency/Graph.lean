import CSharpAudit.Symbol.Index
import CSharpAudit.Syntax.Expression

/-!
# Dependencies between types

A type depends on the types of its file that it inherits from, stores, mentions in signatures,
creates or whose static members it uses.

## Main definitions

* `Dependency` — an edge from one type to another
* `DependencyGraph` — types and the dependencies between them
* `DependencyGraph.successors` — the types that a type depends on
* `TypeRef.mentioned` — the names mentioned in a type reference
* `Declared.dependencies` — the dependencies that a declaration contributes
* `dependencyGraph` — the graph of a file
-/

namespace CSharpAudit

/-! ### Graphs -/

/-- A dependency of one symbol on another. -/
structure Dependency where
  source : Int
  target : Int
  /-- The word that names the kind of dependency. -/
  kind : String
  deriving DecidableEq, Repr, Inhabited

namespace Dependency

/-- The kind of a dependency on a base type. -/
def inheritance : String := "inheritance"
/-- The kind of a dependency on the type of a field, property or event. -/
def field : String := "field"
/-- The kind of a dependency on the type of a parameter or result. -/
def usage : String := "usage"
/-- The kind of a dependency on a type that is created. -/
def creation : String := "creation"
/-- The kind of a dependency on a type whose static members are used. -/
def staticAccess : String := "static_access"

end Dependency

/-- A type in a dependency graph. -/
structure DependencyNode where
  id : Int
  name : String
  kind : SymbolKind
  deriving DecidableEq, Repr, Inhabited

/-- Types and the dependencies between them, in the order in which they were added. -/
structure DependencyGraph where
  nodes : List DependencyNode := []
  edges : List Dependency := []
  deriving Inhabited

namespace DependencyGraph

/-- Adds a type; of several with one number the first is kept. -/
def addNode (g : DependencyGraph) (n : DependencyNode) : DependencyGraph :=
  if g.nodes.any (·.id == n.id) then g else { g with nodes := g.nodes ++ [n] }

/-- Adds a dependency unless it is there already or leads back to where it starts. -/
def addEdge (g : DependencyGraph) (e : Dependency) : DependencyGraph :=
  if e.source == e.target || g.edges.contains e then g else { g with edges := g.edges ++ [e] }

/-- The types in ascending order of their numbers. -/
def sortedNodes (g : DependencyGraph) : List DependencyNode :=
  g.nodes.mergeSort (·.id ≤ ·.id)

/-- The numbers that a number leads to, ascending and each once; a kind limits the dependencies to
those of the kind, the empty word to none. -/
def successors (g : DependencyGraph) (id : Int) (kind : String) : List Int :=
  let targets := (g.edges.filter fun e => e.source == id && (kind.isEmpty || e.kind == kind)).map
    (·.target)
  targets.eraseDups.mergeSort (· ≤ ·)

end DependencyGraph

/-! ### The dependencies of a file -/

mutual

/-- The names mentioned in a type reference: its own and those of its type arguments. -/
def TypeRef.mentioned : TypeRef → List String
  | ⟨_, name, args, _, _, _, _⟩ => name :: TypeRef.listMentioned args

/-- The names mentioned in some type references. -/
def TypeRef.listMentioned : List TypeRef → List String
  | [] => []
  | t :: ts => TypeRef.mentioned t ++ TypeRef.listMentioned ts

end

section

variable (index : SymbolIndex)

/-- The dependencies of a symbol on the types of the file that a reference mentions. -/
def typeDependencies (source : Nat) (kind : String) (t : TypeRef) : List Dependency :=
  t.mentioned.filterMap fun name => (index.resolveType name).map fun s => ⟨source, s.id, kind⟩

/-- The dependencies of a symbol on the types of parameters. -/
def paramDependencies (source : Nat) (kind : String) (ps : List (Param Node)) : List Dependency :=
  ps.flatMap fun p => p.type.toList.flatMap (typeDependencies index source kind)

/-- The dependency on a type whose member is used through the name of the type. -/
def staticDependency (source : Nat) (receiver : Node) : List Dependency :=
  let name := receiver.qualifiedName
  match index.resolveType name with
  | some s => if s.name == lastSegment name then [⟨source, s.id, Dependency.staticAccess⟩] else []
  | none => []

/-- The dependencies that a node inside a member contributes. -/
def nodeDependencies (source : Nat) : Node → List Dependency
  | .newExpr _ type _ _ _ =>
    type.toList.flatMap (typeDependencies index source Dependency.creation)
  | .memberAccess _ x _ _ _ => staticDependency index source x
  | .localDecl _ type _ _ _ => type.toList.flatMap (typeDependencies index source Dependency.usage)
  | .cast _ type _ => typeDependencies index source Dependency.usage type
  | .typeOf _ _ type => typeDependencies index source Dependency.usage type
  | _ => []

/-- The dependencies that a member contributes to its type. -/
def memberDependencies (source : Nat) (n : Node) : List Dependency :=
  let declared := match n with
    | .field d => typeDependencies index source Dependency.field d.type
    | .property d => typeDependencies index source Dependency.field d.type
    | .event d => typeDependencies index source Dependency.field d.type
    | .method d => typeDependencies index source Dependency.usage d.returnType
    | _ => []
  declared ++ paramDependencies index source Dependency.usage n.params
    ++ n.nodes.flatMap (nodeDependencies index source)

/-- The dependencies that a declaration contributes. Those of a member belong to its type. -/
def Declared.dependencies (d : Declared) : List Dependency :=
  match d.node with
  | .typeDecl t => (index.ofDecl? d.address).toList.flatMap fun s =>
    t.baseTypes.flatMap (typeDependencies index s.id Dependency.inheritance)
      ++ paramDependencies index s.id Dependency.field t.primaryParams
  | .delegate g => (index.ofDecl? d.address).toList.flatMap fun s =>
    typeDependencies index s.id Dependency.usage g.returnType
      ++ paramDependencies index s.id Dependency.usage g.params
  | n =>
    if d.path.types.isEmpty then []
    else (index.ofDecl? d.address.tail).toList.flatMap fun s => memberDependencies index s.id n

end

/-- The dependencies between the types of a file. -/
def dependencyGraph (u : CompilationUnit Node) (index : SymbolIndex) : DependencyGraph :=
  let nodes := index.types.foldl
    (fun g s => g.addNode ⟨s.id, s.fullName, s.kind⟩) ({} : DependencyGraph)
  (u.declarations.flatMap (Declared.dependencies index)).foldl DependencyGraph.addEdge nodes

end CSharpAudit
