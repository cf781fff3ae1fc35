import CSharpAudit.Rules.Declaration

/-!
# Rules on base types

Interfaces and structs have interfaces as their base types, a class names its base class first, and
no type is its own base, however indirectly.

## Main definitions

* `InheritanceGraph` — the base types of types
* `InheritanceGraph.cycles` — chains of base types that come back to their start
* `Rules.inheritance` — the base types of a file
-/

namespace CSharpAudit

/-- The types of a file and the types of the file in their base lists, by number. -/
structure InheritanceGraph where
  /-- The types in source order, with their names. -/
  types : List (Nat × String) := []
  /-- The base types: who inherits, and from whom. -/
  edges : List (Nat × Nat) := []
  deriving Inhabited

namespace InheritanceGraph

/-- Adds a type, once. -/
def addType (g : InheritanceGraph) (id : Nat) (name : String) : InheritanceGraph :=
  if g.types.any (·.1 == id) then g else { g with types := g.types ++ [(id, name)] }

/-- The base types of a type, as written. -/
def bases (g : InheritanceGraph) (id : Nat) : List Nat :=
  (g.edges.filter (·.1 == id)).map (·.2)

/-- The part of a path from an element on, closed by the element. -/
def closeAt (path : List Nat) (start : Nat) : List Nat :=
  path.dropWhile (· != start) ++ [start]

mutual

/-- Looks for a cycle from a type on, depth first. `path` leads to the type, `visited` holds the
types looked at before; the answer holds those looked at after, and the first cycle met. The number
bounds the depth. -/
def search (g : InheritanceGraph) (path visited : List Nat) (id : Nat) :
    Nat → List Nat × Option (List Nat)
  | 0 => (visited, none)
  | depth + 1 => searchBases g (path ++ [id]) (id :: visited) depth (g.bases id)
termination_by depth => (depth, 0)

/-- Looks for a cycle through the bases of the last type of a path. -/
def searchBases (g : InheritanceGraph) (path visited : List Nat) (depth : Nat) :
    List Nat → List Nat × Option (List Nat)
  | [] => (visited, none)
  | base :: rest =>
    if !visited.contains base then
      match search g path visited base depth with
      | (visited, some cycle) => (visited, some cycle)
      | (visited, none) => searchBases g path visited depth rest
    else if path.contains base then (visited, some (closeAt path base))
    else searchBases g path visited depth rest
termination_by bases => (depth, bases.length + 1)

end

/-- The cycles met when looking, depth first, from each type in turn that was not looked at before;
from each one cycle at most. A path is never longer than the number of edges and one. -/
def cycles (g : InheritanceGraph) : List (List Nat) :=
  (g.types.foldl (fun (visited, found) (id, _) =>
    if visited.contains id then (visited, found)
    else
      let (visited, cycle) := g.search [] visited id (g.edges.length + 2)
      (visited, found ++ cycle.toList)) (([] : List Nat), ([] : List (List Nat)))).2

/-- A cycle by the names of its types. -/
def describe (g : InheritanceGraph) (cycle : List Nat) : String :=
  " -> ".intercalate (cycle.map fun id => (g.types.lookup id).getD "")

end InheritanceGraph

namespace Rules

/-- A base type that is declared in the file. -/
structure SourceBase where
  /-- The place of the type in the base list. -/
  position : Nat
  ref : TypeRef
  target : Symbol

/-- The base types of a type that are declared in the file. -/
def sourceBases (bindings : BindingIndex) (index : SymbolIndex) (d : Declared) : List SourceBase :=
  (typeChildren d.address d.node).zipIdx.filterMap fun ((place, ref), position) =>
    match bindings.lookup place with
    | some { kind := .source, symbol, .. } =>
      (index.symbol? symbol).map fun target => { position, ref, target }
    | _ => none

/-- A base type that a kind of type may not have. -/
def wrongBase (s : Session) (t : TypeDecl Node) (b : SourceBase) : List Diagnostic :=
  let isInterface := b.target.kind == .interfaceType
  let isClass := b.target.kind == .classType || b.target.kind == .recordType
  match t.kind with
  | .interface =>
    if isInterface then []
    else [s.finding .interfaceFromClass b.ref.span
      s!"Interface '{t.name}' cannot inherit from {b.target.kind.word} '{b.target.name}'"]
  | .struct | .recordStruct =>
    if isInterface then []
    else [s.finding .structInherits b.ref.span
      s!"Struct '{t.name}' cannot inherit from {b.target.kind.word} '{b.target.name}'"]
  | .classType | .record =>
    if b.position > 0 && isClass then
      [s.finding .classFromInterface b.ref.span
        s!"Base class '{b.target.name}' must come before the interfaces of '{t.name}'"]
    else []
  | .enum => []

/-- A type of a file with its symbol and its base types. -/
structure TypeBases where
  type : TypeDecl Node
  symbol : Symbol
  bases : List SourceBase

/-- The types of a file with their base types. -/
def typeBases (u : CompilationUnit Node) (bindings : BindingIndex) (index : SymbolIndex) :
    List TypeBases :=
  u.declarations.filterMap fun d => match d.node with
    | .typeDecl t => (index.ofDecl? d.address).map fun symbol =>
      { type := t, symbol, bases := sourceBases bindings index d }
    | _ => none

/-- The inheritance graph of the types of a file. -/
def inheritanceGraph (ts : List TypeBases) : InheritanceGraph :=
  ts.foldl (fun g t =>
    { g.addType t.symbol.id t.symbol.name with
      edges := g.edges ++ t.bases.map fun b => (t.symbol.id, b.target.id) }) {}

/-- Wrong base types and circular inheritance in a file. -/
def inheritance (u : CompilationUnit Node) (s : Session) : List Diagnostic :=
  match s.artifacts.bindings, s.artifacts.symbols with
  | some bindings, some index =>
    let ts := typeBases u bindings index
    let graph := inheritanceGraph ts
    ts.flatMap (fun t => t.bases.flatMap (wrongBase s t.type))
      ++ graph.cycles.map fun cycle =>
        let span := ((cycle.head?.bind fun id => index.symbol? id).map (·.span)).getD Span.none
        let way := graph.describe cycle
        s.finding .circularType span s!"Circular inheritance: {way}"
  | _, _ => []

end Rules

end CSharpAudit
