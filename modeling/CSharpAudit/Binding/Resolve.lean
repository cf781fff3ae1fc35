import CSharpAudit.Binding.Basic
import CSharpAudit.Symbol.Index

/-!
# Resolving type references

Every type reference of a file is looked up, in this order, among the keyword types, the type
parameters in scope, the types of the file, the types of referenced assemblies and the well-known
framework types. Imports gather as the walk goes on: those of a namespace hold from its start to the
end of the file.

## Main definitions

* `Imports` — the namespaces and aliases in force
* `resolveRef` — the binding of one reference
* `bindTypes` — the bindings of a file
-/

namespace CSharpAudit

/-- The namespaces whose types are found without qualification, and the aliases of names. -/
structure Imports where
  namespaces : List String := []
  /-- Aliases and the names they stand for, latest first. -/
  aliases : List (String × String) := []
  deriving Inhabited

namespace Imports

/-- Adds a directive. A static one imports no types. -/
def add (i : Imports) (d : UsingDirective) : Imports :=
  if !d.aliasName.isEmpty then { i with aliases := (d.aliasName, d.name) :: i.aliases }
  else if d.isStatic then i
  else { i with namespaces := i.namespaces ++ [d.name] }

/-- Adds a namespace with its directives. -/
def addNamespace (i : Imports) (n : NamespaceDecl Node) : Imports :=
  n.usings.foldl add { i with namespaces := i.namespaces ++ [n.name] }

/-- What is imported before the walk begins: by the file and by its file-scoped namespace. -/
def ofUnit (u : CompilationUnit Node) : Imports :=
  let i := u.usings.foldl add {}
  match u.fileScopedNamespace with
  | some n => i.addNamespace n
  | none => i

end Imports

/-- The names of the type parameters that a node declares. -/
def Node.typeParamNames : Node → List String
  | .typeDecl d => d.typeParams.map (·.name)
  | .method d => d.typeParams.map (·.name)
  | .delegate d => d.typeParams.map (·.name)
  | _ => []

/-- The binding of a reference to a name that is neither a keyword nor a type parameter. -/
def resolveName (index : Option SymbolIndex) (external : Option ExternalSymbols)
    (imports : Imports) (name : String) : Binding :=
  match index.bind (·.resolveType name) with
  | some s => { kind := .source, target := s.fullName, symbol := s.id }
  | none =>
    let candidates := name :: imports.namespaces.map (· ++ "." ++ name)
    match external.bind fun e => candidates.find? e.hasType with
    | some target => { kind := .external, target }
    | none =>
      if isWellKnown (lastSegment name) then
        { kind := .builtin, target := "System." ++ lastSegment name }
      else { kind := .unresolved, target := name }

/-- A name without the mark of the global namespace. -/
def withoutGlobal (name : String) : String := (name.dropPrefix "global::").toString

/-- The binding of a type reference. -/
def resolveRef (index : Option SymbolIndex) (external : Option ExternalSymbols)
    (imports : Imports) (typeParams : List String) (t : TypeRef) : Binding :=
  if t.isTuple then { kind := .builtin, target := "System.ValueTuple" }
  else match builtinType? t.name with
    | some target => { kind := .builtin, target }
    | none =>
      if constraintWords.contains t.name then { kind := .builtin, target := t.name }
      else if !t.name.toList.contains '.' && typeParams.contains t.name then
        { kind := .typeParameter, target := t.name }
      else
        let name := (imports.aliases.lookup t.name).getD t.name
        resolveName index external imports (withoutGlobal name)

namespace Binder

/-- What is known at a point of the walk: the imports so far and the references met. -/
structure State where
  imports : Imports
  refs : List BoundRef := []

/-- One step of the walk; the value handed down lists the type parameters in scope. -/
def step (index : Option SymbolIndex) (external : Option ExternalSymbols) (s : State)
    (v : Visit (List String)) : State :=
  match v.node with
  | .namespaceDecl d => if d.fileScoped then s else { s with imports := s.imports.addNamespace d }
  | .type t =>
    { s with refs := ⟨v.address, t, resolveRef index external s.imports v.inherited t⟩ :: s.refs }
  | _ => s

end Binder

/-- The bindings of the type references of a file, in walk order. -/
def bindTypes (u : CompilationUnit Node) (index : Option SymbolIndex)
    (external : Option ExternalSymbols) : BindingIndex :=
  let visits := (Node.unit u).visits (fun v => some (v.node.typeParamNames ++ v.inherited)) []
  ⟨(visits.foldl (Binder.step index external) { imports := .ofUnit u }).refs.reverse⟩

end CSharpAudit
