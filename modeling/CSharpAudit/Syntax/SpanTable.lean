import CSharpAudit.Syntax.Declarations

/-!
# The table of declared names

The table tells where each declared name is written. Overloads share a key, and the declaration that
comes first is the one recorded.

## Main definitions

* `Declared.names` — the keys of a declaration, with the place of each name
* `spanTable` — the table of a file
-/

namespace CSharpAudit

/-- The keys under which a declaration is found, each with the span of the name. -/
def Declared.names (d : Declared) : List (String × Span) :=
  match d.node with
  | .namespaceDecl n => [("namespace:" ++ d.path.namespaceName, n.nameSpan)]
  | .typeDecl t => [("class:" ++ d.path.typeName, t.nameSpan)]
  | .delegate g => [("delegate:" ++ DeclPath.dotted d.path.typeName g.name, g.nameSpan)]
  | .method m => [("method:" ++ member m.name, m.nameSpan)]
  | .constructor c => [("ctor:" ++ member c.name, c.nameSpan)]
  | .property p => [("property:" ++ member p.name, p.nameSpan)]
  | .event e => [("event:" ++ member e.name, e.nameSpan)]
  | .field f => f.vars.map fun v => ("field:" ++ member v.name, v.nameSpan)
  | _ => []
where
  /-- The name of a member behind its type. -/
  member (name : String) : String := d.path.typeName ++ "::" ++ name

/-- Keeps, of several entries of one key, the first. -/
def firstOfKey {α : Type} (entries : List (String × α)) : List (String × α) :=
  entries.foldl (fun kept e => if kept.any (·.1 == e.1) then kept else kept ++ [e]) []

/-- What is kept behind the entries kept so far. -/
theorem mem_foldl_firstOfKey {α : Type} {entries kept : List (String × α)} {e : String × α} :
    e ∈ entries.foldl (fun kept e => if kept.any (·.1 == e.1) then kept else kept ++ [e]) kept ↔
      e ∈ kept ∨ kept.any (·.1 == e.1) = false ∧ entries.find? (·.1 == e.1) = some e := by
  induction entries generalizing kept with
  | nil => simp
  | cons a entries ih =>
    rw [List.foldl_cons, ih, List.find?_cons]
    cases hkey : a.1 == e.1 with
    | false => cases hkept : kept.any (·.1 == a.1) <;> grind
    | true =>
      rw [beq_iff_eq] at hkey
      cases hkept : kept.any (·.1 == e.1) <;> grind

/-- An entry is kept if no other one comes first under its key. -/
theorem mem_firstOfKey_iff {α : Type} {entries : List (String × α)} {e : String × α} :
    e ∈ firstOfKey entries ↔ entries.find? (·.1 == e.1) = some e := by
  rw [firstOfKey, mem_foldl_firstOfKey]
  simp

/-- Where each declared name of a file is written. -/
def spanTable (u : CompilationUnit Node) : List (String × Span) :=
  firstOfKey (u.declarations.flatMap Declared.names)

end CSharpAudit
