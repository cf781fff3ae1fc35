import CSharpAudit.Grammar.Declaration
import CSharpAudit.Token.Lexer

/-!
# The grammar of files

A file holds `using` directives, attributes, namespaces and type declarations. The productions of
the grammar refer to each other; `Grammar.rules` closes the circle level by level, one level for
each token of the file.

## Main definitions

* `Grammar.namespaceDecl` — a namespace
* `Grammar.unit` — a file
* `Grammar.rules` — the productions, nested to a given depth
* `parse` — the syntax tree of a source text

## Main results

* `exists_parse_of_map` — a text is parsed if something is known of its tree
-/

namespace CSharpAudit.Grammar

/-- Whether a `using` directive stands at the current place. -/
def atUsingDirective : Parser Bool := do
  return ((← isWord "global") && (← peekIs 1 "using")) || ((← is "using") && !(← peekIs 1 "("))

variable (self : Rules)

/-- The alias that a `using` directive introduces, or empty, and the name it stands for. -/
def usingTarget : Parser (String × String) := do
  if (← isIdent) && (← peekIs 1 "=") then
    let aliasName := (← advance).text
    discard advance
    return (aliasName, (← type self).text)
  else return ("", ← qualifiedName)

def usingDirective : Parser UsingDirective := do
  let start ← offset
  let isGlobal ← acceptWord "global"
  discard <| expect "using"
  let isStatic ← accept "static"
  let (aliasName, name) ← usingTarget self
  discard <| expect ";"
  return { span := ← spanFrom start, name, aliasName, isStatic, isGlobal }

/-! ### Namespaces -/

/-- The directives and members of a namespace, in the order of the text but apart. -/
structure Contents where
  usings : List UsingDirective := []
  members : List Node := []

/-- One entry of a namespace. -/
inductive Entry where
  | directive (d : UsingDirective)
  | member (n : Node)

/-- The entries of a namespace, sorted into directives and members. -/
def Contents.ofEntries (entries : List Entry) : Contents where
  usings := entries.filterMap fun | .directive d => some d | .member _ => none
  members := entries.filterMap fun | .directive _ => none | .member n => some n

/-- An entry of the namespace with the given name. -/
def namespaceEntry (name : String) : Parser Entry := do
  if ← atUsingDirective then return .directive (← usingDirective self)
  else if ← is "namespace" then
    let inner ← self.namespaceDecl
    if inner.fileScoped then fail (.nestedFileScope name)
    return .member (.namespaceDecl inner)
  else return .member (← typeLevelDecl self)

/-- A namespace. With a semicolon behind its name it is the file-scoped one, which has no members
yet. -/
def namespaceDecl : Parser (NamespaceDecl Node) := do
  let start ← offset
  discard <| expect "namespace"
  let nameStart ← offset
  let name ← qualifiedName
  let nameSpan ← spanFrom nameStart
  if ← accept ";" then return { span := ← spanFrom start, name, nameSpan, fileScoped := true }
  discard <| expect openBrace
  let entries ← repeatWhile (isNot closeBrace)
    (unlessEnd (.unterminatedNamespace name) (namespaceEntry self name))
  discard <| expect closeBrace
  discard <| accept ";"
  let contents := Contents.ofEntries entries
  return { span := ← spanFrom start, name, nameSpan, usings := contents.usings,
           members := contents.members }

/-! ### Files -/

/-- Whether an attribute of the assembly or the module stands at the current place. -/
def atGlobalAttribute : Parser Bool := do
  let t ← peek 1
  return (← is "[") && (t.text == "assembly" || t.text == "module") && (← peekIs 2 ":")

/-- A namespace that gathers a declaration behind it, to whose end it then reaches. -/
def gather (ns : NamespaceDecl Node) (decl : Node) : NamespaceDecl Node :=
  { ns with members := ns.members ++ [decl], span := ⟨ns.span.start, decl.span.stop⟩ }

/-- Adds a declaration to a file: to the file-scoped namespace, or to the file itself. -/
def addMember (u : CompilationUnit Node) (decl : Node) : CompilationUnit Node :=
  match u.fileScopedNamespace with
  | some ns => { u with fileScopedNamespace := some (gather ns decl) }
  | none => { u with members := u.members ++ [decl] }

/-- Extends a file by the entry at the current place, if the end is not reached. -/
def unitStep (u : CompilationUnit Node) : Parser (Option (CompilationUnit Node)) := do
  if ← atEnd then return none
  else if (← is "extern") && (← peek 1).text == "alias" then
    discard <| repeatWhile (do return !(← is ";") && !(← atEnd)) advance
    discard <| expect ";"
    return some u
  else if ← atUsingDirective then
    let d ← usingDirective self
    return some { u with usings := u.usings ++ [d] }
  else if ← atGlobalAttribute then
    let as ← attributes self
    return some { u with attributes := u.attributes ++ as }
  else if ← is "namespace" then
    let ns ← namespaceDecl self
    if ns.fileScoped then
      if u.fileScopedNamespace.isSome then fail .repeatedFileScope
      return some { u with fileScopedNamespace := some ns }
    else return some { u with members := u.members ++ [.namespaceDecl ns] }
  else
    let decl ← typeLevelDecl self
    return some (addMember u decl)

/-- A file. -/
def unit : Parser (CompilationUnit Node) := do
  extend (unitStep self) { span := ⟨0, (← read).source.length⟩ }

/-! ### Closing the circle -/

/-- Productions that stop at once. -/
def Rules.stop : Rules where
  type := fail .tooDeep
  expr := fail .tooDeep
  unary := fail .tooDeep
  binary _ := fail .tooDeep
  pattern := fail .tooDeep
  primaryPattern := fail .tooDeep
  initializer := fail .tooDeep
  block := fail .tooDeep
  statement := fail .tooDeep
  member := fail .tooDeep
  namespaceDecl := fail .tooDeep

/-- Productions whose nested constructs are read by `self`. -/
def Rules.deepen (self : Rules) : Rules where
  type := Grammar.type self
  expr := Grammar.expr self
  unary := Grammar.unary self
  binary := Grammar.binary self
  pattern := Grammar.pattern self
  primaryPattern := Grammar.primaryPattern self
  initializer := Grammar.initializer self
  block := Grammar.block self
  statement := Grammar.statement self
  member := Grammar.member self
  namespaceDecl := Grammar.namespaceDecl self

/-- The productions, nested to the given depth. -/
def rules (depth : Nat) : Rules := Nat.repeat Rules.deepen depth Rules.stop

/-- The file that a token list writes. -/
def unitOfTokens (source : List UInt8) (tokens : List Token) (eof : Token) :
    Except SyntaxError (CompilationUnit Node) :=
  (unit (rules (tokens.length + 1)) { source, eof } { rest := tokens }).map (·.1)

end CSharpAudit.Grammar

namespace CSharpAudit

/-- The syntax tree of a source text. -/
def parse (source : List UInt8) : Except SyntaxError (CompilationUnit Node) := do
  let (tokens, nullable) ← lex source
  let u ← Grammar.unitOfTokens source tokens.dropLast (tokens.getLast?.getD default)
  return { u with nullableEnabled := nullable }

/-- A text of which something is computed is parsed. -/
theorem exists_parse_of_map {α : Type} {source : List UInt8} {f : CompilationUnit Node → α} {a : α}
    (h : (parse source).toOption.map f = some a) : ∃ u, parse source = .ok u ∧ f u = a := by
  cases hparse : parse source with
  | error e =>
    rw [hparse] at h
    cases h
  | ok u =>
    rw [hparse] at h
    exact ⟨u, rfl, Option.some.inj h⟩

/-- A test that passes on what a text is parsed to passes on some file. -/
theorem exists_parse_of_any {source : List UInt8} {test : CompilationUnit Node → Bool}
    (h : (parse source).toOption.any test = true) : ∃ u, parse source = .ok u ∧ test u = true := by
  rw [Option.any_eq_true] at h
  obtain ⟨u, hu, htest⟩ := h
  exact exists_parse_of_map (f := test) ((congrArg _ hu).trans (congrArg some htest))

end CSharpAudit
