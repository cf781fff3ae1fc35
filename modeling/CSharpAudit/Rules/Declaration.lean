import CSharpAudit.Number.Basic
import CSharpAudit.Pipeline.Session
import CSharpAudit.Rules.Naming
import CSharpAudit.Syntax.Member

/-!
# Rules on single declarations

Each of these rules reads a declaration and the type around it. The type parameters of a declaration
have different names, and no constraint is a type that cannot be inherited from.

## Main definitions

* `Rules.constructors`, `Rules.methodModifiers`, `Rules.parameters`, `Rules.methodLength`,
  `Rules.documentation`
* `Rules.declaration` — all of them
* `Rules.typeParameters` — repeated type parameters
* `Rules.constraints` — constraints that nothing satisfies
* `Rules.generics` — both, for a file
-/

namespace CSharpAudit

/-- Whether a method has a block or an expression as its body. -/
def Method.hasBody (m : Method Node) : Bool := m.body.isSome || m.exprBody.isSome

namespace Rules

/-- Names and modifiers of constructors. -/
def constructors : Rule := .stateless "constructors" fun s c =>
  match c.node, c.owner with
  | .constructor d, some owner =>
    if owner.kind == .interface then
      [s.finding .interfaceConstructor d.nameSpan
        s!"Interface '{owner.name}' cannot declare a constructor"]
    else
      let has := d.modifiers.has
      let found (wrong : Bool) (code : Code) (message : String := "") :=
        if wrong then [s.finding code d.nameSpan message] else []
      found (d.name != owner.name) .constructorName
          s!"Constructor '{d.name}' does not match the containing type name '{owner.name}'"
        ++ found (has .virtualMember || has .abstractMember) .constructorVirtual
        ++ found (has .overrideMember) .constructorOverride
        ++ found (has .async) .asyncConstructor
  | _, _ => []

/-- Whether modifiers mark an interface member as one with an implementation. -/
def marksImplementation (ms : Modifiers) : Bool :=
  [Modifier.staticMember, .virtualMember, .privateAccess, .sealedMember].any ms.has

/-- Whether an asynchronous method may return a type. -/
def isAsyncResult (t : TypeRef) : Bool :=
  ["void", "Task", "ValueTask", "IAsyncEnumerable", "IAsyncEnumerator"].contains t.simpleName
    && t.rank == 0

/-- Bodies of methods against their modifiers, and modifiers against each other. -/
def methodModifiers : Rule := .stateless "method_modifiers" fun s c =>
  match c.node, c.owner with
  | .method m, some owner =>
    if !isOwnMember c then []
    else
      let has := m.modifiers.has
      let found (wrong : Bool) (code : Code) (message : String := "") :=
        if wrong then [s.finding code m.nameSpan message] else []
      let result := m.returnType.text
      let body :=
        if owner.kind == .interface then
          found (m.hasBody && !marksImplementation m.modifiers) .interfaceMethodBody
            s!"Interface method '{m.name}' cannot have a body"
        else if has .abstractMember then
          found m.hasBody .abstractWithBody s!"Abstract method '{m.name}' cannot have a body"
        else
          found (!m.hasBody && !has .externalBody && !has .partialDecl) .missingBody
            s!"Method '{m.name}' must declare a body"
      body
        ++ found (has .virtualMember && owner.modifiers.has .sealedMember) .virtualInSealed
          s!"Virtual method '{m.name}' cannot be declared in sealed class '{owner.name}'"
        ++ found (has .staticMember && has .virtualMember && owner.kind != .interface)
          .virtualStatic
        ++ found (has .staticMember && has .overrideMember) .staticOverride
        ++ found (has .async && !isAsyncResult m.returnType) .asyncReturnType
          s!"Async method '{m.name}' returns '{result}'; expected void, Task or Task<T>"
  | _, _ => []

/-- The elements whose key occurs before them. -/
def repeated {α : Type} (key : α → String) (seen : List String) : List α → List α
  | [] => []
  | x :: xs =>
    if seen.contains (key x) then x :: repeated key seen xs
    else repeated key (key x :: seen) xs

/-- Repeated names of parameters, and too many parameters. -/
def parameters : Rule := .stateless "parameters" fun s c =>
  let params := c.node.params
  let named := params.filter fun p => !isDiscard p.name
  let duplicates := (repeated (·.name) [] named).map fun p =>
    s.finding .duplicateParameter p.nameSpan s!"Parameter name '{p.name}' is used more than once"
  let limit := s.settings.maxParams
  let tooMany := match c.node with
    | .lambda .. => false
    | _ => limit > 0 && params.length > limit
  let name := c.node.declaredName
  duplicates ++ if tooMany then
      [{ s.finding .tooManyParams c.node.nameSpan
          s!"'{name}' has {params.length} parameters (maximum {limit})" with
        suggestion := "Group related parameters into a parameter object or record" }]
    else []

/-- The number of lines on which statements of a body start. -/
def statementLines (d : Document) (body : Node) : Nat :=
  let counted (n : Node) : Bool := match n with
    | .block .. => false
    | n => n.isStatement
  let starts := (body.nodes.filter counted).map (·.span.start)
  let starts := if body.isExpression then body.span.start :: starts else starts
  (d.linesOf starts).eraseDups.length

/-- What to do about a long method. -/
def lengthAdvice (lines : Nat) (limit : Int) : String :=
  "Extract logical blocks into separate methods, keep each method to a single responsibility "
    ++ "and use early returns to flatten conditional logic."
    ++ if lines ≥ 4 * limit then
        s!" This {lines}-line method is extremely difficult to maintain: add tests, "
          ++ "then split it into several types or methods before adding features."
      else if lines ≥ 2 * limit then
        s!" This {lines}-line method significantly exceeds the limit: identify its "
          ++ "main sections and extract each into a well-named method."
      else " Target two or three smaller methods."

/-- Members whose bodies are too long. -/
def methodLength : Rule := .stateless "method_length" fun s c =>
  let limit := s.settings.maxMethodLines
  let bodies := c.node.bodies
  if !isOwnMember c || bodies.isEmpty || limit ≤ 0 then []
  else
    let lines := totalOf (statementLines s.document) bodies
    if lines ≤ limit then []
    else
      let total := s.document.linesBetween c.node.span.start c.node.span.stop
      let name := c.node.declaredName
      [{ s.finding .methodTooLong c.node.nameSpan
          s!"'{name}' is too long ({lines} lines of code, {total} total lines)" with
        symbol := c.member
        suggestion := lengthAdvice lines limit }]

/-- Public types and members without documentation, if the settings ask for it. The members of an
interface are left alone. -/
def documentation : Rule := .stateless "documentation" fun s c =>
  let doc? : Option (String × Bool) := match c.node with
    | .typeDecl d => some (d.doc, false)
    | .method d => if isOwnMember c then some (d.doc, true) else none
    | .property d => some (d.doc, true)
    | _ => none
  match doc? with
  | none => []
  | some (doc, isMember) =>
    let inInterface := isMember && (c.owner.map (·.kind)) == some .interface
    let name := c.node.declaredName
    if s.settings.reportMissingDocs && c.node.modifiers.has .publicAccess && doc.isEmpty
        && !inInterface then
      [s.finding .missingDocs c.node.nameSpan s!"Public '{name}' has no XML documentation"]
    else []

/-- The rules on single declarations. -/
def declaration : List Rule :=
  [constructors, methodModifiers, parameters, methodLength, documentation]

/-! ### Type parameters -/

/-- Type parameters with the name of an earlier one. -/
def typeParameters (s : Session) (params : List TypeParam) : List Diagnostic :=
  (repeated (·.name) [] params).map fun p =>
    s.finding .duplicateTypeParam p.span s!"Type parameter '{p.name}' is declared more than once"

/-- The words for a kind of type that cannot be inherited from. -/
def uninheritable? (s : Symbol) : Option String :=
  if s.kind == .structType || s.kind == .enumType then some s.kind.word
  else if s.kind == .classType && s.modifiers.has .sealedMember then some "sealed class"
  else none

/-- The children of a node that are types, with their addresses. -/
def typeChildren (address : Address) (n : Node) : List (Address × TypeRef) :=
  n.children.zipIdx.filterMap fun
    | (.type t, i) => some (i :: address, t)
    | _ => none

/-- The constraint clauses of a node, with their addresses. -/
def constraintChildren (address : Address) (n : Node) : List (Address × Constraint) :=
  n.children.zipIdx.filterMap fun
    | (.constraint c, i) => some (i :: address, c)
    | _ => none

/-- Constraints on one of some type parameters that are types which cannot be inherited from. -/
def constraints (s : Session) (bindings : BindingIndex) (index : SymbolIndex)
    (params : List TypeParam) (address : Address) (n : Node) : List Diagnostic :=
  let clauses := (constraintChildren address n).filter fun (_, c) =>
    params.any (·.name == c.param)
  clauses.flatMap fun (clause, c) => (typeChildren clause (.constraint c)).flatMap fun (place, t) =>
    match bindings.lookup place with
    | some { kind := .source, symbol, .. } =>
      ((index.symbol? symbol).bind uninheritable?).toList.map fun kind =>
        s.finding .constraintUnsatisfied t.span
          (s!"'{t.name}' is not a valid constraint for '{c.param}': "
            ++ s!"{kind} types cannot be inherited")
    | _ => []

/-- The type parameters that a node declares, if it can declare any. -/
def typeParams? : Node → Option (List TypeParam)
  | .typeDecl d => some d.typeParams
  | .method d => some d.typeParams
  | .delegate d => some d.typeParams
  | _ => none

/-- The type parameters and constraints of a file. Constraints are looked at when the types of the
file are known. -/
def generics (u : CompilationUnit Node) (s : Session) : List Diagnostic :=
  ((Node.unit u).visits (fun _ => some ()) ()).flatMap fun v =>
    match typeParams? v.node with
    | none => []
    | some params =>
      typeParameters s params ++
        match s.artifacts.bindings, s.artifacts.symbols with
        | some bindings, some index => constraints s bindings index params v.address v.node
        | _, _ => []

end Rules

end CSharpAudit
