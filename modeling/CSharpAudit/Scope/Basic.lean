import CSharpAudit.Syntax.Member
import CSharpAudit.Syntax.Walk

/-!
# Names inside members

A scope lists the parameters and local names of one member. Scopes are found by a key, which is the
full name of the member with a number behind it for overloads.

The scope of a member holds its parameters and, in the order of a walk over its bodies, every name
that a statement, pattern or nested function introduces. A use of a name counts for the local of
that name declared last before it.

## Main definitions

* `LocalKind`, `Local` — a name introduced inside a member
* `Scope` — the names of one member
* `LocalScopes` — the scopes of a file
* `Scope.declare`, `Scope.use` — a name is introduced or used
* `localScopes` — the scopes of the members of a file
-/

namespace CSharpAudit

/-! ### Scopes -/

/-- How a local name is introduced. A word is kept as it is, known ones have constants. -/
structure LocalKind where
  word : String
  deriving DecidableEq, Repr, Inhabited

namespace LocalKind

def parameter : LocalKind := ⟨"parameter"⟩
def localVariable : LocalKind := ⟨"local"⟩
def usingResource : LocalKind := ⟨"using"⟩
def foreachVariable : LocalKind := ⟨"foreach"⟩
def catchVariable : LocalKind := ⟨"catch"⟩
def pattern : LocalKind := ⟨"pattern"⟩
def outVariable : LocalKind := ⟨"out"⟩
def function : LocalKind := ⟨"function"⟩

end LocalKind

/-- A name introduced inside a member. -/
structure Local where
  name : String
  kind : LocalKind
  /-- The written type, missing for an implicitly typed local. -/
  type : Option TypeRef := none
  span : Span := Span.none
  uses : Nat := 0
  isConst : Bool := false
  deriving Inhabited

/-- The names of one member. -/
structure Scope where
  key : String
  /-- The declaration of the member, with its address. -/
  decl : Option (Address × Node) := none
  locals : List Local := []
  deriving Inhabited

/-- The local with a name that was declared last. -/
def Scope.lookup (s : Scope) (name : String) : Option Local :=
  s.locals.reverse.find? (·.name == name)

/-- The scopes of a file, in source order. -/
structure LocalScopes where
  scopes : List Scope := []
  deriving Inhabited

namespace LocalScopes

/-- The keys, in the order in which their scopes were added. -/
def keys (l : LocalScopes) : List String := l.scopes.map (·.key)

/-- The scope with a key. -/
def get? (l : LocalScopes) (key : String) : Option Scope := l.scopes.find? (·.key == key)

/-- Changes the scope with a key, which is added if it is missing. -/
def modify (l : LocalScopes) (key : String) (f : Scope → Scope) : LocalScopes :=
  if l.scopes.any (·.key == key) then
    ⟨l.scopes.map fun s => if s.key == key then f s else s⟩
  else ⟨l.scopes ++ [f { key }]⟩

end LocalScopes

/-! ### Collecting local names -/

/-- Whether a name conventionally marks something unused: it is empty or made of underscores. -/
def isDiscard (name : String) : Bool := name.toList.all (· == '_')

namespace Scope

/-- Adds a local, unless its name marks it as unused. -/
def declare (s : Scope) (l : Local) : Scope :=
  if isDiscard l.name then s else { s with locals := s.locals ++ [l] }

/-- Adds parameters. -/
def declareParams (s : Scope) (ps : List (Param Node)) : Scope :=
  ps.foldl (fun s p => s.declare
    { name := p.name, kind := .parameter, type := p.type, span := p.nameSpan }) s

/-- Counts a use for the local with a name declared last. -/
def use (s : Scope) (name : String) : Scope :=
  { s with locals := (count s.locals.reverse).reverse }
where
  /-- Counts a use for the first local with the name. -/
  count : List Local → List Local
    | [] => []
    | l :: ls => if l.name == name then { l with uses := l.uses + 1 } :: ls else l :: count ls

/-- What a node met on the walk over a body does to the scope. The value handed down tells whether
the first child is the declaration of a `using` statement. -/
def visit (s : Scope) (v : Visit Bool) : Scope :=
  match v.node with
  | .localDecl _ type isConst _ vars =>
    let kind := if v.inherited && v.address.head? == some 0 then LocalKind.usingResource
      else .localVariable
    vars.foldl (fun s d => s.declare
      { name := d.name, kind, type, span := d.nameSpan, isConst }) s
  | .foreachStmt _ type name span _ _ _ =>
    s.declare { kind := .foreachVariable, name, type, span }
  | .catchClause span type name _ _ => s.declare { kind := .catchVariable, name, type, span }
  | .isExpr span _ type _ name _ => s.declare { kind := .pattern, name, type, span }
  | .caseLabel span _ type name _ => s.declare { kind := .pattern, name, type, span }
  | .declExpr span type name => s.declare { kind := .outVariable, name, type, span }
  | .localFunc _ f =>
    let named : Local :=
      { name := f.name, kind := .function, type := some f.returnType, span := f.nameSpan }
    (s.declare named).declareParams f.params
  | .lambda _ params _ _ => s.declareParams params
  | .ident _ name _ => s.use name
  | _ => s

/-- Whether a node is a `using` statement with a declaration. -/
def opensResource : Node → Bool
  | .usingStmt _ decl _ _ _ => decl.isSome
  | _ => false

/-- Adds the names of a body. -/
def collect (s : Scope) (body : Node) : Scope :=
  (body.visits (fun v => some (opensResource v.node)) false).foldl visit s

/-- Adds the parameters and names of a declaration, to which the scope belongs from then on. -/
def collectDecl (s : Scope) (d : Declared) : Scope :=
  let s := { s with decl := some (d.address, d.node) }
  d.node.bodies.foldl collect (s.declareParams d.node.params)

end Scope

namespace LocalScopes

/-- The first of the keys `name#i`, `name#(i+1)`, … that is free; of `tries` keys one is. -/
def freeSuffix (l : LocalScopes) (name : String) (i : Nat) : Nat → String
  | 0 => name ++ "#" ++ toString i
  | tries + 1 =>
    let key := name ++ "#" ++ toString i
    if (l.get? key).isSome then l.freeSuffix name (i + 1) tries else key

/-- The key for one more member of a name: the name itself, or with a number from 2 on. -/
def freeKey (l : LocalScopes) (name : String) : String :=
  if (l.get? name).isSome then l.freeSuffix name 2 l.scopes.length else name

/-- Collects the names of a declaration that has parameters or bodies, under a key of its own. -/
def addMember (l : LocalScopes) (d : Declared) : LocalScopes :=
  if d.node.bodies.isEmpty && d.node.params.isEmpty then l
  else l.modify (l.freeKey (d.path.declName d.node)) (·.collectDecl d)

end LocalScopes

/-- The scopes of the members of a file, in source order. -/
def localScopes (u : CompilationUnit Node) : LocalScopes :=
  u.declarations.foldl LocalScopes.addMember {}

end CSharpAudit
