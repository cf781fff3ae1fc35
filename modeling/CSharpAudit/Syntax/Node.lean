import CSharpAudit.Syntax.Modifier
import CSharpAudit.Syntax.TypeRef

/-!
# Syntax trees

One inductive type holds every node of a parsed file. Constructs with many named parts are
structures over the node type `ν`, and `Node` closes the recursion, so the parts of a declaration
are read by field name while every traversal works on a single type.

## Main definitions

* `Param`, `Argument`, `Attribute`, `VarDeclarator` — parts shared by several constructs
* `TypeDecl`, `Method`, `Constructor`, `Property`, `Field`, `Event`, `Delegate` — declarations
* `CompilationUnit` — the root of one file
* `Node` — any of these, any statement or any expression
* `Node.span` — the text a node covers
-/

namespace CSharpAudit

/-- A `using` directive, with an alias when it has the form `using A = N;`. -/
structure UsingDirective where
  span : Span
  name : String
  /-- The name that the directive introduces, or empty. -/
  aliasName : String := ""
  isStatic : Bool := false
  isGlobal : Bool := false
  deriving Repr, Inhabited

/-- A type parameter; `variance` is `in`, `out` or empty. -/
structure TypeParam where
  span : Span
  name : String
  variance : String := ""
  deriving Repr, Inhabited

/-- One clause `where T : …`. -/
structure Constraint where
  span : Span
  param : String
  types : List TypeRef := []
  deriving Repr, Inhabited

/-- The flavours of a type declaration. -/
inductive TypeKind where
  | classType | struct | interface | enum | record | recordStruct
  deriving DecidableEq, Repr, Inhabited

/-- The word or words that write a kind of type. -/
def TypeKind.text : TypeKind → String
  | .classType => "class"
  | .struct => "struct"
  | .interface => "interface"
  | .enum => "enum"
  | .record => "record"
  | .recordStruct => "record struct"

/-- The classes of literals. -/
inductive LiteralKind where
  | int | real | string | char | bool | null
  deriving DecidableEq, Repr, Inhabited

/-- The word that names a class of literals. -/
def LiteralKind.text : LiteralKind → String
  | .int => "int"
  | .real => "real"
  | .string => "string"
  | .char => "char"
  | .bool => "bool"
  | .null => "null"

/-- The call of another constructor that precedes a constructor's body, without its arguments. -/
structure ChainedCall where
  span : Span
  /-- Whether the constructor called is one of the base type. -/
  toBase : Bool
  deriving Repr, Inhabited

section Parts

variable (ν : Type)

/-- An argument of a call, an index, an attribute or a tuple. -/
structure Argument where
  span : Span
  name : String := ""
  modifier : String := ""
  value : ν
  deriving Inhabited

/-- One attribute of an attribute list; `target` is the word before the colon, if any. -/
structure Attribute where
  span : Span
  target : String := ""
  name : String
  args : List (Argument ν) := []
  deriving Inhabited

/-- A parameter; the type is absent for an untyped lambda parameter. -/
structure Param where
  span : Span
  name : String
  nameSpan : Span
  type : Option TypeRef := none
  modifier : String := ""
  default : Option ν := none
  attributes : List (Attribute ν) := []
  deriving Inhabited

/-- One declared variable with its initial value. -/
structure VarDeclarator where
  span : Span
  name : String
  nameSpan : Span
  init : Option ν := none
  deriving Inhabited

/-- A method, an operator, a conversion, a destructor or a local function. -/
structure Method where
  span : Span
  name : String
  nameSpan : Span
  modifiers : Modifiers := .empty
  attributes : List (Attribute ν) := []
  returnType : TypeRef
  typeParams : List TypeParam := []
  constraints : List Constraint := []
  params : List (Param ν) := []
  body : Option ν := none
  exprBody : Option ν := none
  doc : String := ""
  /-- The interface named before the dot of an explicit implementation. -/
  explicitInterface : String := ""
  isOperator : Bool := false
  isDestructor : Bool := false
  deriving Inhabited

structure Constructor where
  span : Span
  name : String
  nameSpan : Span
  modifiers : Modifiers := .empty
  attributes : List (Attribute ν) := []
  params : List (Param ν) := []
  chained : Option ChainedCall := none
  chainedArgs : List (Argument ν) := []
  body : Option ν := none
  exprBody : Option ν := none
  doc : String := ""
  deriving Inhabited

/-- A property or an indexer. -/
structure Property where
  span : Span
  name : String
  nameSpan : Span
  type : TypeRef
  modifiers : Modifiers := .empty
  attributes : List (Attribute ν) := []
  indexParams : List (Param ν) := []
  accessors : List ν := []
  exprBody : Option ν := none
  initializer : Option ν := none
  doc : String := ""
  deriving Inhabited

structure Field where
  span : Span
  type : TypeRef
  modifiers : Modifiers := .empty
  attributes : List (Attribute ν) := []
  vars : List (VarDeclarator ν) := []
  doc : String := ""
  deriving Inhabited

structure Event where
  span : Span
  name : String
  nameSpan : Span
  type : TypeRef
  modifiers : Modifiers := .empty
  attributes : List (Attribute ν) := []
  accessors : List ν := []
  deriving Inhabited

structure Delegate where
  span : Span
  name : String
  nameSpan : Span
  modifiers : Modifiers := .empty
  attributes : List (Attribute ν) := []
  returnType : TypeRef
  typeParams : List TypeParam := []
  params : List (Param ν) := []
  doc : String := ""
  deriving Inhabited

/-- A class, struct, interface, enum or record. -/
structure TypeDecl where
  span : Span
  kind : TypeKind
  name : String
  nameSpan : Span
  modifiers : Modifiers := .empty
  attributes : List (Attribute ν) := []
  typeParams : List TypeParam := []
  constraints : List Constraint := []
  primaryParams : List (Param ν) := []
  baseTypes : List TypeRef := []
  members : List ν := []
  enumMembers : List ν := []
  doc : String := ""
  deriving Inhabited

structure NamespaceDecl where
  span : Span
  name : String
  nameSpan : Span
  usings : List UsingDirective := []
  members : List ν := []
  fileScoped : Bool := false
  deriving Inhabited

/-- The root of one file. The declarations behind `namespace N;` are members of the file-scoped
namespace, all others are members of the unit. -/
structure CompilationUnit where
  span : Span
  usings : List UsingDirective := []
  fileScopedNamespace : Option (NamespaceDecl ν) := none
  members : List ν := []
  attributes : List (Attribute ν) := []
  /-- Whether a `#nullable enable` directive stands anywhere in the file. -/
  nullableEnabled : Bool := false
  deriving Inhabited

end Parts

/-- A node of a syntax tree. -/
inductive Node where
  | unit (d : CompilationUnit Node)
  | usingDirective (d : UsingDirective)
  | namespaceDecl (d : NamespaceDecl Node)
  | attribute (a : Attribute Node)
  | typeParam (p : TypeParam)
  | constraint (c : Constraint)
  | typeDecl (d : TypeDecl Node)
  | enumMember (span : Span) (name : String) (attributes : List (Attribute Node))
      (value : Option Node)
  | delegate (d : Delegate Node)
  | method (d : Method Node)
  | constructor (d : Constructor Node)
  | accessor (span : Span) (kind : String) (modifiers : Modifiers) (body exprBody : Option Node)
  | property (d : Property Node)
  | varDeclarator (d : VarDeclarator Node)
  | field (d : Field Node)
  | event (d : Event Node)
  | type (t : TypeRef)
  | param (p : Param Node)
  -- statements
  | block (span : Span) (stmts : List Node)
  | emptyStmt (span : Span)
  | exprStmt (span : Span) (x : Node)
  | localDecl (span : Span) (type : Option TypeRef) (isConst isRef : Bool)
      (vars : List (VarDeclarator Node))
  | localFunc (span : Span) (f : Method Node)
  | ifStmt (span : Span) (cond thenBranch : Node) (elseBranch : Option Node)
  | forStmt (span : Span) (init : List Node) (cond : Option Node) (post : List Node) (body : Node)
  | foreachStmt (span : Span) (type : Option TypeRef) (varName : String) (varSpan : Span)
      (collection body : Node) (isAwait : Bool)
  | whileStmt (span : Span) (cond body : Node)
  | doStmt (span : Span) (body cond : Node)
  | caseLabel (span : Span) (value : Option Node) (patternType : Option TypeRef)
      (patternVar : String) (guard : Option Node)
  | switchSection (span : Span) (labels stmts : List Node)
  | switchStmt (span : Span) (tag : Node) (sections : List Node)
  | usingStmt (span : Span) (decl resource body : Option Node) (isAwait : Bool)
  | catchClause (span : Span) (type : Option TypeRef) (varName : String) (filter : Option Node)
      (body : Node)
  | tryStmt (span : Span) (body : Node) (catches : List Node) (finallyBlock : Option Node)
  | returnStmt (span : Span) (result : Option Node)
  | breakStmt (span : Span)
  | continueStmt (span : Span)
  | throwStmt (span : Span) (x : Option Node)
  | lockStmt (span : Span) (x body : Node)
  | yieldStmt (span : Span) (isBreak : Bool) (x : Option Node)
  | gotoStmt (span : Span) (label : String)
  | labeledStmt (span : Span) (label : String) (stmt : Node)
  | checkedStmt (span : Span) (keyword : String) (body : Node)
  -- expressions
  | ident (span : Span) (name : String) (typeArgs : List TypeRef)
  | literal (span : Span) (kind : LiteralKind) (value : String)
  | thisExpr (span : Span)
  | baseExpr (span : Span)
  | predefinedType (span : Span) (name : String)
  | memberAccess (span : Span) (x : Node) (name : String) (typeArgs : List TypeRef)
      (nullCond : Bool)
  | argument (a : Argument Node)
  | invocation (span : Span) (callee : Node) (args : List (Argument Node))
  | elementAccess (span : Span) (x : Node) (args : List (Argument Node)) (nullCond : Bool)
  | unary (span : Span) (op : String) (x : Node) (isPostfix : Bool)
  | binary (span : Span) (op : String) (x y : Node)
  | assign (span : Span) (op : String) (lhs rhs : Node)
  | conditional (span : Span) (cond thenValue elseValue : Node)
  | newExpr (span : Span) (type : Option TypeRef) (args : List (Argument Node))
      (init arraySize : List Node)
  | lambda (span : Span) (params : List (Param Node)) (body : Node) (isAsync : Bool)
  | cast (span : Span) (type : TypeRef) (x : Node)
  | isExpr (span : Span) (x : Node) (type : Option TypeRef) (pattern : Option Node)
      (varName : String) (negated : Bool)
  | asExpr (span : Span) (x : Node) (type : TypeRef)
  | typeOf (span : Span) (keyword : String) (type : TypeRef)
  | defaultExpr (span : Span)
  | paren (span : Span) (x : Node)
  | initializer (span : Span) (elems : List Node)
  | await (span : Span) (x : Node)
  | throwExpr (span : Span) (x : Node)
  | tuple (span : Span) (elems : List (Argument Node))
  | declExpr (span : Span) (type : Option TypeRef) (name : String)
  | switchExpr (span : Span) (x : Node) (arms : List Node)
  | switchArm (span : Span) (pattern : Node) (guard : Option Node) (value : Node)

instance : Inhabited Node := ⟨.emptyStmt Span.none⟩

namespace Node

/-- The text that a node covers. -/
def span : Node → Span
  | unit d => d.span
  | usingDirective d => d.span
  | namespaceDecl d => d.span
  | .attribute a => a.span
  | typeParam p => p.span
  | .constraint c => c.span
  | typeDecl d => d.span
  | delegate d => d.span
  | method d => d.span
  | constructor d => d.span
  | property d => d.span
  | varDeclarator d => d.span
  | field d => d.span
  | event d => d.span
  | type t => t.span
  | param p => p.span
  | argument a => a.span
  | enumMember s _ _ _ | accessor s _ _ _ _ | block s _ | emptyStmt s | exprStmt s _
  | localDecl s _ _ _ _ | localFunc s _ | ifStmt s _ _ _ | forStmt s _ _ _ _
  | foreachStmt s _ _ _ _ _ _ | whileStmt s _ _ | doStmt s _ _ | caseLabel s _ _ _ _
  | switchSection s _ _ | switchStmt s _ _ | usingStmt s _ _ _ _ | catchClause s _ _ _ _
  | tryStmt s _ _ _ | returnStmt s _ | breakStmt s | continueStmt s | throwStmt s _
  | lockStmt s _ _ | yieldStmt s _ _ | gotoStmt s _ | labeledStmt s _ _ | checkedStmt s _ _
  | ident s _ _ | literal s _ _ | thisExpr s | baseExpr s | predefinedType s _
  | memberAccess s _ _ _ _ | invocation s _ _ | elementAccess s _ _ _ | unary s _ _ _
  | binary s _ _ _ | assign s _ _ _ | conditional s _ _ _ | newExpr s _ _ _ _ | lambda s _ _ _
  | cast s _ _ | isExpr s _ _ _ _ _ | asExpr s _ _ | typeOf s _ _ | defaultExpr s | paren s _
  | initializer s _ | await s _ | throwExpr s _ | tuple s _ | declExpr s _ _ | switchExpr s _ _
  | switchArm s _ _ _ => s

end Node

end CSharpAudit
